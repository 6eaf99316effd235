import OrderDesk.Abi
import OrderDesk.Pool.Basic

/-!
# The store of pool configurations

The configured pools are kept as the code of a contract: a zero byte, then one entry of 32 bytes a
pool with its key, its tick spacing and its fee.

* `ConfigStore.decode` reads such code; empty code is an empty store.
-/

namespace OrderDesk

structure ConfigEntry where
  partialKey : Bytes
  tickSpacing : Nat
  feeInE6 : Nat
  storeIndex : Nat
deriving DecidableEq, Repr

namespace ConfigStore

def entrySize : Nat := 32

def readEntry (storeIndex : Nat) (raw : Bytes) : ConfigEntry where
  partialKey := raw.take 27
  tickSpacing := Bytes.toNat ((raw.drop 27).take 2)
  feeInE6 := Bytes.toNat (raw.drop 29)
  storeIndex := storeIndex

def readEntries : (count start : Nat) → Bytes → List ConfigEntry
  | 0, _, _ => []
  | count + 1, start, body =>
    readEntry start (body.take entrySize) :: readEntries count (start + 1) (body.drop entrySize)

def decode : Bytes → Except Fault (List ConfigEntry)
  | [] => .ok []
  | head :: body =>
    if head = 0 ∧ body.length % entrySize = 0 then
      .ok (readEntries (body.length / entrySize) 0 body)
    else .error (.malformedStore (body.length + 1))

def writeEntry (entry : ConfigEntry) : Bytes :=
  entry.partialKey ++ Bytes.ofNat 2 entry.tickSpacing ++ Bytes.ofNat 3 entry.feeInE6

def encode (entries : List ConfigEntry) : Bytes := 0 :: entries.flatMap writeEntry

/-- The low 27 bytes of a digest make a key. -/
def keyOf (words : Bytes) : Bytes := (Keccak.hash words).drop 5

def partialKey (token0 token1 : Address) : Bytes :=
  keyOf (Abi.numberWord token0.val ++ Abi.numberWord token1.val)

def partialKeyWith (token0 token1 : Abi.Argument) : Except Fault Bytes := do
  return keyOf (← Abi.encodeArguments [.address, .address] [token0, token1])

/-- The entries by key; of entries with one key the last counts. -/
def byKey (entries : List ConfigEntry) : Table Bytes ConfigEntry :=
  Table.ofList (entries.map fun entry => (entry.partialKey, entry))

end ConfigStore

end OrderDesk
