import OrderDesk.Abi
import OrderDesk.Pool.Basic

/-!
# Answers of the tick reader

The reader returns a buffer of rows, how many of them are valid, and the liquidity at the current
tick. The buffer is found by offsets: one to the answer, and one from there to the rows.

* `TickResponse.decode` reads an answer.
* `TickResponse.valid` takes the rows that count.
* `TickMaps.ofRows` turns rows into the maps of a pool.
-/

namespace OrderDesk

structure TickResponse where
  rows : List TickRow
  validTo : Int
  liquidity : Int
deriving DecidableEq, Repr

namespace TickResponse

abbrev rowTypes : List Abi.WordType := [.bool, .int 24, .uint 128, .int 128]

def typeName : String := "((bool,int24,uint128,int128)[],uint256,uint256)"

def rowSize : Nat := 128

def decodeRow? (data : Bytes) : Option TickRow := do
  let (initialized, tick, liquidityGross, liquidityNet, _) ← Abi.decodeHead? rowTypes data
  return { initialized, tick, liquidityGross, liquidityNet }

def decodeRows? : (count : Nat) → Bytes → Option (List TickRow)
  | 0, _ => some []
  | count + 1, data => do
    let row ← decodeRow? data
    let rows ← decodeRows? count (data.drop rowSize)
    return row :: rows

/-- What lies at an offset that is behind the `head` bytes of its own part and within the data. -/
def follow? (offset : Int) (head : Nat) (data : Bytes) : Option Bytes :=
  if head ≤ offset ∧ offset < data.length then some (data.drop offset.toNat) else none

def decode? (data : Bytes) : Option TickResponse := do
  let (start, _) ← Abi.decodeHead? [.uint 256] data
  let part ← follow? start 32 data
  let (offset, validTo, liquidity, _) ← Abi.decodeHead? [.uint 256, .uint 256, .uint 256] part
  let buffer ← follow? offset 96 part
  let (count, _) ← Abi.decodeHead? [.uint 256] buffer
  let body := buffer.drop 32
  if count * rowSize ≤ body.length then
    let rows ← decodeRows? count.toNat body
    return { rows, validTo, liquidity }
  else none

def decode (data : Bytes) : Except Fault TickResponse :=
  match decode? data with
  | some response => .ok response
  | none => .error (.undecodable [typeName] data.length)

/-- The rows that count, with the liquidity. -/
def valid (response : TickResponse) : Except Fault (List TickRow × Int) :=
  if response.rows.length < response.validTo then
    .error (.validBeyondBuffer response.validTo.toNat response.rows.length)
  else .ok (response.rows.take response.validTo.toNat, response.liquidity)

end TickResponse

/-! ## Maps of a pool -/

structure TickMaps where
  ticks : TickChanges
  bitmap : Bitmap
deriving DecidableEq, Repr

namespace TickMaps

def enter (spacing : Int) (maps : TickMaps) (row : TickRow) : Except PriceFault TickMaps := do
  let bitmap ← Bitmap.mark spacing maps.bitmap row.tick
  return ⟨maps.ticks.set row.tick row.liquidityNet, bitmap⟩

/-- The maps of the initialized rows in the order of their ticks; of rows for one tick the last
counts. -/
def ofRows (rows : List TickRow) (spacing : Int) : Except PriceFault TickMaps :=
  let sorted := rows.mergeSort fun a b => decide (a.tick ≤ b.tick)
  (sorted.filter (·.initialized)).foldlM (enter spacing) ⟨[], []⟩

end TickMaps

end OrderDesk
