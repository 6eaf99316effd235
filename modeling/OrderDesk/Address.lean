import OrderDesk.Keccak

/-!
# Account addresses

An address is a number below `2 ^ 160`. It is read from forty hexadecimal digits of any case, with
or without `0x`, and written with the letter case that carries its checksum.
-/

namespace OrderDesk

structure Address where
  val : Nat
  lt_two_pow : val < 2 ^ 160
deriving DecidableEq, Repr

namespace Address

theorem ext_val {a b : Address} (equal : a.val = b.val) : a = b := by
  cases a; cases b; simp_all

/-- The address that stands for "none given". -/
def zero : Address := ⟨0, by decide⟩

instance : Inhabited Address := ⟨zero⟩

def ofNat (value : Nat) : Address :=
  ⟨value % 2 ^ 160, Nat.mod_lt _ (by decide)⟩

def bytes (address : Address) : Bytes := Bytes.ofNat 20 address.val

/-- The address that a byte string of any length ends with. -/
def ofBytes (bytes : Bytes) : Address := ofNat (Bytes.toNat bytes)

/-! ## Text -/

def dropMark : List Char → List Char
  | '0' :: 'x' :: digits => digits
  | '0' :: 'X' :: digits => digits
  | digits => digits

/-- The address of a spelling: forty digits of any case after an optional `0x`. -/
def parse? (spelling : String) : Option Address :=
  let digits := dropMark spelling.toList
  if digits.length = 40 then (Hex.decode? digits).map ofBytes else none

def digits (address : Address) : List Char := Hex.encode address.bytes

def lower (address : Address) : String := "0x" ++ String.ofList address.digits

def raise (c : Char) : Char :=
  if 'a' ≤ c ∧ c ≤ 'f' then Char.ofNat (c.toNat - 32) else c

/-- A letter is raised where the digest of the lower-case digits has a digit of eight or more. -/
def checksummed (digits : List Char) : List Char :=
  let digest := Keccak.hash (Bytes.ofText (String.ofList digits))
  let marks := digest.flatMap fun byte => [byte.toNat / 16, byte.toNat % 16]
  List.zipWith (fun c mark => if 8 ≤ mark then raise c else c) digits marks

def text (address : Address) : String := "0x" ++ String.ofList (checksummed address.digits)

instance : ToString Address := ⟨text⟩

end Address

end OrderDesk
