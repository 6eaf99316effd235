import OrderDesk.Fault

/-!
# Storage slots

A contract keeps 256-bit words in numbered slots. A slot is named by its number or by the bytes of
that number.

* `Slot.offset_length`: a slot at an offset is named by 32 bytes.
-/

namespace OrderDesk

inductive Slot
  | number (value : Int)
  | bytes (value : Bytes)
deriving DecidableEq, Repr

namespace Slot

def toInt : Slot → Int
  | number value => value
  | bytes value => (Bytes.toNat value : Int)

def toBytes : Slot → Except Fault Bytes
  | number value =>
    match Bytes.ofInt? 32 value with
    | some word => .ok word
    | none => .error .tooWide
  | bytes value => .ok (value.padLeft 32)

/-- The slot `distance` slots further, counted in a circle of `2 ^ 256`. -/
def offset (slot : Slot) (distance : Int) : Bytes :=
  Bytes.ofNat 32 ((slot.toInt + distance) % 2 ^ 256).toNat

theorem offset_length (slot : Slot) (distance : Int) : (slot.offset distance).length = 32 :=
  Bytes.ofNat_length _ _

end Slot

/-! ## Fields of packed words -/

/-- `width` binary digits of a number, from digit `start` on. Negative numbers have ones without
end. -/
def bitField (word : Int) (start width : Nat) : Int := word / 2 ^ start % 2 ^ width

def signExtend24 (raw : Int) : Int :=
  let field := bitField raw 0 24
  if 2 ^ 23 ≤ field then field - 2 ^ 24 else field

def int24Bytes (value : Int) : Bytes := Bytes.ofNat 3 (bitField value 0 24).toNat

def low128 (word : Int) : Int := bitField word 0 128

end OrderDesk
