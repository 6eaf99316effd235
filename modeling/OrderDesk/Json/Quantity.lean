import OrderDesk.Json.Basic

/-!
# Numbers of any kind

A number may be whole, a truth value, which counts as one or zero, or have a fraction. Numbers of all
kinds compare by what they are worth, which is exact.
-/

namespace OrderDesk

inductive Quantity
  | whole (value : Int)
  | truth (value : Bool)
  | real (value : Binary64)
deriving DecidableEq, Repr

inductive Worth
  | bottom
  | finite (mantissa exponent : Int)
  | top
deriving DecidableEq, Repr

namespace Worth

def compare : Worth → Worth → Ordering
  | bottom, bottom | top, top => .eq
  | bottom, _ | _, top => .lt
  | top, _ | _, bottom => .gt
  | finite mantissa exponent, finite mantissa' exponent' =>
    let low := min exponent exponent'
    Ord.compare (mantissa * 2 ^ (exponent - low).toNat) (mantissa' * 2 ^ (exponent' - low).toNat)

end Worth

namespace Quantity

def ofJson? : Json → Option Quantity
  | .int value => some (whole value)
  | .bool value => some (truth value)
  | .real value => some (real value)
  | _ => none

def worth? : Quantity → Option Worth
  | whole value => some (.finite value 0)
  | truth value => some (.finite (if value then 1 else 0) 0)
  | real (.finite negative mantissa exponent) =>
    some (.finite (if negative then -(mantissa : Int) else mantissa) exponent)
  | real (.infinite negative) => some (if negative then .bottom else .top)
  | real .undefined => none

/-- What is no number compares with nothing. -/
def compare? (first second : Quantity) : Option Ordering := do
  return (← first.worth?).compare (← second.worth?)

def less (first second : Quantity) : Bool := compare? first second = some .lt

def minus (quantity : Quantity) (value : Int) : Quantity :=
  match quantity with
  | whole size => .whole (size - value)
  | truth size => .whole ((if size then 1 else 0) - value)
  | real size => .real (size.minus value)

/-- The whole number up to a number; none for what is negative, infinite or no number. -/
def floor : Quantity → Nat
  | whole value => value.toNat
  | truth value => if value then 1 else 0
  | real value => (value.truncate?.getD 0).toNat

end Quantity

end OrderDesk
