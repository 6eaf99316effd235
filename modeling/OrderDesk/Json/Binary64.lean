import OrderDesk.Power

/-!
# Numbers in double precision

The numbers of 53 binary digits, as exact values: a decimal number is rounded to the nearest of
them, ties to the even one, and a number is written with the fewest decimal digits that read back.
-/

namespace OrderDesk

/-- A double: a sign and `mantissa * 2 ^ exponent`, or one of the values that are no numbers. -/
inductive Binary64
  | finite (negative : Bool) (mantissa : Nat) (exponent : Int)
  | infinite (negative : Bool)
  | undefined
deriving DecidableEq, Repr

namespace Binary64

def minExponent : Int := -1074

/-- A numerator and a denominator multiplied by `2 ^ shift`. -/
def scale (shift : Int) (numerator denominator : Nat) : Nat × Nat :=
  if 0 ≤ shift then (numerator * 2 ^ shift.toNat, denominator)
  else (numerator, denominator * 2 ^ (-shift).toNat)

/-- The whole number nearest to a fraction; a half goes to the even one. -/
def nearestEven (numerator denominator : Nat) : Nat :=
  let quotient := numerator / denominator
  let twice := 2 * (numerator % denominator)
  if denominator < twice ∨ (twice = denominator ∧ quotient % 2 = 1) then quotient + 1 else quotient

def ofFraction (negative : Bool) (numerator denominator : Nat) : Binary64 :=
  let guess : Int := (Nat.log2 numerator : Int) - Nat.log2 denominator - 52
  let (top, bottom) := scale (-guess) numerator denominator
  -- The quotient of the fraction scaled by the guess has 53 binary digits, or 52.
  let exponent := max minExponent (if top / bottom < 2 ^ 52 then guess - 1 else guess)
  let (top, bottom) := scale (-exponent) numerator denominator
  let mantissa := nearestEven top bottom
  let (mantissa, exponent) :=
    if mantissa = 2 ^ 53 then (2 ^ 52, exponent + 1) else (mantissa, exponent)
  if 971 < exponent then .infinite negative else .finite negative mantissa exponent

def ofDecimal (negative : Bool) (digits : Nat) (exponent : Int) : Binary64 :=
  let magnitude : Int := exponent + (Nat.log2 digits : Int) * 30103 / 100000
  if digits = 0 ∨ magnitude < -400 then .finite negative 0 minExponent
  else if 400 < magnitude then .infinite negative
  else if 0 ≤ exponent then ofFraction negative (digits * 10 ^ exponent.toNat) 1
  else ofFraction negative digits (10 ^ (-exponent).toNat)

/-- The whole part of a finite number, towards zero. -/
def truncate? : Binary64 → Option Int
  | .finite negative mantissa exponent =>
    let size : Nat :=
      if 0 ≤ exponent then mantissa * 2 ^ exponent.toNat else mantissa / 2 ^ (-exponent).toNat
    some (if negative then -(size : Int) else size)
  | _ => none

def isZero : Binary64 → Bool
  | .finite _ mantissa _ => mantissa = 0
  | _ => false

def minus (number : Binary64) (value : Int) : Binary64 :=
  match number with
  | .finite negative mantissa exponent =>
    let signed : Int := if negative then -(mantissa : Int) else mantissa
    let bottom : Nat := 2 ^ (-exponent).toNat
    let top := signed * 2 ^ exponent.toNat - value * bottom
    if top = 0 then .finite false 0 minExponent else ofFraction (decide (top < 0)) top.natAbs bottom
  | other => other

/-! ## Shortest decimal text -/

def readsAs (mantissa : Nat) (exponent : Int) (digits : Nat) (power : Int) : Bool :=
  ofDecimal false digits power = .finite false mantissa exponent

/-- The digits of a positive double on the grid of `count` digits, with the power of ten of the
last: the nearer of the two neighbours that read back. -/
def digitsOfLength (mantissa : Nat) (exponent : Int) (magnitude : Int) (count : Nat) :
    Option (Nat × Int) :=
  let power := magnitude - count
  let (top, bottom) := scale exponent mantissa 1
  let (top, bottom) :=
    if 0 ≤ power then (top, bottom * 10 ^ power.toNat) else (top * 10 ^ (-power).toNat, bottom)
  let below := top / bottom
  let rest := 2 * (top % bottom)
  let nearerBelow := decide (rest < bottom) || (rest = bottom && below % 2 = 0)
  let candidates := if nearerBelow then [below, below + 1] else [below + 1, below]
  (candidates.find? fun digits => digits ≠ 0 && readsAs mantissa exponent digits power).map (·, power)

def dropZeros : (rounds : Nat) → Nat → Int → Nat × Int
  | 0, digits, power => (digits, power)
  | rounds + 1, digits, power =>
    if digits % 10 = 0 then dropZeros rounds (digits / 10) (power + 1) else (digits, power)

def shortest (mantissa : Nat) (exponent : Int) : Nat × Int :=
  let (top, bottom) := scale exponent mantissa 1
  -- The number of digits before the point, or a little more.
  let magnitude : Int := ((Nat.log2 top : Int) - Nat.log2 bottom) * 30103 / 100000 + 2
  match (List.range 20).findSome? fun count => digitsOfLength mantissa exponent magnitude count with
  | some (digits, power) => dropZeros 20 digits power
  | none => (mantissa, 0)

/-- Digits with a point: positional from `1e-4` up to `1e16`, with an exponent of two digits at
least elsewhere. -/
def layout (digits : Nat) (power : Int) : String :=
  let text := toString digits
  let count := text.length
  let point : Int := power + count
  if -4 < point ∧ point ≤ 16 then
    if point ≤ 0 then "0." ++ String.ofList (List.replicate (-point).toNat '0') ++ text
    else if (count : Int) ≤ point then
      text ++ String.ofList (List.replicate (point - count).toNat '0') ++ ".0"
    else
      String.ofList (text.toList.take point.toNat) ++ "." ++
        String.ofList (text.toList.drop point.toNat)
  else
    let first := String.ofList (text.toList.take 1)
    let rest := String.ofList (text.toList.drop 1)
    let ten := point - 1
    let size := toString ten.natAbs
    let size := if size.length < 2 then "0" ++ size else size
    first ++ (if rest.isEmpty then "" else "." ++ rest) ++ "e" ++ (if ten < 0 then "-" else "+") ++ size

def text : Binary64 → String
  | .finite negative mantissa exponent =>
    let size :=
      if mantissa = 0 then "0.0"
      else
        let (digits, power) := shortest mantissa exponent
        layout digits power
    (if negative then "-" else "") ++ size
  | .infinite negative => if negative then "-Infinity" else "Infinity"
  | .undefined => "NaN"

end Binary64

end OrderDesk
