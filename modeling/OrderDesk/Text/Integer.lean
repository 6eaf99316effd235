import OrderDesk.Text.Basic
import OrderDesk.Text.Digit

/-!
# Whole numbers as text

A number is blanks, a sign, digits with single underscores between them, and blanks. In base
sixteen `0x` may stand in front of the digits, followed by one underscore at most. In base ten the
number of digits is limited.
-/

namespace OrderDesk.IntegerText

/-- The blanks that may surround a number; beyond ASCII, every space separator and line break. -/
def isBlank (c : Char) : Bool :=
  c = ' ' || (9 ≤ c.toNat && c.toNat ≤ 13) || c.toNat = 0x85 || c.toNat = 0xa0 ||
    c.toNat = 0x1680 || (0x2000 ≤ c.toNat && c.toNat ≤ 0x200a) || c.toNat = 0x2028 ||
    c.toNat = 0x2029 || c.toNat = 0x202f || c.toNat = 0x205f || c.toNat = 0x3000

/-- Digits after a digit: more digits, each after one underscore at most, and then blanks only. -/
def readRest (base value : Nat) : List Char → Option Nat
  | [] => some value
  | '_' :: c :: rest => do readRest base (value * base + (← Digit.valueIn? base c)) rest
  | c :: rest =>
    match Digit.valueIn? base c with
    | some digit => readRest base (value * base + digit) rest
    | none => if (c :: rest).all isBlank then some value else none

def readDigits (base : Nat) : List Char → Option Nat
  | [] => none
  | c :: rest => do readRest base (← Digit.valueIn? base c) rest

def dropMark : List Char → List Char
  | '0' :: 'x' :: '_' :: rest | '0' :: 'X' :: '_' :: rest => rest
  | '0' :: 'x' :: rest | '0' :: 'X' :: rest => rest
  | rest => rest

def countDigits (base : Nat) (text : List Char) : Nat :=
  text.countP fun c => (Digit.valueIn? base c).isSome

def read? (base : Nat) (text : List Char) : Option Int :=
  let unsigned (rest : List Char) :=
    if base = 10 ∧ Digit.maxCount < countDigits base rest then none
    else readDigits base (if base = 16 then dropMark rest else rest)
  match text.dropWhile isBlank with
  | '-' :: rest => (unsigned rest).map fun value => -(value : Int)
  | '+' :: rest => (unsigned rest).map fun value => (value : Int)
  | rest => (unsigned rest).map fun value => (value : Int)

/-- A text that starts with `0x` is read in base sixteen, any other in base ten. -/
def readMarked? (text : Text) : Option Int :=
  match text.chars with
  | '0' :: 'x' :: rest => read? 16 ('0' :: 'x' :: rest)
  | all => read? 10 all

end OrderDesk.IntegerText
