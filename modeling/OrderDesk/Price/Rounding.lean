import OrderDesk.Price.Fault

/-!
# Rounded quotients

Products over denominators, rounded to either side and kept inside 256-bit words, and the words and
constants of fixed-point prices.
-/

namespace OrderDesk

def q96 : Int := 2 ^ 96

def q128 : Int := 2 ^ 128

def wordCount : Int := 2 ^ 256

def wordMax : Int := 2 ^ 256 - 1

def priceWordMax : Int := 2 ^ 160 - 1

/-- The least whole number that is not below `x / y`. -/
def ceilDiv (x y : Int) : Int := Int.fdiv x y + (if Int.fmod x y = 0 then 0 else 1)

def Rounding.divide : Rounding → Int → Int → Int
  | .down, x, y => Int.fdiv x y
  | .up, x, y => ceilDiv x y

def checkPrice (value : Int) : Except PriceFault Int :=
  if value < 0 ∨ priceWordMax < value then .error (.outOfPrice value) else .ok value

/-- `a * b / denominator` rounded to a side, as a 256-bit word. -/
def mulDiv (rounding : Rounding) (a b denominator : Int) : Except PriceFault Int :=
  if denominator = 0 then .error (.productOverZero rounding)
  else
    let value := rounding.divide (a * b) denominator
    if value < 0 ∨ wordMax < value then .error (.outOfWord rounding value) else .ok value

def divUp (x y : Int) : Except PriceFault Int :=
  if y = 0 then .error .quotientOverZero else .ok (ceilDiv x y)

def divDown (x y : Int) : Except PriceFault Int :=
  if y = 0 then .error .zeroDivisor else .ok (Int.fdiv x y)

end OrderDesk
