import OrderDesk.Price.Rounding

/-!
# Ticks and their prices

Tick `t` stands for the price `1.0001 ^ t`; prices are kept as square roots scaled by `2 ^ 96`.

* `priceAt` rounds the price of a tick up.
* `tickAt` finds the greatest tick whose price is not above a given one.
-/

namespace OrderDesk

def minTick : Int := -887272
def maxTick : Int := 887272

/-- The price of `minTick`. -/
def minPrice : Int := 4295128739

def maxPrice : Int := 1461446703485210103287273052203988822378723970342

/-- Entry `i` is `1.0001 ^ (-(2 ^ i) / 2)` scaled by `2 ^ 128`. -/
def tickRatios : List Nat := [
  0xfffcb933bd6fad37aa2d162d1a594001,
  0xfff97272373d413259a46990580e213a,
  0xfff2e50f5f656932ef12357cf3c7fdcc,
  0xffe5caca7e10e4e61c3624eaa0941cd0,
  0xffcb9843d60f6159c9db58835c926644,
  0xff973b41fa98c081472e6896dfb254c0,
  0xff2ea16466c96a3843ec78b326b52861,
  0xfe5dee046a99a2a811c461f1969c3053,
  0xfcbe86c7900a88aedcffc83b479aa3a4,
  0xf987a7253ac413176f2b074cf7815e54,
  0xf3392b0822b70005940c7a398e4b70f3,
  0xe7159475a2c29b7443b29c7fa6e889d9,
  0xd097f3bdfd2022b8845ad8f792aa5825,
  0xa9f746462d870fdf8a65dc1f90e061e5,
  0x70d869a156d2a1b890bb3df62baf32f7,
  0x31be135f97d08fd981231505542fcfa6,
  0x9aa508b5b7a84e1c677de54f3e99bc9,
  0x5d6af8dedb81196699c329225ee604,
  0x2216e584f5fa1ea926041bedfe98,
  0x48a170391f7dc42444e8fa2]

def decayBy : (ratios : List Nat) → (distance ratio : Nat) → Nat
  | [], _, ratio => ratio
  | factor :: ratios, distance, ratio =>
    decayBy ratios (distance / 2) (if distance % 2 = 1 then ratio * factor / 2 ^ 128 else ratio)

/-- `1.0001 ^ (-distance / 2)` scaled by `2 ^ 128`, rounded down at each factor. -/
def decay (distance : Nat) : Nat := decayBy tickRatios distance (2 ^ 128)

/-- The price of a tick of any size; meant for the ticks from `minTick` to `maxTick`. -/
def tickPrice (tick : Int) : Int :=
  let ratio := decay tick.natAbs
  let ratio := if 0 < tick then (2 ^ 256 - 1) / ratio else ratio
  ((ratio / 2 ^ 32 + (if ratio % 2 ^ 32 = 0 then 0 else 1) : Nat) : Int)

def priceAt (tick : Int) : Except PriceFault Int :=
  if maxTick < tick.natAbs then .error (.tickOutOfRange tick) else .ok (tickPrice tick)

/-- The greatest tick from `low` to `high` whose price is not above `price`, if that of `low` is
not. -/
def searchTick (price low high : Int) : Int :=
  if low < high then
    let middle := (low + high + 1) / 2
    if tickPrice middle ≤ price then searchTick price middle high
    else searchTick price low (middle - 1)
  else low
termination_by (high - low).toNat
decreasing_by all_goals omega

/-- The greatest tick whose price is not above `price`. -/
def tickAt (price : Int) : Except PriceFault Int :=
  if price < minPrice ∨ maxPrice ≤ price then .error (.priceOutOfRange price)
  else .ok (searchTick price minTick maxTick)

def clampTick (tick : Int) : Int := max minTick (min maxTick tick)

end OrderDesk
