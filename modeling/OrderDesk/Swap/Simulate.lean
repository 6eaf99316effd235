import OrderDesk.Fault
import OrderDesk.Pool.Basic
import OrderDesk.Swap.Step

/-!
# Swaps over a pool snapshot

A swap walks from tick to tick in the trade direction until its amount is used up or the price
meets the limit. Ticks outside the loaded set count as uninitialized.
-/

namespace OrderDesk

structure SwapState where
  remaining : Int
  calculated : Int
  price : Int
  tick : Int
  liquidity : Int
deriving DecidableEq, Repr

structure SwapPlan where
  pool : Pool
  zeroForOne : Bool
  exactIn : Bool
  limit : Int
deriving Repr

namespace SwapPlan

def isDone (plan : SwapPlan) (state : SwapState) : Prop :=
  state.remaining = 0 ∨ state.price = plan.limit

instance (plan : SwapPlan) (state : SwapState) : Decidable (plan.isDone state) :=
  inferInstanceAs (Decidable (_ ∨ _))

def target (plan : SwapPlan) (nextPrice : Int) : Int :=
  if plan.zeroForOne then max nextPrice plan.limit else min nextPrice plan.limit

def settle (plan : SwapPlan) (state : SwapState) (step : SwapStep) : SwapState :=
  if plan.exactIn then
    { state with
      price := step.price
      remaining := state.remaining - (step.amountIn + step.fee)
      calculated := state.calculated + step.amountOut }
  else
    { state with
      price := step.price
      remaining := state.remaining + step.amountOut
      calculated := state.calculated + (step.amountIn + step.fee) }

/-- Passes an initialized tick: its change is added on the way up and taken off on the way down. -/
def cross (plan : SwapPlan) (tick liquidity : Int) : Except PriceFault Int :=
  let change := (plan.pool.ticks.get? tick).getD 0
  let liquidity := if plan.zeroForOne then liquidity - change else liquidity + change
  if liquidity < 0 then .error (.liquidityUnderflow tick) else .ok liquidity

/-- One round: the step towards the next tick of the word, and the tick it ends in. -/
def advance (plan : SwapPlan) (state : SwapState) : Except PriceFault SwapState := do
  let (found, initialized) ←
    plan.pool.bitmap.nextTick state.tick plan.pool.tickSpacing plan.zeroForOne
  let next := clampTick found
  let nextPrice ← priceAt next
  let step ← swapStep state.price (plan.target nextPrice) state.liquidity state.remaining
    plan.pool.feePips
  let after := plan.settle state step
  if step.price = nextPrice then
    let liquidity ← if initialized then plan.cross next state.liquidity else .ok state.liquidity
    return { after with liquidity, tick := if plan.zeroForOne then next - 1 else next }
  else if step.price ≠ state.price then
    return { after with tick := ← tickAt step.price }
  else
    return after

def run (plan : SwapPlan) : (rounds : Nat) → SwapState → Except PriceFault SwapState
  | 0, state => if plan.isDone state then .ok state else .error .endless
  | rounds + 1, state =>
    if plan.isDone state then .ok state
    else do
      plan.run rounds (← plan.advance state)

/-- One round for every tick of the range and a few more: each round of a swap over a pool of
positive spacing moves the tick. -/
def roundLimit : Nat := 2 * 887272 + 8

end SwapPlan

def defaultLimit (zeroForOne : Bool) : Int := if zeroForOne then minPrice + 1 else maxPrice - 1

/-- Whether a limit lies between the current price and the end of the range it moves to. -/
def limitReachable (zeroForOne : Bool) (price limit : Int) : Prop :=
  if zeroForOne then minPrice < limit ∧ limit < price else price < limit ∧ limit < maxPrice

instance (zeroForOne : Bool) (price limit : Int) : Decidable (limitReachable zeroForOne price limit) := by
  unfold limitReachable; infer_instance

def planSwap (pool : Pool) (token : Address) (amount : Int) (limit : Option Int) :
    Except PriceFault SwapPlan := do
  let zeroForOne ← pool.isToken0 token
  let limit := limit.getD (defaultLimit zeroForOne)
  if limitReachable zeroForOne pool.sqrtPrice limit then
    return ⟨pool, zeroForOne, decide (0 < amount), limit⟩
  else .error (.limitOutOfReach limit zeroForOne)

def SwapPlan.start (plan : SwapPlan) (amount : Int) : SwapState :=
  ⟨amount, 0, plan.pool.sqrtPrice, plan.pool.tick, plan.pool.liquidity⟩

/-- The input and the output of swapping `amount` of `token` into the pool; a negative amount asks
for that much output. -/
def simulate (pool : Pool) (token : Address) (amount : Int) (limit : Option Int) :
    Except PriceFault (Int × Int) := do
  if amount = 0 then return (0, 0)
  let plan ← planSwap pool token amount limit
  let final ← plan.run SwapPlan.roundLimit (plan.start amount)
  if 0 < amount then return (amount - final.remaining, final.calculated)
  else return (final.calculated, final.remaining - amount)

/-- The amounts of a swap of a spelled token. Swapping nothing needs no token. -/
def quote (pool : Pool) (token : String) (amount : Int) (limit : Option Int) :
    Except Fault (Int × Int) := do
  if amount = 0 then return (0, 0)
  else simulate pool (← readAddress token) amount limit

end OrderDesk
