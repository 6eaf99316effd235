import OrderDesk.Proofs.Price.Tick
import OrderDesk.Swap.Simulate

/-!
# Rounds of a swap

* `SwapPlan.run_reaches`: a run ends at a reached state that is done.
* `simulate_ok`: the amounts of a swap are those of the state at which its run ends.
* `SwapPlan.advance_cases`: what one round does.
-/

namespace OrderDesk

variable {plan : SwapPlan} {start state after : SwapState}

/-! ## Plans -/

theorem planSwap_ok {pool : Pool} {token : Address} {amount : Int} {limit : Option Int}
    (given : planSwap pool token amount limit = .ok plan) :
    plan.pool = pool ∧ plan.exactIn = decide (0 < amount) ∧
      limitReachable plan.zeroForOne pool.sqrtPrice plan.limit := by
  unfold planSwap at given
  obtain ⟨zeroForOne, side, given⟩ := bind_eq_ok.mp given
  simp only at given
  split at given
  · rename_i reachable
    rw [pure_eq_ok] at given
    subst given
    exact ⟨rfl, rfl, reachable⟩
  · cases given

theorem limitReachable_mem {zeroForOne : Bool} {price limit : Int}
    (price_mem : minPrice ≤ price ∧ price ≤ maxPrice)
    (reachable : limitReachable zeroForOne price limit) : minPrice < limit ∧ limit < maxPrice := by
  unfold limitReachable at reachable
  split at reachable <;> omega

/-! ## Reached states -/

/-- The states at which a swap asks whether it is done. -/
inductive SwapPlan.Reaches (plan : SwapPlan) (start : SwapState) : SwapState → Prop
  | refl : plan.Reaches start start
  | advance {state after : SwapState} (reaches : plan.Reaches start state)
      (undone : ¬ plan.isDone state) (given : plan.advance state = .ok after) :
      plan.Reaches start after

theorem SwapPlan.Reaches.trans (earlier : plan.Reaches start state)
    (later : plan.Reaches state after) : plan.Reaches start after := by
  induction later with
  | refl => exact earlier
  | advance _ undone given ih => exact .advance ih undone given

/-- A run from its first state to the one at which it finds that it is done. -/
inductive SwapPlan.Ends (plan : SwapPlan) : SwapState → SwapState → Prop
  | done {state : SwapState} (done : plan.isDone state) : plan.Ends state state
  | advance {state after final : SwapState} (undone : ¬ plan.isDone state)
      (given : plan.advance state = .ok after) (ends : plan.Ends after final) :
      plan.Ends state final

theorem SwapPlan.run_ends {rounds : Nat} (given : plan.run rounds start = .ok after) :
    plan.Ends start after := by
  induction rounds generalizing start with
  | zero =>
    simp only [SwapPlan.run] at given
    split at given
    · rename_i done
      cases given
      exact .done done
    · cases given
  | succ rounds ih =>
    simp only [SwapPlan.run] at given
    split at given
    · rename_i done
      cases given
      exact .done done
    · rename_i undone
      obtain ⟨next, next_ok, given⟩ := bind_eq_ok.mp given
      exact .advance undone next_ok (ih given)

theorem SwapPlan.Ends.eq_of_done (ends : plan.Ends start after) (done : plan.isDone start) :
    after = start := by
  cases ends with
  | done => rfl
  | advance undone => exact absurd done undone

theorem SwapPlan.Ends.reaches (ends : plan.Ends start after) :
    plan.Reaches start after ∧ plan.isDone after := by
  induction ends with
  | done done => exact ⟨.refl, done⟩
  | advance undone given _ ih => exact ⟨(SwapPlan.Reaches.refl.advance undone given).trans ih.1, ih.2⟩

theorem SwapPlan.run_reaches {rounds : Nat} (given : plan.run rounds start = .ok after) :
    plan.Reaches start after ∧ plan.isDone after :=
  (SwapPlan.run_ends given).reaches

theorem simulate_ok {pool : Pool} {token : Address} {amount : Int} {limit : Option Int}
    {amounts : Int × Int} (some : amount ≠ 0)
    (given : simulate pool token amount limit = .ok amounts) :
    ∃ plan final, planSwap pool token amount limit = .ok plan ∧
      plan.run SwapPlan.roundLimit (plan.start amount) = .ok final ∧
      amounts = if 0 < amount then (amount - final.remaining, final.calculated)
        else (final.calculated, final.remaining - amount) := by
  unfold simulate at given
  rw [if_neg some] at given
  obtain ⟨plan, plan_ok, given⟩ := bind_eq_ok.mp given
  obtain ⟨final, final_ok, given⟩ := bind_eq_ok.mp given
  refine ⟨plan, final, plan_ok, final_ok, ?_⟩
  split at given
  · rename_i paid
    rw [pure_eq_ok] at given
    rw [if_pos paid, given]
  · rename_i bought
    rw [pure_eq_ok] at given
    rw [if_neg bought, given]

/-! ## One round -/

@[simp]
theorem SwapPlan.settle_price (step : SwapStep) : (plan.settle state step).price = step.price := by
  unfold settle
  split <;> rfl

@[simp]
theorem SwapPlan.settle_tick (step : SwapStep) : (plan.settle state step).tick = state.tick := by
  unfold settle
  split <;> rfl

@[simp]
theorem SwapPlan.settle_liquidity (step : SwapStep) :
    (plan.settle state step).liquidity = state.liquidity := by
  unfold settle
  split <;> rfl

/-- How a round ends: on the next tick, which is crossed if it is initialized, short of it after a
move, or where it began. -/
inductive SwapPlan.Lands (plan : SwapPlan) (state : SwapState) (next : Int) (initialized : Bool)
    (step : SwapStep) : SwapState → Prop
  | reached {liquidity : Int} (here : step.price = tickPrice next)
      (crossed : (if initialized then plan.cross next state.liquidity else .ok state.liquidity) =
        .ok liquidity) :
      plan.Lands state next initialized step
        { plan.settle state step with
          liquidity, tick := if plan.zeroForOne then next - 1 else next }
  | moved {tick : Int} (short : step.price ≠ tickPrice next) (moved : step.price ≠ state.price)
      (tick_ok : tickAt step.price = .ok tick) :
      plan.Lands state next initialized step { plan.settle state step with tick }
  | still (short : step.price ≠ tickPrice next) (same : step.price = state.price) :
      plan.Lands state next initialized step (plan.settle state step)

theorem SwapPlan.advance_cases (given : plan.advance state = .ok after) :
    ∃ found initialized step,
      plan.pool.bitmap.nextTick state.tick plan.pool.tickSpacing plan.zeroForOne =
        .ok (found, initialized) ∧
      swapStep state.price (plan.target (tickPrice (clampTick found))) state.liquidity
        state.remaining plan.pool.feePips = .ok step ∧
      plan.Lands state (clampTick found) initialized step after := by
  unfold SwapPlan.advance at given
  obtain ⟨⟨found, initialized⟩, search, given⟩ := bind_eq_ok.mp given
  obtain ⟨nextPrice, next_ok, given⟩ := bind_eq_ok.mp given
  obtain ⟨step, step_ok, given⟩ := bind_eq_ok.mp given
  obtain ⟨-, rfl⟩ := priceAt_eq_ok.mp next_ok
  refine ⟨found, initialized, step, search, step_ok, ?_⟩
  simp only at given
  split at given
  · rename_i here
    cases initialized with
    | false =>
      obtain ⟨liquidity, same, given⟩ := bind_eq_ok.mp given
      rw [pure_eq_ok] at given
      subst given
      exact .reached here same
    | true =>
      obtain ⟨liquidity, crossed, given⟩ := bind_eq_ok.mp given
      rw [pure_eq_ok] at given
      subst given
      exact .reached here crossed
  · rename_i short
    split at given
    · rename_i moved
      obtain ⟨tick, tick_ok, given⟩ := bind_eq_ok.mp given
      rw [pure_eq_ok] at given
      subst given
      exact .moved short moved tick_ok
    · rename_i same
      rw [pure_eq_ok] at given
      subst given
      exact .still short (not_not.mp same)

end OrderDesk
