import OrderDesk.Proofs.Swap.Amounts
import OrderDesk.Proofs.Swap.Span

/-!
# Totals of a swap, and two swaps side by side

What has been paid and what has been bought are two totals that each round adds its step to,
whichever of the two the request was for. Where a round leads does not depend on the request either,
but for the price of its step.

* `simulate_totals`: the amounts of a swap are its totals at the end.
* `SwapPlan.Ends.grows`: neither total ever falls, and nothing is bought for nothing.
* `advance_together`: two swaps at one place take a step towards the same price, and with equal
  prices they go on to one place.
-/

namespace OrderDesk

variable {plan : SwapPlan} {state after final : SwapState} {amount : Int}

/-! ## Totals -/

/-- What a swap for an amount has paid in so far. -/
def SwapPlan.paid (plan : SwapPlan) (amount : Int) (state : SwapState) : Int :=
  if plan.exactIn then amount - state.remaining else state.calculated

/-- What a swap for an amount has bought so far. -/
def SwapPlan.bought (plan : SwapPlan) (amount : Int) (state : SwapState) : Int :=
  if plan.exactIn then state.calculated else state.remaining - amount

@[simp]
theorem SwapPlan.paid_start : plan.paid amount (plan.start amount) = 0 := by
  simp [paid, start]

@[simp]
theorem SwapPlan.bought_start : plan.bought amount (plan.start amount) = 0 := by
  simp [bought, start]

section Landing

variable {next : Int} {initialized : Bool} {step : SwapStep}

theorem SwapPlan.Lands.paid_eq (lands : plan.Lands state next initialized step after) :
    plan.paid amount after = plan.paid amount state + (step.amountIn + step.fee) := by
  simp only [paid, lands.remaining_eq, lands.calculated_eq, settle]
  split
  · ring
  · rfl

theorem SwapPlan.Lands.bought_eq (lands : plan.Lands state next initialized step after) :
    plan.bought amount after = plan.bought amount state + step.amountOut := by
  simp only [bought, lands.remaining_eq, lands.calculated_eq, settle]
  split
  · rfl
  · ring

end Landing

variable {pool : Pool} {token : Address} {limit : Option Int} {amountIn amountOut : Int}

theorem simulate_zero : simulate pool token 0 limit = .ok (0, 0) := rfl

theorem simulate_totals (some : amount ≠ 0)
    (given : simulate pool token amount limit = .ok (amountIn, amountOut)) :
    ∃ plan final, planSwap pool token amount limit = .ok plan ∧
      plan.Ends (plan.start amount) final ∧
      amountIn = plan.paid amount final ∧ amountOut = plan.bought amount final := by
  obtain ⟨plan, final, plan_ok, run_ok, amounts_eq⟩ := simulate_ok some given
  obtain ⟨-, exactIn_eq, -⟩ := planSwap_ok plan_ok
  refine ⟨plan, final, plan_ok, SwapPlan.run_ends run_ok, ?_⟩
  by_cases paid : 0 < amount
  · rw [if_pos paid, Prod.mk.injEq] at amounts_eq
    simpa [SwapPlan.paid, SwapPlan.bought, exactIn_eq, paid] using amounts_eq
  · rw [if_neg paid, Prod.mk.injEq] at amounts_eq
    simpa [SwapPlan.paid, SwapPlan.bought, exactIn_eq, paid] using amounts_eq

/-! ## Totals grow -/

/-- From one state to a later one neither total falls, and nothing is bought for nothing. -/
structure SwapPlan.Grows (plan : SwapPlan) (amount : Int) (state after : SwapState) : Prop where
  paid_le : plan.paid amount state ≤ plan.paid amount after
  bought_le : plan.bought amount state ≤ plan.bought amount after
  bought_eq : plan.paid amount after = plan.paid amount state →
    plan.bought amount after = plan.bought amount state

theorem SwapPlan.Grows.trans (earlier : plan.Grows amount state after)
    (later : plan.Grows amount after final) : plan.Grows amount state final := by
  have paid_le := earlier.paid_le
  have paid_le' := later.paid_le
  refine ⟨paid_le.trans paid_le', earlier.bought_le.trans later.bought_le, fun same => ?_⟩
  rw [later.bought_eq (by omega), earlier.bought_eq (by omega)]

theorem StepContract.bought_none {current target liquidity remaining fee : Int} {step : SwapStep}
    (contract : StepContract current target liquidity remaining fee step) (pos : 0 < current)
    (step_pos : 0 < step.price) (nonneg : 0 ≤ liquidity) (free : step.amountIn = 0) :
    step.amountOut = 0 := by
  have taken := contract.exactIn_le_amountIn
  have released := contract.amountOut_le_exactOut
  rw [free, Int.cast_zero] at taken
  rw [exactOut_eq_zero pos step_pos nonneg taken] at released
  exact le_antisymm (by exact_mod_cast released) contract.nonneg.2.1

section Growth

variable (limit_mem : minPrice < plan.limit ∧ plan.limit < maxPrice)
  (fee_nonneg : 0 ≤ plan.pool.feePips)

include limit_mem fee_nonneg

theorem advance_grows (keeps : plan.Keeps amount state) (given : plan.advance state = .ok after) :
    plan.Grows amount state after := by
  obtain ⟨next, initialized, step, ⟨target_pos, -⟩, contract, lands⟩ :=
    advance_contract limit_mem fee_nonneg keeps given
  obtain ⟨in_nonneg, out_nonneg, charge_nonneg⟩ := contract.nonneg
  have between := contract.between
  have price_pos := keeps.price_mem.1
  refine ⟨?_, ?_, fun same => ?_⟩
  · rw [lands.paid_eq]
    omega
  · rw [lands.bought_eq]
    omega
  · rw [lands.paid_eq] at same
    rw [lands.bought_eq, contract.bought_none price_pos (by omega) keeps.liquidity_nonneg (by omega),
      add_zero]

theorem SwapPlan.Ends.grows (ends : plan.Ends state final) (keeps : plan.Keeps amount state) :
    plan.Grows amount state final := by
  induction ends with
  | done => exact ⟨le_rfl, le_rfl, fun _ => rfl⟩
  | advance undone given _ ih =>
    have now := advance_keeps limit_mem fee_nonneg keeps undone given
    exact (advance_grows limit_mem fee_nonneg keeps given).trans (ih now)

theorem SwapPlan.Ends.paid_le (ends : plan.Ends state final) (paying : plan.exactIn = true)
    (keeps : plan.Keeps amount state) : plan.paid amount final ≤ amount := by
  have left := (ends.reaches.1.keeps limit_mem fee_nonneg keeps).left
  rw [LeftOf, if_pos paying] at left
  rw [paid, if_pos paying]
  omega

end Growth

/-! ## The last step -/

/-- Whether a step takes all that remains of its request. -/
def SwapStep.UsesUp (step : SwapStep) (remaining : Int) : Prop :=
  if 0 ≤ remaining then step.amountIn + step.fee = remaining else step.amountOut = -remaining

theorem StepContract.usesUp {current target liquidity remaining fee : Int} {step : SwapStep}
    (contract : StepContract current target liquidity remaining fee step)
    (short : step.price ≠ target) : step.UsesUp remaining := by
  unfold SwapStep.UsesUp
  split
  · rename_i exactInput
    exact contract.spent_all exactInput short
  · rename_i exactOutput
    exact contract.bought_all (not_le.mp exactOutput) short

theorem SwapPlan.Lands.done_of_usesUp {next : Int} {initialized : Bool} {step : SwapStep}
    (lands : plan.Lands state next initialized step after)
    (left : plan.LeftOf amount state.remaining) (undone : ¬ plan.isDone state)
    (usesUp : step.UsesUp state.remaining) : plan.isDone after := by
  have some : state.remaining ≠ 0 := fun none => undone (.inl none)
  refine .inl ?_
  rw [lands.remaining_eq]
  unfold SwapPlan.LeftOf at left
  unfold SwapStep.UsesUp at usesUp
  unfold SwapPlan.settle
  cases exactIn : plan.exactIn with
  | true =>
    rw [exactIn, if_pos rfl] at left
    rw [if_pos left.1] at usesUp
    simp only [if_true]
    omega
  | false =>
    rw [exactIn, if_neg Bool.false_ne_true] at left
    rw [if_neg (by omega)] at usesUp
    simp only [Bool.false_eq_true, if_false]
    omega

/-! ## Two swaps at one place -/

/-- Whether two swaps stand at one place: all that a round depends on but for the request. -/
structure SwapState.SamePlace (first second : SwapState) : Prop where
  price_eq : first.price = second.price
  tick_eq : first.tick = second.tick
  liquidity_eq : first.liquidity = second.liquidity

/-- The swap over the same ticks that buys an amount instead of spending one, or spends one instead. -/
abbrev SwapPlan.withMode (plan : SwapPlan) (exactIn : Bool) : SwapPlan := { plan with exactIn }

theorem planSwap_withMode (given : planSwap pool token amount limit = .ok plan) (other : Int) :
    planSwap pool token other limit = .ok (plan.withMode (decide (0 < other))) := by
  unfold planSwap at given ⊢
  obtain ⟨zeroForOne, side, given⟩ := bind_eq_ok.mp given
  rw [side, ok_bind]
  simp only at given ⊢
  split at given
  · rename_i reachable
    rw [pure_eq_ok] at given
    subst given
    rw [if_pos reachable]
    rfl
  · cases given

variable {exactIn : Bool} {other otherAfter : SwapState}

theorem advance_together (same : state.SamePlace other) (given : plan.advance state = .ok after)
    (given' : (plan.withMode exactIn).advance other = .ok otherAfter) :
    ∃ found initialized step step',
      plan.pool.bitmap.nextTick state.tick plan.pool.tickSpacing plan.zeroForOne =
        .ok (found, initialized) ∧
      swapStep state.price (plan.target (tickPrice (clampTick found))) state.liquidity
        state.remaining plan.pool.feePips = .ok step ∧
      swapStep state.price (plan.target (tickPrice (clampTick found))) state.liquidity
        other.remaining plan.pool.feePips = .ok step' ∧
      plan.Lands state (clampTick found) initialized step after ∧
      (plan.withMode exactIn).Lands other (clampTick found) initialized step' otherAfter := by
  obtain ⟨found, initialized, step, search, step_ok, lands⟩ := SwapPlan.advance_cases given
  obtain ⟨found', initialized', step', search', step'_ok, lands'⟩ :=
    SwapPlan.advance_cases given'
  rw [← same.tick_eq] at search'
  rw [← same.price_eq, ← same.liquidity_eq] at step'_ok
  obtain ⟨rfl, rfl⟩ := Prod.mk.inj (Except.ok.inj (search.symm.trans search'))
  exact ⟨found, initialized, step, step', search, step_ok, step'_ok, lands, lands'⟩

theorem SwapPlan.Lands.samePlace {next : Int} {initialized : Bool} {step step' : SwapStep}
    (lands : plan.Lands state next initialized step after)
    (lands' : (plan.withMode exactIn).Lands other next initialized step' otherAfter)
    (same : state.SamePlace other) (price_eq : step.price = step'.price) :
    after.SamePlace otherAfter := by
  have now_eq : after.price = otherAfter.price := by
    rw [lands.price_eq, lands'.price_eq, price_eq]
  cases lands with
  | reached here crossed =>
    cases lands' with
    | reached _ crossed' =>
      rw [← same.liquidity_eq] at crossed'
      exact ⟨now_eq, rfl, Except.ok.inj (crossed.symm.trans crossed')⟩
    | moved short | still short => exact absurd (price_eq.symm.trans here) short
  | moved short moved tick_ok =>
    cases lands' with
    | reached here => exact absurd (price_eq.trans here) short
    | moved _ _ tick_ok' =>
      rw [← price_eq] at tick_ok'
      refine ⟨now_eq, Except.ok.inj (tick_ok.symm.trans tick_ok'), ?_⟩
      simpa using same.liquidity_eq
    | still _ still => exact absurd (price_eq.trans (still.trans same.price_eq.symm)) moved
  | still short still =>
    cases lands' with
    | reached here => exact absurd (price_eq.trans here) short
    | moved _ moved => exact absurd (price_eq.symm.trans (still.trans same.price_eq)) moved
    | still =>
      refine ⟨now_eq, ?_, ?_⟩
      · simpa using same.tick_eq
      · simpa using same.liquidity_eq

/-- Two swaps that stand at one place and have exchanged the same. -/
structure SwapPlan.Abreast (plan : SwapPlan) (exactIn : Bool) (amount otherAmount : Int)
    (state other : SwapState) : Prop extends state.SamePlace other where
  paid_eq : plan.paid amount state = (plan.withMode exactIn).paid otherAmount other
  bought_eq : plan.bought amount state = (plan.withMode exactIn).bought otherAmount other

section Abreast

variable {otherAmount tick : Int} {initialized : Bool} {step step' : SwapStep}

theorem SwapPlan.Abreast.paid_le (abreast : plan.Abreast exactIn amount otherAmount state other)
    (lands : plan.Lands state tick initialized step after)
    (lands' : (plan.withMode exactIn).Lands other tick initialized step' otherAfter)
    (le : step.amountIn + step.fee ≤ step'.amountIn + step'.fee) :
    plan.paid amount after ≤ (plan.withMode exactIn).paid otherAmount otherAfter := by
  rw [lands.paid_eq, lands'.paid_eq, abreast.paid_eq]
  exact add_le_add_right le _

theorem SwapPlan.Abreast.bought_le (abreast : plan.Abreast exactIn amount otherAmount state other)
    (lands : plan.Lands state tick initialized step after)
    (lands' : (plan.withMode exactIn).Lands other tick initialized step' otherAfter)
    (le : step.amountOut ≤ step'.amountOut) :
    plan.bought amount after ≤ (plan.withMode exactIn).bought otherAmount otherAfter := by
  rw [lands.bought_eq, lands'.bought_eq, abreast.bought_eq]
  exact add_le_add_right le _

theorem SwapPlan.Abreast.next (abreast : plan.Abreast exactIn amount otherAmount state other)
    (lands : plan.Lands state tick initialized step after)
    (lands' : (plan.withMode exactIn).Lands other tick initialized step otherAfter) :
    plan.Abreast exactIn amount otherAmount after otherAfter := by
  refine ⟨lands.samePlace lands' abreast.toSamePlace rfl, ?_, ?_⟩
  · rw [lands.paid_eq, lands'.paid_eq, abreast.paid_eq]
  · rw [lands.bought_eq, lands'.bought_eq, abreast.bought_eq]

end Abreast

theorem SwapPlan.abreast_start {otherAmount : Int} :
    plan.Abreast exactIn amount otherAmount (plan.start amount)
      ((plan.withMode exactIn).start otherAmount) := by
  refine ⟨⟨rfl, rfl, rfl⟩, ?_, ?_⟩
  · rw [paid_start, paid_start]
  · rw [bought_start, bought_start]

end OrderDesk
