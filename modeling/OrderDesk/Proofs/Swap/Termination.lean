import OrderDesk.Proofs.Swap.Success

/-!
# Swaps over any pool end

Nothing ties the tick of a pool to its price here, nor its bitmap to its ticks. A round that stops
short of the next tick is still the last one, because it meets the limit or uses the request up; and
a round that reaches the next tick passes it, because the limit keeps the price from the ends of the
range, where the tick would be held back.

* `SwapPlan.Keeps.progress`: a round that is not the last passes a tick.
* `SwapPlan.finishes_run`: a run of enough rounds is the run of as many rounds as it takes.
* `swap_finishes`: the walk of a swap ends, and its end is the outcome of the swap.
-/

namespace OrderDesk

variable {plan : SwapPlan} {start state after final : SwapState} {amount : Int}

/-! ## Walks of any length -/

/-- How a walk ends, however many rounds it takes: where it is done, or with the fault of a
round. -/
def SwapPlan.Finishes (plan : SwapPlan) (start : SwapState) : Except PriceFault SwapState → Prop
  | .ok final => plan.Ends start final
  | .error fault =>
    ∃ state, plan.Reaches start state ∧ ¬ plan.isDone state ∧ plan.advance state = .error fault

theorem SwapPlan.Finishes.advance {result : Except PriceFault SwapState}
    (undone : ¬ plan.isDone state) (given : plan.advance state = .ok after)
    (finishes : plan.Finishes after result) : plan.Finishes state result := by
  cases result with
  | ok final => exact SwapPlan.Ends.advance undone given finishes
  | error fault =>
    obtain ⟨last, reaches, unfinished, faulty⟩ := finishes
    exact ⟨last, (SwapPlan.Reaches.refl.advance undone given).trans reaches, unfinished, faulty⟩

/-- A walk that cannot take its first round finishes with the fault of that round. -/
theorem SwapPlan.finishes_of_stuck (stuck : ∀ after, plan.advance state ≠ .ok after)
    (rounds : Nat) : plan.Finishes state (plan.run (rounds + 1) state) := by
  by_cases done : plan.isDone state
  · rw [run_of_done done]
    exact .done done
  · rw [run, if_neg done]
    cases given : plan.advance state with
    | error fault => exact ⟨state, .refl, done, given⟩
    | ok after => exact absurd given (stuck after)

/-- A walk that takes a round somewhere has taken its first one. -/
theorem SwapPlan.Reaches.first (reaches : plan.Reaches start state)
    (given : plan.advance state = .ok after) : ∃ second, plan.advance start = .ok second := by
  induction reaches generalizing after with
  | refl => exact ⟨after, given⟩
  | advance _ _ earlier ih => exact ih earlier

/-! ## Prices of nothing -/

/-- No step starts from a price of zero, at which amounts of token 0 have no value. -/
theorem swapStep_pos {current target liquidity remaining fee : Int} {step : SwapStep}
    (nonneg : 0 ≤ current) (target_pos : 0 < target)
    (given : swapStep current target liquidity remaining fee = .ok step) : 0 < current := by
  refine lt_of_le_of_ne nonneg fun none => ?_
  subst none
  have up : decide (target ≤ 0) = false := decide_eq_false (not_le.mpr target_pos)
  unfold swapStep at given
  split at given
  · cases given
  · obtain ⟨price, price_ok, given⟩ := bind_eq_ok.mp given
    obtain ⟨amountIn, -, given⟩ := bind_eq_ok.mp given
    obtain ⟨amountOut, out_ok, -⟩ := bind_eq_ok.mp given
    have price_eq : price = target := by
      unfold stepPrice at price_ok
      split at price_ok
      · obtain ⟨spendable, -, price_ok⟩ := bind_eq_ok.mp price_ok
        obtain ⟨needed, -, price_ok⟩ := bind_eq_ok.mp price_ok
        split at price_ok
        · exact (pure_eq_ok.mp price_ok).symm
        · cases price_ok
      · obtain ⟨offered, -, price_ok⟩ := bind_eq_ok.mp price_ok
        split at price_ok
        · exact (pure_eq_ok.mp price_ok).symm
        · cases price_ok
    have nothing : min target 0 = 0 := min_eq_right target_pos.le
    rw [up, price_eq, paidOut, if_neg Bool.false_ne_true] at out_ok
    simp only [amount0, nothing, if_true] at out_ok
    cases out_ok

/-! ## Limits inside the range -/

/-- A plan whose limit lies inside the range on the side that its price moves to. -/
structure SwapPlan.Bound (plan : SwapPlan) : Prop where
  spacing_pos : 0 < plan.pool.tickSpacing
  fee_nonneg : 0 ≤ plan.pool.feePips
  limit_word : 0 < plan.limit ∧ plan.limit ≤ priceWordMax
  limit_inside : if plan.zeroForOne then minPrice < plan.limit else plan.limit < maxPrice

theorem SwapPlan.Bound.price_pos (bound : plan.Bound) (nonneg : 0 ≤ state.price)
    (given : plan.advance state = .ok after) : 0 < state.price := by
  obtain ⟨found, initialized, step, -, step_ok, -⟩ := SwapPlan.advance_cases given
  exact swapStep_pos nonneg (target_word found bound.limit_word).1 step_ok

/-- The price of a round stays on its side of the limit. -/
theorem SwapPlan.within_limit {nextPrice : Int} {step : SwapStep} {remaining liquidity fee : Int}
    (within : Toward plan.zeroForOne state.price plan.limit)
    (contract : StepContract state.price (plan.target nextPrice) liquidity remaining fee step) :
    Toward plan.zeroForOne step.price plan.limit := by
  have between := contract.between
  unfold target at between
  cases direction : plan.zeroForOne with
  | false =>
    rw [direction, toward_up] at within
    rw [direction, if_neg Bool.false_ne_true] at between
    rw [toward_up]
    omega
  | true =>
    rw [direction, toward_down] at within
    rw [direction, if_pos rfl] at between
    rw [toward_down]
    omega

/-- A tick that is reached on this side of the limit is not held back by the ends of the range. -/
theorem SwapPlan.Bound.passes (bound : plan.Bound) {tick found : Int} {initialized : Bool}
    (search : plan.pool.bitmap.nextTick tick plan.pool.tickSpacing plan.zeroForOne =
      .ok (found, initialized))
    (within : Toward plan.zeroForOne (tickPrice (clampTick found)) plan.limit) :
    if plan.zeroForOne then minTick < clampTick found ∧ clampTick found ≤ tick
    else tick < clampTick found ∧ clampTick found < maxTick := by
  have toward := nextTick_toward bound.spacing_pos search
  have inside := bound.limit_inside
  obtain ⟨ge, le⟩ := clampTick_mem found
  cases direction : plan.zeroForOne with
  | false =>
    rw [direction, if_neg Bool.false_ne_true] at toward inside
    rw [direction, toward_up] at within
    have below := lt_maxTick le (within.trans_lt inside)
    rw [if_neg Bool.false_ne_true]
    unfold clampTick at below ⊢
    omega
  | true =>
    rw [direction, if_pos rfl] at toward inside
    rw [direction, toward_down] at within
    have above := minTick_lt ge (inside.trans_le within)
    rw [if_pos rfl]
    unfold clampTick at above ⊢
    omega

/-! ## One round -/

/-- Where a round leads that is not the last one: past a tick, and not beyond the range. -/
def SwapPlan.Passes (plan : SwapPlan) (tick now : Int) : Prop :=
  if plan.zeroForOne then minTick ≤ now ∧ now < tick ∧ now < maxTick
  else tick < now ∧ minTick ≤ now ∧ now < maxTick

theorem SwapPlan.Passes.moves {tick now : Int} (passes : plan.Passes tick now) :
    if plan.zeroForOne then now < tick else tick < now := by
  unfold SwapPlan.Passes at passes
  cases direction : plan.zeroForOne with
  | false =>
    rw [direction, if_neg Bool.false_ne_true] at passes
    exact passes.1
  | true =>
    rw [direction, if_pos rfl] at passes
    exact passes.2.1

theorem SwapPlan.Keeps.progress (keeps : plan.Keeps amount state) (bound : plan.Bound)
    (within : Toward plan.zeroForOne state.price plan.limit) (undone : ¬ plan.isDone state)
    (given : plan.advance state = .ok after) :
    Toward plan.zeroForOne after.price plan.limit ∧
      (plan.isDone after ∨ plan.Passes state.tick after.tick) := by
  obtain ⟨found, initialized, step, search, -, contract, lands⟩ :=
    keeps.contract bound.limit_word bound.fee_nonneg given
  have still_within := SwapPlan.within_limit within contract
  have done := lands.done_of_short keeps undone contract
  refine ⟨lands.price_eq ▸ still_within, ?_⟩
  cases lands with
  | moved short | still short => exact .inl (done short)
  | reached here =>
    rw [here] at still_within
    have passes := bound.passes search still_within
    obtain ⟨ge, le⟩ := clampTick_mem found
    refine .inr ?_
    unfold SwapPlan.Passes
    cases direction : plan.zeroForOne with
    | false =>
      rw [direction, if_neg Bool.false_ne_true] at passes
      simp only [Bool.false_eq_true, if_false]
      omega
    | true =>
      rw [direction, if_pos rfl] at passes
      simp only [if_true]
      omega

/-! ## All rounds -/

/-- How many rounds a swap can take before its last one. A tick beyond the range counts as the one
next to it. -/
def SwapPlan.roundsAhead (plan : SwapPlan) (tick : Int) : Nat :=
  if plan.zeroForOne then (min tick maxTick - minTick).toNat
  else (maxTick - max tick (minTick - 1)).toNat

theorem SwapPlan.Passes.roundsAhead_lt {tick now : Int} (passes : plan.Passes tick now) :
    plan.roundsAhead now < plan.roundsAhead tick := by
  unfold SwapPlan.Passes at passes
  unfold roundsAhead
  cases direction : plan.zeroForOne with
  | false =>
    rw [direction, if_neg Bool.false_ne_true] at passes
    simp only [Bool.false_eq_true, if_false]
    omega
  | true =>
    rw [direction, if_pos rfl] at passes
    simp only [if_true]
    omega

theorem SwapPlan.roundsAhead_lt_roundLimit (tick : Int) :
    plan.roundsAhead tick < SwapPlan.roundLimit := by
  have low_eq := minTick_eq
  have high_eq := maxTick_eq
  unfold roundsAhead SwapPlan.roundLimit
  split <;> omega

theorem SwapPlan.finishes_run (bound : plan.Bound) {rounds : Nat} (keeps : plan.Keeps amount state)
    (within : Toward plan.zeroForOne state.price plan.limit)
    (enough : plan.isDone state ∨ plan.roundsAhead state.tick < rounds) :
    plan.Finishes state (plan.run rounds state) := by
  induction rounds generalizing state with
  | zero =>
    have done := enough.resolve_right (Nat.not_lt_zero _)
    rw [run_of_done done]
    exact .done done
  | succ rounds ih =>
    by_cases done : plan.isDone state
    · rw [run_of_done done]
      exact .done done
    · rw [run, if_neg done]
      cases given : plan.advance state with
      | error fault => exact ⟨state, .refl, done, given⟩
      | ok after =>
        obtain ⟨within', progress⟩ := keeps.progress bound within done given
        have keeps' := keeps.advance bound.limit_word bound.fee_nonneg done given
        have left := enough.resolve_left done
        refine .advance done given (ih keeps' within' (progress.imp_right fun passes => ?_))
        have fewer := passes.roundsAhead_lt
        omega

theorem SwapPlan.Reaches.on_course (reaches : plan.Reaches start state) (bound : plan.Bound)
    (keeps : plan.Keeps amount start) (within : Toward plan.zeroForOne start.price plan.limit) :
    plan.Keeps amount state ∧ Toward plan.zeroForOne state.price plan.limit := by
  induction reaches with
  | refl => exact ⟨keeps, within⟩
  | advance _ undone given ih =>
    obtain ⟨before, ahead⟩ := ih
    exact ⟨before.advance bound.limit_word bound.fee_nonneg undone given,
      (before.progress bound ahead undone given).1⟩

/-! ## Whole swaps -/

variable {pool : Pool} {token : Address} {limit : Option Int}

theorem reachable_word {zeroForOne : Bool} {price bound : Int}
    (price_mem : 0 ≤ price ∧ price < 2 ^ 160) (reachable : limitReachable zeroForOne price bound) :
    0 < bound ∧ bound ≤ priceWordMax := by
  have low := minPrice_pos
  have high : maxPrice ≤ priceWordMax := by decide
  have word : (2 ^ 160 : Int) = priceWordMax + 1 := by decide
  unfold limitReachable at reachable
  split at reachable <;> omega

theorem planSwap_bound (spacing_pos : 1 ≤ pool.tickSpacing) (fee_nonneg : 0 ≤ pool.feePips)
    (price_mem : 0 ≤ pool.sqrtPrice ∧ pool.sqrtPrice < 2 ^ 160)
    (given : planSwap pool token amount limit = .ok plan) :
    plan.Bound ∧ Toward plan.zeroForOne pool.sqrtPrice plan.limit := by
  obtain ⟨rfl, -, reachable⟩ := planSwap_ok given
  have word := reachable_word price_mem reachable
  unfold limitReachable at reachable
  cases direction : plan.zeroForOne with
  | false =>
    rw [direction, if_neg Bool.false_ne_true] at reachable
    refine ⟨⟨spacing_pos, fee_nonneg, word, ?_⟩, reachable.1.le⟩
    rw [direction, if_neg Bool.false_ne_true]
    exact reachable.2
  | true =>
    rw [direction, if_pos rfl] at reachable
    refine ⟨⟨spacing_pos, fee_nonneg, word, ?_⟩, reachable.2.le⟩
    rw [direction, if_pos rfl]
    exact reachable.1

/-- The amounts of a swap that has ended. -/
def SwapState.amounts (amount : Int) (final : SwapState) : Int × Int :=
  if 0 < amount then (amount - final.remaining, final.calculated)
  else (final.calculated, final.remaining - amount)

theorem simulate_eq (given : planSwap pool token amount limit = .ok plan) :
    simulate pool token amount limit =
      (plan.run SwapPlan.roundLimit (plan.start amount)).map (SwapState.amounts amount) := by
  by_cases none : amount = 0
  · subst none
    rw [SwapPlan.run_of_done (.inl rfl)]
    rfl
  · rw [simulate, if_neg none, given, ok_bind]
    cases plan.run SwapPlan.roundLimit (plan.start amount) with
    | error fault => rfl
    | ok final =>
      rw [ok_bind]
      unfold SwapState.amounts
      split <;> rfl

/-- The walk of a swap ends over any ticks, marks and changes, and from any tick. Its end, a state
or a fault, is that of the swap: the bound on the rounds is never met. Each round uses up the
request, meets the limit, or moves the tick on. -/
theorem swap_finishes (spacing_pos : 1 ≤ pool.tickSpacing) (liquidity_nonneg : 0 ≤ pool.liquidity)
    (fee_nonneg : 0 ≤ pool.feePips) (price_mem : 0 ≤ pool.sqrtPrice ∧ pool.sqrtPrice < 2 ^ 160)
    (given : planSwap pool token amount limit = .ok plan) :
    (∃ result, plan.Finishes (plan.start amount) result ∧
      simulate pool token amount limit = result.map (SwapState.amounts amount)) ∧
    ∀ state after, plan.Reaches (plan.start amount) state → ¬ plan.isDone state →
      plan.advance state = .ok after →
        after.remaining = 0 ∨ after.price = plan.limit ∨
          if plan.zeroForOne then after.tick < state.tick else state.tick < after.tick := by
  obtain ⟨bound, within⟩ := planSwap_bound spacing_pos fee_nonneg price_mem given
  have simulated := simulate_eq given
  obtain ⟨rfl, exactIn_eq, -⟩ := planSwap_ok given
  have word : (2 ^ 160 : Int) = priceWordMax + 1 := by decide
  have keeps (price_pos : 0 < plan.pool.sqrtPrice) : plan.Keeps amount (plan.start amount) :=
    SwapPlan.keeps_first ⟨price_pos, by omega⟩ liquidity_nonneg exactIn_eq
  refine ⟨⟨_, ?_, simulated⟩, ?_⟩
  · rcases price_mem.1.eq_or_lt with none | price_pos
    · refine SwapPlan.finishes_of_stuck (fun after step => ?_) (2 * 887272 + 7)
      have price_pos : 0 < plan.pool.sqrtPrice := bound.price_pos price_mem.1 step
      omega
    · exact SwapPlan.finishes_run bound (keeps price_pos) within
        (.inr (SwapPlan.roundsAhead_lt_roundLimit _))
  · intro state after reaches undone step
    obtain ⟨second, first_step⟩ := reaches.first step
    have price_pos : 0 < plan.pool.sqrtPrice := bound.price_pos price_mem.1 first_step
    obtain ⟨keeps', within'⟩ := reaches.on_course bound (keeps price_pos) within
    obtain ⟨-, progress⟩ := keeps'.progress bound within' undone step
    rcases progress with done | passes
    · exact done.imp_right .inl
    · exact .inr (.inr passes.moves)

/-- A pool whose tick is far beyond the range and whose price is that of another. -/
def strayPool : Pool := { onePosition with tick := 10 ^ 9, ticks := [(7, 5)], bitmap := [(3, -1)] }

/-- A sale first reaches the upper end of the range, for which it pays in the other token, and then
falls to the limit. -/
theorem swap_finishes_stray :
    ∃ plan final, planSwap strayPool strayPool.token0 (10 ^ 40) (some (tickPrice (-5))) = .ok plan ∧
      plan.Finishes (plan.start (10 ^ 40)) (.ok final) ∧
      final.amounts (10 ^ 40) =
        (18501555377229391705430575748214645970, 18446050711097703530314283958476250651) := by
  have given : planSwap strayPool strayPool.token0 (10 ^ 40) (some (tickPrice (-5))) =
      .ok ⟨strayPool, true, true, tickPrice (-5)⟩ := rfl
  have amounts : simulate strayPool strayPool.token0 (10 ^ 40) (some (tickPrice (-5))) =
      .ok (18501555377229391705430575748214645970, 18446050711097703530314283958476250651) := by
    apply ok_of_toOption
    decide +kernel
  obtain ⟨⟨result, finishes, simulated⟩, -⟩ :=
    swap_finishes (by decide) (by decide) (by decide) (by decide) given
  rw [amounts] at simulated
  cases result with
  | error fault => cases simulated
  | ok final => exact ⟨_, final, given, finishes, (Except.ok.inj simulated).symm⟩

end OrderDesk
