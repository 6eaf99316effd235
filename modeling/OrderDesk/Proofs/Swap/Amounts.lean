import OrderDesk.Proofs.Swap.Invariant

/-!
# Amounts of a whole swap

A swap keeps two totals: what is left of the request, and what was calculated for it on the other
side. A round never takes more than what is left. None of this depends on which ticks are marked
and which changes they carry.

* `advance_keeps`: what one round keeps of the totals.
* `simulate_amounts`: neither amount is negative, and the requested one is met exactly unless the
  price stops the swap.
-/

namespace OrderDesk

variable {plan : SwapPlan} {start state after : SwapState} {amount : Int}

/-- What is left of a request lies between nothing and all of it, on the side of its sign. -/
def SwapPlan.LeftOf (plan : SwapPlan) (amount left : Int) : Prop :=
  if plan.exactIn then 0 ≤ left ∧ left ≤ amount else amount ≤ left ∧ left ≤ 0

structure SwapPlan.Keeps (plan : SwapPlan) (amount : Int) (state : SwapState) : Prop where
  price_mem : 0 < state.price ∧ state.price ≤ priceWordMax
  liquidity_nonneg : 0 ≤ state.liquidity
  left : plan.LeftOf amount state.remaining
  calculated_nonneg : 0 ≤ state.calculated

/-! ## One round -/

theorem clampTick_mem (tick : Int) : minTick ≤ clampTick tick ∧ clampTick tick ≤ maxTick := by
  have low_eq := minTick_eq
  have high_eq := maxTick_eq
  unfold clampTick
  omega

theorem limit_word (limit_mem : minPrice < plan.limit ∧ plan.limit < maxPrice) :
    0 < plan.limit ∧ plan.limit ≤ priceWordMax := by
  have low := minPrice_pos
  have high : maxPrice ≤ priceWordMax := by decide
  omega

theorem SwapPlan.target_word (tick : Int) (limit_word : 0 < plan.limit ∧ plan.limit ≤ priceWordMax) :
    0 < plan.target (tickPrice (clampTick tick)) ∧
      plan.target (tickPrice (clampTick tick)) ≤ priceWordMax := by
  have low := minPrice_pos
  have high : maxPrice ≤ priceWordMax := by decide
  obtain ⟨ge, le⟩ := clampTick_mem tick
  have next_mem := tickPrice_mem ge le
  unfold target
  split <;> omega

theorem SwapPlan.target_mem (tick : Int)
    (limit_mem : minPrice < plan.limit ∧ plan.limit < maxPrice) :
    0 < plan.target (tickPrice (clampTick tick)) ∧
      plan.target (tickPrice (clampTick tick)) ≤ priceWordMax :=
  target_word tick (limit_word limit_mem)

theorem SwapPlan.Lands.price_eq {next : Int} {initialized : Bool} {step : SwapStep}
    (lands : plan.Lands state next initialized step after) : after.price = step.price := by
  cases lands <;> exact settle_price step

theorem SwapPlan.Lands.remaining_eq {next : Int} {initialized : Bool} {step : SwapStep}
    (lands : plan.Lands state next initialized step after) :
    after.remaining = (plan.settle state step).remaining := by
  cases lands <;> rfl

theorem SwapPlan.Lands.calculated_eq {next : Int} {initialized : Bool} {step : SwapStep}
    (lands : plan.Lands state next initialized step after) :
    after.calculated = (plan.settle state step).calculated := by
  cases lands <;> rfl

theorem SwapPlan.Lands.liquidity_nonneg {next : Int} {initialized : Bool} {step : SwapStep}
    (lands : plan.Lands state next initialized step after) (nonneg : 0 ≤ state.liquidity) :
    0 ≤ after.liquidity := by
  cases lands with
  | reached here crossed =>
    cases initialized with
    | true => exact (cross_ok crossed).1
    | false =>
      cases crossed
      exact nonneg
  | moved | still => simpa using nonneg

theorem SwapPlan.settle_keeps {target fee : Int} {step : SwapStep} (undone : state.remaining ≠ 0)
    (left : plan.LeftOf amount state.remaining) (calculated_nonneg : 0 ≤ state.calculated)
    (contract : StepContract state.price target state.liquidity state.remaining fee step) :
    plan.LeftOf amount (plan.settle state step).remaining ∧
      0 ≤ (plan.settle state step).calculated := by
  obtain ⟨in_nonneg, out_nonneg, fee_nonneg⟩ := contract.nonneg
  unfold LeftOf settle at *
  cases exactIn : plan.exactIn with
  | true =>
    rw [exactIn, if_pos rfl] at left
    have spent := contract.spent left.1
    simp only [if_true]
    omega
  | false =>
    rw [exactIn, if_neg Bool.false_ne_true] at left
    have bought := contract.bought (by omega)
    simp only [Bool.false_eq_true, if_false]
    omega

/-- The step of a round, whose limit may be any price. -/
theorem SwapPlan.Keeps.contract (keeps : plan.Keeps amount state)
    (limit_word : 0 < plan.limit ∧ plan.limit ≤ priceWordMax) (fee_nonneg : 0 ≤ plan.pool.feePips)
    (given : plan.advance state = .ok after) :
    ∃ found initialized step,
      plan.pool.bitmap.nextTick state.tick plan.pool.tickSpacing plan.zeroForOne =
        .ok (found, initialized) ∧
      (0 < plan.target (tickPrice (clampTick found)) ∧
        plan.target (tickPrice (clampTick found)) ≤ priceWordMax) ∧
      StepContract state.price (plan.target (tickPrice (clampTick found))) state.liquidity
        state.remaining plan.pool.feePips step ∧
      plan.Lands state (clampTick found) initialized step after := by
  obtain ⟨found, initialized, step, search, step_ok, lands⟩ := SwapPlan.advance_cases given
  have target_mem := SwapPlan.target_word found limit_word
  exact ⟨_, _, step, search, target_mem, swapStep_ok keeps.price_mem.1 keeps.price_mem.2
    target_mem.1 keeps.liquidity_nonneg fee_nonneg step_ok, lands⟩

theorem SwapPlan.Keeps.advance (keeps : plan.Keeps amount state)
    (limit_word : 0 < plan.limit ∧ plan.limit ≤ priceWordMax) (fee_nonneg : 0 ≤ plan.pool.feePips)
    (undone : ¬ plan.isDone state) (given : plan.advance state = .ok after) :
    plan.Keeps amount after := by
  obtain ⟨found, initialized, step, -, ⟨target_pos, target_le⟩, contract, lands⟩ :=
    keeps.contract limit_word fee_nonneg given
  obtain ⟨left, calculated⟩ := SwapPlan.settle_keeps (fun none => undone (.inl none)) keeps.left
    keeps.calculated_nonneg contract
  refine ⟨?_, lands.liquidity_nonneg keeps.liquidity_nonneg, ?_, ?_⟩
  · have between := contract.between
    have price_mem := keeps.price_mem
    rw [lands.price_eq]
    omega
  · rwa [lands.remaining_eq]
  · rwa [lands.calculated_eq]

theorem advance_contract (limit_mem : minPrice < plan.limit ∧ plan.limit < maxPrice)
    (fee_nonneg : 0 ≤ plan.pool.feePips) (keeps : plan.Keeps amount state)
    (given : plan.advance state = .ok after) :
    ∃ next initialized step,
      (0 < plan.target (tickPrice next) ∧ plan.target (tickPrice next) ≤ priceWordMax) ∧
      StepContract state.price (plan.target (tickPrice next)) state.liquidity state.remaining
        plan.pool.feePips step ∧
      plan.Lands state next initialized step after := by
  obtain ⟨found, initialized, step, -, target_mem, contract, lands⟩ :=
    keeps.contract (limit_word limit_mem) fee_nonneg given
  exact ⟨clampTick found, initialized, step, target_mem, contract, lands⟩

theorem advance_keeps (limit_mem : minPrice < plan.limit ∧ plan.limit < maxPrice)
    (fee_nonneg : 0 ≤ plan.pool.feePips) (keeps : plan.Keeps amount state)
    (undone : ¬ plan.isDone state) (given : plan.advance state = .ok after) :
    plan.Keeps amount after :=
  keeps.advance (limit_word limit_mem) fee_nonneg undone given

/-! ## All rounds -/

theorem SwapPlan.Reaches.keeps_of_word (reaches : plan.Reaches start state)
    (limit_word : 0 < plan.limit ∧ plan.limit ≤ priceWordMax)
    (fee_nonneg : 0 ≤ plan.pool.feePips) (keeps : plan.Keeps amount start) :
    plan.Keeps amount state := by
  induction reaches with
  | refl => exact keeps
  | advance _ undone given ih => exact ih.advance limit_word fee_nonneg undone given

theorem SwapPlan.Reaches.keeps (reaches : plan.Reaches start state)
    (limit_mem : minPrice < plan.limit ∧ plan.limit < maxPrice)
    (fee_nonneg : 0 ≤ plan.pool.feePips) (keeps : plan.Keeps amount start) :
    plan.Keeps amount state :=
  reaches.keeps_of_word (limit_word limit_mem) fee_nonneg keeps

theorem SwapPlan.keeps_first (price_mem : 0 < plan.pool.sqrtPrice ∧
      plan.pool.sqrtPrice ≤ priceWordMax) (liquidity_nonneg : 0 ≤ plan.pool.liquidity)
    (exactIn_eq : plan.exactIn = decide (0 < amount)) : plan.Keeps amount (plan.start amount) := by
  refine ⟨price_mem, liquidity_nonneg, ?_, le_rfl⟩
  unfold LeftOf start
  by_cases paid : 0 < amount <;> simp [exactIn_eq, paid] <;> omega

theorem SwapPlan.keeps_start (price_mem : minPrice ≤ plan.pool.sqrtPrice ∧
      plan.pool.sqrtPrice ≤ maxPrice) (liquidity_nonneg : 0 ≤ plan.pool.liquidity)
    (exactIn_eq : plan.exactIn = decide (0 < amount)) : plan.Keeps amount (plan.start amount) := by
  have low := minPrice_pos
  have high : maxPrice ≤ priceWordMax := by decide
  exact keeps_first ⟨low.trans_le price_mem.1, price_mem.2.trans high⟩ liquidity_nonneg exactIn_eq

variable {pool : Pool} {token : Address} {limit : Option Int} {amountIn amountOut : Int}

/-- Neither amount of a swap is negative, whatever its ticks. An exact input is never exceeded, nor
is an exact output, and both are met exactly unless the swap ends with its price at the limit. -/
theorem simulate_amounts (liquidity_nonneg : 0 ≤ pool.liquidity) (fee_nonneg : 0 ≤ pool.feePips)
    (tick_mem : minTick ≤ pool.tick ∧ pool.tick < maxTick)
    (price_mem : tickPrice pool.tick ≤ pool.sqrtPrice ∧ pool.sqrtPrice ≤ tickPrice (pool.tick + 1))
    (some : amount ≠ 0) (given : simulate pool token amount limit = .ok (amountIn, amountOut)) :
    0 ≤ amountIn ∧ 0 ≤ amountOut ∧ (0 < amount → amountIn ≤ amount) ∧
      (amount < 0 → amountOut ≤ -amount) ∧
      ∃ plan final, planSwap pool token amount limit = .ok plan ∧
        plan.run SwapPlan.roundLimit (plan.start amount) = .ok final ∧
        (final.price = plan.limit ∨
          (0 < amount → amountIn = amount) ∧ (amount < 0 → amountOut = -amount)) := by
  obtain ⟨plan, final, plan_ok, run_ok, amounts_eq⟩ := simulate_ok some given
  obtain ⟨rfl, exactIn_eq, reachable⟩ := planSwap_ok plan_ok
  have bounds := price_bounds tick_mem price_mem
  obtain ⟨reaches, done⟩ := SwapPlan.run_reaches run_ok
  have keeps := reaches.keeps (limitReachable_mem bounds reachable) fee_nonneg
    (SwapPlan.keeps_start bounds liquidity_nonneg exactIn_eq)
  have left := keeps.left
  have calculated_nonneg := keeps.calculated_nonneg
  rw [SwapPlan.LeftOf, exactIn_eq] at left
  by_cases paid : 0 < amount
  · rw [if_pos paid, Prod.mk.injEq] at amounts_eq
    rw [decide_eq_true paid, if_pos rfl] at left
    refine ⟨by omega, by omega, by omega, by omega, plan, final, plan_ok, run_ok, ?_⟩
    exact done.symm.imp_right fun none => ⟨by omega, by omega⟩
  · rw [if_neg paid, Prod.mk.injEq] at amounts_eq
    rw [decide_eq_false paid, if_neg Bool.false_ne_true] at left
    refine ⟨by omega, by omega, by omega, by omega, plan, final, plan_ok, run_ok, ?_⟩
    exact done.symm.imp_right fun none => ⟨by omega, by omega⟩

/-- A purchase of more than the position holds stops at the limit, beyond the upper end. -/
theorem simulate_amounts_onePosition :
    simulate onePosition onePosition.token1 (-10 ^ 30) (some (tickPrice 700)) =
      .ok (30544622242640681, 29553010879137169) ∧
    ∃ plan final, planSwap onePosition onePosition.token1 (-10 ^ 30) (some (tickPrice 700)) =
        .ok plan ∧
      plan.run SwapPlan.roundLimit (plan.start (-10 ^ 30)) = .ok final ∧
      final.price = plan.limit := by
  have given : simulate onePosition onePosition.token1 (-10 ^ 30) (some (tickPrice 700)) =
      .ok (30544622242640681, 29553010879137169) := by
    apply ok_of_toOption
    decide +kernel
  obtain ⟨-, -, -, -, plan, final, plan_ok, run_ok, stopped⟩ := simulate_amounts (by decide)
    (by decide) (by decide) (by decide) (by norm_num) given
  refine ⟨given, plan, final, plan_ok, run_ok, stopped.resolve_right fun met => ?_⟩
  have all := met.2 (by norm_num)
  norm_num at all

end OrderDesk
