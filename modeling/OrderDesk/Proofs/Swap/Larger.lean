import OrderDesk.Proofs.Swap.Totals

/-!
# Larger swaps

A larger amount moves the price no less far, also where the less exact formula takes over from the
other. Two requests of one kind take the same steps until the smaller one is met.

* `priceAfterInput_mono`: a larger payment leads no less far.
* `StepLe.of_input`, `StepLe.of_output`: the step for the larger amount takes in and hands out no
  less, and is the same unless the smaller amount is used up.
* `simulate_mono`: the same of whole swaps.
-/

namespace OrderDesk

/-! ## Prices that larger amounts reach -/

section Prices

variable {zeroForOne : Bool} {price liquidity amount more near far : Int}

theorem depthAfter_mono (le : amount ≤ more) :
    depthAfter price liquidity amount ≤ depthAfter price liquidity more := by
  have le' : (amount : ℚ) ≤ more := by exact_mod_cast le
  have floor_le := Int.floor_le ((liquidity * q96 : ℚ) / price)
  unfold depthAfter
  split
  · rename_i exact
    split
    · linarith
    · -- The depth loses less than one in becoming whole, and the payments differ by one or more.
      rename_i inexact
      have ne : amount ≠ more := by
        rintro rfl
        exact inexact exact
      have succ_le : (amount : ℚ) + 1 ≤ more := by exact_mod_cast lt_of_le_of_ne le ne
      linarith [Int.lt_floor_add_one ((liquidity * q96 : ℚ) / price)]
  · split <;> linarith

theorem priceAfterInput_mono (small : price ≤ priceWordMax) (nonneg : 0 ≤ amount)
    (le : amount ≤ more) (given : priceAfterInput price liquidity amount zeroForOne = .ok near)
    (given' : priceAfterInput price liquidity more zeroForOne = .ok far) :
    Toward zeroForOne near far := by
  unfold priceAfterInput at given given'
  split at given
  · cases given
  · rename_i positive
    rw [if_neg positive] at given'
    have pos : 0 < price := by omega
    have liquid : 0 < liquidity := by omega
    cases zeroForOne with
    | true =>
      rw [if_pos rfl, nextPrice0_add pos small liquid nonneg, Except.ok.injEq] at given
      rw [if_pos rfl, nextPrice0_add pos small liquid (nonneg.trans le), Except.ok.injEq] at given'
      have pos' : (0 : ℚ) < price := by exact_mod_cast pos
      have depth_pos : 0 < depthAfter price liquidity amount :=
        (div_pos (scaled_pos liquid) pos').trans_le (le_depthAfter nonneg)
      rw [toward_down, ← given, ← given']
      exact Int.ceil_le_ceil (div_le_div_of_nonneg_left (scaled_pos liquid).le depth_pos
        (depthAfter_mono le))
    | false =>
      rw [if_neg Bool.false_ne_true, nextPrice1_add_eq_ok pos liquid nonneg] at given
      rw [if_neg Bool.false_ne_true, nextPrice1_add_eq_ok pos liquid (nonneg.trans le)] at given'
      have liquid' : (0 : ℚ) < liquidity := by exact_mod_cast liquid
      have le' : (amount : ℚ) ≤ more := by exact_mod_cast le
      have floors : ⌊(amount * q96 : ℚ) / liquidity⌋ ≤ ⌊(more * q96 : ℚ) / liquidity⌋ :=
        Int.floor_le_floor (div_le_div_of_nonneg_right
          (mul_le_mul_of_nonneg_right le' q96_pos.le) liquid'.le)
      rw [toward_up, ← given.1, ← given'.1]
      omega

theorem netOfFee_mono {remaining larger fee : Int} (fee_lt : fee < pipsDenominator)
    (le : remaining ≤ larger) : netOfFee remaining fee ≤ netOfFee larger fee :=
  le_netOfFee_iff.mpr ((le_netOfFee_iff.mp le_rfl).trans
    (mul_le_mul_of_nonneg_right le (sub_pos.mpr fee_lt).le))

theorem ceilDiv_mono {x y z : Int} (pos : 0 < z) (le : x ≤ y) : ceilDiv x z ≤ ceilDiv y z :=
  (ceilDiv_le_iff pos).mpr (le.trans ((ceilDiv_le_iff pos).mp le_rfl))

end Prices

/-! ## How a step ends -/

section Steps

variable {current target liquidity remaining more fee : Int} {step larger : SwapStep}

/-- A payment reaches the target if it covers that; else all of it is spent on the way. -/
theorem StepParts.input_cases (parts : StepParts current target liquidity remaining fee step)
    (contract : StepContract current target liquidity remaining fee step) (pos : 0 < current)
    (small : current ≤ priceWordMax) (target_pos : 0 < target) (exactInput : 0 ≤ remaining) :
    (⌈exactIn (decide (target ≤ current)) current target liquidity⌉ ≤ netOfFee remaining fee ∧
        step.price = target) ∨
      0 ≤ netOfFee remaining fee ∧
      netOfFee remaining fee < ⌈exactIn (decide (target ≤ current)) current target liquidity⌉ ∧
        priceAfterInput current liquidity (netOfFee remaining fee) (decide (target ≤ current)) =
          .ok step.price ∧
        step.UsesUp remaining := by
  obtain ⟨net_nonneg, reached | ⟨short, price_ok⟩⟩ :=
    stepPrice_input pos target_pos exactInput parts.price_ok
  · exact .inl reached
  · have paid := priceAfterInput_ok small net_nonneg price_ok
    have different := (paid.short target target_pos toward_decide (Int.lt_ceil.mp short)).1
    exact .inr ⟨net_nonneg, short, price_ok, contract.usesUp different⟩

/-- A purchase reaches the target if no more is for sale before it; else it is met on the way, or by
rounding on the target itself. -/
theorem StepParts.output_cases (parts : StepParts current target liquidity remaining fee step)
    (pos : 0 < current) (small : current ≤ priceWordMax) (target_pos : 0 < target)
    (exactOutput : remaining < 0) :
    (⌊exactOut (decide (target ≤ current)) current target liquidity⌋ ≤ -remaining ∧
        step.price = target ∧
        step.amountOut = ⌊exactOut (decide (target ≤ current)) current target liquidity⌋) ∨
      (-remaining < ⌊exactOut (decide (target ≤ current)) current target liquidity⌋ ∧
        BoughtTo (decide (target ≤ current)) current liquidity (-remaining) step.price ∧
        step.amountOut = -remaining) := by
  have out_eq := parts.amountOut_eq
  rw [if_pos exactOutput] at out_eq
  obtain ⟨reached, here⟩ | ⟨more, price_ok⟩ :=
    stepPrice_output pos target_pos exactOutput parts.price_ok
  · refine .inl ⟨reached, here, ?_⟩
    rw [out_eq, here, min_eq_left reached]
  · have bought := priceAfterOutput_ok small (by omega) price_ok
    refine .inr ⟨more, bought, ?_⟩
    rw [out_eq, min_eq_right (Int.le_floor.mpr bought.released)]

/-- Two steps that end on their target and hand out alike are one. -/
theorem StepParts.eq_of_reached (parts : StepParts current target liquidity remaining fee step)
    (parts' : StepParts current target liquidity more fee larger) (reached : step.price = target)
    (reached' : larger.price = target) (out_eq : step.amountOut = larger.amountOut) :
    step = larger := by
  have in_eq : step.amountIn = larger.amountIn := by
    rw [parts.amountIn_eq, parts'.amountIn_eq, reached, reached']
  have fee_eq : step.fee = larger.fee := by
    rw [parts.fee_eq, parts'.fee_eq, if_neg fun short => short.2 reached,
      if_neg fun short => short.2 reached', in_eq]
  cases step
  cases larger
  simp_all

/-- What a payment does not cover costs more than the payment. -/
theorem StepContract.lt_paid (contract : StepContract current target liquidity more fee larger)
    (fee_lt : fee < pipsDenominator) (short : netOfFee remaining fee < larger.amountIn) :
    remaining < larger.amountIn + larger.fee := by
  have covers := contract.fee_covers
  have short' := mt le_netOfFee_iff.mpr (not_le.mpr short)
  have product : remaining * (pipsDenominator - fee) <
      (larger.amountIn + larger.fee) * (pipsDenominator - fee) := by linarith
  exact lt_of_mul_lt_mul_right product (sub_pos.mpr fee_lt).le

/-! ## Steps for a smaller and a larger amount -/

/-- One step outdone by another of its kind: they are the same unless the first uses up what it had. -/
structure StepLe (remaining : Int) (step larger : SwapStep) : Prop where
  same_or_last : step = larger ∨ step.UsesUp remaining
  paid_le : step.amountIn + step.fee ≤ larger.amountIn + larger.fee
  bought_le : step.amountOut ≤ larger.amountOut

theorem StepLe.refl (remaining : Int) (step : SwapStep) : StepLe remaining step step :=
  ⟨.inl rfl, le_rfl, le_rfl⟩

theorem StepContract.bought_le (contract : StepContract current target liquidity remaining fee step)
    (contract' : StepContract current target liquidity more fee larger) (pos : 0 < current)
    (target_pos : 0 < target) (nonneg : 0 ≤ liquidity) (exactInput : 0 ≤ remaining)
    (exactInput' : 0 ≤ more)
    (further : Toward (decide (target ≤ current)) step.price larger.price) :
    step.amountOut ≤ larger.amountOut := by
  have between := contract'.between
  rw [contract.amountOut_eq, contract'.amountOut_eq, if_neg (not_lt.mpr exactInput),
    if_neg (not_lt.mpr exactInput')]
  exact Int.floor_le_floor (exactOut_mono pos (by omega) nonneg contract.toward further)

variable (pos : 0 < current) (small : current ≤ priceWordMax) (target_pos : 0 < target)
  (nonneg : 0 ≤ liquidity) (fee_nonneg : 0 ≤ fee)

include pos small target_pos nonneg fee_nonneg

theorem StepLe.of_input (exactInput : 0 ≤ remaining) (le : remaining ≤ more)
    (given : swapStep current target liquidity remaining fee = .ok step)
    (given' : swapStep current target liquidity more fee = .ok larger) :
    StepLe remaining step larger := by
  have parts := swapStep_parts pos small target_pos given
  have parts' := swapStep_parts pos small target_pos given'
  have contract := swapStep_ok pos small target_pos nonneg fee_nonneg given
  have contract' := swapStep_ok pos small target_pos nonneg fee_nonneg given'
  have exactInput' := exactInput.trans le
  have nets := netOfFee_mono parts.fee_lt le
  have ends' := parts'.input_cases contract' pos small target_pos exactInput'
  obtain ⟨reached, here⟩ | ⟨net_nonneg, short, price_ok, usesUp⟩ :=
    parts.input_cases contract pos small target_pos exactInput
  · obtain ⟨-, here'⟩ | ⟨-, short', -⟩ := ends'
    · have out_eq : step.amountOut = larger.amountOut := by
        rw [contract.amountOut_eq, contract'.amountOut_eq, if_neg (not_lt.mpr exactInput),
          if_neg (not_lt.mpr exactInput'), here, here']
      exact parts.eq_of_reached parts' here here' out_eq ▸ .refl _ _
    · omega
  · have paid := priceAfterInput_ok small net_nonneg price_ok
    have within := (paid.short target target_pos toward_decide (Int.lt_ceil.mp short)).2
    have spent : step.amountIn + step.fee = remaining := by
      simpa [SwapStep.UsesUp, exactInput] using usesUp
    obtain ⟨further, paid_le⟩ : Toward (decide (target ≤ current)) step.price larger.price ∧
        remaining ≤ larger.amountIn + larger.fee := by
      obtain ⟨-, here'⟩ | ⟨-, -, price_ok', usesUp'⟩ := ends'
      · rw [here']
        refine ⟨within, (contract'.lt_paid parts.fee_lt ?_).le⟩
        rwa [contract'.amountIn_eq, here']
      · rw [SwapStep.UsesUp, if_pos exactInput'] at usesUp'
        exact ⟨priceAfterInput_mono small net_nonneg nets price_ok price_ok', by omega⟩
    exact ⟨.inr usesUp, spent.trans_le paid_le, contract.bought_le contract' pos target_pos nonneg
      exactInput exactInput' further⟩

theorem StepLe.of_output (exactOutput : remaining < 0) (le : more ≤ remaining)
    (given : swapStep current target liquidity remaining fee = .ok step)
    (given' : swapStep current target liquidity more fee = .ok larger) :
    StepLe remaining step larger := by
  have parts := swapStep_parts pos small target_pos given
  have parts' := swapStep_parts pos small target_pos given'
  have contract := swapStep_ok pos small target_pos nonneg fee_nonneg given
  have contract' := swapStep_ok pos small target_pos nonneg fee_nonneg given'
  have between' := contract'.between
  have larger_pos : 0 < larger.price := by omega
  have exactOutput' := le.trans_lt exactOutput
  have ends' := parts'.output_cases pos small target_pos exactOutput'
  obtain ⟨reached, here, out_eq⟩ | ⟨more_offered, bought, out_eq⟩ :=
    parts.output_cases pos small target_pos exactOutput
  · obtain ⟨-, here', out_eq'⟩ | ⟨more_offered', -, -⟩ := ends'
    · exact parts.eq_of_reached parts' here here' (out_eq.trans out_eq'.symm) ▸ .refl _ _
    · omega
  · obtain ⟨enough, bought_le⟩ : ((-remaining : Int) : ℚ) ≤
        exactOut (decide (target ≤ current)) current larger.price liquidity ∧
        -remaining ≤ larger.amountOut := by
      obtain ⟨-, here', out_eq'⟩ | ⟨-, bought', out_eq'⟩ := ends'
      · rw [here', out_eq']
        exact ⟨Int.le_floor.mp more_offered.le, more_offered.le⟩
      · have le' : -remaining ≤ -more := by omega
        exact ⟨(Int.cast_le.mpr le').trans bought'.released, by omega⟩
    have further := bought.nearest larger.price larger_pos contract'.toward enough
    have in_le : step.amountIn ≤ larger.amountIn := by
      rw [contract.amountIn_eq, contract'.amountIn_eq]
      exact Int.ceil_le_ceil (exactIn_mono pos larger_pos nonneg contract.toward further)
    have fee_le : step.fee ≤ larger.fee := by
      rw [parts.fee_eq, parts'.fee_eq, if_neg (by omega), if_neg (by omega)]
      exact ceilDiv_mono (sub_pos.mpr parts.fee_lt) (mul_le_mul_of_nonneg_right in_le fee_nonneg)
    refine ⟨.inr ?_, add_le_add in_le fee_le, out_eq.trans_le bought_le⟩
    rwa [SwapStep.UsesUp, if_neg (not_le.mpr exactOutput)]

end Steps

/-! ## Whole swaps -/

variable {plan : SwapPlan} {state other final otherFinal : SwapState} {small large : Int}

theorem SwapPlan.Keeps.leftOf (keeps : plan.Keeps small state)
    (abreast : plan.Abreast plan.exactIn small large state other)
    (order : plan.LeftOf large small) : plan.LeftOf other.remaining state.remaining := by
  have left := keeps.left
  have paid_eq := abreast.paid_eq
  have bought_eq := abreast.bought_eq
  unfold LeftOf at *
  unfold paid at paid_eq
  unfold bought at bought_eq
  cases exactIn : plan.exactIn with
  | true =>
    simp only [exactIn, if_true] at left order paid_eq ⊢
    omega
  | false =>
    simp only [exactIn, Bool.false_eq_true, if_false] at left order bought_eq ⊢
    omega

theorem SwapPlan.Keeps.stepLe {target : Int} {step larger : SwapStep}
    (keeps : plan.Keeps small state) (undone : ¬ plan.isDone state)
    (left : plan.LeftOf other.remaining state.remaining) (target_pos : 0 < target)
    (fee_nonneg : 0 ≤ plan.pool.feePips)
    (given : swapStep state.price target state.liquidity state.remaining plan.pool.feePips =
      .ok step)
    (given' : swapStep state.price target state.liquidity other.remaining plan.pool.feePips =
      .ok larger) : StepLe state.remaining step larger := by
  obtain ⟨⟨price_pos, price_small⟩, liquidity_nonneg, -, -⟩ := keeps
  have some : state.remaining ≠ 0 := fun none => undone (.inl none)
  unfold LeftOf at left
  cases exactIn : plan.exactIn with
  | true =>
    rw [exactIn, if_pos rfl] at left
    exact .of_input price_pos price_small target_pos liquidity_nonneg fee_nonneg left.1 left.2
      given given'
  | false =>
    rw [exactIn, if_neg Bool.false_ne_true] at left
    exact .of_output price_pos price_small target_pos liquidity_nonneg fee_nonneg (by omega)
      left.1 given given'

/-- The two swaps take the same steps until the smaller is done, or its last step is outdone. -/
theorem SwapPlan.Ends.totals_le (ends : plan.Ends state final)
    (ends' : plan.Ends other otherFinal)
    (limit_mem : minPrice < plan.limit ∧ plan.limit < maxPrice)
    (fee_nonneg : 0 ≤ plan.pool.feePips) (keeps : plan.Keeps small state)
    (keeps' : plan.Keeps large other) (order : plan.LeftOf large small)
    (abreast : plan.Abreast plan.exactIn small large state other) :
    plan.paid small final ≤ plan.paid large otherFinal ∧
      plan.bought small final ≤ plan.bought large otherFinal := by
  induction ends generalizing other with
  | done =>
    have grows := ends'.grows limit_mem fee_nonneg keeps'
    exact ⟨abreast.paid_eq.trans_le grows.paid_le, abreast.bought_eq.trans_le grows.bought_le⟩
  | @advance state after final undone given ends ih =>
    have left := keeps.leftOf abreast order
    cases ends' with
    | done done' =>
      refine absurd (done'.imp (fun none => ?_) abreast.price_eq.trans) undone
      unfold LeftOf at left
      split at left <;> omega
    | @advance _ otherAfter _ undone' given' ends' =>
      obtain ⟨found, initialized, step, larger, -, step_ok, larger_ok, lands, lands'⟩ :=
        advance_together abreast.toSamePlace given
          (given' : (plan.withMode plan.exactIn).advance other = _)
      have target_pos := (SwapPlan.target_mem found limit_mem).1
      have le := keeps.stepLe undone left target_pos fee_nonneg step_ok larger_ok
      have now := advance_keeps limit_mem fee_nonneg keeps undone given
      have now' := advance_keeps limit_mem fee_nonneg keeps' undone' given'
      rcases le.same_or_last with rfl | usesUp
      · exact ih ends' now now' (abreast.next lands lands')
      · rw [ends.eq_of_done (lands.done_of_usesUp keeps.left undone usesUp)]
        have grows := ends'.grows limit_mem fee_nonneg now'
        exact ⟨(abreast.paid_le lands lands' le.paid_le).trans grows.paid_le,
          (abreast.bought_le lands lands' le.bought_le).trans grows.bought_le⟩

variable {pool : Pool} {token : Address} {limit : Option Int}
  {smallIn smallOut largeIn largeOut : Int}

/-- Of two requests of one kind for one pool, direction and limit, the larger is quoted no less of
either token. -/
theorem simulate_mono (liquidity_nonneg : 0 ≤ pool.liquidity) (fee_nonneg : 0 ≤ pool.feePips)
    (tick_mem : minTick ≤ pool.tick ∧ pool.tick < maxTick)
    (price_mem : tickPrice pool.tick ≤ pool.sqrtPrice ∧ pool.sqrtPrice ≤ tickPrice (pool.tick + 1))
    (larger : 0 < small ∧ small ≤ large ∨ large ≤ small ∧ small < 0)
    (quoted : simulate pool token small limit = .ok (smallIn, smallOut))
    (quoted' : simulate pool token large limit = .ok (largeIn, largeOut)) :
    smallIn ≤ largeIn ∧ smallOut ≤ largeOut := by
  obtain ⟨plan, final, plan_ok, ends, rfl, rfl⟩ := simulate_totals (by omega) quoted
  obtain ⟨plan', final', plan'_ok, ends', rfl, rfl⟩ := simulate_totals (by omega) quoted'
  obtain ⟨rfl, exactIn_eq, reachable⟩ := planSwap_ok plan_ok
  have exactIn_eq' : plan.exactIn = decide (0 < large) := by
    rw [exactIn_eq]
    exact decide_eq_decide.mpr (by omega)
  have mode := planSwap_withMode plan_ok large
  rw [← exactIn_eq'] at mode
  obtain rfl : plan = plan' := Except.ok.inj (mode.symm.trans plan'_ok)
  have bounds := price_bounds tick_mem price_mem
  have order : plan.LeftOf large small := by
    rw [SwapPlan.LeftOf, exactIn_eq]
    by_cases paid : 0 < small
    · rw [if_pos (decide_eq_true paid)]
      omega
    · rw [decide_eq_false paid, if_neg Bool.false_ne_true]
      omega
  exact ends.totals_le ends' (limitReachable_mem bounds reachable) fee_nonneg
    (SwapPlan.keeps_start bounds liquidity_nonneg exactIn_eq)
    (SwapPlan.keeps_start bounds liquidity_nonneg exactIn_eq') order SwapPlan.abreast_start

/-- A sale that ends inside the position against one that leaves it at its lower end and meets the
limit. -/
theorem simulate_mono_onePosition :
    ∃ smallOut largeIn largeOut,
      simulate onePosition onePosition.token0 (10 ^ 16) (some (tickPrice (-1200))) =
        .ok (10 ^ 16, smallOut) ∧
      simulate onePosition onePosition.token0 (10 ^ 30) (some (tickPrice (-1200))) =
        .ok (largeIn, largeOut) ∧
      largeIn < 10 ^ 30 ∧ 10 ^ 16 ≤ largeIn ∧ smallOut ≤ largeOut := by
  have quoted : simulate onePosition onePosition.token0 (10 ^ 16) (some (tickPrice (-1200))) =
      .ok (10 ^ 16, 9871580343970612) := by
    apply ok_of_toOption
    decide +kernel
  have quoted' : simulate onePosition onePosition.token0 (10 ^ 30) (some (tickPrice (-1200))) =
      .ok (30544622242640681, 29553010879137169) := by
    apply ok_of_toOption
    decide +kernel
  have le := simulate_mono (by decide) (by decide) (by decide) (by decide)
    (.inl ⟨by norm_num, by norm_num⟩) quoted quoted'
  exact ⟨_, _, _, quoted, quoted', by norm_num, le⟩

end OrderDesk
