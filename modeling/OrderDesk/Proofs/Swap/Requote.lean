import OrderDesk.Proofs.Swap.Larger
import OrderDesk.Proofs.Swap.Success

/-!
# Paying what a purchase was quoted

A purchase is quoted what each of its steps takes in, with the fee of each. A payment of that much
takes the same steps: the fee that a step sets aside leaves at least what the purchase took in there.
Only the less exact formula for a payment of token 0 may let the last step end earlier.

* `inexactStep`: whether a step takes that formula.
* `swapStep_requote`: a payment that covers the cost of a purchase in one step hands out no less.
* `SwapPlan.Reaches.not_inexactAt`: a payment of up to `2 ^ 95` never takes it.
* `simulate_requote`: the same as `swapStep_requote` of whole swaps.
-/

namespace OrderDesk

/-! ## The less exact formula -/

/-- Whether a payment of token 0 is too large for the exact formula. -/
def inexactPayment (price liquidity amount : Int) : Prop :=
  amount ≠ 0 ∧ ¬ (amount * price ≤ wordMax ∧ liquidity * q96 + amount * price ≤ wordMax)

/-- Whether a step spends a payment of token 0 that does not reach the target and is too large for
the exact formula. -/
def inexactStep (current target liquidity remaining fee : Int) : Prop :=
  target ≤ current ∧ 0 ≤ remaining ∧ ∃ spendable needed,
    mulDiv .down remaining (pipsDenominator - fee) pipsDenominator = .ok spendable ∧
      paidIn true target current liquidity = .ok needed ∧ spendable < needed ∧
      inexactPayment current liquidity spendable

def SwapPlan.inexactAt (plan : SwapPlan) (state : SwapState) : Prop :=
  ∃ found initialized,
    plan.pool.bitmap.nextTick state.tick plan.pool.tickSpacing plan.zeroForOne =
        .ok (found, initialized) ∧
      inexactStep state.price (plan.target (tickPrice (clampTick found))) state.liquidity
        state.remaining plan.pool.feePips

section Steps

variable {zeroForOne : Bool} {price current target liquidity remaining payment amount fee next : Int}
  {step paying : SwapStep}

theorem not_inexactPayment (price_mem : 0 ≤ price ∧ price ≤ priceWordMax)
    (small : amount ≤ 2 ^ 95) (liquidity_lt : liquidity < 2 ^ 128) :
    ¬ inexactPayment price liquidity amount := by
  have product : amount * price ≤ 2 ^ 95 * priceWordMax :=
    mul_le_mul small price_mem.2 price_mem.1 (by norm_num)
  have scaled : liquidity * q96 ≤ (2 ^ 128 - 1) * q96 :=
    mul_le_mul_of_nonneg_right (by omega) (by decide)
  have word : (2 ^ 128 - 1) * q96 + 2 ^ 95 * priceWordMax ≤ wordMax := by decide
  have scale : 0 ≤ (2 ^ 128 - 1) * q96 := by decide
  exact fun inexact => inexact.2 ⟨by omega, by omega⟩

theorem depthAfter_of_exact (exact : ¬ inexactPayment price liquidity amount) :
    depthAfter price liquidity amount = (liquidity * q96 : ℚ) / price + amount := by
  have condition : amount = 0 ∨
      amount * price ≤ wordMax ∧ liquidity * q96 + amount * price ≤ wordMax := by
    by_contra neither
    exact exact (not_or.mp neither)
  rw [depthAfter, if_pos condition]

/-- An exactly priced payment reaches every price that it covers. -/
theorem priceAfterInput_reaches (small : price ≤ priceWordMax) (nonneg : 0 ≤ amount)
    (exact : zeroForOne = true → ¬ inexactPayment price liquidity amount)
    (given : priceAfterInput price liquidity amount zeroForOne = .ok next) (target_pos : 0 < target)
    (toward : Toward zeroForOne price target)
    (covered : exactIn zeroForOne price target liquidity ≤ amount) :
    Toward zeroForOne target next := by
  unfold priceAfterInput at given
  split at given
  · cases given
  · rename_i positive
    have pos : 0 < price := by omega
    have liquid : 0 < liquidity := by omega
    cases zeroForOne with
    | true =>
      rw [if_pos rfl, nextPrice0_add pos small liquid nonneg, Except.ok.injEq,
        depthAfter_of_exact (exact rfl)] at given
      rw [exactIn, if_pos rfl, exactAmount0_comm,
        exactAmount0_eq_sub liquidity target_pos toward] at covered
      have target_pos' : (0 : ℚ) < target := by exact_mod_cast target_pos
      have depth_ge : (liquidity * q96 : ℚ) / target ≤ liquidity * q96 / price + amount := by
        linarith
      have depth_pos := (div_pos (scaled_pos liquid) target_pos').trans_le depth_ge
      rw [toward_down, ← given, Int.ceil_le, div_le_iff₀ depth_pos, ← div_le_iff₀' target_pos']
      exact depth_ge
    | false =>
      rw [if_neg Bool.false_ne_true, nextPrice1_add_eq_ok pos liquid nonneg] at given
      have liquid' : (0 : ℚ) < liquidity := by exact_mod_cast liquid
      rw [exactIn, if_neg Bool.false_ne_true, exactAmount1_of_le liquidity toward,
        div_le_iff₀ q96_pos] at covered
      have floor_ge : target - price ≤ ⌊(amount * q96 : ℚ) / liquidity⌋ := by
        rw [Int.le_floor, le_div_iff₀' liquid']
        exact_mod_cast covered
      rw [toward_up, ← given.1]
      omega

theorem exact_of_step (exact : ¬ inexactStep current target liquidity remaining fee)
    (pos : 0 < current) (target_pos : 0 < target) (exactInput : 0 ≤ remaining)
    (given : stepPrice current target liquidity remaining fee = .ok next)
    (short : netOfFee remaining fee <
      ⌈exactIn (decide (target ≤ current)) current target liquidity⌉)
    (down : decide (target ≤ current) = true) :
    ¬ inexactPayment current liquidity (netOfFee remaining fee) := by
  unfold stepPrice at given
  rw [if_pos exactInput] at given
  obtain ⟨spendable, spendable_ok, given⟩ := bind_eq_ok.mp given
  obtain ⟨needed, needed_ok, -⟩ := bind_eq_ok.mp given
  obtain ⟨rfl, -⟩ := netOfFee_eq spendable_ok
  have needed_eq := paidIn_ok target_pos pos needed_ok
  rw [exactIn_comm] at needed_eq
  rw [← needed_eq] at short
  rw [down] at needed_ok
  intro inexact
  exact exact ⟨of_decide_eq_true down, exactInput, _, _, spendable_ok, needed_ok, short, inexact⟩

/-! ## Steps -/

/-- The fee that a payment sets aside leaves what the step takes in whose cost it covers. -/
theorem StepContract.amountIn_le_netOfFee
    (contract : StepContract current target liquidity remaining fee step)
    (fee_lt : fee < pipsDenominator) (enough : step.amountIn + step.fee ≤ payment) :
    step.amountIn ≤ netOfFee payment fee := by
  have covers := contract.fee_covers
  have product : (step.amountIn + step.fee) * (pipsDenominator - fee) ≤
      payment * (pipsDenominator - fee) :=
    mul_le_mul_of_nonneg_right enough (sub_pos.mpr fee_lt).le
  exact le_netOfFee_iff.mpr (by linarith)

theorem swapStep_requote (pos : 0 < current) (small : current ≤ priceWordMax)
    (target_pos : 0 < target) (nonneg : 0 ≤ liquidity) (fee_nonneg : 0 ≤ fee)
    (exactOutput : remaining < 0)
    (given : swapStep current target liquidity remaining fee = .ok step)
    (given' : swapStep current target liquidity payment fee = .ok paying)
    (enough : step.amountIn + step.fee ≤ payment)
    (exact : ¬ inexactStep current target liquidity payment fee) :
    (step = paying ∨ step.UsesUp remaining) ∧ step.amountOut ≤ paying.amountOut := by
  have parts := swapStep_parts pos small target_pos given
  have parts' := swapStep_parts pos small target_pos given'
  have contract := swapStep_ok pos small target_pos nonneg fee_nonneg given
  have contract' := swapStep_ok pos small target_pos nonneg fee_nonneg given'
  obtain ⟨in_nonneg, -, charge_nonneg⟩ := contract.nonneg
  have exactInput : 0 ≤ payment := by omega
  have net_ge := contract.amountIn_le_netOfFee parts.fee_lt enough
  have in_eq := contract.amountIn_eq
  have out_eq' := contract'.amountOut_eq
  rw [if_neg (not_lt.mpr exactInput)] at out_eq'
  have ends' := parts'.input_cases contract' pos small target_pos exactInput
  obtain ⟨reached, here, out_eq⟩ | ⟨more, bought, out_eq⟩ :=
    parts.output_cases pos small target_pos exactOutput
  · rw [here] at in_eq
    obtain ⟨-, here'⟩ | ⟨-, short', -⟩ := ends'
    · rw [here', ← out_eq] at out_eq'
      have same := parts.eq_of_reached parts' here here' out_eq'.symm
      exact ⟨.inl same, out_eq'.ge⟩
    · omega
  · have between' := contract'.between
    have further : Toward (decide (target ≤ current)) step.price paying.price := by
      obtain ⟨-, here'⟩ | ⟨net_nonneg, short', price_ok', -⟩ := ends'
      · rw [here']
        exact bought.nearest target target_pos toward_decide (Int.le_floor.mp more.le)
      · have covered := contract.exactIn_le_amountIn.trans (Int.cast_le.mpr net_ge)
        exact priceAfterInput_reaches small net_nonneg
          (exact_of_step exact pos target_pos exactInput parts'.price_ok short') price_ok'
          bought.pos contract.toward covered
    have released := bought.released.trans
      (exactOut_mono pos (by omega) nonneg contract.toward further)
    refine ⟨.inr ?_, ?_⟩
    · rwa [SwapStep.UsesUp, if_neg (not_le.mpr exactOutput)]
    · rw [out_eq, out_eq']
      exact Int.le_floor.mpr released

end Steps

/-! ## Whole swaps -/

variable {plan : SwapPlan} {state other final otherFinal : SwapState} {wanted payment : Int}

/-- A payment of up to `2 ^ 95` is priced exactly all the way. -/
theorem SwapPlan.Reaches.not_inexactAt (reaches : plan.Reaches (plan.start payment) state)
    (admissible : plan.Admissible) (bounded : plan.pool.Bounded)
    (exactIn_eq : plan.exactIn = decide (0 < payment)) (small : payment ≤ 2 ^ 95) :
    ¬ plan.inexactAt state := by
  have consistent := admissible.consistent
  have fee_nonneg := admissible.fee_nonneg
  obtain ⟨inv, -⟩ := reaches.holds admissible (admissible.holds_start payment)
  have keeps := reaches.keeps admissible.limit_mem fee_nonneg
    (keeps_start (price_bounds consistent.tick_mem consistent.price_mem)
      consistent.liquidity_nonneg exactIn_eq)
  rintro ⟨found, initialized, -, -, exactInput, spendable, needed, spendable_ok, -, -, inexact⟩
  obtain ⟨rfl, -⟩ := netOfFee_eq spendable_ok
  have left_le := keeps.remaining_le (by norm_num) small
  exact not_inexactPayment ⟨keeps.price_mem.1.le, keeps.price_mem.2⟩
    ((netOfFee_le exactInput fee_nonneg).trans left_le) (inv.liquidity_lt bounded) inexact

theorem SwapPlan.Keeps.remaining_neg (keeps : plan.Keeps wanted state)
    (buying : plan.exactIn = false) (undone : ¬ plan.isDone state) : state.remaining < 0 := by
  have left := keeps.left
  rw [LeftOf, buying, if_neg Bool.false_ne_true] at left
  exact lt_of_le_of_ne left.2 fun none => undone (.inl none)

section Abreast

variable {after : SwapState} {found next : Int} {initialized : Bool} {step : SwapStep}

/-- What is left of a payment of the whole cost covers the next step. -/
theorem SwapPlan.Abreast.cost_le (abreast : plan.Abreast true wanted payment state other)
    (lands : plan.Lands state next initialized step after) (cost : payment = plan.paid wanted final)
    (later : plan.paid wanted after ≤ plan.paid wanted final) :
    step.amountIn + step.fee ≤ other.remaining := by
  have paid_eq := abreast.paid_eq
  rw [lands.paid_eq] at later
  simp only [paid, if_true] at paid_eq later cost
  omega

theorem SwapPlan.Abreast.not_inexactStep (abreast : plan.Abreast true wanted payment state other)
    (search : plan.pool.bitmap.nextTick state.tick plan.pool.tickSpacing plan.zeroForOne =
      .ok (found, initialized)) (exact : ¬ (plan.withMode true).inexactAt other) :
    ¬ inexactStep state.price (plan.target (tickPrice (clampTick found))) state.liquidity
      other.remaining plan.pool.feePips := by
  intro inexact
  rw [abreast.tick_eq] at search
  rw [abreast.price_eq, abreast.liquidity_eq] at inexact
  exact exact ⟨found, initialized, search, inexact⟩

end Abreast

/-- The payment takes the same steps as the purchase until the purchase is done, or its last step is
outdone. What is left of the payment is what the purchase still costs. -/
theorem SwapPlan.Ends.bought_le (ends : plan.Ends state final) (buying : plan.exactIn = false)
    (ends' : (plan.withMode true).Ends other otherFinal)
    (limit_mem : minPrice < plan.limit ∧ plan.limit < maxPrice)
    (fee_nonneg : 0 ≤ plan.pool.feePips) (keeps : plan.Keeps wanted state)
    (keeps' : (plan.withMode true).Keeps payment other) (cost : payment = plan.paid wanted final)
    (exact : ∀ reached, (plan.withMode true).Reaches other reached →
      ¬ (plan.withMode true).isDone reached → ¬ (plan.withMode true).inexactAt reached)
    (abreast : plan.Abreast true wanted payment state other) :
    plan.bought wanted final ≤ (plan.withMode true).bought payment otherFinal := by
  have limit_mem' : minPrice < (plan.withMode true).limit ∧ (plan.withMode true).limit < maxPrice :=
    limit_mem
  induction ends generalizing other with
  | done =>
    exact abreast.bought_eq.trans_le (ends'.grows limit_mem' fee_nonneg keeps').bought_le
  | @advance state after final undone given ends ih =>
    have paid_eq := abreast.paid_eq
    have now := advance_keeps limit_mem fee_nonneg keeps undone given
    have rest := ends.grows limit_mem fee_nonneg now
    have whole := (advance_grows limit_mem fee_nonneg keeps given).trans rest
    cases ends' with
    | done done' =>
      -- With nothing left to pay, the purchase goes on for nothing and gets nothing more.
      obtain none | here := done'
      · have free : plan.paid wanted final = plan.paid wanted state := by
          rw [paid_eq, ← cost]
          simp [paid, none]
        rw [whole.bought_eq free, abreast.bought_eq]
      · exact absurd (.inr (abreast.price_eq.trans here)) undone
    | @advance _ otherAfter _ undone' given' ends' =>
      obtain ⟨found, initialized, step, paying, search, step_ok, paying_ok, lands, lands'⟩ :=
        advance_together abreast.toSamePlace given given'
      have target_pos := (SwapPlan.target_mem found limit_mem).1
      have now' := advance_keeps limit_mem' fee_nonneg keeps' undone' given'
      obtain ⟨same_or_last, bought_le⟩ := swapStep_requote keeps.price_mem.1 keeps.price_mem.2
        target_pos keeps.liquidity_nonneg fee_nonneg (keeps.remaining_neg buying undone) step_ok
        paying_ok (abreast.cost_le lands cost rest.paid_le)
        (abreast.not_inexactStep search (exact other .refl undone'))
      rcases same_or_last with rfl | usesUp
      · exact ih ends' now now' cost (fun reached later => exact reached
          ((SwapPlan.Reaches.refl.advance undone' given').trans later)) (abreast.next lands lands')
      · rw [ends.eq_of_done (lands.done_of_usesUp keeps.left undone usesUp)]
        exact (abreast.bought_le lands lands' bought_le).trans
          (ends'.grows limit_mem' fee_nonneg now').bought_le

variable {pool : Pool} {token : Address} {limit : Option Int} {input output paid received : Int}

/-- Paying what a purchase was quoted costs no more than that and hands out no less than the purchase
was for, unless a step of the payment takes the less exact formula. -/
theorem simulate_requote (liquidity_nonneg : 0 ≤ pool.liquidity) (fee_nonneg : 0 ≤ pool.feePips)
    (tick_mem : minTick ≤ pool.tick ∧ pool.tick < maxTick)
    (price_mem : tickPrice pool.tick ≤ pool.sqrtPrice ∧ pool.sqrtPrice ≤ tickPrice (pool.tick + 1))
    {amount : Int} (some : 0 < amount)
    (quoted : simulate pool token (-amount) limit = .ok (input, output))
    (given : simulate pool token input limit = .ok (paid, received))
    (exact : ∀ plan state, planSwap pool token input limit = .ok plan →
      plan.Reaches (plan.start input) state → ¬ plan.isDone state → ¬ plan.inexactAt state) :
    paid ≤ input ∧ output ≤ received := by
  obtain ⟨plan, final, plan_ok, ends, cost, rfl⟩ := simulate_totals (by omega) quoted
  obtain ⟨rfl, exactIn_eq, reachable⟩ := planSwap_ok plan_ok
  have buying : plan.exactIn = false := by
    rw [exactIn_eq]
    exact decide_eq_false (by omega)
  have bounds := price_bounds tick_mem price_mem
  have limit_mem := limitReachable_mem bounds reachable
  have keeps := SwapPlan.keeps_start bounds liquidity_nonneg exactIn_eq
  have grows := ends.grows limit_mem fee_nonneg keeps
  have input_nonneg : 0 ≤ input := by
    rw [cost, ← plan.paid_start]
    exact grows.paid_le
  rcases input_nonneg.eq_or_lt with rfl | positive
  · obtain ⟨rfl, rfl⟩ := Prod.mk.inj (Except.ok.inj (simulate_zero.symm.trans given))
    have free := grows.bought_eq (by rw [← cost, SwapPlan.paid_start])
    rw [free, SwapPlan.bought_start]
    exact ⟨le_rfl, le_rfl⟩
  · obtain ⟨paying, otherFinal, paying_ok, ends', rfl, rfl⟩ := simulate_totals positive.ne' given
    have mode := planSwap_withMode plan_ok input
    rw [decide_eq_true positive] at mode
    obtain rfl : plan.withMode true = paying := Except.ok.inj (mode.symm.trans paying_ok)
    have keeps' : (plan.withMode true).Keeps input ((plan.withMode true).start input) :=
      SwapPlan.keeps_start bounds liquidity_nonneg (decide_eq_true positive).symm
    refine ⟨ends'.paid_le limit_mem fee_nonneg rfl keeps', ?_⟩
    exact ends.bought_le buying ends' limit_mem fee_nonneg keeps keeps' cost
      (exact _ · paying_ok) SwapPlan.abreast_start

/-- All that the position sells for token 0, up to its lower end, and what paying its price gets. -/
theorem simulate_requote_onePosition :
    ∃ input output paid received,
      simulate onePosition onePosition.token0 (-10 ^ 30) (some (tickPrice (-1200))) =
        .ok (input, output) ∧
      simulate onePosition onePosition.token0 input (some (tickPrice (-1200))) =
        .ok (paid, received) ∧
      output < 10 ^ 30 ∧ paid ≤ input ∧ output ≤ received := by
  have quoted : simulate onePosition onePosition.token0 (-10 ^ 30) (some (tickPrice (-1200))) =
      .ok (30544622242640681, 29553010879137169) := by
    apply ok_of_toOption
    decide +kernel
  have given : simulate onePosition onePosition.token0 30544622242640681
      (some (tickPrice (-1200))) = .ok (30544622242640681, 29553010879137169) := by
    apply ok_of_toOption
    decide +kernel
  have honoured := simulate_requote (by decide) (by decide) (by decide) (by decide)
    (by norm_num : (0 : Int) < 10 ^ 30) quoted given
  refine ⟨_, _, _, _, quoted, given, by norm_num, honoured fun plan state plan_ok reaches _ => ?_⟩
  obtain ⟨pool_eq, exactIn_eq, -⟩ := planSwap_ok plan_ok
  exact reaches.not_inexactAt (planSwap_admissible onePosition_consistent (by decide) plan_ok)
    (pool_eq ▸ onePosition_bounded) exactIn_eq (by norm_num)

end OrderDesk
