import OrderDesk.Price.Tick
import OrderDesk.Proofs.Price.Reach
import OrderDesk.Swap.Step

/-!
# What a step of a swap keeps to

* `swapStep_parts`: what a step is made of.
* `swapStep_ok`: a step stays between its prices, is exactly rounded, never takes more than what
  remains, and takes all of it if it stops short.
* `swapStep_total`: within the range of prices and at a liquidity of 128 bits, a step never fails.
* `swapStep_contract`: both together.
-/

namespace OrderDesk

/-- What a step from `current` towards `target` keeps to. -/
structure StepContract (current target liquidity remaining fee : Int) (step : SwapStep) :
    Prop where
  between : min current target ≤ step.price ∧ step.price ≤ max current target
  nonneg : 0 ≤ step.amountIn ∧ 0 ≤ step.amountOut ∧ 0 ≤ step.fee
  spent : 0 ≤ remaining → step.amountIn + step.fee ≤ remaining
  spent_all : 0 ≤ remaining → step.price ≠ target → step.amountIn + step.fee = remaining
  bought : remaining < 0 → step.amountOut ≤ -remaining
  bought_all : remaining < 0 → step.price ≠ target → step.amountOut = -remaining
  amountIn_eq : step.amountIn =
    ⌈exactIn (decide (target ≤ current)) current step.price liquidity⌉
  amountOut_eq : step.amountOut =
    if remaining < 0 then
      min ⌊exactOut (decide (target ≤ current)) current step.price liquidity⌋ (-remaining)
    else ⌊exactOut (decide (target ≤ current)) current step.price liquidity⌋
  fee_covers : step.amountIn * fee ≤ step.fee * (pipsDenominator - fee)

variable {zeroForOne : Bool} {current target liquidity remaining fee priceA priceB amount : Int}

/-! ## Amounts of a step -/

theorem exactIn_comm : exactIn zeroForOne priceA priceB liquidity =
    exactIn zeroForOne priceB priceA liquidity := by
  cases zeroForOne
  · exact exactAmount1_comm priceA priceB liquidity
  · exact exactAmount0_comm priceA priceB liquidity

theorem exactOut_eq_exactIn : exactOut zeroForOne priceA priceB liquidity =
    exactIn (!zeroForOne) priceA priceB liquidity := by
  cases zeroForOne <;> rfl

theorem exactOut_comm : exactOut zeroForOne priceA priceB liquidity =
    exactOut zeroForOne priceB priceA liquidity := by
  rw [exactOut_eq_exactIn, exactOut_eq_exactIn, exactIn_comm]

theorem exactIn_nonneg (pos_a : 0 < priceA) (pos_b : 0 < priceB) (nonneg : 0 ≤ liquidity) :
    0 ≤ exactIn zeroForOne priceA priceB liquidity := by
  have pos_a' : (0 : ℚ) < priceA := by exact_mod_cast pos_a
  have pos_b' : (0 : ℚ) < priceB := by exact_mod_cast pos_b
  have nonneg' : (0 : ℚ) ≤ liquidity := by exact_mod_cast nonneg
  have scale := q96_pos
  cases zeroForOne <;> simp only [exactIn, exactAmount0, exactAmount1] <;> positivity

theorem exactOut_nonneg (pos_a : 0 < priceA) (pos_b : 0 < priceB) (nonneg : 0 ≤ liquidity) :
    0 ≤ exactOut zeroForOne priceA priceB liquidity := by
  rw [exactOut_eq_exactIn]
  exact exactIn_nonneg pos_a pos_b nonneg

theorem paidIn_ok (pos_a : 0 < priceA) (pos_b : 0 < priceB)
    (given : paidIn zeroForOne priceA priceB liquidity = .ok amount) :
    amount = ⌈exactIn zeroForOne priceA priceB liquidity⌉ := by
  cases zeroForOne
  · exact amount1_ok given
  · exact amount0_ok pos_a pos_b given

theorem paidOut_ok (pos_a : 0 < priceA) (pos_b : 0 < priceB)
    (given : paidOut zeroForOne priceA priceB liquidity = .ok amount) :
    amount = ⌊exactOut zeroForOne priceA priceB liquidity⌋ := by
  cases zeroForOne
  · exact amount0_ok pos_a pos_b given
  · exact amount1_ok given

/-! ## The price of a step -/

theorem toward_decide : Toward (decide (target ≤ current)) current target := by
  by_cases down : target ≤ current
  · simp [Toward, down]
  · simpa [Toward, down] using le_of_not_ge down

/-- Where the price of a step lies, and what the move to it is worth. -/
structure StepPriceSpec (current target liquidity remaining fee next : Int) : Prop where
  pos : 0 < next
  toward : Toward (decide (target ≤ current)) current next
  within : Toward (decide (target ≤ current)) next target
  covered : 0 ≤ remaining → exactIn (decide (target ≤ current)) current next liquidity ≤
    ⌊(remaining * (pipsDenominator - fee) / pipsDenominator : ℚ)⌋
  released : remaining < 0 → next ≠ target →
    (-remaining : ℚ) ≤ exactOut (decide (target ≤ current)) current next liquidity

/-- What an amount pays for once its fee is set aside. -/
def netOfFee (remaining fee : Int) : Int :=
  ⌊(remaining * (pipsDenominator - fee) / pipsDenominator : ℚ)⌋

theorem netOfFee_eq {net : Int}
    (given : mulDiv .down remaining (pipsDenominator - fee) pipsDenominator = .ok net) :
    netOfFee remaining fee = net ∧ 0 ≤ net := by
  obtain ⟨net_eq, nonneg, -⟩ := (mulDiv_eq_ok (by decide)).mp given
  exact ⟨by simpa [netOfFee, Rounding.round] using net_eq, nonneg⟩

theorem le_netOfFee_iff : amount ≤ netOfFee remaining fee ↔
    amount * pipsDenominator ≤ remaining * (pipsDenominator - fee) := by
  have denominator_pos : (0 : ℚ) < pipsDenominator := by norm_num [pipsDenominator]
  rw [netOfFee, Int.le_floor, le_div_iff₀ denominator_pos]
  exact_mod_cast Iff.rfl

theorem netOfFee_nonneg (nonneg : 0 ≤ remaining) (fee_le : fee ≤ pipsDenominator) :
    0 ≤ netOfFee remaining fee := by
  rw [le_netOfFee_iff, zero_mul]
  exact mul_nonneg nonneg (sub_nonneg.mpr fee_le)

theorem netOfFee_le (nonneg : 0 ≤ remaining) (fee_nonneg : 0 ≤ fee) :
    netOfFee remaining fee ≤ remaining := by
  have net := le_netOfFee_iff.mp (le_refl (netOfFee remaining fee))
  have kept : remaining * (pipsDenominator - fee) ≤ remaining * pipsDenominator :=
    mul_le_mul_of_nonneg_left (by omega) nonneg
  exact le_of_mul_le_mul_right (net.trans kept) (by decide)

theorem stepPrice_input {next : Int} (pos : 0 < current) (target_pos : 0 < target)
    (exactInput : 0 ≤ remaining)
    (given : stepPrice current target liquidity remaining fee = .ok next) :
    0 ≤ netOfFee remaining fee ∧
      (⌈exactIn (decide (target ≤ current)) current target liquidity⌉ ≤ netOfFee remaining fee ∧
          next = target ∨
        netOfFee remaining fee < ⌈exactIn (decide (target ≤ current)) current target liquidity⌉ ∧
          priceAfterInput current liquidity (netOfFee remaining fee)
            (decide (target ≤ current)) = .ok next) := by
  unfold stepPrice at given
  rw [if_pos exactInput] at given
  obtain ⟨spendable, spendable_ok, given⟩ := bind_eq_ok.mp given
  obtain ⟨needed, needed_ok, given⟩ := bind_eq_ok.mp given
  obtain ⟨rfl, net_nonneg⟩ := netOfFee_eq spendable_ok
  have needed_eq := paidIn_ok target_pos pos needed_ok
  rw [exactIn_comm] at needed_eq
  rw [← needed_eq]
  refine ⟨net_nonneg, ?_⟩
  split at given
  · rename_i reached
    exact .inl ⟨reached, (pure_eq_ok.mp given).symm⟩
  · rename_i short
    exact .inr ⟨not_le.mp short, given⟩

theorem stepPrice_output {next : Int} (pos : 0 < current) (target_pos : 0 < target)
    (exactOutput : remaining < 0)
    (given : stepPrice current target liquidity remaining fee = .ok next) :
    ⌊exactOut (decide (target ≤ current)) current target liquidity⌋ ≤ -remaining ∧
        next = target ∨
      -remaining < ⌊exactOut (decide (target ≤ current)) current target liquidity⌋ ∧
        priceAfterOutput current liquidity (-remaining) (decide (target ≤ current)) =
          .ok next := by
  unfold stepPrice at given
  rw [if_neg (not_le.mpr exactOutput)] at given
  obtain ⟨offered, offered_ok, given⟩ := bind_eq_ok.mp given
  have offered_eq := paidOut_ok target_pos pos offered_ok
  rw [exactOut_comm] at offered_eq
  rw [← offered_eq]
  split at given
  · rename_i reached
    exact .inl ⟨reached, (pure_eq_ok.mp given).symm⟩
  · rename_i more
    exact .inr ⟨not_le.mp more, given⟩

theorem stepPrice_ok {next : Int} (pos : 0 < current) (small : current ≤ priceWordMax)
    (target_pos : 0 < target)
    (given : stepPrice current target liquidity remaining fee = .ok next) :
    StepPriceSpec current target liquidity remaining fee next := by
  rcases le_or_gt 0 remaining with exactInput | exactOutput
  · obtain ⟨net_nonneg, ⟨reached, rfl⟩ | ⟨short, given⟩⟩ :=
      stepPrice_input pos target_pos exactInput given
    · exact ⟨target_pos, toward_decide, .refl _, fun _ => Int.ceil_le.mp reached,
        fun negative => absurd exactInput (not_le.mpr negative)⟩
    · have paid := priceAfterInput_ok small net_nonneg given
      exact ⟨paid.pos, paid.toward,
        (paid.short target target_pos toward_decide (Int.lt_ceil.mp short)).2,
        fun _ => paid.covered, fun negative => absurd exactInput (not_le.mpr negative)⟩
  · obtain ⟨-, rfl⟩ | ⟨more, given⟩ := stepPrice_output pos target_pos exactOutput given
    · exact ⟨target_pos, toward_decide, .refl _, fun nonneg => absurd exactOutput (not_lt.mpr nonneg),
        fun _ different => absurd rfl different⟩
    · have bought := priceAfterOutput_ok small (by omega) given
      have enough : ((-remaining : Int) : ℚ) ≤
          exactOut (decide (target ≤ current)) current target liquidity :=
        Int.le_floor.mp more.le
      refine ⟨bought.pos, bought.toward, bought.nearest target target_pos toward_decide enough,
        fun nonneg => absurd exactOutput (not_lt.mpr nonneg), fun _ _ => ?_⟩
      simpa using bought.released

/-! ## The parts of a step -/

/-- What a step is made of: its price, and the amounts and the fee that belong to it. -/
structure StepParts (current target liquidity remaining fee : Int) (step : SwapStep) : Prop where
  fee_lt : fee < pipsDenominator
  price_ok : stepPrice current target liquidity remaining fee = .ok step.price
  amountIn_eq : step.amountIn =
    ⌈exactIn (decide (target ≤ current)) current step.price liquidity⌉
  amountOut_eq : step.amountOut =
    if remaining < 0 then
      min ⌊exactOut (decide (target ≤ current)) current step.price liquidity⌋ (-remaining)
    else ⌊exactOut (decide (target ≤ current)) current step.price liquidity⌋
  fee_eq : step.fee = if 0 ≤ remaining ∧ step.price ≠ target then remaining - step.amountIn
    else ceilDiv (step.amountIn * fee) (pipsDenominator - fee)

theorem swapStep_parts {step : SwapStep} (pos : 0 < current) (small : current ≤ priceWordMax)
    (target_pos : 0 < target)
    (given : swapStep current target liquidity remaining fee = .ok step) :
    StepParts current target liquidity remaining fee step := by
  unfold swapStep at given
  split at given
  · cases given
  · rename_i fee_lt
    have fee_lt : fee < pipsDenominator := not_le.mp fee_lt
    have rate_pos : 0 < pipsDenominator - fee := by omega
    obtain ⟨price, price_ok, given⟩ := bind_eq_ok.mp given
    obtain ⟨amountIn, in_ok, given⟩ := bind_eq_ok.mp given
    obtain ⟨amountOut, out_ok, given⟩ := bind_eq_ok.mp given
    have spec := stepPrice_ok pos small target_pos price_ok
    have in_eq := paidIn_ok spec.pos pos in_ok
    have out_eq := paidOut_ok spec.pos pos out_ok
    rw [exactIn_comm] at in_eq
    rw [exactOut_comm] at out_eq
    simp only at given
    split at given
    · rename_i short
      rw [pure_eq_ok] at given
      subst given
      exact ⟨fee_lt, price_ok, in_eq, by rw [out_eq], (if_pos short).symm⟩
    · rename_i reached
      obtain ⟨charge, charge_ok, given⟩ := bind_eq_ok.mp given
      rw [pure_eq_ok] at given
      subst given
      refine ⟨fee_lt, price_ok, in_eq, by rw [out_eq], ?_⟩
      obtain ⟨rfl, -, -⟩ := (mulDiv_eq_ok rate_pos).mp charge_ok
      have exact := Rounding.up.divide_eq (amountIn * fee) rate_pos
      push_cast at exact
      rw [if_neg reached, ← Rounding.divide]
      push_cast
      exact exact.symm

/-! ## The contract -/

theorem covered_with_fee {amountIn : Int} {needed : ℚ} (ceil : amountIn = ⌈needed⌉)
    (covered : needed ≤ netOfFee remaining fee) :
    amountIn * pipsDenominator ≤ remaining * (pipsDenominator - fee) :=
  le_netOfFee_iff.mp (ceil ▸ Int.ceil_le.mpr covered)

theorem toward_between {next : Int} (toward : Toward zeroForOne current next)
    (within : Toward zeroForOne next target) :
    min current target ≤ next ∧ next ≤ max current target := by
  cases zeroForOne with
  | false =>
    rw [toward_up] at toward within
    omega
  | true =>
    rw [toward_down] at toward within
    omega

theorem StepParts.contract {step : SwapStep}
    (parts : StepParts current target liquidity remaining fee step)
    (spec : StepPriceSpec current target liquidity remaining fee step.price) (pos : 0 < current)
    (nonneg : 0 ≤ liquidity) (fee_nonneg : 0 ≤ fee) :
    StepContract current target liquidity remaining fee step := by
  obtain ⟨fee_lt, -, amountIn_eq, amountOut_eq, fee_eq⟩ := parts
  have rate_pos : 0 < pipsDenominator - fee := by omega
  have in_nonneg : 0 ≤ step.amountIn :=
    amountIn_eq ▸ Int.ceil_nonneg (exactIn_nonneg pos spec.pos nonneg)
  have floor_nonneg :
      0 ≤ ⌊exactOut (decide (target ≤ current)) current step.price liquidity⌋ :=
    Int.floor_nonneg.mpr (exactOut_nonneg pos spec.pos nonneg)
  have covered := fun exactInput => covered_with_fee amountIn_eq (spec.covered exactInput)
  have fee_covers : step.amountIn * fee ≤ step.fee * (pipsDenominator - fee) := by
    rw [fee_eq]
    split
    · rename_i short
      linarith [covered short.1]
    · exact (ceilDiv_le_iff rate_pos).mp le_rfl
  refine ⟨toward_between spec.toward spec.within, ⟨in_nonneg, ?_, ?_⟩, fun exactInput => ?_,
    fun exactInput different => ?_, fun negative => ?_, fun negative different => ?_,
    amountIn_eq, amountOut_eq, fee_covers⟩
  · rw [amountOut_eq]
    split <;> omega
  · exact nonneg_of_mul_nonneg_left ((mul_nonneg in_nonneg fee_nonneg).trans fee_covers) rate_pos
  · -- The fee at the rate is the least that fits, and what remains leaves room for one.
    by_cases different : step.price ≠ target
    · rw [fee_eq, if_pos ⟨exactInput, different⟩, add_sub_cancel]
    · rw [fee_eq, if_neg fun short => different short.2, ← le_sub_iff_add_le',
        ceilDiv_le_iff rate_pos]
      linarith [covered exactInput]
  · rw [fee_eq, if_pos ⟨exactInput, different⟩, add_sub_cancel]
  · rw [amountOut_eq, if_pos negative]
    exact min_le_right _ _
  · rw [amountOut_eq, if_pos negative]
    refine min_eq_right (Int.le_floor.mpr ?_)
    simpa using spec.released negative different

theorem swapStep_ok {step : SwapStep} (pos : 0 < current) (small : current ≤ priceWordMax)
    (target_pos : 0 < target) (nonneg : 0 ≤ liquidity) (fee_nonneg : 0 ≤ fee)
    (given : swapStep current target liquidity remaining fee = .ok step) :
    StepContract current target liquidity remaining fee step := by
  have parts := swapStep_parts pos small target_pos given
  exact parts.contract (stepPrice_ok pos small target_pos parts.price_ok) pos nonneg fee_nonneg

/-! ## Steps that are given -/

theorem paidIn_total (pos_a : 0 < priceA) (pos_b : 0 < priceB) (small_a : priceA < 2 ^ 160)
    (small_b : priceB < 2 ^ 160) (nonneg : 0 ≤ liquidity) (small : liquidity < 2 ^ 128) :
    paidIn zeroForOne priceA priceB liquidity =
      .ok ⌈exactIn zeroForOne priceA priceB liquidity⌉ := by
  cases zeroForOne
  · exact amount1_total pos_a.le pos_b.le small_a small_b nonneg small
  · exact amount0_total pos_a pos_b nonneg small

theorem paidOut_total (pos_a : 0 < priceA) (pos_b : 0 < priceB) (small_a : priceA < 2 ^ 160)
    (small_b : priceB < 2 ^ 160) (nonneg : 0 ≤ liquidity) (small : liquidity < 2 ^ 128) :
    paidOut zeroForOne priceA priceB liquidity =
      .ok ⌊exactOut zeroForOne priceA priceB liquidity⌋ := by
  cases zeroForOne
  · exact amount0_total pos_a pos_b nonneg small
  · exact amount1_total pos_a.le pos_b.le small_a small_b nonneg small

theorem exactIn_le (pos_a : 0 < priceA) (pos_b : 0 < priceB) (small_a : priceA < 2 ^ 160)
    (small_b : priceB < 2 ^ 160) (nonneg : 0 ≤ liquidity) :
    exactIn zeroForOne priceA priceB liquidity ≤ (liquidity * q96 : Int) := by
  wlog le : priceA ≤ priceB generalizing priceA priceB
  · rw [exactIn_comm]
    exact this pos_b pos_a small_b small_a (le_of_not_ge le)
  have nonneg' : (0 : ℚ) ≤ liquidity := by exact_mod_cast nonneg
  have pos_a' : (0 : ℚ) < priceA := by exact_mod_cast pos_a
  have pos_b' : (0 : ℚ) < priceB := by exact_mod_cast pos_b
  have scaled : (0 : ℚ) ≤ liquidity * q96 := mul_nonneg nonneg' q96_pos.le
  push_cast
  cases zeroForOne with
  | false =>
    have width : priceB - priceA ≤ q96 * q96 := by
      have square : q96 * q96 = 2 ^ 192 := by decide
      omega
    have width' : (priceB - priceA : ℚ) ≤ q96 * q96 := by exact_mod_cast width
    rw [exactIn, if_neg Bool.false_ne_true, exactAmount1_of_le liquidity le, div_le_iff₀ q96_pos,
      mul_assoc]
    exact mul_le_mul_of_nonneg_left width' nonneg'
  | true =>
    have one_le : (1 : ℚ) ≤ priceA := by exact_mod_cast pos_a
    have width : (priceB - priceA : ℚ) ≤ priceA * priceB := by nlinarith
    rw [exactIn, if_pos rfl, exactAmount0_of_le liquidity le, div_le_iff₀ (mul_pos pos_a' pos_b')]
    exact mul_le_mul_of_nonneg_left width scaled

theorem exactIn_no_liquidity : exactIn zeroForOne priceA priceB 0 = 0 := by
  cases zeroForOne <;> simp [exactIn, exactAmount0, exactAmount1]

theorem liquid_of_exactIn (nonneg : 0 ≤ liquidity)
    (some : 0 < exactIn zeroForOne priceA priceB liquidity) : 0 < liquidity := by
  rcases nonneg.eq_or_lt with none | liquid
  · rw [← none, exactIn_no_liquidity] at some
    exact absurd some (lt_irrefl 0)
  · exact liquid

theorem minPrice_pos : 0 < minPrice := by decide

theorem maxPrice_small : maxPrice < 2 ^ 160 := by decide

theorem spendable_total (nonneg : 0 ≤ remaining) (small : remaining ≤ wordMax)
    (fee_nonneg : 0 ≤ fee) (fee_lt : fee < pipsDenominator) :
    ∃ spendable, mulDiv .down remaining (pipsDenominator - fee) pipsDenominator = .ok spendable ∧
      0 ≤ spendable := by
  have net_nonneg := netOfFee_nonneg nonneg fee_lt.le
  refine ⟨netOfFee remaining fee, (mulDiv_eq_ok (by decide)).mpr ⟨?_, net_nonneg,
    (netOfFee_le nonneg fee_nonneg).trans small⟩, net_nonneg⟩
  simp [netOfFee, Rounding.round]

theorem stepPrice_total (pos : 0 < current) (small : current < 2 ^ 160) (target_pos : 0 < target)
    (target_small : target < 2 ^ 160) (nonneg : 0 ≤ liquidity) (liquid_small : liquidity < 2 ^ 128)
    (remaining_small : remaining ≤ wordMax) (fee_nonneg : 0 ≤ fee)
    (fee_lt : fee < pipsDenominator) :
    ∃ next, stepPrice current target liquidity remaining fee = .ok next := by
  have below : (2 ^ 160 : Int) = priceWordMax + 1 := by decide
  simp only [stepPrice]
  split
  · rename_i exactInput
    obtain ⟨spendable, spendable_ok, spendable_nonneg⟩ :=
      spendable_total exactInput remaining_small fee_nonneg fee_lt
    rw [spendable_ok, paidIn_total target_pos pos target_small small nonneg liquid_small,
      exactIn_comm, ok_bind, ok_bind]
    split
    · exact ⟨_, rfl⟩
    · rename_i short
      rw [not_le, Int.lt_ceil] at short
      have liquid : 0 < liquidity := liquid_of_exactIn nonneg
        (lt_of_le_of_lt (by exact_mod_cast spendable_nonneg) short)
      exact priceAfterInput_total pos (by omega) liquid spendable_nonneg target_pos (by omega)
        toward_decide short
  · rename_i exactOutput
    rw [paidOut_total target_pos pos target_small small nonneg liquid_small, exactOut_comm, ok_bind]
    split
    · exact ⟨_, rfl⟩
    · rename_i more
      have enough : ((-remaining : Int) : ℚ) ≤
          exactOut (decide (target ≤ current)) current target liquidity :=
        Int.le_floor.mp (by omega)
      have wanted : (0 : ℚ) < (-remaining : Int) := by exact_mod_cast (by omega : 0 < -remaining)
      have some := wanted.trans_le enough
      rw [exactOut_eq_exactIn] at some
      exact priceAfterOutput_total pos (by omega) (liquid_of_exactIn nonneg some) liquid_small
        (by omega) target_pos (by omega) toward_decide enough

theorem fee_total (in_nonneg : 0 ≤ amount) (in_le : amount ≤ liquidity * q96)
    (liquid_small : liquidity < 2 ^ 128) (fee_nonneg : 0 ≤ fee) (fee_lt : fee < pipsDenominator) :
    ∃ charge, mulDiv .up amount fee (pipsDenominator - fee) = .ok charge := by
  have rate_pos : 0 < pipsDenominator - fee := by omega
  have rate_pos' : (0 : ℚ) < (pipsDenominator - fee : Int) := by exact_mod_cast rate_pos
  have charge_nonneg : 0 ≤ amount * fee := mul_nonneg in_nonneg fee_nonneg
  have charge_le : amount * fee ≤ wordMax := by
    have bound : 2 ^ 128 * q96 * pipsDenominator ≤ wordMax := by decide
    have scaled_le : liquidity * q96 ≤ 2 ^ 128 * q96 :=
      mul_le_mul_of_nonneg_right liquid_small.le (by decide)
    exact (mul_le_mul (in_le.trans scaled_le) fee_lt.le fee_nonneg (by decide)).trans bound
  refine ⟨_, (mulDiv_eq_ok rate_pos).mpr ⟨rfl, Rounding.round_nonneg .up ?_,
    (Rounding.round_le .up ?_).trans charge_le⟩⟩
  · exact div_nonneg (by exact_mod_cast charge_nonneg) rate_pos'.le
  · rw [div_le_iff₀ rate_pos']
    exact_mod_cast le_mul_of_one_le_right charge_nonneg rate_pos

theorem swapStep_total (current_mem : minPrice ≤ current ∧ current ≤ maxPrice)
    (target_mem : minPrice ≤ target ∧ target ≤ maxPrice) (nonneg : 0 ≤ liquidity)
    (liquid_small : liquidity < 2 ^ 128) (remaining_small : remaining ≤ wordMax)
    (fee_nonneg : 0 ≤ fee) (fee_lt : fee < pipsDenominator) :
    ∃ step, swapStep current target liquidity remaining fee = .ok step := by
  have low := minPrice_pos
  have high := maxPrice_small
  have below : (2 ^ 160 : Int) = priceWordMax + 1 := by decide
  obtain ⟨price, price_ok⟩ : ∃ price, stepPrice current target liquidity remaining fee = .ok price :=
    stepPrice_total (by omega) (by omega) (by omega) (by omega) nonneg
    liquid_small remaining_small fee_nonneg fee_lt
  have spec := stepPrice_ok (by omega) (by omega) (by omega) price_ok
  have price_pos := spec.pos
  have bounds := toward_between spec.toward spec.within
  have in_nonneg : 0 ≤ ⌈exactIn (decide (target ≤ current)) price current liquidity⌉ :=
    Int.ceil_nonneg (exactIn_nonneg spec.pos (by omega) nonneg)
  have in_le : ⌈exactIn (decide (target ≤ current)) price current liquidity⌉ ≤ liquidity * q96 :=
    Int.ceil_le.mpr (exactIn_le spec.pos (by omega) (by omega) (by omega) nonneg)
  obtain ⟨charge, charge_ok⟩ := fee_total in_nonneg in_le liquid_small fee_nonneg fee_lt
  simp only [swapStep]
  rw [if_neg (by omega), price_ok, ok_bind,
    paidIn_total spec.pos (by omega) (by omega) (by omega) nonneg liquid_small, ok_bind,
    paidOut_total spec.pos (by omega) (by omega) (by omega) nonneg liquid_small, ok_bind]
  split
  · exact ⟨_, rfl⟩
  · rw [charge_ok]
    exact ⟨_, rfl⟩

/-- Within the ranges of prices, liquidity, amounts and fees a step is given and keeps the
contract. -/
theorem swapStep_contract (current_mem : minPrice ≤ current ∧ current ≤ maxPrice)
    (target_mem : minPrice ≤ target ∧ target ≤ maxPrice)
    (liquidity_mem : 0 ≤ liquidity ∧ liquidity < 2 ^ 128) (remaining_mem : |remaining| < 2 ^ 255)
    (fee_mem : 0 ≤ fee ∧ fee < pipsDenominator) :
    ∃ step, swapStep current target liquidity remaining fee = .ok step ∧
      StepContract current target liquidity remaining fee step := by
  have low := minPrice_pos
  have high := maxPrice_small
  have below : (2 ^ 160 : Int) = priceWordMax + 1 := by decide
  have word : (2 ^ 255 : Int) ≤ wordMax := by decide
  have remaining_lt := (abs_lt.mp remaining_mem).2
  obtain ⟨step, given⟩ := swapStep_total current_mem target_mem liquidity_mem.1 liquidity_mem.2
    (remaining_lt.le.trans word) fee_mem.1 fee_mem.2
  exact ⟨step, given, swapStep_ok (by omega) (by omega) (by omega) liquidity_mem.1 fee_mem.1 given⟩

/-- A payment whose product with the price is no word: the less exact formula gives the price. -/
theorem swapStep_contract_inexact :
    wordMax < 2 ^ 99 * 2 ^ 158 ∧
    ∃ step, swapStep (2 ^ 158) minPrice (2 ^ 120) (2 ^ 100) 3000 = .ok step ∧
      StepContract (2 ^ 158) minPrice (2 ^ 120) (2 ^ 100) 3000 step :=
  ⟨by decide, swapStep_contract (by decide) (by decide) (by decide) (by norm_num) (by decide)⟩

end OrderDesk
