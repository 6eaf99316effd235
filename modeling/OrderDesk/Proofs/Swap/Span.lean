import OrderDesk.Proofs.Swap.Step

/-!
# Amounts over adjoining spans of prices

What a trade exchanges on the way to a price and from there on adds up, and what it takes in over a
span is what the opposite trade hands out there.

* `exactIn_add`: amounts over adjoining spans add up.
* `exactIn_mono`, `exactOut_mono`: a price further along exchanges no less of either token.
* `swapStep_return`: the output of a step, traded back, buys no more than the step took in.
-/

namespace OrderDesk

variable {zeroForOne : Bool} {price near far liquidity : Int}

theorem Toward.reverse (toward : Toward zeroForOne price near) :
    Toward (!zeroForOne) near price := by
  cases zeroForOne <;> exact toward

theorem exactIn_add (far_pos : 0 < far) (toward : Toward zeroForOne price near)
    (further : Toward zeroForOne near far) :
    exactIn zeroForOne price near liquidity + exactIn zeroForOne near far liquidity =
      exactIn zeroForOne price far liquidity := by
  cases zeroForOne with
  | false =>
    rw [toward_up] at toward further
    simp only [exactIn, Bool.false_eq_true, if_false]
    rw [exactAmount1_of_le liquidity toward, exactAmount1_of_le liquidity further,
      exactAmount1_of_le liquidity (toward.trans further)]
    ring
  | true =>
    rw [toward_down] at toward further
    simp only [exactIn, if_true]
    rw [exactAmount0_comm price near, exactAmount0_comm near far, exactAmount0_comm price far,
      exactAmount0_eq_sub liquidity (far_pos.trans_le further) toward,
      exactAmount0_eq_sub liquidity far_pos further,
      exactAmount0_eq_sub liquidity far_pos (further.trans toward)]
    ring

theorem between_pos (price_pos : 0 < price) (far_pos : 0 < far)
    (toward : Toward zeroForOne price near) (further : Toward zeroForOne near far) : 0 < near := by
  cases zeroForOne with
  | false => exact price_pos.trans_le toward
  | true => exact far_pos.trans_le further

theorem exactIn_mono (price_pos : 0 < price) (far_pos : 0 < far) (nonneg : 0 ≤ liquidity)
    (toward : Toward zeroForOne price near) (further : Toward zeroForOne near far) :
    exactIn zeroForOne price near liquidity ≤ exactIn zeroForOne price far liquidity := by
  have near_pos := between_pos price_pos far_pos toward further
  rw [← exactIn_add far_pos toward further]
  exact le_add_of_nonneg_right (exactIn_nonneg near_pos far_pos nonneg)

theorem exactOut_mono (price_pos : 0 < price) (far_pos : 0 < far) (nonneg : 0 ≤ liquidity)
    (toward : Toward zeroForOne price near) (further : Toward zeroForOne near far) :
    exactOut zeroForOne price near liquidity ≤ exactOut zeroForOne price far liquidity := by
  have near_pos := between_pos price_pos far_pos toward further
  calc exactOut zeroForOne price near liquidity
      = exactIn (!zeroForOne) near price liquidity := by rw [exactOut_eq_exactIn, exactIn_comm]
    _ ≤ exactIn (!zeroForOne) far near liquidity + exactIn (!zeroForOne) near price liquidity :=
      le_add_of_nonneg_left (exactIn_nonneg far_pos near_pos nonneg)
    _ = exactIn (!zeroForOne) far price liquidity :=
      exactIn_add price_pos further.reverse toward.reverse
    _ = exactOut zeroForOne price far liquidity := by rw [exactOut_eq_exactIn, exactIn_comm]

theorem exactIn_pos (price_pos : 0 < price) (near_pos : 0 < near) (liquid : 0 < liquidity)
    (ne : price ≠ near) : 0 < exactIn zeroForOne price near liquidity := by
  have price_pos' : (0 : ℚ) < price := by exact_mod_cast price_pos
  have near_pos' : (0 : ℚ) < near := by exact_mod_cast near_pos
  have liquid' : (0 : ℚ) < liquidity := by exact_mod_cast liquid
  have width : (0 : ℚ) < |(price : ℚ) - near| := abs_pos.mpr (sub_ne_zero.mpr (by exact_mod_cast ne))
  have scale := q96_pos
  cases zeroForOne <;> simp only [exactIn, exactAmount0, exactAmount1] <;> positivity

/-- A trade that takes nothing in hands nothing out. -/
theorem exactOut_eq_zero (price_pos : 0 < price) (near_pos : 0 < near) (nonneg : 0 ≤ liquidity)
    (free : exactIn zeroForOne price near liquidity ≤ 0) :
    exactOut zeroForOne price near liquidity = 0 := by
  rw [exactOut_eq_exactIn]
  by_cases moved : price = near
  · subst moved
    cases zeroForOne <;> simp [exactIn, exactAmount0, exactAmount1]
  · have dry : liquidity = 0 := by
      by_contra liquid
      have taken : 0 < exactIn zeroForOne price near liquidity :=
        exactIn_pos price_pos near_pos (lt_of_le_of_ne nonneg (Ne.symm liquid)) moved
      exact absurd free (not_le.mpr taken)
    rw [dry, exactIn_no_liquidity]

/-- With liquidity, the trade that takes in no more ends no further. -/
theorem toward_of_exactIn_le (price_pos : 0 < price) (near_pos : 0 < near) (liquid : 0 < liquidity)
    (toward : Toward zeroForOne price near) (toward' : Toward zeroForOne price far)
    (le : exactIn zeroForOne price near liquidity ≤ exactIn zeroForOne price far liquidity) :
    Toward zeroForOne near far := by
  by_contra beyond
  have further : Toward zeroForOne far near := by
    cases zeroForOne
    · exact le_of_not_ge beyond
    · exact le_of_not_ge beyond
  have far_pos := between_pos price_pos near_pos toward' further
  have ne : far ≠ near := by
    rintro rfl
    exact beyond (.refl _)
  have rest : 0 < exactIn zeroForOne far near liquidity := exactIn_pos far_pos near_pos liquid ne
  rw [← exactIn_add near_pos toward' further] at le
  linarith

/-! ## There and back -/

section Return

variable {target home remaining fee backFee : Int} {there back : SwapStep}

theorem StepContract.toward (contract : StepContract price target liquidity remaining fee there) :
    Toward (decide (target ≤ price)) price there.price := by
  have between := contract.between
  by_cases down : target ≤ price <;> simp only [Toward, down, decide_true, decide_false, if_true,
    if_false, Bool.false_eq_true] <;> omega

theorem StepContract.exactIn_le_amountIn
    (contract : StepContract price target liquidity remaining fee there) :
    exactIn (decide (target ≤ price)) price there.price liquidity ≤ there.amountIn := by
  rw [contract.amountIn_eq]
  exact Int.le_ceil _

theorem StepContract.amountOut_le_exactOut
    (contract : StepContract price target liquidity remaining fee there) :
    there.amountOut ≤ exactOut (decide (target ≤ price)) price there.price liquidity := by
  rw [← Int.le_floor, contract.amountOut_eq]
  split
  · exact min_le_left _ _
  · exact le_rfl

/-- The way back ends no further than where the way there began. -/
theorem StepContract.return_toward
    (contract : StepContract price target liquidity remaining fee there)
    (returned : StepContract there.price home liquidity there.amountOut backFee back)
    (opposite : decide (home ≤ there.price) = !decide (target ≤ price))
    (there_pos : 0 < there.price) (back_pos : 0 < back.price) (liquid : 0 < liquidity) :
    Toward (!decide (target ≤ price)) back.price price := by
  have out_nonneg := contract.nonneg.2.1
  have fee_nonneg := returned.nonneg.2.2
  have spent := returned.spent out_nonneg
  have paid := returned.exactIn_le_amountIn
  have released := contract.amountOut_le_exactOut
  rw [opposite] at paid
  rw [exactOut_eq_exactIn, exactIn_comm] at released
  have within : back.amountIn ≤ there.amountOut := by omega
  have moved := returned.toward
  rw [opposite] at moved
  refine toward_of_exactIn_le there_pos back_pos liquid moved contract.toward.reverse ?_
  exact paid.trans ((Int.cast_le.mpr within).trans released)

theorem StepContract.return_amountOut_le
    (contract : StepContract price target liquidity remaining fee there)
    (returned : StepContract there.price home liquidity there.amountOut backFee back)
    (opposite : decide (home ≤ there.price) = !decide (target ≤ price)) (pos : 0 < price)
    (there_pos : 0 < there.price) (back_pos : 0 < back.price) (liquid : 0 < liquidity) :
    back.amountOut ≤ there.amountIn := by
  have ends := contract.return_toward returned opposite there_pos back_pos liquid
  have moved := returned.toward
  have bought := returned.amountOut_le_exactOut
  rw [opposite] at moved bought
  have taken := contract.exactIn_le_amountIn
  have within : (back.amountOut : ℚ) ≤ there.amountIn :=
    calc (back.amountOut : ℚ)
        ≤ exactOut (!decide (target ≤ price)) there.price back.price liquidity := bought
      _ ≤ exactOut (!decide (target ≤ price)) there.price price liquidity :=
        exactOut_mono there_pos pos liquid.le moved ends
      _ = exactIn (decide (target ≤ price)) price there.price liquidity := by
        rw [exactOut_eq_exactIn, Bool.not_not, exactIn_comm]
      _ ≤ there.amountIn := taken
  exact_mod_cast within

theorem StepContract.amountOut_le_wordMax
    (contract : StepContract price target liquidity remaining fee there) (pos : 0 < price)
    (there_pos : 0 < there.price) (small : price < 2 ^ 160 ∧ there.price < 2 ^ 160)
    (liquidity_mem : 0 < liquidity ∧ liquidity < 2 ^ 128) : there.amountOut ≤ wordMax := by
  have released := contract.amountOut_le_exactOut
  rw [exactOut_eq_exactIn] at released
  have held := released.trans (exactIn_le pos there_pos small.1 small.2 liquidity_mem.1.le)
  exact (Int.cast_le.mp held).trans (scaled_le_wordMax liquidity_mem.2)

theorem opposite_of_away {now : Int} (away : if target ≤ price then now < home else home ≤ now) :
    decide (home ≤ now) = !decide (target ≤ price) := by
  by_cases down : target ≤ price
  · rw [if_pos down] at away
    simp [down, away]
  · rw [if_neg down] at away
    simp [down, away]

/-- A step and a step back with its output: the way back is given, ends between the two prices, and
hands out no more than the way there took in. -/
theorem swapStep_return (price_mem : minPrice ≤ price ∧ price ≤ maxPrice)
    (target_mem : minPrice ≤ target ∧ target ≤ maxPrice)
    (liquidity_mem : 0 < liquidity ∧ liquidity < 2 ^ 128) (remaining_mem : |remaining| < 2 ^ 255)
    (fee_mem : 0 ≤ fee ∧ fee < pipsDenominator)
    (backFee_mem : 0 ≤ backFee ∧ backFee < pipsDenominator) :
    ∃ there, swapStep price target liquidity remaining fee = .ok there ∧
      ∀ home, minPrice ≤ home ∧ home ≤ maxPrice →
        (if target ≤ price then there.price < home else home ≤ there.price) →
        ∃ back, swapStep there.price home liquidity there.amountOut backFee = .ok back ∧
          (min there.price price ≤ back.price ∧ back.price ≤ max there.price price) ∧
          back.amountOut ≤ there.amountIn := by
  have low := minPrice_pos
  have high := maxPrice_small
  have below : (2 ^ 160 : Int) = priceWordMax + 1 := by decide
  have word : (2 ^ 255 : Int) ≤ wordMax := by decide
  have remaining_lt := (abs_lt.mp remaining_mem).2
  obtain ⟨there, there_ok⟩ := swapStep_total price_mem target_mem liquidity_mem.1.le
    liquidity_mem.2 (remaining_lt.le.trans word) fee_mem.1 fee_mem.2
  have contract := swapStep_ok (by omega) (by omega) (by omega) liquidity_mem.1.le fee_mem.1 there_ok
  have between := contract.between
  refine ⟨there, there_ok, fun home home_mem away => ?_⟩
  obtain ⟨back, back_ok⟩ := swapStep_total (by omega : minPrice ≤ there.price ∧ _) home_mem
    liquidity_mem.1.le liquidity_mem.2
    (contract.amountOut_le_wordMax (by omega) (by omega) (by omega) liquidity_mem) backFee_mem.1
    backFee_mem.2
  have returned := swapStep_ok (by omega) (by omega) (by omega) liquidity_mem.1.le backFee_mem.1
    back_ok
  have back_between := returned.between
  have opposite := opposite_of_away away
  have moved := returned.toward
  rw [opposite] at moved
  have ends := contract.return_toward returned opposite (by omega) (by omega) liquidity_mem.1
  exact ⟨back, back_ok, toward_between moved ends,
    contract.return_amountOut_le returned opposite (by omega) (by omega) (by omega) liquidity_mem.1⟩

/-- Bought with a payment that the less exact formula prices, token 1 leads back from a price near the
lower end of the range, although the target of the way back is its upper end. -/
theorem swapStep_return_inexact :
    ∃ there, swapStep (2 ^ 158) minPrice (2 ^ 120) (2 ^ 100) 3000 = .ok there ∧
      there.price < 2 ^ 117 ∧
      ∃ back, swapStep there.price maxPrice (2 ^ 120) there.amountOut 500 = .ok back ∧
        (min there.price (2 ^ 158) ≤ back.price ∧ back.price ≤ max there.price (2 ^ 158)) ∧
        back.amountOut ≤ there.amountIn := by
  have sold : swapStep (2 ^ 158) minPrice (2 ^ 120) (2 ^ 100) 3000 =
      .ok ⟨83326729926317247494124301863275186, 1263847648427544713292213095759,
        6129982163462157442886840620055502352331747118471446528,
        3802951800684688204490109617⟩ := rfl
  have fees : ((0 : Int) ≤ 3000 ∧ 3000 < pipsDenominator) ∧ (0 : Int) ≤ 500 ∧
      500 < pipsDenominator := by decide
  have held : (0 : Int) < 2 ^ 120 ∧ (2 ^ 120 : Int) < 2 ^ 128 := by decide
  obtain ⟨there, there_ok, returns⟩ := swapStep_return (by decide : minPrice ≤ 2 ^ 158 ∧ _)
    (by decide : minPrice ≤ minPrice ∧ _) held (by norm_num : |(2 ^ 100 : Int)| < 2 ^ 255) fees.1
    fees.2
  obtain rfl := Except.ok.inj (there_ok.symm.trans sold)
  exact ⟨_, sold, by decide, returns maxPrice (by decide) (by decide)⟩

end Return

end OrderDesk
