import OrderDesk.Position.Fees
import OrderDesk.Proofs.Price.Cut

/-!
# Fee growth adds up

Growth is counted in a circle, so that the growth outside of a tick may stand for less than nothing.
What is inside of a range is still the sum of what is inside of its parts.

* `growthInside_add`: a range parted at a tick between its ends.
* `growthInside_accrue`: what is inside grows while the tick is, the lower end included.
* `feesFromGrowth_eq`: fees are given, and which.
* `growth_and_fees_additive`: growth adds up over ranges, fees over liquidity and checkpoints.
-/

namespace OrderDesk

/-- The tick is below both parts, in the lower one, in the upper one, or above both; in each case the
growth outside of the tick between them cancels. -/
theorem growthInside_add (tick : Int) {lower middle upper : Int} (lower_lt : lower < middle)
    (middle_lt : middle < upper) (whole lowerOutside middleOutside upperOutside : Int) :
    (growthInside tick lower middle ⟨whole, lowerOutside, middleOutside⟩ +
      growthInside tick middle upper ⟨whole, middleOutside, upperOutside⟩) % wordCount =
      growthInside tick lower upper ⟨whole, lowerOutside, upperOutside⟩ := by
  simp only [growthInside, ← Int.add_emod]
  congr 1
  rcases lt_or_ge tick lower with below | from_lower
  · simp only [below, below.trans lower_lt, if_true]
    ring
  rcases lt_or_ge tick middle with in_lower | from_middle
  · simp only [from_lower.not_gt, in_lower, in_lower.not_ge, (in_lower.trans middle_lt).not_ge,
      if_true, if_false]
    ring
  rcases lt_or_ge tick upper with in_upper | above
  · simp only [from_lower.not_gt, from_middle, from_middle.not_gt, in_upper.not_ge, if_true,
      if_false]
    ring
  · simp only [from_lower.not_gt, from_middle, from_middle.not_gt, above, if_true, if_false]
    ring

/-- What a pool grows by is inside of the ranges that its tick is in, and of no others. -/
theorem growthInside_accrue (tick lower upper growth : Int) (readings : GrowthReadings) :
    growthInside tick lower upper { readings with whole := readings.whole + growth } =
      (growthInside tick lower upper readings +
        if lower ≤ tick ∧ tick < upper then growth else 0) % wordCount := by
  simp only [growthInside, Int.emod_add_emod]
  rcases lt_or_ge tick lower with below | from_lower
  · simp only [below, below.not_ge, false_and, if_true, if_false, add_zero]
  rcases lt_or_ge tick upper with inside | above
  · simp only [from_lower, from_lower.not_gt, inside, inside.not_ge, and_self, if_true, if_false]
    congr 1
    ring
  · simp only [from_lower.not_gt, above, above.not_gt, and_false, if_true, if_false, add_zero]

/-! ## Fees -/

section Fees

variable {liquidity : Int}

/-- What liquidity has earned by some growth, not rounded. -/
def exactFees (growth liquidity : Int) : ℚ := growth * liquidity / q128

/-- The growth since a checkpoint is a word, and at a liquidity of 128 bits the fees are no more than
the growth. -/
theorem feesFromGrowth_eq (now last : Int) (nonneg : 0 ≤ liquidity) (fits : liquidity < 2 ^ 128) :
    feesFromGrowth now last liquidity =
      .ok ⌊exactFees ((now - last) % wordCount) liquidity⌋ := by
  have growth_nonneg : 0 ≤ (now - last) % wordCount := Int.emod_nonneg _ (by decide)
  have growth_le : (now - last) % wordCount ≤ wordMax :=
    Int.le_sub_one_of_lt (Int.emod_lt_of_pos _ (by decide))
  have scale : (0 : ℚ) < q128 := by norm_num [q128]
  refine (mulDiv_eq_ok (by decide)).mpr ⟨rfl, Rounding.down.round_nonneg ?_,
    Rounding.down.round_le ?_⟩
  · exact div_nonneg (by exact_mod_cast mul_nonneg growth_nonneg nonneg) scale.le
  · rw [exactFees, div_le_iff₀ scale]
    exact_mod_cast mul_le_mul growth_le fits.le nonneg (growth_nonneg.trans growth_le)

/-- Fees that together are those for a whole, rounded apart, fall short of it by nothing or one unit. -/
theorem fees_parted {first second both : ℚ} (add : first + second = both) :
    ⌊first⌋ + ⌊second⌋ = ⌊both⌋ ∨ ⌊first⌋ + ⌊second⌋ = ⌊both⌋ - 1 := by
  obtain ⟨least, most⟩ := Rounding.down.loss_round_add first second
  rw [add] at least most
  simp only [Rounding.loss, Rounding.round] at least most
  omega

/-- Only the distance between two readings counts, around the circle. -/
theorem feesFromGrowth_shift (now last shift liquidity : Int) :
    feesFromGrowth ((now + shift) % wordCount) ((last + shift) % wordCount) liquidity =
      feesFromGrowth now last liquidity := by
  rw [feesFromGrowth, ← Int.sub_emod, add_sub_add_right_eq_sub]
  rfl

/-- From one checkpoint to the next but one, the growth is that of both steps, if they do not go
around the circle together. -/
theorem growth_add {a b c : Int}
    (short : (b - a) % wordCount + (c - b) % wordCount < wordCount) :
    (b - a) % wordCount + (c - b) % wordCount = (c - a) % wordCount := by
  have first_nonneg : 0 ≤ (b - a) % wordCount := Int.emod_nonneg _ (by decide)
  have second_nonneg : 0 ≤ (c - b) % wordCount := Int.emod_nonneg _ (by decide)
  rw [← Int.emod_eq_of_lt (add_nonneg first_nonneg second_nonneg) short, ← Int.add_emod]
  congr 1
  ring

end Fees

/-- The growth inside of a range is that of its parts together, also where readings have gone around
the circle, and a pool's growth is inside of just the ranges that its tick is in. Fees are always
given and depend on the distance of two readings only; parted by liquidity or by a checkpoint on the
way, they lose nothing or one unit. -/
theorem growth_and_fees_additive :
    (∀ tick lower middle upper whole lowerOutside middleOutside upperOutside : Int,
      lower < middle → middle < upper →
      (growthInside tick lower middle ⟨whole, lowerOutside, middleOutside⟩ +
        growthInside tick middle upper ⟨whole, middleOutside, upperOutside⟩) % 2 ^ 256 =
      growthInside tick lower upper ⟨whole, lowerOutside, upperOutside⟩) ∧
    (∀ (tick lower upper growth : Int) (readings : GrowthReadings),
      growthInside tick lower upper { readings with whole := readings.whole + growth } =
        (growthInside tick lower upper readings +
          if lower ≤ tick ∧ tick < upper then growth else 0) % 2 ^ 256) ∧
    (∀ now last liquidity : Int, 0 ≤ liquidity → liquidity < 2 ^ 128 →
      feesFromGrowth now last liquidity =
        .ok ⌊(((now - last) % 2 ^ 256 : Int) * liquidity / (2 ^ 128 : Int) : ℚ)⌋ ∧
      ∀ shift, feesFromGrowth ((now + shift) % 2 ^ 256) ((last + shift) % 2 ^ 256) liquidity =
        feesFromGrowth now last liquidity) ∧
    (∀ now last first second : Int, 0 ≤ first → 0 ≤ second → first + second < 2 ^ 128 →
      ∃ ofFirst ofSecond ofBoth, feesFromGrowth now last first = .ok ofFirst ∧
        feesFromGrowth now last second = .ok ofSecond ∧
        feesFromGrowth now last (first + second) = .ok ofBoth ∧
        (ofFirst + ofSecond = ofBoth ∨ ofFirst + ofSecond = ofBoth - 1)) ∧
    ∀ a b c liquidity : Int, 0 ≤ liquidity → liquidity < 2 ^ 128 →
      (b - a) % 2 ^ 256 + (c - b) % 2 ^ 256 < 2 ^ 256 →
      ∃ before after through, feesFromGrowth b a liquidity = .ok before ∧
        feesFromGrowth c b liquidity = .ok after ∧ feesFromGrowth c a liquidity = .ok through ∧
        (before + after = through ∨ before + after = through - 1) := by
  refine ⟨?_, growthInside_accrue, ?_, ?_, ?_⟩
  · intro tick lower middle upper whole lowerOutside middleOutside upperOutside lower_lt middle_lt
    exact growthInside_add tick lower_lt middle_lt whole lowerOutside middleOutside upperOutside
  · intro now last liquidity nonneg fits
    exact ⟨feesFromGrowth_eq now last nonneg fits,
      fun shift => feesFromGrowth_shift now last shift liquidity⟩
  · intro now last first second first_nonneg second_nonneg fits
    refine ⟨_, _, _, feesFromGrowth_eq now last first_nonneg (by omega),
      feesFromGrowth_eq now last second_nonneg (by omega),
      feesFromGrowth_eq now last (add_nonneg first_nonneg second_nonneg) fits, fees_parted ?_⟩
    simp only [exactFees]
    push_cast
    ring
  · intro a b c liquidity nonneg fits short
    refine ⟨_, _, _, feesFromGrowth_eq b a nonneg fits, feesFromGrowth_eq c b nonneg fits,
      feesFromGrowth_eq c a nonneg fits, fees_parted ?_⟩
    rw [← growth_add short]
    simp only [exactFees]
    push_cast
    ring

/-- A range around the tick zero whose readings stand for less than nothing, and half a unit for each
of two owners, or at each of two checkpoints, the later one past the end of the circle. -/
theorem growth_and_fees_additive_wrapped :
    ((growthInside 0 (-60) 0 ⟨5, 2 ^ 256 - 7, 2 ^ 256 - 3⟩ +
      growthInside 0 0 60 ⟨5, 2 ^ 256 - 3, 2 ^ 256 - 1⟩) % 2 ^ 256 =
      growthInside 0 (-60) 60 ⟨5, 2 ^ 256 - 7, 2 ^ 256 - 1⟩) ∧
    (∃ ofFirst ofSecond ofBoth, feesFromGrowth (2 ^ 127) 0 1 = .ok ofFirst ∧
      feesFromGrowth (2 ^ 127) 0 1 = .ok ofSecond ∧
      feesFromGrowth (2 ^ 127) 0 (1 + 1) = .ok ofBoth ∧
      (ofFirst + ofSecond = ofBoth ∨ ofFirst + ofSecond = ofBoth - 1)) ∧
    feesFromGrowth (2 ^ 127) 0 1 = .ok 0 ∧ feesFromGrowth (2 ^ 127) 0 2 = .ok 1 ∧
    ∃ before after through, feesFromGrowth (2 ^ 256 - 1) (2 ^ 256 - 1 - 2 ^ 127) 1 = .ok before ∧
      feesFromGrowth (2 ^ 127 - 1) (2 ^ 256 - 1) 1 = .ok after ∧
      feesFromGrowth (2 ^ 127 - 1) (2 ^ 256 - 1 - 2 ^ 127) 1 = .ok through ∧
      (before + after = through ∨ before + after = through - 1) := by
  obtain ⟨ranges, -, -, owners, checkpoints⟩ := growth_and_fees_additive
  exact ⟨ranges 0 (-60) 0 60 5 _ _ _ (by decide) (by decide),
    owners (2 ^ 127) 0 1 1 (by decide) (by decide) (by decide), rfl, rfl,
    checkpoints _ _ _ 1 (by decide) (by decide) (by decide)⟩

end OrderDesk
