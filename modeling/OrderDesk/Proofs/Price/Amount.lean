import OrderDesk.Price.Amount
import OrderDesk.Proofs.Price.Rounding

/-!
# Amounts between two prices are exactly rounded

The two divisions behind an amount of token 0 lose nothing: the amount is the exact one, rounded
once.

* `amount0_ok`, `amount1_ok`: an amount that is given is the rounded exact amount.
* `amount0_total`, `amount1_total`: between prices of 160 bits, at a liquidity of 128 bits, an
  amount is given.
-/

namespace OrderDesk

/-- The token 0 between two prices, not rounded. -/
def exactAmount0 (priceA priceB liquidity : Int) : ℚ :=
  liquidity * q96 * |(priceA : ℚ) - priceB| / (priceA * priceB)

/-- The token 1 between two prices, not rounded. -/
def exactAmount1 (priceA priceB liquidity : Int) : ℚ :=
  liquidity * |(priceA : ℚ) - priceB| / q96

theorem q96_pos : (0 : ℚ) < q96 := by norm_num [q96]

theorem exactAmount0_comm (priceA priceB liquidity : Int) :
    exactAmount0 priceA priceB liquidity = exactAmount0 priceB priceA liquidity := by
  rw [exactAmount0, exactAmount0, abs_sub_comm, mul_comm (priceA : ℚ)]

theorem exactAmount1_comm (priceA priceB liquidity : Int) :
    exactAmount1 priceA priceB liquidity = exactAmount1 priceB priceA liquidity := by
  rw [exactAmount1, exactAmount1, abs_sub_comm]

theorem exactAmount0_of_le {low high : Int} (liquidity : Int) (le : low ≤ high) :
    exactAmount0 low high liquidity = liquidity * q96 * (high - low) / (low * high) := by
  have le' : (low : ℚ) ≤ high := by exact_mod_cast le
  rw [exactAmount0, abs_sub_comm, abs_of_nonneg (sub_nonneg.mpr le')]

theorem exactAmount1_of_le {low high : Int} (liquidity : Int) (le : low ≤ high) :
    exactAmount1 low high liquidity = liquidity * (high - low) / q96 := by
  have le' : (low : ℚ) ≤ high := by exact_mod_cast le
  rw [exactAmount1, abs_sub_comm, abs_of_nonneg (sub_nonneg.mpr le')]

theorem exactAmount0_eq_sub {low high : Int} (liquidity : Int) (pos : 0 < low) (le : low ≤ high) :
    exactAmount0 low high liquidity =
      (liquidity * q96 : ℚ) / low - (liquidity * q96 : ℚ) / high := by
  have low_ne : (low : ℚ) ≠ 0 := by exact_mod_cast pos.ne'
  have high_ne : (high : ℚ) ≠ 0 := by exact_mod_cast (pos.trans_le le).ne'
  rw [exactAmount0_of_le liquidity le]
  field_simp

section Rounded

variable {rounding : Rounding} {priceA priceB liquidity amount : Int}

theorem amount0_comm : amount0 rounding priceA priceB liquidity =
    amount0 rounding priceB priceA liquidity := by
  rw [amount0, amount0, min_comm, max_comm]

theorem amount1_comm : amount1 rounding priceA priceB liquidity =
    amount1 rounding priceB priceA liquidity := by
  rw [amount1, amount1, min_comm, max_comm]

theorem amount0_of_le (pos : 0 < priceA) (le : priceA ≤ priceB) :
    amount0 rounding priceA priceB liquidity = .ok amount ↔
      rounding.round (exactAmount0 priceA priceB liquidity) = amount ∧
        0 ≤ rounding.round (liquidity * q96 * (priceB - priceA) / priceB) ∧
        rounding.round (liquidity * q96 * (priceB - priceA) / priceB) ≤ wordMax := by
  have pos_b : 0 < priceB := pos.trans_le le
  have halves : exactAmount0 priceA priceB liquidity =
      (liquidity * q96 * (priceB - priceA) / priceB : ℚ) / priceA := by
    rw [exactAmount0_of_le liquidity le, div_div, mul_comm (priceA : ℚ)]
  simp only [amount0, min_eq_left le, max_eq_right le, pos.ne', if_false, bind_eq_ok,
    mulDiv_eq_ok pos_b, pure_eq_ok, rounding.divide_eq _ pos, halves]
  push_cast
  rw [rounding.round_round_div _ pos]
  exact ⟨fun ⟨⟨_, fits⟩, equal⟩ => ⟨equal, fits⟩, fun ⟨equal, fits⟩ => ⟨⟨rfl, fits⟩, equal⟩⟩

theorem amount0_ok (pos_a : 0 < priceA) (pos_b : 0 < priceB)
    (given : amount0 rounding priceA priceB liquidity = .ok amount) :
    amount = rounding.round (exactAmount0 priceA priceB liquidity) := by
  rcases le_total priceA priceB with le | le
  · exact ((amount0_of_le pos_a le).mp given).1.symm
  · rw [amount0_comm] at given
    rw [exactAmount0_comm]
    exact ((amount0_of_le pos_b le).mp given).1.symm

theorem amount1_of_le (le : priceA ≤ priceB) :
    amount1 rounding priceA priceB liquidity = .ok amount ↔
      rounding.round (exactAmount1 priceA priceB liquidity) = amount ∧
        0 ≤ amount ∧ amount ≤ wordMax := by
  have pos : 0 < q96 := by decide
  rw [amount1, min_eq_left le, max_eq_right le, mulDiv_eq_ok pos, exactAmount1_of_le liquidity le]
  push_cast
  rfl

theorem amount1_ok (given : amount1 rounding priceA priceB liquidity = .ok amount) :
    amount = rounding.round (exactAmount1 priceA priceB liquidity) := by
  rcases le_total priceA priceB with le | le
  · exact ((amount1_of_le le).mp given).1.symm
  · rw [amount1_comm] at given
    rw [exactAmount1_comm]
    exact ((amount1_of_le le).mp given).1.symm

/-! ## Amounts that fit -/

theorem scaled_le_wordMax (small : liquidity < 2 ^ 128) : liquidity * q96 ≤ wordMax := by
  have bound : (2 ^ 128 - 1) * q96 ≤ wordMax := by decide
  have le : liquidity ≤ 2 ^ 128 - 1 := by omega
  exact (mul_le_mul_of_nonneg_right le (by decide)).trans bound

theorem amount0_total (pos_a : 0 < priceA) (pos_b : 0 < priceB) (nonneg : 0 ≤ liquidity)
    (small : liquidity < 2 ^ 128) :
    amount0 rounding priceA priceB liquidity =
      .ok (rounding.round (exactAmount0 priceA priceB liquidity)) := by
  wlog le : priceA ≤ priceB generalizing priceA priceB
  · rw [amount0_comm, exactAmount0_comm]
    exact this pos_b pos_a (le_of_not_ge le)
  have pos : (0 : ℚ) < priceB := by exact_mod_cast pos_b
  have width : (0 : ℚ) ≤ priceB - priceA := sub_nonneg.mpr (by exact_mod_cast le)
  have scaled : (0 : ℚ) ≤ liquidity * q96 := mul_nonneg (by exact_mod_cast nonneg) q96_pos.le
  have narrow : (priceB - priceA : ℚ) ≤ priceB := sub_le_self _ (by exact_mod_cast pos_a.le)
  refine (amount0_of_le pos_a le).mpr ⟨rfl, rounding.round_nonneg ?_, ?_⟩
  · exact div_nonneg (mul_nonneg scaled width) pos.le
  · refine (rounding.round_le ?_).trans (scaled_le_wordMax small)
    rw [div_le_iff₀ pos]
    push_cast
    exact mul_le_mul_of_nonneg_left narrow scaled

theorem amount1_total (nonneg_a : 0 ≤ priceA) (nonneg_b : 0 ≤ priceB)
    (small_a : priceA < 2 ^ 160) (small_b : priceB < 2 ^ 160) (nonneg : 0 ≤ liquidity)
    (small : liquidity < 2 ^ 128) :
    amount1 rounding priceA priceB liquidity =
      .ok (rounding.round (exactAmount1 priceA priceB liquidity)) := by
  wlog le : priceA ≤ priceB generalizing priceA priceB
  · rw [amount1_comm, exactAmount1_comm]
    exact this nonneg_b nonneg_a small_b small_a (le_of_not_ge le)
  have width : 0 ≤ priceB - priceA := by omega
  have product : liquidity * (priceB - priceA) ≤ wordMax * q96 := by
    have bound : (2 ^ 128 * 2 ^ 160 : Int) ≤ wordMax * q96 := by decide
    exact (mul_le_mul small.le (by omega) width (by decide)).trans bound
  refine (amount1_of_le le).mpr ⟨rfl, rounding.round_nonneg ?_, rounding.round_le ?_⟩
  · rw [exactAmount1_of_le liquidity le]
    exact div_nonneg (by exact_mod_cast mul_nonneg nonneg width) q96_pos.le
  · rw [exactAmount1_of_le liquidity le, div_le_iff₀ q96_pos]
    exact_mod_cast product

end Rounded

end OrderDesk
