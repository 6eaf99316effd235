import Mathlib.Data.Rat.Floor
import Mathlib.Tactic
import OrderDesk.Price.Rounding
import OrderDesk.Proofs.Except

/-!
# Rounded quotients are rounded rationals

* `Rounding.divide_eq`: a rounded quotient is the floor or the ceiling of the exact one.
* `Rounding.divide_divide`: rounding twice to the same side is rounding once.
* `mulDiv_eq_ok`: when a product over a denominator is a word, and which.
-/

namespace OrderDesk

/-- A rational rounded to a side. -/
def Rounding.round : Rounding → ℚ → Int
  | .down, x => ⌊x⌋
  | .up, x => ⌈x⌉

theorem le_fdiv_iff {x y n : Int} (pos : 0 < y) : n ≤ Int.fdiv x y ↔ n * y ≤ x := by
  rw [Int.fdiv_eq_ediv_of_nonneg x pos.le]
  exact Int.le_ediv_iff_mul_le pos

theorem ceilDiv_le_iff {x y n : Int} (pos : 0 < y) : ceilDiv x y ≤ n ↔ x ≤ n * y := by
  rw [ceilDiv, Int.fdiv_eq_ediv_of_nonneg x pos.le, Int.fmod_eq_emod_of_nonneg x pos.le]
  split
  · rename_i exact
    have whole : x / y * y = x := Int.ediv_mul_cancel (Int.dvd_of_emod_eq_zero exact)
    rw [add_zero]
    nth_rewrite 2 [← whole]
    exact (mul_le_mul_iff_of_pos_right pos).symm
  · rename_i inexact
    have ne : x ≠ n * y := fun equal => inexact (by rw [equal, Int.mul_emod_left])
    rw [Int.add_one_le_iff, Int.ediv_lt_iff_lt_mul pos]
    exact ⟨le_of_lt, fun le => lt_of_le_of_ne le ne⟩

theorem Rounding.divide_eq (rounding : Rounding) (x : Int) {y : Int} (pos : 0 < y) :
    rounding.divide x y = rounding.round (x / y) := by
  have pos' : (0 : ℚ) < y := by exact_mod_cast pos
  cases rounding with
  | down =>
    refine eq_of_forall_le_iff fun n => ?_
    rw [Rounding.divide, Rounding.round, le_fdiv_iff pos, Int.le_floor, le_div_iff₀ pos']
    norm_cast
  | up =>
    refine eq_of_forall_ge_iff fun n => ?_
    rw [Rounding.divide, Rounding.round, ceilDiv_le_iff pos, Int.ceil_le, div_le_iff₀ pos']
    norm_cast

theorem Rounding.round_round_div (rounding : Rounding) (x : ℚ) {y : Int} (pos : 0 < y) :
    rounding.round (rounding.round x / y) = rounding.round (x / y) := by
  have pos' : (0 : ℚ) < y := by exact_mod_cast pos
  cases rounding with
  | down =>
    refine eq_of_forall_le_iff fun n => ?_
    change n ≤ ⌊(⌊x⌋ : ℚ) / y⌋ ↔ n ≤ ⌊x / y⌋
    rw [Int.le_floor, Int.le_floor, le_div_iff₀ pos', le_div_iff₀ pos', ← Int.cast_mul,
      Int.cast_le, Int.le_floor]
  | up =>
    refine eq_of_forall_ge_iff fun n => ?_
    change ⌈(⌈x⌉ : ℚ) / y⌉ ≤ n ↔ ⌈x / y⌉ ≤ n
    rw [Int.ceil_le, Int.ceil_le, div_le_iff₀ pos', div_le_iff₀ pos', ← Int.cast_mul,
      Int.cast_le, Int.ceil_le]

theorem Rounding.round_nonneg (rounding : Rounding) {x : ℚ} (nonneg : 0 ≤ x) :
    0 ≤ rounding.round x := by
  cases rounding with
  | down => exact Int.floor_nonneg.mpr nonneg
  | up => exact Int.ceil_nonneg nonneg

theorem Rounding.round_le (rounding : Rounding) {x : ℚ} {bound : Int} (le : x ≤ bound) :
    rounding.round x ≤ bound := by
  cases rounding with
  | down => exact_mod_cast (Int.floor_le x).trans le
  | up => exact Int.ceil_le.mpr le

/-! ## Checked values -/

theorem checkPrice_eq_ok {value result : Int} :
    checkPrice value = .ok result ↔ value = result ∧ 0 ≤ value ∧ value ≤ priceWordMax := by
  unfold checkPrice
  split
  · simp only [reduceCtorEq, false_iff]
    omega
  · simp only [Except.ok.injEq, iff_self_and]
    omega

theorem mulDiv_eq_ok {rounding : Rounding} {a b denominator result : Int}
    (pos : 0 < denominator) :
    mulDiv rounding a b denominator = .ok result ↔
      rounding.round (a * b / denominator) = result ∧ 0 ≤ result ∧ result ≤ wordMax := by
  have exact := rounding.divide_eq (a * b) pos
  rw [Int.cast_mul] at exact
  simp only [mulDiv, pos.ne', if_false, exact]
  split
  · simp only [reduceCtorEq, false_iff]
    omega
  · simp only [Except.ok.injEq]
    omega

end OrderDesk
