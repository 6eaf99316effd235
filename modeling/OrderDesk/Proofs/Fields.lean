import Mathlib.Tactic
import OrderDesk.Storage.Layout

/-!
# Fields of packed words

* `bitField_mem`: a field is a number of its width.
* `signExtend24_bitField`, `bitField_signExtend24`: a signed number of 24 bits and its field are
  read from each other.
* `Slot0.ofWord_toWord`: the fields of a pool's first word are read back from their composition.
-/

namespace OrderDesk

theorem bitField_mem (word : Int) (start width : Nat) :
    0 ≤ bitField word start width ∧ bitField word start width < 2 ^ width := by
  have pos : (0 : Int) < 2 ^ width := by positivity
  exact ⟨Int.emod_nonneg _ pos.ne', Int.emod_lt_of_pos _ pos⟩

theorem bitField_of_mem {value : Int} {width : Nat} (mem : 0 ≤ value ∧ value < 2 ^ width) :
    bitField value 0 width = value := by
  rw [bitField, pow_zero, Int.ediv_one, Int.emod_eq_of_lt mem.1 mem.2]

/-! ## Signed fields -/

theorem signExtend24_mem (raw : Int) :
    -2 ^ 23 ≤ signExtend24 raw ∧ signExtend24 raw < 2 ^ 23 := by
  have field := bitField_mem raw 0 24
  unfold signExtend24
  dsimp only
  split <;> omega

theorem bitField_signExtend24 (raw : Int) :
    bitField (signExtend24 raw) 0 24 = bitField raw 0 24 := by
  unfold signExtend24 bitField
  dsimp only
  split <;> omega

/-- Only the low 24 bits count. -/
theorem signExtend24_congr {raw other : Int} (same : bitField raw 0 24 = bitField other 0 24) :
    signExtend24 raw = signExtend24 other := by
  unfold signExtend24
  rw [same]

theorem signExtend24_of_mem {value : Int} (mem : -2 ^ 23 ≤ value ∧ value < 2 ^ 23) :
    signExtend24 value = value := by
  unfold signExtend24 bitField
  dsimp only
  split <;> omega

theorem signExtend24_bitField {value : Int} (mem : -2 ^ 23 ≤ value ∧ value < 2 ^ 23) :
    signExtend24 (bitField value 0 24) = value := by
  have same : bitField (bitField value 0 24) 0 24 = bitField value 0 24 :=
    bitField_of_mem (bitField_mem value 0 24)
  rw [signExtend24_congr same, signExtend24_of_mem mem]

/-! ## The first word of a pool -/

namespace Slot0

/-- The values of the fields that a word has room for. -/
structure Fits (slot : Slot0) : Prop where
  price : 0 ≤ slot.sqrtPrice ∧ slot.sqrtPrice < 2 ^ 160
  tick : -2 ^ 23 ≤ slot.tick ∧ slot.tick < 2 ^ 23
  protocolFee : 0 ≤ slot.protocolFee ∧ slot.protocolFee < 2 ^ 24
  lpFee : 0 ≤ slot.lpFee ∧ slot.lpFee < 2 ^ 24

/-- The fields from bits 0, 160, 184 and 208 on, and what stands above them. -/
def toWord (slot : Slot0) (above : Int) : Int :=
  slot.sqrtPrice + bitField slot.tick 0 24 * 2 ^ 160 + slot.protocolFee * 2 ^ 184 +
    slot.lpFee * 2 ^ 208 + above * 2 ^ 232

theorem ofWord_toWord {slot : Slot0} (fits : slot.Fits) (above : Int) :
    ofWord (slot.toWord above) = slot := by
  obtain ⟨price, tick, protocolFee, lpFee⟩ := fits
  have field := bitField_mem slot.tick 0 24
  have price_eq : bitField (slot.toWord above) 0 160 = slot.sqrtPrice := by
    unfold toWord bitField at *
    omega
  have tick_eq : bitField (slot.toWord above) 160 24 = bitField slot.tick 0 24 := by
    unfold toWord bitField at *
    omega
  have protocolFee_eq : bitField (slot.toWord above) 184 24 = slot.protocolFee := by
    unfold toWord bitField at *
    omega
  have lpFee_eq : bitField (slot.toWord above) 208 24 = slot.lpFee := by
    unfold toWord bitField at *
    omega
  rw [ofWord, price_eq, tick_eq, signExtend24_bitField tick, protocolFee_eq, lpFee_eq]

end Slot0

end OrderDesk
