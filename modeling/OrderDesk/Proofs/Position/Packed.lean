import Mathlib.Tactic
import OrderDesk.Position.Packed
import OrderDesk.Proofs.Bytes
import OrderDesk.Proofs.Fields

/-!
# Packed positions read back

A position that fits its word is unpacked from it as it was packed. A word that was not packed has
any low byte for its flag; unpacked and packed again it keeps all but that byte.

* `PositionInfo.toWord_eq_joined`: the parts of a packed word share no bit.
* `PositionInfo.unpack_toWord`, `PositionInfo.toWord_unpacked`: one direction and the other.
* `PositionInfo.packed_exactly`: both directions, and so for the first word of a pool.
-/

namespace OrderDesk

namespace PositionInfo

variable {info : PositionInfo} {word : Int}

/-- The positions that a word has room for. -/
structure Fits (info : PositionInfo) : Prop where
  key : info.poolMapKey.length = 25
  lower : -2 ^ 23 ≤ info.tickLower ∧ info.tickLower < 2 ^ 23
  upper : -2 ^ 23 ≤ info.tickUpper ∧ info.tickUpper < 2 ^ 23

/-- The word of a position, as a sum. -/
def toWord (info : PositionInfo) : Int :=
  Bytes.toNat info.poolMapKey * 2 ^ 56 + bitField info.tickUpper 0 24 * 2 ^ 32 +
    bitField info.tickLower 0 24 * 2 ^ 8 + if info.hasSubscriber then 1 else 0

theorem Fits.key_lt (fits : info.Fits) : Bytes.toNat info.poolMapKey < 256 ^ 25 :=
  Bytes.toNat_lt fits.key

theorem pack_eq (key : info.poolMapKey.length = 25) : info.pack = .ok info.toWord := if_pos key

/-- The parts of a packed word, each moved to its place, joined by "or". -/
def joined (info : PositionInfo) : Nat :=
  Bytes.toNat info.poolMapKey <<< 56 ||| (bitField info.tickUpper 0 24).toNat <<< 32 |||
    (bitField info.tickLower 0 24).toNat <<< 8 ||| info.hasSubscriber.toNat

/-- The parts share no bit, so that "or" adds them. -/
theorem toWord_eq_joined (info : PositionInfo) : info.toWord = info.joined := by
  have upper := bitField_mem info.tickUpper 0 24
  have lower := bitField_mem info.tickLower 0 24
  have flag_lt := info.hasSubscriber.toNat_lt
  have flag_eq : (info.hasSubscriber.toNat : Int) = if info.hasSubscriber then 1 else 0 := by
    cases info.hasSubscriber <;> rfl
  rw [toWord, joined, ← flag_eq]
  generalize Bytes.toNat info.poolMapKey = key at *
  obtain ⟨high, high_eq⟩ := Int.eq_ofNat_of_zero_le upper.1
  obtain ⟨low, low_eq⟩ := Int.eq_ofNat_of_zero_le lower.1
  rw [high_eq] at upper
  rw [low_eq] at lower
  have top : key <<< 56 ||| high <<< 32 = (key * 2 ^ 24 + high) <<< 32 := by
    rw [← Nat.shiftLeft_add_eq_or_of_lt (by omega)]
    omega
  have middle : (key * 2 ^ 24 + high) <<< 32 ||| low <<< 8 =
      ((key * 2 ^ 24 + high) * 2 ^ 24 + low) <<< 8 := by
    rw [← Nat.shiftLeft_add_eq_or_of_lt (by omega)]
    omega
  rw [high_eq, low_eq, Int.toNat_natCast, Int.toNat_natCast, top, middle,
    ← Nat.shiftLeft_add_eq_or_of_lt (by omega), Nat.shiftLeft_eq]
  omega

theorem toWord_lt (fits : info.Fits) : info.toWord < 2 ^ 256 := by
  have key_lt := fits.key_lt
  have upper := bitField_mem info.tickUpper 0 24
  have lower := bitField_mem info.tickLower 0 24
  unfold toWord
  split <;> omega

theorem unpack_toWord (fits : info.Fits) : unpack info.toWord = .ok info := by
  have key_lt := fits.key_lt
  have upper := bitField_mem info.tickUpper 0 24
  have lower := bitField_mem info.tickLower 0 24
  have key_eq : info.toWord / 2 ^ 56 = Bytes.toNat info.poolMapKey := by
    unfold toWord
    split <;> omega
  have upper_eq : bitField info.toWord 32 24 = bitField info.tickUpper 0 24 := by
    unfold toWord bitField at *
    split <;> omega
  have lower_eq : bitField info.toWord 8 24 = bitField info.tickLower 0 24 := by
    unfold toWord bitField at *
    split <;> omega
  have flag_eq : bitField info.toWord 0 8 = if info.hasSubscriber then 1 else 0 := by
    unfold toWord bitField at *
    split <;> omega
  have written : Bytes.ofInt? 32 (info.toWord / 2 ^ 56) =
      some (Bytes.ofNat (7 + 25) (Bytes.toNat info.poolMapKey)) := by
    rw [key_eq, Bytes.ofInt?, if_pos (by omega), Int.toNat_natCast]
  rw [unpack, written]
  simp only [Bytes.drop_ofNat, Bytes.ofNat_toNat fits.key, lower_eq, upper_eq, flag_eq,
    signExtend24_bitField fits.lower, signExtend24_bitField fits.upper]
  cases info with
  | mk key lower upper flag => cases flag <;> rfl

theorem unpack_eq (mem : 0 ≤ word ∧ word < 2 ^ 256) :
    unpack word = .ok {
      poolMapKey := Bytes.ofNat 25 (word / 2 ^ 56).toNat
      tickLower := signExtend24 (bitField word 8 24)
      tickUpper := signExtend24 (bitField word 32 24)
      hasSubscriber := bitField word 0 8 ≠ 0 } := by
  have written : Bytes.ofInt? 32 (word / 2 ^ 56) =
      some (Bytes.ofNat (7 + 25) (word / 2 ^ 56).toNat) := if_pos (by omega)
  rw [unpack, written]
  simp only [Bytes.drop_ofNat]

theorem Fits.of_unpack (mem : 0 ≤ word ∧ word < 2 ^ 256) (unpacked : unpack word = .ok info) :
    info.Fits := by
  rw [unpack_eq mem] at unpacked
  cases unpacked
  exact ⟨Bytes.ofNat_length 25 _, signExtend24_mem _, signExtend24_mem _⟩

theorem toWord_unpacked (mem : 0 ≤ word ∧ word < 2 ^ 256) (unpacked : unpack word = .ok info) :
    info.toWord = word - word % 256 + if word % 256 = 0 then 0 else 1 := by
  rw [unpack_eq mem] at unpacked
  cases unpacked
  have top : Bytes.toNat (Bytes.ofNat 25 (word / 2 ^ 56).toNat) = word / 2 ^ 56 := by
    rw [Bytes.toNat_ofNat_of_lt (by omega), Int.toNat_of_nonneg (by omega)]
  unfold toWord
  dsimp only
  rw [top, bitField_signExtend24, bitField_signExtend24]
  unfold bitField
  simp only [decide_eq_true_eq]
  split <;> split <;> omega

/-- Positions and words are read from each other: a position that fits is unpacked from the word
that its parts are joined to, a word is packed again up to what its flag byte was. So are the fields
of a pool's first word. -/
theorem packed_exactly :
    (∀ info : PositionInfo, info.Fits →
      info.pack = .ok info.joined ∧ info.joined < 2 ^ 256 ∧ unpack info.joined = .ok info) ∧
    (∀ word : Int, 0 ≤ word ∧ word < 2 ^ 256 →
      ∃ info, unpack word = .ok info ∧ info.Fits ∧
        info.pack = .ok (word - word % 256 + if word % 256 = 0 then 0 else 1)) ∧
    (∀ (slot : Slot0) (above : Int), slot.Fits → Slot0.ofWord (slot.toWord above) = slot) := by
  refine ⟨fun info fits => ?_, fun word mem => ?_, fun slot above fits => ?_⟩
  · have word_lt := toWord_lt fits
    have packed := pack_eq fits.key
    have unpacked := unpack_toWord fits
    rw [toWord_eq_joined] at word_lt packed unpacked
    exact ⟨packed, by exact_mod_cast word_lt, unpacked⟩
  · have unpacked := unpack_eq mem
    have fits := Fits.of_unpack mem unpacked
    refine ⟨_, unpacked, fits, ?_⟩
    rw [pack_eq fits.key, toWord_unpacked mem unpacked]
  · exact Slot0.ofWord_toWord fits above

def belowZero : PositionInfo where
  poolMapKey := List.replicate 25 0xab
  tickLower := -2 ^ 23
  tickUpper := -60
  hasSubscriber := true

/-- Two negative ticks, a word of ones only, and a negative tick below a full upper part. -/
theorem packed_exactly_below_zero :
    (belowZero.pack = .ok belowZero.joined ∧ belowZero.joined < 2 ^ 256 ∧
      unpack belowZero.joined = .ok belowZero) ∧
    (∃ info, unpack (2 ^ 256 - 1) = .ok info ∧ info.Fits ∧ info.pack = .ok (2 ^ 256 - 255)) ∧
    Slot0.ofWord ((⟨2 ^ 96, -1, 0, 3000⟩ : Slot0).toWord (2 ^ 24 - 1)) = ⟨2 ^ 96, -1, 0, 3000⟩ :=
  ⟨packed_exactly.1 belowZero ⟨rfl, by decide, by decide⟩,
    packed_exactly.2.1 (2 ^ 256 - 1) (by decide),
    packed_exactly.2.2 ⟨2 ^ 96, -1, 0, 3000⟩ (2 ^ 24 - 1)
      ⟨by decide, by decide, by decide, by decide⟩⟩

end PositionInfo

end OrderDesk
