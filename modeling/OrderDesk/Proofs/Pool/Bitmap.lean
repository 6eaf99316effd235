import Mathlib.Tactic
import OrderDesk.Pool.Basic
import OrderDesk.Proofs.Except
import OrderDesk.Proofs.Table

/-!
# Tick bitmaps mark ticks

A bitmap that marks the initialized ticks is searched one word at a time.

* `ofTicks_marks`, `complete_marks`: the bitmap made from ticks marks them.
* `nextTick_down`: no initialized tick lies between the tick searched from and the one found below
  it.
* `nextTick_up`: the same above it.
* `nextTick_toward`: whatever is marked, the search goes down to a tick that is not above, and up to
  one that is above.
-/

namespace OrderDesk

/-- Whether the set bits of a bitmap are those of the initialized ticks, each a multiple of the
spacing. -/
structure Bitmap.Marks (bitmap : Bitmap) (spacing : Int) (initialized : Int → Prop) : Prop where
  aligned : ∀ tick, initialized tick → spacing ∣ tick
  exact : ∀ compressed, (bitmap.word (wordOf compressed)).testBit (bitOf compressed) = true ↔
    initialized (compressed * spacing)

variable {bitmap : Bitmap} {spacing tick compressed : Int} {initialized : Int → Prop}

theorem compressTick_of_pos (pos : 0 < spacing) :
    compressTick tick spacing = .ok (tick / spacing) := by
  rw [compressTick, divDown, if_neg pos.ne', Int.fdiv_eq_ediv_of_nonneg tick pos.le]

/-! ## Bits of a word -/

theorem wordOf_sub {distance : Nat} (le : distance ≤ bitOf compressed) :
    wordOf (compressed - distance) = wordOf compressed := by
  unfold wordOf bitOf at *
  omega

theorem bitOf_sub {distance : Nat} (le : distance ≤ bitOf compressed) :
    bitOf (compressed - distance) = bitOf compressed - distance := by
  unfold bitOf at *
  omega

theorem wordOf_add {distance : Nat} (lt : distance < 256 - bitOf compressed) :
    wordOf (compressed + distance) = wordOf compressed := by
  unfold wordOf bitOf at *
  omega

theorem bitOf_add {distance : Nat} (lt : distance < 256 - bitOf compressed) :
    bitOf (compressed + distance) = bitOf compressed + distance := by
  unfold bitOf at *
  omega

theorem Bitmap.Marks.below (marks : bitmap.Marks spacing initialized) {distance : Nat}
    (le : distance ≤ bitOf compressed) :
    (bitmap.word (wordOf compressed)).testBit (bitOf compressed - distance) = true ↔
      initialized ((compressed - distance) * spacing) := by
  rw [← marks.exact, wordOf_sub le, bitOf_sub le]

theorem Bitmap.Marks.above (marks : bitmap.Marks spacing initialized) {distance : Nat}
    (lt : distance < 256 - bitOf compressed) :
    (bitmap.word (wordOf compressed)).testBit (bitOf compressed + distance) = true ↔
      initialized ((compressed + distance) * spacing) := by
  rw [← marks.exact, wordOf_add lt, bitOf_add lt]

theorem bitOf_lt : bitOf compressed < 256 := by
  unfold bitOf
  omega

theorem position_inj {other : Int} :
    wordOf compressed = wordOf other ∧ bitOf compressed = bitOf other ↔ compressed = other := by
  unfold wordOf bitOf
  omega

/-! ## Bitmaps of ticks -/

/-- No word of the bitmap is negative. -/
def Bitmap.Plain (bitmap : Bitmap) : Prop := ∀ position, 0 ≤ (Table.get? bitmap position).getD 0

theorem Bitmap.Plain.setBit (plain : bitmap.Plain) (position : Int) (bit : Nat) :
    (bitmap.setBit position bit).Plain := by
  intro other
  rw [Bitmap.setBit, Table.get?_set]
  split
  · exact Int.natCast_nonneg _
  · exact plain other

theorem Bitmap.Plain.testBit_word (plain : bitmap.Plain) (position : Int) {bit : Nat}
    (lt : bit < 256) : (bitmap.word position).testBit bit =
      ((Table.get? bitmap position).getD 0).toNat.testBit bit := by
  have size : wordCount = ((2 ^ 256 : Nat) : Int) := rfl
  rw [Bitmap.word, size, Int.toNat_emod (plain position) (Int.natCast_nonneg _), Int.toNat_natCast,
    Nat.testBit_mod_two_pow, decide_eq_true lt, Bool.true_and]

theorem Bitmap.Plain.testBit_setBit (plain : bitmap.Plain) (position other : Int) (bit : Nat)
    {sought : Nat} (lt : sought < 256) :
    ((bitmap.setBit position bit).word other).testBit sought = true ↔
      (position = other ∧ bit = sought) ∨ (bitmap.word other).testBit sought = true := by
  rw [(plain.setBit position bit).testBit_word other lt, plain.testBit_word other lt,
    Bitmap.setBit, Table.get?_set]
  by_cases here : position = other
  · simp [here, Nat.testBit_two_pow, or_comm]
  · simp [here]

/-- Setting a bit that is set changes nothing. -/
theorem Bitmap.Plain.setBit_of_set (plain : bitmap.Plain) {position : Int} {bit : Nat}
    (lt : bit < 256) (set : (bitmap.word position).testBit bit = true) :
    bitmap.setBit position bit = bitmap := by
  rw [plain.testBit_word position lt] at set
  cases found : Table.get? bitmap position with
  | none =>
    rw [found] at set
    simp at set
  | some bits =>
    have nonneg : 0 ≤ bits := by simpa [found] using plain position
    rw [found] at set
    have same : bits.toNat ||| 2 ^ bit = bits.toNat := by
      apply Nat.eq_of_testBit_eq
      intro other
      by_cases here : bit = other
      · subst here
        simpa using set
      · simp [here]
    rw [Bitmap.setBit, found, Option.getD_some, same, Int.toNat_of_nonneg nonneg]
    exact Table.set_get? found

theorem mark_of_pos (pos : 0 < spacing) (bitmap : Bitmap) (tick : Int) :
    Bitmap.mark spacing bitmap tick =
      .ok (bitmap.setBit (wordOf (tick / spacing)) (bitOf (tick / spacing))) := by
  rw [Bitmap.mark, bitmapPosition, compressTick_of_pos pos]
  rfl

theorem marked_fold (pos : 0 < spacing) (ticks : List Int) (plain : bitmap.Plain) :
    ∃ result, ticks.foldlM (Bitmap.mark spacing) bitmap = .ok result ∧ result.Plain ∧
      ∀ compressed, (result.word (wordOf compressed)).testBit (bitOf compressed) = true ↔
        (∃ tick ∈ ticks, tick / spacing = compressed) ∨
          (bitmap.word (wordOf compressed)).testBit (bitOf compressed) = true := by
  induction ticks generalizing bitmap with
  | nil => exact ⟨bitmap, rfl, plain, by simp⟩
  | cons tick ticks ih =>
    obtain ⟨result, given, plain', exact'⟩ :=
      ih (plain.setBit (wordOf (tick / spacing)) (bitOf (tick / spacing)))
    refine ⟨result, ?_, plain', fun compressed => ?_⟩
    · rw [List.foldlM_cons, mark_of_pos pos]
      exact given
    · rw [exact', plain.testBit_setBit _ _ _ bitOf_lt, position_inj, List.exists_mem_cons_iff,
        or_assoc, or_left_comm]

theorem ofTicks_marks (pos : 0 < spacing) {ticks : List Int}
    (aligned : ∀ tick ∈ ticks, spacing ∣ tick) :
    ∃ bitmap, Bitmap.ofTicks spacing ticks = .ok bitmap ∧ bitmap.Marks spacing (· ∈ ticks) := by
  have plain : Bitmap.Plain [] := fun _ => le_rfl
  obtain ⟨bitmap, given, -, exact'⟩ := marked_fold pos ticks plain
  refine ⟨bitmap, given, aligned, fun compressed => ?_⟩
  have unset : ((Bitmap.word [] (wordOf compressed)).testBit (bitOf compressed)) = false :=
    Nat.zero_testBit _
  rw [exact', unset]
  constructor
  · rintro (⟨tick, mem, rfl⟩ | impossible)
    · rwa [Int.ediv_mul_cancel (aligned tick mem)]
    · cases impossible
  · intro mem
    exact .inl ⟨_, mem, Int.mul_ediv_cancel _ pos.ne'⟩

/-- A pool without a bitmap is completed by the one that is made from its ticks. -/
theorem complete_of_ofTicks {pool : Pool} (empty : pool.bitmap = [])
    (given : Bitmap.ofTicks pool.tickSpacing (pool.ticks.map (·.1)) = .ok bitmap) :
    pool.complete = .ok { pool with bitmap } := by
  unfold Pool.complete
  split
  · rename_i bare
    have none : pool.ticks = [] := by simpa [empty] using bare
    rw [none] at given
    cases given
    rw [← empty]
  · rw [given]
    rfl

theorem complete_marks {pool : Pool} (pos : 0 < pool.tickSpacing) (empty : pool.bitmap = [])
    (aligned : ∀ tick, (pool.ticks.get? tick).isSome = true → pool.tickSpacing ∣ tick) :
    ∃ bitmap, pool.complete = .ok { pool with bitmap } ∧
      bitmap.Marks pool.tickSpacing fun tick => (pool.ticks.get? tick).isSome = true := by
  have keys : ∀ tick ∈ pool.ticks.map (·.1), pool.tickSpacing ∣ tick := by
    intro tick mem
    exact aligned tick ((Table.get?_isSome _ _).mpr mem)
  obtain ⟨bitmap, given, marks⟩ := ofTicks_marks pos keys
  simp only [Table.get?_isSome]
  exact ⟨bitmap, complete_of_ofTicks empty given, marks⟩

/-! ## Multiples of the spacing -/

theorem Bitmap.Marks.none_between (marks : bitmap.Marks spacing initialized) (pos : 0 < spacing)
    {low high : Int}
    (none : ∀ between, low < between → between < high → ¬ initialized (between * spacing))
    (above : low * spacing < tick) (below : tick < high * spacing) : ¬ initialized tick := by
  intro set
  obtain ⟨between, rfl⟩ := marks.aligned tick set
  rw [mul_comm spacing] at above below set
  apply none between _ _ set
  · exact lt_of_mul_lt_mul_right above pos.le
  · exact lt_of_mul_lt_mul_right below pos.le

/-! ## The search -/

theorem nextTick_down_word (pos : 0 < spacing) (marks : bitmap.Marks spacing initialized)
    (compressed_eq : tick / spacing = compressed) :
    ∃ (distance : Nat) (flag : Bool),
      bitmap.nextTick tick spacing true = .ok ((compressed - distance) * spacing, flag) ∧
      (∀ nearer : Nat, nearer < distance → ¬ initialized ((compressed - nearer) * spacing)) ∧
      (flag = true ↔ initialized ((compressed - distance) * spacing)) := by
  simp only [Bitmap.nextTick, compressTick_of_pos pos, compressed_eq, ok_bind, if_true]
  cases search : Bitmap.distanceDown (bitmap.word (wordOf compressed)) (bitOf compressed) with
  | some distance =>
    obtain ⟨set, mem, nearest⟩ := List.find?_range_eq_some.mp search
    have within := List.mem_range.mp mem
    refine ⟨distance, true, rfl, ?_, ?_⟩
    · intro nearer lt
      rw [← marks.below (by omega)]
      simpa using nearest nearer lt
    · simpa using (marks.below (by omega)).mp set
  | none =>
    have unset : ∀ distance : Nat, distance ≤ bitOf compressed →
        ¬ initialized ((compressed - distance) * spacing) := by
      intro distance le
      rw [← marks.below le]
      simpa using List.find?_range_eq_none.mp search distance (by omega)
    refine ⟨bitOf compressed, false, rfl, ?_, ?_⟩
    · intro nearer lt
      exact unset nearer lt.le
    · simpa using unset (bitOf compressed) le_rfl

theorem nextTick_up_word (pos : 0 < spacing) (marks : bitmap.Marks spacing initialized)
    (start_eq : tick / spacing + 1 = compressed) :
    ∃ (distance : Nat) (flag : Bool),
      bitmap.nextTick tick spacing false = .ok ((compressed + distance) * spacing, flag) ∧
      (∀ nearer : Nat, nearer < distance → ¬ initialized ((compressed + nearer) * spacing)) ∧
      (flag = true ↔ initialized ((compressed + distance) * spacing)) := by
  have bit_lt : bitOf compressed < 256 := by
    unfold bitOf
    omega
  simp only [Bitmap.nextTick, compressTick_of_pos pos, start_eq, ok_bind, Bool.false_eq_true,
    if_false]
  cases search : Bitmap.distanceUp (bitmap.word (wordOf compressed)) (bitOf compressed) with
  | some distance =>
    obtain ⟨set, mem, nearest⟩ := List.find?_range_eq_some.mp search
    have within := List.mem_range.mp mem
    refine ⟨distance, true, rfl, ?_, ?_⟩
    · intro nearer lt
      rw [← marks.above (by omega)]
      simpa using nearest nearer lt
    · simpa using (marks.above within).mp set
  | none =>
    have unset : ∀ distance : Nat, distance < 256 - bitOf compressed →
        ¬ initialized ((compressed + distance) * spacing) := by
      intro distance lt
      rw [← marks.above lt]
      simpa using List.find?_range_eq_none.mp search distance lt
    have last : ((255 - bitOf compressed : Nat) : Int) = 255 - bitOf compressed := by omega
    refine ⟨255 - bitOf compressed, false, ?_, ?_, ?_⟩
    · rw [last]
      rfl
    · intro nearer lt
      exact unset nearer (by omega)
    · simpa using unset (255 - bitOf compressed) (by omega)

/-- The nearest initialized tick at or below a tick, or the last of the word. -/
theorem nextTick_down (pos : 0 < spacing) (marks : bitmap.Marks spacing initialized) (tick : Int) :
    ∃ found flag, bitmap.nextTick tick spacing true = .ok (found, flag) ∧ found ≤ tick ∧
      (∀ between, found < between → between ≤ tick → ¬ initialized between) ∧
      (flag = true ↔ initialized found) := by
  have start_le : tick / spacing * spacing ≤ tick := Int.ediv_mul_le tick pos.ne'
  have lt_start : tick < (tick / spacing + 1) * spacing := Int.lt_ediv_add_one_mul_self tick pos
  obtain ⟨distance, flag, found, none, flag_eq⟩ := nextTick_down_word pos marks rfl
  refine ⟨_, flag, found, ?_, ?_, flag_eq⟩
  · exact (mul_le_mul_of_nonneg_right (by omega) pos.le).trans start_le
  · intro between above below
    refine marks.none_between pos ?_ above (below.trans_lt lt_start)
    intro other lower upper
    obtain ⟨nearer, rfl⟩ : ∃ nearer : Nat, other = tick / spacing - nearer :=
      ⟨(tick / spacing - other).toNat, by omega⟩
    exact none nearer (by omega)

/-- The nearest initialized tick above a tick, or the last of the word. -/
theorem nextTick_up (pos : 0 < spacing) (marks : bitmap.Marks spacing initialized) (tick : Int) :
    ∃ found flag, bitmap.nextTick tick spacing false = .ok (found, flag) ∧ tick < found ∧
      (∀ between, tick < between → between < found → ¬ initialized between) ∧
      (flag = true ↔ initialized found) := by
  have start_le : tick / spacing * spacing ≤ tick := Int.ediv_mul_le tick pos.ne'
  have lt_start : tick < (tick / spacing + 1) * spacing := Int.lt_ediv_add_one_mul_self tick pos
  obtain ⟨distance, flag, found, none, flag_eq⟩ := nextTick_up_word pos marks rfl
  refine ⟨_, flag, found, ?_, ?_, flag_eq⟩
  · exact lt_start.trans_le (mul_le_mul_of_nonneg_right (by omega) pos.le)
  · intro between above below
    refine marks.none_between pos ?_ (start_le.trans_lt above) below
    intro other lower upper
    obtain ⟨nearer, rfl⟩ : ∃ nearer : Nat, other = tick / spacing + 1 + nearer :=
      ⟨(other - (tick / spacing + 1)).toNat, by omega⟩
    exact none nearer (by omega)

/-! ### Searches of any bitmap -/

theorem nextTick_toward (pos : 0 < spacing) {downward flag : Bool} {found : Int}
    (given : bitmap.nextTick tick spacing downward = .ok (found, flag)) :
    if downward then found ≤ tick else tick < found := by
  have start_le : tick / spacing * spacing ≤ tick := Int.ediv_mul_le tick pos.ne'
  have lt_start : tick < (tick / spacing + 1) * spacing := Int.lt_ediv_add_one_mul_self tick pos
  have below (distance : Nat) : (tick / spacing - distance) * spacing ≤ tick :=
    (mul_le_mul_of_nonneg_right (by omega) pos.le).trans start_le
  have above {distance : Int} (nonneg : 0 ≤ distance) :
      tick < (tick / spacing + 1 + distance) * spacing :=
    lt_start.trans_le (mul_le_mul_of_nonneg_right (by omega) pos.le)
  simp only [Bitmap.nextTick, compressTick_of_pos pos, ok_bind] at given
  cases downward with
  | true =>
    simp only [if_true] at given ⊢
    split at given
    · cases given
      exact below _
    · cases given
      exact below _
  | false =>
    simp only [Bool.false_eq_true, if_false] at given ⊢
    split at given
    · cases given
      exact above (Int.natCast_nonneg _)
    · cases given
      have bit_lt : bitOf (tick / spacing + 1) < 256 := bitOf_lt
      exact above (by omega)

end OrderDesk
