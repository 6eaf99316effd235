import OrderDesk.Proofs.TickReader.Maps

/-!
# Assembling the maps of a pool

Rows are entered in the order of their ticks. They come in any order, from batches that may overlap;
the sort is stable, so that of the rows for one tick the last to come in counts.

* `rowsAt_counted`: sorting keeps the rows for a tick in their order.
* `counted_eq`: nothing else about the order in which rows come in matters.
* `Assembled.entered`: rows that are entered one by one give the bitmap that is made from their ticks.
* `ofRows_faithful`: what the maps of rows hold, and that a pool makes the same bitmap itself.
-/

namespace OrderDesk

variable {spacing tick : Int} {rows others : List TickRow} {row : TickRow}

/-! ## The rows for a tick -/

/-- The rows for a tick, in their order. -/
def rowsAt (rows : List TickRow) (tick : Int) : List TickRow :=
  rows.filter fun row => decide (row.tick = tick)

theorem mem_rowsAt : row ∈ rowsAt rows tick ↔ row ∈ rows ∧ row.tick = tick := by
  simp [rowsAt]

theorem rowsAt_cons_self (row : TickRow) (rows : List TickRow) :
    rowsAt (row :: rows) row.tick = row :: rowsAt rows row.tick :=
  List.filter_cons_of_pos (decide_eq_true rfl)

theorem rowsAt_cons_of_ne (ne : row.tick ≠ tick) : rowsAt (row :: rows) tick = rowsAt rows tick :=
  List.filter_cons_of_neg (by simpa using ne)

theorem rowsAt_filter (keep : TickRow → Bool) (rows : List TickRow) (tick : Int) :
    rowsAt (rows.filter keep) tick = (rowsAt rows tick).filter keep :=
  List.filter_comm _ _ _

theorem lastAt?_eq (rows : List TickRow) (tick : Int) :
    lastAt? rows tick = (rowsAt rows tick).getLast? := by
  rw [lastAt?, rowsAt, ← List.head?_reverse, ← List.filter_reverse, List.head?_filter]

/-- Whether rows are others in another order, the rows for each tick in the same one. -/
def Reorders (rows others : List TickRow) : Prop :=
  rows.Perm others ∧ ∀ tick, rowsAt rows tick = rowsAt others tick

/-! ## Sorting -/

theorem tick_le_of_sorted {first : TickRow}
    (sorted : (first :: rows).Pairwise fun low high => low.tick ≤ high.tick)
    (mem : row ∈ first :: rows) : first.tick ≤ row.tick := by
  rcases List.mem_cons.mp mem with rfl | later
  · exact le_rfl
  · exact (List.pairwise_cons.mp sorted).1 row later

theorem mem_iff_of_rowsAt_eq (same : ∀ tick, rowsAt rows tick = rowsAt others tick) :
    row ∈ rows ↔ row ∈ others := by
  have here : row ∈ rowsAt rows row.tick ↔ row ∈ rowsAt others row.tick := by rw [same]
  simpa [mem_rowsAt] using here

/-- Sorted rows are known by the rows for each tick. -/
theorem eq_of_rowsAt_eq (sorted : rows.Pairwise fun low high => low.tick ≤ high.tick)
    (others_sorted : others.Pairwise fun low high => low.tick ≤ high.tick)
    (same : ∀ tick, rowsAt rows tick = rowsAt others tick) : rows = others := by
  induction rows generalizing others with
  | nil =>
    symm
    refine List.eq_nil_iff_forall_not_mem.mpr fun row mem => ?_
    exact List.not_mem_nil ((mem_iff_of_rowsAt_eq same).mpr mem)
  | cons first rows ih =>
    cases others with
    | nil => exact absurd ((mem_iff_of_rowsAt_eq same).mp List.mem_cons_self) List.not_mem_nil
    | cons other others =>
      have le : first.tick ≤ other.tick :=
        tick_le_of_sorted sorted ((mem_iff_of_rowsAt_eq same).mpr List.mem_cons_self)
      have ge : other.tick ≤ first.tick :=
        tick_le_of_sorted others_sorted ((mem_iff_of_rowsAt_eq same).mp List.mem_cons_self)
      have heads := same first.tick
      rw [rowsAt_cons_self, le_antisymm le ge, rowsAt_cons_self] at heads
      obtain ⟨rfl, -⟩ := List.cons.inj heads
      have later : ∀ tick, rowsAt rows tick = rowsAt others tick := by
        intro tick
        have whole := same tick
        by_cases here : first.tick = tick
        · subst here
          rw [rowsAt_cons_self, rowsAt_cons_self] at whole
          exact (List.cons.inj whole).2
        · rwa [rowsAt_cons_of_ne here, rowsAt_cons_of_ne here] at whole
      rw [ih sorted.of_cons others_sorted.of_cons later]

namespace TickMaps

theorem byTick_trans (a b c : TickRow) (first : decide (a.tick ≤ b.tick) = true)
    (second : decide (b.tick ≤ c.tick) = true) : decide (a.tick ≤ c.tick) = true :=
  decide_eq_true ((of_decide_eq_true first).trans (of_decide_eq_true second))

theorem byTick_total (a b : TickRow) :
    (decide (a.tick ≤ b.tick) || decide (b.tick ≤ a.tick)) = true := by
  simpa using le_total a.tick b.tick

theorem counted_sorted (rows : List TickRow) :
    (counted rows).Pairwise fun low high => low.tick ≤ high.tick :=
  ((List.pairwise_mergeSort byTick_trans byTick_total rows).imp of_decide_eq_true).filter _

/-- The sort is stable. -/
theorem rowsAt_mergeSort (rows : List TickRow) (tick : Int) :
    rowsAt (rows.mergeSort fun a b => decide (a.tick ≤ b.tick)) tick = rowsAt rows tick := by
  have together : (rowsAt rows tick).Pairwise fun a b => decide (a.tick ≤ b.tick) = true := by
    refine List.pairwise_of_forall_mem_list fun a a_mem b b_mem => ?_
    exact decide_eq_true ((mem_rowsAt.mp a_mem).2.trans (mem_rowsAt.mp b_mem).2.symm).le
  have kept : (rowsAt rows tick).Sublist (rows.mergeSort fun a b => decide (a.tick ≤ b.tick)) :=
    List.sublist_mergeSort byTick_trans byTick_total together List.filter_sublist
  have inside : (rowsAt rows tick).Sublist
      (rowsAt (rows.mergeSort fun a b => decide (a.tick ≤ b.tick)) tick) := by
    have filtered := kept.filter fun row => decide (row.tick = tick)
    simpa only [rowsAt, List.filter_filter, Bool.and_self] using filtered
  have moved := List.mergeSort_perm rows fun a b => decide (a.tick ≤ b.tick)
  exact (inside.eq_of_length (moved.filter _).length_eq.symm).symm

theorem rowsAt_counted (rows : List TickRow) (tick : Int) :
    rowsAt (counted rows) tick = rowsAt (rows.filter (·.initialized)) tick := by
  rw [counted, rowsAt_filter, rowsAt_filter, rowsAt_mergeSort]

/-- The order in which rows for different ticks come in does not matter. -/
theorem counted_eq (reorders : Reorders rows others) : counted rows = counted others := by
  refine eq_of_rowsAt_eq (counted_sorted rows) (counted_sorted others) fun tick => ?_
  rw [rowsAt_counted, rowsAt_counted, rowsAt_filter, rowsAt_filter, reorders.2 tick]

/-! ## Both maps -/

/-- Whether the bitmap of some maps is the one that is made from their ticks, each of its words with
a bit and none beyond the 256. -/
structure Assembled (spacing : Int) (maps : TickMaps) : Prop where
  ofTicks : Bitmap.ofTicks spacing (maps.ticks.map (·.1)) = .ok maps.bitmap
  words : ∀ row ∈ maps.bitmap, 0 < row.2 ∧ row.2 < wordCount

variable {maps next : TickMaps}

namespace Assembled

theorem none : Assembled spacing ⟨[], []⟩ where
  ofTicks := rfl
  words := nofun

theorem marked (pos : 0 < spacing) (assembled : Assembled spacing maps) :
    maps.bitmap.Plain ∧
      ∀ compressed, (maps.bitmap.word (wordOf compressed)).testBit (bitOf compressed) = true ↔
        ∃ tick ∈ maps.ticks.map (·.1), tick / spacing = compressed := by
  have plain : Bitmap.Plain [] := fun _ => le_rfl
  obtain ⟨bitmap, given, plain', exact'⟩ := marked_fold pos (maps.ticks.map (·.1)) plain
  cases given.symm.trans assembled.ofTicks
  refine ⟨plain', fun compressed => ?_⟩
  have unset : ((Bitmap.word [] (wordOf compressed)).testBit (bitOf compressed)) = false :=
    Nat.zero_testBit _
  rw [exact', unset]
  simp

theorem words_setBit {bitmap : Bitmap} (words : ∀ row ∈ bitmap, 0 < row.2 ∧ row.2 < wordCount)
    (position : Int) {bit : Nat} (lt : bit < 256) :
    ∀ row ∈ bitmap.setBit position bit, 0 < row.2 ∧ row.2 < wordCount := by
  intro row mem
  rcases Table.mem_set mem with rfl | old
  · have bits_lt : ((Table.get? bitmap position).getD 0).toNat < 2 ^ 256 := by
      cases found : Table.get? bitmap position with
      | none => exact Nat.two_pow_pos 256
      | some bits =>
        have small := (words _ (Table.mem_of_get? found)).2
        rw [wordCount] at small
        change bits.toNat < 2 ^ 256
        omega
    have bit_lt : 2 ^ bit < 2 ^ 256 := Nat.pow_lt_pow_right (by decide) lt
    have joined_pos : 0 < ((Table.get? bitmap position).getD 0).toNat ||| 2 ^ bit :=
      (Nat.two_pow_pos bit).trans_le Nat.right_le_or
    exact ⟨Int.natCast_pos.mpr joined_pos, Int.ofNat_lt.mpr (Nat.or_lt_two_pow bits_lt bit_lt)⟩
  · exact words row old

/-- A tick that is entered again has its bit already, as the made bitmap has it. -/
theorem enter (pos : 0 < spacing) (assembled : Assembled spacing maps)
    (given : TickMaps.enter spacing maps row = .ok next) : Assembled spacing next := by
  rw [TickMaps.enter, mark_of_pos pos] at given
  cases given
  refine ⟨?_, words_setBit assembled.words _ bitOf_lt⟩
  have made := assembled.ofTicks
  rw [Table.keys_set]
  split
  · rename_i present
    obtain ⟨plain, marked⟩ := assembled.marked pos
    rw [made, plain.setBit_of_set bitOf_lt ((marked _).mpr ⟨row.tick, present, rfl⟩)]
  · rw [Bitmap.ofTicks] at made ⊢
    rw [List.foldlM_append, made, ok_bind, List.foldlM_cons, mark_of_pos pos]
    rfl

theorem entered (pos : 0 < spacing) (assembled : Assembled spacing maps)
    (given : rows.foldlM (TickMaps.enter spacing) maps = .ok next) : Assembled spacing next := by
  induction rows generalizing maps with
  | nil =>
    cases given
    exact assembled
  | cons row rows ih =>
    obtain ⟨between, first, given⟩ := bind_eq_ok.mp given
    exact ih (assembled.enter pos first) given

theorem complete (assembled : Assembled spacing maps) (pool : Pool) :
    { pool with tickSpacing := spacing, ticks := maps.ticks, bitmap := [] }.complete =
      .ok { pool with tickSpacing := spacing, ticks := maps.ticks, bitmap := maps.bitmap } :=
  complete_of_ofTicks rfl assembled.ofTicks

end Assembled

/-! ## Faithful maps -/

theorem testBit_word_iff {bitmap : Bitmap} {holds : Int → Prop}
    (exact : ∀ compressed,
      (bitmap.word (wordOf compressed)).testBit (bitOf compressed) = true ↔ holds compressed)
    (word : Int) (bit : Nat) :
    (bitmap.word word).testBit bit = true ↔ bit < 256 ∧ holds (256 * word + bit) := by
  by_cases lt : bit < 256
  · have word_eq : wordOf (256 * word + bit) = word := by
      unfold wordOf
      omega
    have bit_eq : bitOf (256 * word + bit) = bit := by
      unfold bitOf
      omega
    rw [← exact, word_eq, bit_eq]
    exact (and_iff_right lt).symm
  · have size : bitmap.word word < 2 ^ 256 := by
      unfold Bitmap.word wordCount
      omega
    have beyond : (bitmap.word word).testBit bit = false :=
      Nat.testBit_lt_two_pow (size.trans_le (Nat.pow_le_pow_right (by decide) (Nat.not_lt.mp lt)))
    simp [lt, beyond]

/-- The maps of rows have the ticks with an initialized row, each with the change of the last one,
and the bits of these ticks and no others, in words that are not zero. A pool with these ticks
makes the same bitmap itself, and no other order of the rows gives other maps if it keeps that of
the rows for each tick. -/
theorem ofRows_faithful (pos : 0 < spacing) (rows : List TickRow) :
    ∃ maps, ofRows rows spacing = .ok maps ∧
      (∀ tick, maps.ticks.get? tick =
        (lastAt? (rows.filter (·.initialized)) tick).map (·.liquidityNet)) ∧
      (∀ (word : Int) (bit : Nat), (maps.bitmap.word word).testBit bit = true ↔
        bit < 256 ∧
          ∃ row ∈ rows, row.initialized = true ∧ row.tick / spacing = 256 * word + bit) ∧
      (∀ row ∈ maps.bitmap, 0 < row.2 ∧ row.2 < wordCount) ∧
      (∀ pool : Pool,
        { pool with tickSpacing := spacing, ticks := maps.ticks, bitmap := [] }.complete =
          .ok { pool with tickSpacing := spacing, ticks := maps.ticks, bitmap := maps.bitmap }) ∧
      ∀ others, Reorders rows others → ofRows others spacing = .ok maps := by
  obtain ⟨maps, made, ticks_eq, marked⟩ := ofRows_ok pos rows
  have assembled : Assembled spacing maps := Assembled.none.entered pos made
  refine ⟨maps, made, ?_, ?_, assembled.words, assembled.complete, ?_⟩
  · intro tick
    rw [ticks_eq, lastAt?_eq, lastAt?_eq, rowsAt_counted]
  · intro word bit
    rw [testBit_word_iff marked]
    simp only [mem_counted, and_assoc]
  · intro others reorders
    rw [← made]
    change (counted others).foldlM _ _ = (counted rows).foldlM _ _
    rw [counted_eq reorders]

/-- Rows of batches that overlap, off the grid and below zero; those at 20 and 25 share a bit. -/
def overlapping : List TickRow :=
  [⟨true, 25, 4, 4⟩, ⟨true, -5, 7, 7⟩, ⟨false, 3, 0, 0⟩, ⟨true, 20, 1, -1⟩, ⟨true, -5, 9, 9⟩]

def overlappingSorted : List TickRow :=
  [⟨true, -5, 7, 7⟩, ⟨true, -5, 9, 9⟩, ⟨false, 3, 0, 0⟩, ⟨true, 20, 1, -1⟩, ⟨true, 25, 4, 4⟩]

def overlappingMaps : TickMaps where
  ticks := [(-5, 9), (20, -1), (25, 4)]
  bitmap := [(-1, 2 ^ 255), (0, 4)]

theorem overlapping_reorders : Reorders overlappingSorted overlapping := by
  refine ⟨by decide, fun tick => ?_⟩
  by_cases double : tick = -5
  · subst double
    decide
  · simp only [rowsAt, overlapping, overlappingSorted, List.filter_cons, List.filter_nil]
    grind

theorem ofRows_faithful_overlapping :
    ofRows overlappingSorted 10 = .ok overlappingMaps ∧
    (∀ pool : Pool,
      { pool with tickSpacing := 10, ticks := overlappingMaps.ticks, bitmap := [] }.complete = .ok
        { pool with
          tickSpacing := 10
          ticks := overlappingMaps.ticks
          bitmap := overlappingMaps.bitmap }) ∧
    Reorders overlappingSorted overlapping ∧ ofRows overlapping 10 = .ok overlappingMaps := by
  have pos : (0 : Int) < 10 := by decide
  have made : ofRows overlappingSorted 10 = .ok overlappingMaps := by
    rw [ofRows, List.mergeSort_of_pairwise (by decide)]
    rfl
  obtain ⟨maps, maps_eq, -, -, -, complete, keeps⟩ := ofRows_faithful pos overlappingSorted
  cases maps_eq.symm.trans made
  exact ⟨made, complete, overlapping_reorders, keeps overlapping overlapping_reorders⟩

end TickMaps

end OrderDesk
