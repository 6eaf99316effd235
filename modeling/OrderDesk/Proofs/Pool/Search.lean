import OrderDesk.Proofs.Swap.Invariant
import OrderDesk.Proofs.TickReader.Maps
import OrderDesk.Proofs.TickReader.Walk

/-!
# Searching a bitmap

Searches in both directions are alike in how far ahead of their start a tick lies.

* `nextTick_finds`: a search finds the nearest initialized tick ahead, or stops short of it.
* `visit_finds`: searches from behind each other find the initialized ticks ahead one after another.
* `nextTick_nearest`: both for the bitmaps that rows and pools are given.
-/

namespace OrderDesk

variable {bitmap : Bitmap} {spacing start found tick : Int} {downward flag : Bool}
  {initialized : Int → Prop}

namespace Bitmap

/-- Where the search behind a tick that was found starts. -/
def behind (downward : Bool) (found : Int) : Int := if downward then found - 1 else found

/-- The initialized ticks that searches find, each from behind the tick that the one before found. -/
def visit (bitmap : Bitmap) (spacing : Int) (downward : Bool) :
    (rounds : Nat) → (start : Int) → Except PriceFault (List Int)
  | 0, _ => .ok []
  | rounds + 1, start => do
    let (found, flag) ← bitmap.nextTick start spacing downward
    let later ← bitmap.visit spacing downward rounds (behind downward found)
    return if flag then found :: later else later

theorem lead_behind (downward : Bool) (start found tick : Int) :
    lead downward (behind downward found) tick =
      lead downward start tick - (lead downward start found + 1) := by
  cases downward <;> simp [behind] <;> omega

theorem lead_inj (same : lead downward start found = lead downward start tick) : found = tick := by
  cases downward <;> simp at same <;> omega

/-! ## One search -/

/-- Whether a search stops at a multiple of the spacing ahead of its start and within reach, with
nothing initialized before it, and says whether it is initialized. -/
structure Finds (downward : Bool) (spacing start : Int) (initialized : Int → Prop) (found : Int)
    (flag : Bool) : Prop where
  aligned : spacing ∣ found
  near : |found - start| ≤ 256 * spacing
  ahead : 0 ≤ lead downward start found
  nearest : ∀ tick, 0 ≤ lead downward start tick →
    lead downward start tick < lead downward start found → ¬ initialized tick
  flag_eq : flag = true ↔ initialized found

theorem nextTick_within (pos : 0 < spacing)
    (given : bitmap.nextTick start spacing downward = .ok (found, flag)) :
    ∃ distance : Nat, distance < 256 ∧ found =
      (if downward then start / spacing - distance else start / spacing + 1 + distance) *
        spacing := by
  simp only [nextTick, compressTick_of_pos pos, ok_bind] at given
  cases downward with
  | true =>
    have bit_lt : bitOf (start / spacing) < 256 := bitOf_lt
    rw [if_pos rfl] at given
    split at given
    · rename_i distance search
      obtain ⟨-, mem, -⟩ := List.find?_range_eq_some.mp search
      cases given
      exact ⟨distance, by simp at mem; omega, rfl⟩
    · cases given
      exact ⟨_, bit_lt, rfl⟩
  | false =>
    have bit_lt : bitOf (start / spacing + 1) < 256 := bitOf_lt
    rw [if_neg Bool.false_ne_true] at given
    split at given
    · rename_i distance search
      obtain ⟨-, mem, -⟩ := List.find?_range_eq_some.mp search
      cases given
      exact ⟨distance, by simp at mem; omega, rfl⟩
    · cases given
      have last : ((255 - bitOf (start / spacing + 1) : Nat) : Int) =
          255 - bitOf (start / spacing + 1) := by omega
      refine ⟨255 - bitOf (start / spacing + 1), by omega, ?_⟩
      rw [last]
      rfl

theorem nextTick_near (pos : 0 < spacing)
    (given : bitmap.nextTick start spacing downward = .ok (found, flag)) :
    spacing ∣ found ∧ |found - start| ≤ 256 * spacing := by
  obtain ⟨distance, lt, rfl⟩ := nextTick_within pos given
  have start_le : start / spacing * spacing ≤ start := Int.ediv_mul_le start pos.ne'
  have lt_start : start < (start / spacing + 1) * spacing := Int.lt_ediv_add_one_mul_self start pos
  have reach : distance * spacing ≤ 255 * spacing :=
    mul_le_mul_of_nonneg_right (by omega) pos.le
  have reach_nonneg : 0 ≤ distance * spacing := mul_nonneg (Int.natCast_nonneg _) pos.le
  refine ⟨Dvd.intro_left _ rfl, abs_le.mpr ?_⟩
  cases downward with
  | true =>
    rw [if_pos rfl, sub_mul]
    constructor <;> linarith
  | false =>
    rw [if_neg Bool.false_ne_true, add_mul]
    constructor <;> linarith

theorem nextTick_finds (pos : 0 < spacing) (marks : bitmap.Marks spacing initialized)
    (downward : Bool) (start : Int) : ∃ found flag,
      bitmap.nextTick start spacing downward = .ok (found, flag) ∧
        Finds downward spacing start initialized found flag := by
  cases downward with
  | true =>
    obtain ⟨found, flag, given, le, none, flag_eq⟩ := nextTick_down pos marks start
    obtain ⟨aligned, near⟩ := nextTick_near pos given
    refine ⟨found, flag, given, aligned, near, sub_nonneg.mpr le, ?_, flag_eq⟩
    intro tick ahead before
    simp only [lead_down] at ahead before
    exact none tick (by omega) (by omega)
  | false =>
    obtain ⟨found, flag, given, lt, none, flag_eq⟩ := nextTick_up pos marks start
    obtain ⟨aligned, near⟩ := nextTick_near pos given
    refine ⟨found, flag, given, aligned, near, Int.sub_nonneg_of_le (by omega), ?_, flag_eq⟩
    intro tick ahead before
    simp only [lead_up] at ahead before
    exact none tick (by omega) (by omega)

/-! ## Searches from behind each other -/

/-- Whether ticks that were found are initialized ticks ahead, one after another, with none missing
among those that lie less than `reach` ahead. -/
structure Visits (downward : Bool) (start reach : Int) (initialized : Int → Prop)
    (visited : List Int) : Prop where
  ordered : visited.Pairwise fun near far => lead downward start near < lead downward start far
  found : ∀ tick ∈ visited, initialized tick ∧ 0 ≤ lead downward start tick
  complete : ∀ tick, initialized tick → 0 ≤ lead downward start tick →
    lead downward start tick < reach → tick ∈ visited

theorem Finds.visits {visited : List Int} {reach : Int}
    (finds : Finds downward spacing start initialized found flag)
    (later : Visits downward (behind downward found) reach initialized visited) :
    Visits downward start (reach + 1) initialized (if flag then found :: visited else visited) := by
  -- what lies ahead of the next search lies farther ahead of this one, behind what this one found
  have ahead := finds.ahead
  have behind_eq := lead_behind downward start found
  have beyond : ∀ tick ∈ visited, lead downward start found < lead downward start tick := by
    intro tick mem
    have nonneg := (later.found tick mem).2
    rw [behind_eq] at nonneg
    omega
  have ordered : visited.Pairwise fun near far =>
      lead downward start near < lead downward start far := by
    refine later.ordered.imp ?_
    intro near far lt
    rw [behind_eq, behind_eq] at lt
    omega
  have mem_iff (tick : Int) : (tick ∈ if flag then found :: visited else visited) ↔
      flag = true ∧ tick = found ∨ tick ∈ visited := by
    cases flag <;> simp
  constructor
  · cases flag with
    | true => exact List.pairwise_cons.mpr ⟨beyond, ordered⟩
    | false => exact ordered
  · intro tick mem
    rcases (mem_iff tick).mp mem with ⟨set, rfl⟩ | mem
    · exact ⟨finds.flag_eq.mp set, ahead⟩
    · exact ⟨(later.found tick mem).1, ahead.trans (beyond tick mem).le⟩
  · intro tick set tick_ahead within
    refine (mem_iff tick).mpr ?_
    rcases lt_trichotomy (lead downward start tick) (lead downward start found)
      with before | here | after
    · exact absurd set (finds.nearest tick tick_ahead before)
    · obtain rfl := lead_inj here
      exact .inl ⟨finds.flag_eq.mpr set, rfl⟩
    · refine .inr (later.complete tick set ?_ ?_)
      · rw [behind_eq]
        omega
      · rw [behind_eq]
        omega

theorem visit_finds (pos : 0 < spacing) (marks : bitmap.Marks spacing initialized)
    (downward : Bool) (rounds : Nat) (start : Int) : ∃ visited,
      bitmap.visit spacing downward rounds start = .ok visited ∧
        Visits downward start rounds initialized visited := by
  induction rounds generalizing start with
  | zero =>
    refine ⟨[], rfl, .nil, nofun, ?_⟩
    intro tick _ ahead near
    exact absurd near (not_lt.mpr ahead)
  | succ rounds ih =>
    obtain ⟨found, flag, given, finds⟩ := nextTick_finds pos marks downward start
    obtain ⟨later, later_ok, visits⟩ := ih (behind downward found)
    exact ⟨_, bind_eq_ok.mpr ⟨_, given, bind_eq_ok.mpr ⟨_, later_ok, rfl⟩⟩, finds.visits visits⟩

/-! ## Bitmaps of sets of ticks -/

/-- What searches say if the initialized ticks are those of a set: each finds the nearest one, or
stops short of it, and many visit all of them on a side in order. -/
structure Searches (bitmap : Bitmap) (spacing : Int) (ticks : Finset Int) : Prop where
  down : ∀ start, ∃ found flag, bitmap.nextTick start spacing true = .ok (found, flag) ∧
    found ≤ start ∧ (∀ tick ∈ ticks, ¬ (found < tick ∧ tick ≤ start)) ∧
    (flag = true ↔ found ∈ ticks) ∧ spacing ∣ found ∧ |found - start| ≤ 256 * spacing
  up : ∀ start, ∃ found flag, bitmap.nextTick start spacing false = .ok (found, flag) ∧
    start < found ∧ (∀ tick ∈ ticks, ¬ (start < tick ∧ tick < found)) ∧
    (flag = true ↔ found ∈ ticks) ∧ spacing ∣ found ∧ |found - start| ≤ 256 * spacing
  visits_down : ∀ rounds start, ∃ visited, bitmap.visit spacing true rounds start = .ok visited ∧
    visited.Pairwise (· > ·) ∧ (∀ tick ∈ visited, tick ∈ ticks ∧ tick ≤ start) ∧
    ∀ tick ∈ ticks, tick ≤ start → start - tick < rounds → tick ∈ visited
  visits_up : ∀ rounds start, ∃ visited, bitmap.visit spacing false rounds start = .ok visited ∧
    visited.Pairwise (· < ·) ∧ (∀ tick ∈ visited, tick ∈ ticks ∧ start < tick) ∧
    ∀ tick ∈ ticks, start < tick → tick - start ≤ rounds → tick ∈ visited

theorem Marks.searches {ticks : Finset Int} (marks : bitmap.Marks spacing (· ∈ ticks))
    (pos : 0 < spacing) : bitmap.Searches spacing ticks where
  down := by
    intro start
    obtain ⟨found, flag, given, finds⟩ := nextTick_finds pos marks true start
    refine ⟨found, flag, given, sub_nonneg.mp finds.ahead, ?_, finds.flag_eq, finds.aligned,
      finds.near⟩
    rintro tick mem ⟨beyond, le⟩
    refine finds.nearest tick ?_ ?_ mem
    · rw [lead_down]
      omega
    · rw [lead_down, lead_down]
      omega
  up := by
    intro start
    obtain ⟨found, flag, given, finds⟩ := nextTick_finds pos marks false start
    have ahead := finds.ahead
    rw [lead_up] at ahead
    refine ⟨found, flag, given, by omega, ?_, finds.flag_eq, finds.aligned, finds.near⟩
    rintro tick mem ⟨gt, short⟩
    refine finds.nearest tick ?_ ?_ mem
    · rw [lead_up]
      omega
    · rw [lead_up, lead_up]
      omega
  visits_down := by
    intro rounds start
    obtain ⟨visited, given, visits⟩ := visit_finds pos marks true rounds start
    refine ⟨visited, given, visits.ordered.imp ?_, ?_, ?_⟩
    · intro near far lt
      simp only [lead_down] at lt
      omega
    · intro tick mem
      exact (visits.found tick mem).imp_right sub_nonneg.mp
    · intro tick mem le near
      exact visits.complete tick mem (sub_nonneg.mpr le) near
  visits_up := by
    intro rounds start
    obtain ⟨visited, given, visits⟩ := visit_finds pos marks false rounds start
    refine ⟨visited, given, visits.ordered.imp ?_, ?_, ?_⟩
    · intro near far lt
      simp only [lead_up] at lt
      omega
    · intro tick mem
      obtain ⟨set, ahead⟩ := visits.found tick mem
      rw [lead_up] at ahead
      exact ⟨set, by omega⟩
    · intro tick mem gt near
      refine visits.complete tick mem ?_ ?_
      · rw [lead_up]
        omega
      · rw [lead_up]
        omega

end Bitmap

theorem nextTick_nearest (spacing_pos : 1 ≤ spacing) (ticks : Finset Int)
    (aligned : ∀ tick ∈ ticks, spacing ∣ tick) :
    (∀ rows : List TickRow,
      (∀ tick, tick ∈ ticks ↔ ∃ row ∈ rows, row.initialized = true ∧ row.tick = tick) →
      ∃ maps, TickMaps.ofRows rows spacing = .ok maps ∧ maps.bitmap.Searches spacing ticks) ∧
    ∀ pool : Pool, pool.tickSpacing = spacing → pool.bitmap = [] →
      (∀ tick, tick ∈ ticks ↔ (pool.ticks.get? tick).isSome = true) →
      ∃ bitmap, pool.complete = .ok { pool with bitmap } ∧ bitmap.Searches spacing ticks := by
  constructor
  · intro rows rows_eq
    have same : (fun tick => ∃ row ∈ rows, row.initialized = true ∧ row.tick = tick) =
        (· ∈ ticks) := by
      funext tick
      exact propext (rows_eq tick).symm
    have rows_aligned : ∀ row ∈ rows, row.initialized = true → spacing ∣ row.tick := by
      intro row mem initialized
      exact aligned row.tick ((rows_eq row.tick).mpr ⟨row, mem, initialized, rfl⟩)
    obtain ⟨maps, built, marks⟩ := TickMaps.ofRows_marks spacing_pos rows_aligned
    rw [same] at marks
    exact ⟨maps, built, marks.searches spacing_pos⟩
  · rintro pool rfl empty keys_eq
    have same : (fun tick => (pool.ticks.get? tick).isSome = true) = (· ∈ ticks) := by
      funext tick
      exact propext (keys_eq tick).symm
    obtain ⟨bitmap, built, marks⟩ := complete_marks spacing_pos empty
      fun tick present => aligned tick ((keys_eq tick).mpr present)
    rw [same] at marks
    exact ⟨bitmap, built, marks.searches spacing_pos⟩

/-- The bounds of a single position, as rows in the wrong order and as a pool. -/
theorem nextTick_nearest_onePosition :
    (∃ maps, TickMaps.ofRows [⟨true, 600, 1, -1⟩, ⟨false, 60, 0, 0⟩, ⟨true, -600, 1, 1⟩] 60 =
        .ok maps ∧ maps.bitmap.Searches 60 {-600, 600}) ∧
      onePosition.bitmap.Searches 60 {-600, 600} := by
  have aligned : ∀ tick ∈ ({-600, 600} : Finset Int), 60 ∣ tick := by decide
  obtain ⟨of_rows, of_pool⟩ := nextTick_nearest (by decide) {-600, 600} aligned
  constructor
  · refine of_rows _ fun tick => ?_
    simp
    omega
  · have made : ({ onePosition with bitmap := [] } : Pool).complete = .ok onePosition := by decide
    obtain ⟨bitmap, given, searches⟩ := of_pool { onePosition with bitmap := [] } rfl rfl (by
      intro tick
      simp [Table.get?_isSome, onePosition])
    cases made.symm.trans given
    exact searches

end OrderDesk
