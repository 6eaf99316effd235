import OrderDesk.Proofs.TickReader.Batches

/-!
# Walks over initialized ticks

A walk from a start finds the first of the initialized ticks ahead. How far ahead a tick lies is
counted from the first tick that may be found: the start itself downward, and the one above it
upward. In this measure both directions are alike, and the start of the next batch lies as far
ahead either way.

* `InitializedTicks.ahead_ordered`: a walk finds ticks in the order in which they lie ahead.
* `InitializedTicks.far_of_mem_drop`: what a walk leaves lies at least its length ahead, in units of
  the spacing.
* `Batches.covers`: no tick is missing between those of several batches, if the ticks are at least
  two apart and a batch asks for at least two.
* `Batches.skips`: what the first batch leaves before the start of the second is not found later.
-/

namespace OrderDesk

/-- The initialized ticks of a pool, the lowest first. -/
structure InitializedTicks (spacing : Int) where
  rows : List TickRow
  initialized : ∀ row ∈ rows, row.initialized = true
  aligned : ∀ row ∈ rows, spacing ∣ row.tick
  ascending : rows.Pairwise fun low high => low.tick < high.tick

/-- How far a tick lies ahead of a start; less than zero behind it. -/
def lead (zeroForOne : Bool) (start tick : Int) : Int :=
  if zeroForOne then start - tick else tick - start - 1

variable {zeroForOne : Bool} {spacing start count tick : Int} {row : TickRow}

@[simp]
theorem lead_down (start tick : Int) : lead true start tick = start - tick := rfl

@[simp]
theorem lead_up (start tick : Int) : lead false start tick = tick - start - 1 := rfl

theorem lead_nextStart (zeroForOne : Bool) (start count spacing tick : Int) :
    lead zeroForOne (TickReader.nextStart zeroForOne start count spacing) tick =
      lead zeroForOne start tick - (count + spacing) := by
  unfold TickReader.nextStart
  cases zeroForOne <;> simp <;> omega

theorem lead_add_le {near far : Int} (near_aligned : spacing ∣ near) (far_aligned : spacing ∣ far)
    (lt : lead zeroForOne start near < lead zeroForOne start far) :
    lead zeroForOne start near + spacing ≤ lead zeroForOne start far := by
  cases zeroForOne with
  | true =>
    rw [lead_down, lead_down] at *
    have apart : spacing ≤ near - far :=
      Int.le_of_dvd (by omega) (dvd_sub near_aligned far_aligned)
    omega
  | false =>
    rw [lead_up, lead_up] at *
    have apart : spacing ≤ far - near :=
      Int.le_of_dvd (by omega) (dvd_sub far_aligned near_aligned)
    omega

namespace InitializedTicks

variable (ticks : InitializedTicks spacing)

def ahead (zeroForOne : Bool) (start : Int) : List TickRow :=
  if zeroForOne then (ticks.rows.filter fun row => decide (row.tick ≤ start)).reverse
  else ticks.rows.filter fun row => decide (start < row.tick)

def walk (zeroForOne : Bool) (start count : Int) : List TickRow :=
  (ticks.ahead zeroForOne start).take count.toNat

theorem row_eq {first second : TickRow} (first_mem : first ∈ ticks.rows)
    (second_mem : second ∈ ticks.rows) (same : first.tick = second.tick) : first = second := by
  have unique : (ticks.rows.map (·.tick)).Nodup := by
    refine List.pairwise_map.mpr (ticks.ascending.imp ?_)
    exact fun lt => lt.ne
  exact List.inj_on_of_nodup_map unique first_mem second_mem same

variable {ticks}

theorem mem_ahead :
    row ∈ ticks.ahead zeroForOne start ↔ row ∈ ticks.rows ∧ 0 ≤ lead zeroForOne start row.tick := by
  cases zeroForOne with
  | true => simp [ahead]
  | false =>
    simp only [ahead, Bool.false_eq_true, if_false, List.mem_filter, decide_eq_true_eq, lead_up]
    exact and_congr_right fun _ => by omega

theorem ahead_ordered (ticks : InitializedTicks spacing) (zeroForOne : Bool) (start : Int) :
    (ticks.ahead zeroForOne start).Pairwise fun near far =>
      lead zeroForOne start near.tick < lead zeroForOne start far.tick := by
  cases zeroForOne with
  | true =>
    simp only [ahead, if_true, List.pairwise_reverse, lead_down]
    refine (ticks.ascending.filter _).imp ?_
    intro low high lt
    omega
  | false =>
    simp only [ahead, Bool.false_eq_true, if_false, lead_up]
    refine (ticks.ascending.filter _).imp ?_
    intro low high lt
    omega

/-- Rows that lie further and further ahead are at least the spacing apart. -/
theorem far_of_mem_drop {rows : List TickRow} {least : Int} {taken : Nat}
    (aligned : ∀ row ∈ rows, spacing ∣ row.tick)
    (ordered : rows.Pairwise fun near far =>
      lead zeroForOne start near.tick < lead zeroForOne start far.tick)
    (ahead : ∀ row ∈ rows, least ≤ lead zeroForOne start row.tick) (left : row ∈ rows.drop taken) :
    least + taken * spacing ≤ lead zeroForOne start row.tick := by
  induction rows generalizing least taken with
  | nil => simp at left
  | cons first rows ih =>
    cases taken with
    | zero => simpa using ahead row left
    | succ taken =>
      obtain ⟨first_aligned, aligned⟩ := List.forall_mem_cons.mp aligned
      obtain ⟨first_near, ordered⟩ := List.pairwise_cons.mp ordered
      obtain ⟨first_ahead, -⟩ := List.forall_mem_cons.mp ahead
      have apart : ∀ other ∈ rows, least + spacing ≤ lead zeroForOne start other.tick := by
        intro other mem
        have next := lead_add_le first_aligned (aligned other mem) (first_near other mem)
        omega
      have further := ih aligned ordered apart left
      push_cast
      linarith

/-- A walk leaves the ticks that lie further ahead than those it finds. -/
theorem left_of_walk (mem : row ∈ ticks.rows) (ahead : 0 ≤ lead zeroForOne start row.tick)
    (missed : row ∉ ticks.walk zeroForOne start count) :
    count.toNat * spacing ≤ lead zeroForOne start row.tick ∧
      ∀ found ∈ ticks.walk zeroForOne start count,
        lead zeroForOne start found.tick < lead zeroForOne start row.tick := by
  have ordered := ticks.ahead_ordered zeroForOne start
  have parts := List.take_append_drop count.toNat (ticks.ahead zeroForOne start)
  have left : row ∈ (ticks.ahead zeroForOne start).drop count.toNat := by
    have among := mem_ahead.mpr ⟨mem, ahead⟩
    rw [← parts] at among
    exact (List.mem_append.mp among).resolve_left missed
  constructor
  · have aligned : ∀ other ∈ ticks.ahead zeroForOne start, spacing ∣ other.tick := by
      intro other other_mem
      exact ticks.aligned other (mem_ahead.mp other_mem).1
    have beyond : ∀ other ∈ ticks.ahead zeroForOne start, 0 ≤ lead zeroForOne start other.tick := by
      intro other other_mem
      exact (mem_ahead.mp other_mem).2
    simpa using far_of_mem_drop aligned ordered beyond left
  · intro found found_mem
    rw [← parts] at ordered
    exact (List.pairwise_append.mp ordered).2.2 found found_mem row left

/-- Whether what was found are initialized ticks ahead of a start, and none before one is missing. -/
structure Covers (ticks : InitializedTicks spacing) (zeroForOne : Bool) (start : Int)
    (found : List TickRow) : Prop where
  ahead : ∀ row ∈ found, row ∈ ticks.ahead zeroForOne start
  before : ∀ last ∈ found, ∀ row ∈ ticks.rows, 0 ≤ lead zeroForOne start row.tick →
    lead zeroForOne start row.tick ≤ lead zeroForOne start last.tick → row ∈ found

theorem Covers.mem_rows {found : List TickRow} (covers : ticks.Covers zeroForOne start found)
    (mem : row ∈ found) : row ∈ ticks.rows :=
  (mem_ahead.mp (covers.ahead row mem)).1

theorem Covers.lead_nonneg {found : List TickRow} (covers : ticks.Covers zeroForOne start found)
    (mem : row ∈ found) : 0 ≤ lead zeroForOne start row.tick :=
  (mem_ahead.mp (covers.ahead row mem)).2

theorem between_mem {below above : List TickRow} {last : TickRow}
    (down : ticks.Covers true start below) (up : ticks.Covers false start above)
    (last_mem : last ∈ below ++ above) (mem : row ∈ ticks.rows)
    (between : last.tick ≤ row.tick ∧ row.tick ≤ start ∨
      start < row.tick ∧ row.tick ≤ last.tick) : row ∈ below ++ above := by
  rw [List.mem_append] at last_mem ⊢
  obtain ⟨last_le, le_start⟩ | ⟨start_lt, le_last⟩ := between
  · have among : last ∈ below := by
      refine last_mem.resolve_right fun other => ?_
      have nonneg := up.lead_nonneg other
      rw [lead_up] at nonneg
      omega
    refine .inl (down.before last among row mem ?_ ?_)
    · rw [lead_down]
      omega
    · rw [lead_down, lead_down]
      omega
  · have among : last ∈ above := by
      refine last_mem.resolve_left fun other => ?_
      have nonneg := down.lead_nonneg other
      rw [lead_down] at nonneg
      omega
    refine .inr (up.before last among row mem ?_ ?_)
    · rw [lead_up]
      omega
    · rw [lead_up, lead_up]
      omega

end InitializedTicks

/-! ## Batches of walks -/

namespace Batches

variable {ticks : InitializedTicks spacing} {size batch loaded : Int} {batches : List TickBatch}

theorem found_ahead (given : Batches zeroForOne spacing size batch start loaded batches)
    (pos : 0 < spacing) (batch_nonneg : 0 ≤ batch)
    (walks : ∀ fetched ∈ batches,
      fetched.rows = ticks.walk zeroForOne fetched.start fetched.count) :
    ∀ row ∈ batches.flatMap (·.rows), row ∈ ticks.ahead zeroForOne start := by
  induction given with
  | done => simp
  | @more start loaded count later rows short count_eq rest ih =>
    obtain ⟨first, walks⟩ := List.forall_mem_cons.mp walks
    intro row mem
    rw [List.flatMap_cons, List.mem_append] at mem
    obtain mem | mem := mem
    · rw [first] at mem
      exact List.mem_of_mem_take mem
    · obtain ⟨row_mem, ahead⟩ := InitializedTicks.mem_ahead.mp (ih walks row mem)
      rw [lead_nextStart] at ahead
      exact InitializedTicks.mem_ahead.mpr ⟨row_mem, by omega⟩

/-- What a batch leaves lies ahead of the start of the next one: a batch of at least two ticks that
are at least two apart reaches as far as the next start, and the last batch has no next one. -/
theorem found_before (given : Batches zeroForOne spacing size batch start loaded batches)
    (sparse : (2 ≤ spacing ∧ 2 ≤ batch) ∨ size - loaded ≤ batch)
    (walks : ∀ fetched ∈ batches,
      fetched.rows = ticks.walk zeroForOne fetched.start fetched.count) :
    ∀ last ∈ batches.flatMap (·.rows), ∀ row ∈ ticks.rows, 0 ≤ lead zeroForOne start row.tick →
      lead zeroForOne start row.tick ≤ lead zeroForOne start last.tick →
      row ∈ batches.flatMap (·.rows) := by
  induction given with
  | done => simp
  | @more start loaded count later rows short count_eq rest ih =>
    obtain ⟨first, walks⟩ := List.forall_mem_cons.mp walks
    simp only at first
    intro last last_mem row row_mem ahead le_last
    rw [List.flatMap_cons, List.mem_append] at last_mem ⊢
    by_cases taken : row ∈ rows
    · exact .inl taken
    rw [first] at taken
    obtain ⟨far, beyond⟩ := InitializedTicks.left_of_walk row_mem ahead taken
    obtain last_mem | last_mem := last_mem
    · rw [first] at last_mem
      exact absurd le_last (beyond last last_mem).not_ge
    · have unfinished : loaded + count < size := by
        cases rest with
        | done => simp at last_mem
        | more rows short => exact short
      obtain ⟨apart, several⟩ : 2 ≤ spacing ∧ 2 ≤ batch := sparse.resolve_right (by omega)
      have whole : count = batch := by omega
      have reached : count + spacing ≤ count * spacing := by nlinarith
      rw [Int.toNat_of_nonneg (by omega)] at far
      refine .inr (ih (.inl ⟨apart, several⟩) walks last last_mem row row_mem ?_ ?_)
      · rw [lead_nextStart]
        omega
      · rw [lead_nextStart, lead_nextStart]
        omega

/-- What the first batch leaves before the start of the second one is left for good. -/
theorem skips (given : Batches zeroForOne spacing size batch start loaded batches)
    (pos : 0 < spacing) (batch_nonneg : 0 ≤ batch)
    (walks : ∀ fetched ∈ batches,
      fetched.rows = ticks.walk zeroForOne fetched.start fetched.count)
    (missed : row ∉ ticks.walk zeroForOne start (min batch (size - loaded)))
    (near : lead zeroForOne start row.tick < min batch (size - loaded) + spacing) :
    row ∉ batches.flatMap (·.rows) := by
  cases given with
  | done => simp
  | more rows short count_eq rest =>
    obtain ⟨first, walks⟩ := List.forall_mem_cons.mp walks
    rw [← count_eq] at missed near
    rw [List.flatMap_cons, List.mem_append]
    rintro (taken | taken)
    · exact missed (first ▸ taken)
    · have ahead :=
        (InitializedTicks.mem_ahead.mp (rest.found_ahead pos batch_nonneg walks row taken)).2
      rw [lead_nextStart] at ahead
      omega

theorem covers (given : Batches zeroForOne spacing size batch start loaded batches)
    (pos : 0 < spacing) (batch_nonneg : 0 ≤ batch)
    (sparse : (2 ≤ spacing ∧ 2 ≤ batch) ∨ size - loaded ≤ batch)
    (walks : ∀ fetched ∈ batches,
      fetched.rows = ticks.walk zeroForOne fetched.start fetched.count) :
    ticks.Covers zeroForOne start (batches.flatMap (·.rows)) :=
  ⟨given.found_ahead pos batch_nonneg walks, given.found_before sparse walks⟩

end Batches

end OrderDesk
