import OrderDesk.Proofs.Desk
import OrderDesk.Proofs.TickReader.Response
import OrderDesk.TickReader.Loading

/-!
# Batches of one direction

* `Batches`: the batches of a direction, each from where the one before leaves off.
* `TickReader.loadDirection_ok`: what a direction finds are the rows of its batches in order.
* `TickReader.loadDirection_steady`: it does not depend on what was done before.
-/

namespace OrderDesk

theorem Quantity.less_whole (first second : Int) :
    (whole first).less (whole second) = decide (first < second) := by
  simp [less, compare?, worth?, Worth.compare, compare_lt_iff_lt]

structure TickBatch where
  start : Int
  count : Int
  rows : List TickRow

/-- The batches that ask for what is left of `size` ticks, `loaded` of which were asked for. -/
inductive Batches (zeroForOne : Bool) (spacing size batch : Int) :
    (start loaded : Int) → List TickBatch → Prop
  | done {start loaded : Int} (enough : size ≤ loaded) :
    Batches zeroForOne spacing size batch start loaded []
  | more {start loaded count : Int} {later : List TickBatch} (rows : List TickRow)
    (short : loaded < size) (count_eq : count = min batch (size - loaded))
    (rest : Batches zeroForOne spacing size batch
      (TickReader.nextStart zeroForOne start count spacing) (loaded + count) later) :
    Batches zeroForOne spacing size batch start loaded (⟨start, count, rows⟩ :: later)

namespace TickReader

variable {reader : TickReader} {deployment : Deployment} {query : TickQuery} {outside : Outside}
variable {zeroForOne : Bool} {size batch start loaded : Int} {rounds : Nat}
variable {found : List (List TickRow)} {rows : List TickRow}

/-- Whether the rows of a batch are an answer to its request. -/
def Fetched (reader : TickReader) (deployment : Deployment) (query : TickQuery) (outside : Outside)
    (zeroForOne : Bool) (fetched : TickBatch) : Prop :=
  ∃ liquidity, (reader.load deployment query fetched.start zeroForOne (.ok fetched.count)).Yields
    outside (fetched.rows, liquidity)

theorem nextBatch_whole (size batch loaded : Int) :
    nextBatch (.whole size) (.whole batch) loaded = .whole (min batch (size - loaded)) := by
  simp only [nextBatch, Quantity.minus, Quantity.less_whole, decide_eq_true_eq]
  split
  · rw [min_eq_right (by omega)]
  · rw [min_eq_left (by omega)]

theorem loadBatches_ok
    (given : (reader.loadBatches deployment query zeroForOne (.whole size) (.ok (.whole batch))
      rounds start loaded found).Yields outside rows) :
    ∃ batches, Batches zeroForOne query.spacing size batch start loaded batches ∧
      (∀ fetched ∈ batches, Fetched reader deployment query outside zeroForOne fetched) ∧
      rows = found.reverse.flatten ++ batches.flatMap (·.rows) := by
  induction rounds generalizing start loaded found with
  | zero =>
    rw [loadBatches, Quantity.less_whole] at given
    split at given
    · exact (Desk.not_yields_fail given).elim
    · rename_i enough
      cases given.of_pure
      exact ⟨[], .done (by simpa using enough), by simp, by simp⟩
  | succ rounds ih =>
    rw [loadBatches, Quantity.less_whole] at given
    split at given
    · rename_i short
      obtain ⟨whole, whole_ok, given⟩ := given.of_bind
      cases whole_ok.of_lift
      obtain ⟨⟨first, liquidity⟩, first_ok, given⟩ := given.of_bind
      obtain ⟨count, count_ok, given⟩ := given.of_bind
      rw [nextBatch_whole] at first_ok count_ok
      cases count_ok.of_lift
      obtain ⟨later, rest, fetched, rows_eq⟩ := ih given
      refine ⟨_, .more first (by simpa using short) rfl rest, ?_, ?_⟩
      · intro other mem
        obtain rfl | mem := List.mem_cons.mp mem
        · exact ⟨liquidity, first_ok⟩
        · exact fetched other mem
      · rw [rows_eq, List.reverse_cons, List.flatten_append, List.append_assoc]
        simp
    · rename_i enough
      cases given.of_pure
      exact ⟨[], .done (by simpa using enough), by simp, by simp⟩

theorem loadDirection_ok
    (given : (reader.loadDirection deployment query zeroForOne start (.ofInts size batch)).Yields
      outside rows) :
    ∃ batches, Batches zeroForOne query.spacing size batch start 0 batches ∧
      (∀ fetched ∈ batches, Fetched reader deployment query outside zeroForOne fetched) ∧
      rows = batches.flatMap (·.rows) := by
  obtain ⟨whole, whole_ok, given⟩ := given.of_bind
  cases whole_ok.of_lift
  exact loadBatches_ok given

theorem loadBatches_steady (size : Quantity) (batch : Setting Quantity) (rounds : Nat)
    (start loaded : Int) (found : List (List TickRow)) :
    (reader.loadBatches deployment query zeroForOne size batch rounds start loaded found).Steady
      outside := by
  induction rounds generalizing start loaded found with
  | zero =>
    rw [loadBatches]
    split
    · exact ⟨_, .fail _⟩
    · exact ⟨_, .pure _⟩
  | succ rounds ih =>
    rw [loadBatches]
    split
    · refine .bind ⟨_, .lift _⟩ fun whole => .bind ?_ fun first => ?_
      · exact .bind ⟨_, .lift _⟩ fun data => .bind ⟨_, .ask _ _⟩ fun answer => ⟨_, .lift _⟩
      · exact .bind ⟨_, .lift _⟩ fun count => ih ..
    · exact ⟨_, .pure _⟩

theorem loadDirection_steady (band : Band) :
    (reader.loadDirection deployment query zeroForOne start band).Steady outside :=
  .bind ⟨_, .lift _⟩ fun size => loadBatches_steady size band.batch (roundLimit size) start 0 []

end TickReader

end OrderDesk
