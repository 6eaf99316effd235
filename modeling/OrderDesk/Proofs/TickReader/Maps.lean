import OrderDesk.Proofs.Pool.Bitmap
import OrderDesk.TickReader.Response

/-!
# Maps of loaded ticks

* `TickMaps.ofRows_ok`: what the maps of rows hold.
* `TickMaps.ofRows_has`: an initialized row is in both maps, if no other row is for its tick.
* `TickMaps.ofRows_marks`: the bitmap marks the ticks of the initialized rows.
-/

namespace OrderDesk

def TickRow.change (row : TickRow) : Int × Int := (row.tick, row.liquidityNet)

/-- The last of the rows for a tick. -/
def lastAt? (rows : List TickRow) (tick : Int) : Option TickRow :=
  rows.reverse.find? fun row => decide (row.tick = tick)

theorem lastAt?_eq_some {rows : List TickRow} {row : TickRow} {tick : Int}
    (last : lastAt? rows tick = some row) : row ∈ rows ∧ row.tick = tick := by
  have found : decide (row.tick = tick) = true :=
    List.find?_some (p := fun row : TickRow => decide (row.tick = tick)) last
  exact ⟨List.mem_reverse.mp (List.mem_of_find?_eq_some last), of_decide_eq_true found⟩

theorem exists_lastAt? {rows : List TickRow} {row : TickRow} (mem : row ∈ rows) :
    ∃ last, lastAt? rows row.tick = some last := by
  refine Option.isSome_iff_exists.mp (List.find?_isSome.mpr ⟨row, ?_, decide_eq_true rfl⟩)
  exact List.mem_reverse.mpr mem

theorem get?_changes (rows : List TickRow) (tick : Int) :
    (Table.ofList (rows.map (·.change))).get? tick =
      (lastAt? rows tick).map (·.liquidityNet) := by
  rw [Table.get?_ofList, ← List.map_reverse, List.find?_map, Option.map_map]
  rfl

namespace TickMaps

variable {maps : TickMaps} {spacing tick : Int} {rows : List TickRow} {row : TickRow}

/-- Whether a tick is in the maps, with its change of liquidity and its bit. -/
def Has (maps : TickMaps) (spacing tick net : Int) : Prop :=
  maps.ticks.get? tick = some net ∧
    (maps.bitmap.word (wordOf (tick / spacing))).testBit (bitOf (tick / spacing)) = true

theorem entered_eq (spacing : Int) (rows : List TickRow) (maps : TickMaps) :
    rows.foldlM (enter spacing) maps =
      (rows.map (·.tick)).foldlM (Bitmap.mark spacing) maps.bitmap >>= fun bitmap =>
        .ok ⟨(rows.map (·.change)).foldl (fun ticks row => ticks.set row.1 row.2) maps.ticks,
          bitmap⟩ := by
  induction rows generalizing maps with
  | nil => rfl
  | cons row rows ih =>
    rw [List.foldlM_cons, enter, List.map_cons, List.foldlM_cons]
    cases Bitmap.mark spacing maps.bitmap row.tick with
    | error fault => rfl
    | ok bitmap => exact ih _

/-- The initialized rows in the order of their ticks. -/
def counted (rows : List TickRow) : List TickRow :=
  (rows.mergeSort fun a b => decide (a.tick ≤ b.tick)).filter (·.initialized)

theorem mem_counted : row ∈ counted rows ↔ row ∈ rows ∧ row.initialized = true := by
  rw [counted, List.mem_filter, List.mem_mergeSort]

theorem ofRows_ok (pos : 0 < spacing) (rows : List TickRow) :
    ∃ maps, ofRows rows spacing = .ok maps ∧
      (∀ tick, maps.ticks.get? tick = (lastAt? (counted rows) tick).map (·.liquidityNet)) ∧
      ∀ compressed, (maps.bitmap.word (wordOf compressed)).testBit (bitOf compressed) = true ↔
        ∃ row ∈ counted rows, row.tick / spacing = compressed := by
  have plain : Bitmap.Plain [] := fun _ => le_rfl
  obtain ⟨bitmap, marked, -, exact'⟩ :=
    marked_fold pos ((counted rows).map (·.tick)) plain
  refine ⟨⟨Table.ofList ((counted rows).map (·.change)), bitmap⟩, ?_, get?_changes _,
    fun compressed => ?_⟩
  · have entered := entered_eq spacing (counted rows) ⟨[], []⟩
    rw [marked] at entered
    exact entered
  · have unset : (Bitmap.word [] (wordOf compressed)).testBit (bitOf compressed) = false :=
      Nat.zero_testBit _
    simp [exact', unset]

theorem ofRows_has (pos : 0 < spacing) (given : ofRows rows spacing = .ok maps)
    (single : ∀ other ∈ rows, other.tick = row.tick → other = row) (mem : row ∈ rows)
    (initialized : row.initialized = true) : maps.Has spacing row.tick row.liquidityNet := by
  obtain ⟨built, built_ok, changes, marked⟩ := ofRows_ok pos rows
  cases built_ok.symm.trans given
  have among := mem_counted.mpr ⟨mem, initialized⟩
  refine ⟨?_, (marked _).mpr ⟨row, among, rfl⟩⟩
  obtain ⟨last, last_eq⟩ := exists_lastAt? among
  obtain ⟨last_mem, same_tick⟩ := lastAt?_eq_some last_eq
  have same : last = row := single last (mem_counted.mp last_mem).1 same_tick
  rw [changes, last_eq, same]
  rfl

theorem mem_of_ofRows (pos : 0 < spacing) (given : ofRows rows spacing = .ok maps)
    (found : (maps.ticks.get? tick).isSome = true) :
    ∃ row ∈ rows, row.initialized = true ∧ row.tick = tick := by
  obtain ⟨built, built_ok, changes, -⟩ := ofRows_ok pos rows
  cases built_ok.symm.trans given
  rw [changes, Option.isSome_map] at found
  obtain ⟨row, last⟩ := Option.isSome_iff_exists.mp found
  obtain ⟨mem, same_tick⟩ := lastAt?_eq_some last
  obtain ⟨row_mem, initialized⟩ := mem_counted.mp mem
  exact ⟨row, row_mem, initialized, same_tick⟩

theorem ofRows_marks (pos : 0 < spacing) {rows : List TickRow}
    (aligned : ∀ row ∈ rows, row.initialized = true → spacing ∣ row.tick) :
    ∃ maps, ofRows rows spacing = .ok maps ∧ maps.bitmap.Marks spacing fun tick =>
      ∃ row ∈ rows, row.initialized = true ∧ row.tick = tick := by
  obtain ⟨maps, built, -, marked⟩ := ofRows_ok pos rows
  refine ⟨maps, built, ?_, fun compressed => ?_⟩
  · rintro tick ⟨row, mem, initialized, rfl⟩
    exact aligned row mem initialized
  · rw [marked]
    constructor
    · rintro ⟨row, mem, rfl⟩
      obtain ⟨row_mem, initialized⟩ := mem_counted.mp mem
      have whole := Int.ediv_mul_cancel (aligned row row_mem initialized)
      exact ⟨row, row_mem, initialized, whole.symm⟩
    · rintro ⟨row, row_mem, initialized, tick_eq⟩
      refine ⟨row, mem_counted.mpr ⟨row_mem, initialized⟩, ?_⟩
      rw [tick_eq, Int.mul_ediv_cancel _ pos.ne']

end TickMaps

end OrderDesk
