import Mathlib.Tactic
import OrderDesk.Table

/-!
# Rows of tables

* `Table.get?_ofList`: of the rows for one key the last counts.
* `Table.ofList_of_nodup`: rows of different keys are a table as they stand.
* `Table.keys_set`: a new key comes last, and a present one keeps its place.
-/

namespace OrderDesk.Table

variable {κ α : Type} [DecidableEq κ] {key : κ} {value : α} {table rows front : List (κ × α)}

/-! ## Setting a key -/

theorem set_append (value : α) (new : key ∉ table.map (·.1)) :
    Table.set table key value = table ++ [(key, value)] := by
  induction table with
  | nil => rfl
  | cons row rest ih =>
    obtain ⟨other, old⟩ := row
    obtain ⟨ne, new⟩ := not_or.mp (mt List.mem_cons.mpr new)
    rw [set, if_neg (Ne.symm ne), ih new, List.cons_append]

theorem keys_set_of_mem (value : α) (present : key ∈ table.map (·.1)) :
    (Table.set table key value).map (·.1) = table.map (·.1) := by
  induction table with
  | nil => cases present
  | cons row rest ih =>
    obtain ⟨other, old⟩ := row
    by_cases here : other = key
    · rw [set, if_pos here, List.map_cons, List.map_cons, here]
    · have later : key ∈ rest.map (·.1) :=
        (List.mem_cons.mp present).resolve_left (Ne.symm here)
      rw [set, if_neg here, List.map_cons, List.map_cons, ih later]

theorem keys_set (table : Table κ α) (key : κ) (value : α) :
    (table.set key value).map (·.1) =
      if key ∈ table.map (·.1) then table.map (·.1) else table.map (·.1) ++ [key] := by
  split
  · rename_i present
    exact keys_set_of_mem value present
  · rename_i new
    rw [set_append value new, List.map_append]
    rfl

theorem set_get? (found : Table.get? table key = some value) :
    Table.set table key value = table := by
  induction table with
  | nil => cases found
  | cons row rest ih =>
    obtain ⟨other, old⟩ := row
    rw [get?] at found
    split at found
    · rename_i here
      cases found
      rw [set, if_pos here, here]
    · rename_i elsewhere
      rw [set, if_neg elsewhere, ih found]

theorem mem_set {row : κ × α} (mem : row ∈ Table.set table key value) :
    row = (key, value) ∨ row ∈ table := by
  induction table with
  | nil => exact .inl (List.mem_singleton.mp mem)
  | cons first rest ih =>
    rw [set] at mem
    split at mem
    all_goals rcases List.mem_cons.mp mem with rfl | mem
    · exact .inl rfl
    · exact .inr (List.mem_cons_of_mem _ mem)
    · exact .inr List.mem_cons_self
    · exact (ih mem).imp_right (List.mem_cons_of_mem _)

/-! ## Looking a key up -/

theorem get?_isSome (table : Table κ α) (key : κ) :
    (table.get? key).isSome = true ↔ key ∈ table.map (·.1) := by
  induction table with
  | nil => simp [Table.get?]
  | cons row rest ih =>
    by_cases here : row.1 = key
    · simp [Table.get?, here]
    · simp [Table.get?, here, ih, Ne.symm here]

theorem mem_of_get? (found : Table.get? table key = some value) : (key, value) ∈ table := by
  induction table with
  | nil => cases found
  | cons row rest ih =>
    rw [get?] at found
    split at found
    · rename_i here
      cases found
      exact here ▸ List.mem_cons_self
    · exact List.mem_cons_of_mem _ (ih found)

theorem get?_of_mem (nodup : (rows.map (·.1)).Nodup) (member : (key, value) ∈ rows) :
    Table.get? rows key = some value := by
  induction rows with
  | nil => cases member
  | cons row rows ih =>
    obtain ⟨new, nodup⟩ := List.nodup_cons.mp nodup
    rcases List.mem_cons.mp member with rfl | member
    · exact if_pos rfl
    · have ne : row.1 ≠ key := by
        rintro rfl
        exact new (List.mem_map.mpr ⟨_, member, rfl⟩)
      exact (if_neg ne).trans (ih nodup member)

/-! ## Tables of lists -/

theorem foldl_set_of_nodup (nodup : ((front ++ rows).map (·.1)).Nodup) :
    rows.foldl (fun table row => Table.set table row.1 row.2) front = front ++ rows := by
  induction rows generalizing front with
  | nil => exact (List.append_nil front).symm
  | cons row rows ih =>
    have new : row.1 ∉ front.map (·.1) := by
      rw [List.map_append, List.nodup_append] at nodup
      exact fun old => nodup.2.2 _ old _ (by simp) rfl
    rw [List.append_cons] at nodup ⊢
    rw [List.foldl_cons, set_append row.2 new, ih nodup]

theorem ofList_of_nodup (nodup : (rows.map (·.1)).Nodup) : ofList rows = rows :=
  foldl_set_of_nodup nodup

theorem get?_foldl_set (rows : List (κ × α)) (table : Table κ α) (key : κ) :
    (rows.foldl (fun table row => table.set row.1 row.2) table).get? key =
      ((rows.reverse.find? fun row => decide (row.1 = key)).map (·.2)).or (table.get? key) := by
  induction rows generalizing table with
  | nil => rfl
  | cons row rows ih =>
    rw [List.foldl_cons, ih, Table.get?_set, List.reverse_cons, List.find?_append]
    cases rows.reverse.find? fun row => decide (row.1 = key) with
    | some last => rfl
    | none => by_cases here : row.1 = key <;> simp [here]

theorem get?_ofList (rows : List (κ × α)) (key : κ) :
    (Table.ofList rows).get? key =
      (rows.reverse.find? fun row => decide (row.1 = key)).map (·.2) := by
  rw [Table.ofList, Table.get?_foldl_set]
  exact Option.or_none

end OrderDesk.Table
