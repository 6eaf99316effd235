/-!
# Tables

Finite maps as rows in the order in which their keys came in. Setting a key that is present
replaces its value and keeps its place.

* `Table.get?_set`: what a table answers after a key is set.
-/

namespace OrderDesk

abbrev Table (κ α : Type) := List (κ × α)

namespace Table

variable {κ α : Type} [DecidableEq κ]

def get? : Table κ α → κ → Option α
  | [], _ => none
  | (other, value) :: rest, key => if other = key then some value else get? rest key

def set : Table κ α → κ → α → Table κ α
  | [], key, value => [(key, value)]
  | (other, old) :: rest, key, value =>
    if other = key then (key, value) :: rest else (other, old) :: set rest key value

/-- The table of the rows of a list; the last row of a key counts. -/
def ofList (rows : List (κ × α)) : Table κ α :=
  rows.foldl (fun table row => table.set row.1 row.2) []

theorem get?_set (table : Table κ α) (key other : κ) (value : α) :
    (table.set key value).get? other = if key = other then some value else table.get? other := by
  induction table with
  | nil => simp [set, get?]
  | cons row rest ih =>
    obtain ⟨name, old⟩ := row
    by_cases same : name = key
    · subst same
      by_cases here : name = other <;> simp [set, get?, here]
    · by_cases here : name = other
      · subst here
        simp [set, get?, same, Ne.symm same]
      · simp [set, get?, same, here, ih]

end Table

end OrderDesk
