/-!
# Results of computations that may fail

A computation succeeds if each of its parts does, and fails as one of them does.

* `bind_eq_ok`: a success taken apart.
* `FailsWith`: whether a computation fails in ways of one kind only.
-/

namespace OrderDesk

variable {ε α β : Type}

@[simp]
theorem ok_bind (value : α) (next : α → Except ε β) : (Except.ok value >>= next) = next value := rfl

@[simp]
theorem error_bind (fault : ε) (next : α → Except ε β) :
    (Except.error fault >>= next) = Except.error fault := rfl

theorem pure_eq_ok {value result : α} :
    (pure value : Except ε α) = .ok result ↔ value = result := by
  simp [pure, Except.pure]

theorem bind_eq_ok {first : Except ε α} {next : α → Except ε β} {result : β} :
    first >>= next = .ok result ↔ ∃ value, first = .ok value ∧ next value = .ok result := by
  cases first <;> simp

/-- What follows a computation matters for the values only that it gives. -/
theorem bind_congr_ok {first : Except ε α} {next further : α → Except ε β}
    (same : ∀ value, first = .ok value → next value = further value) :
    first >>= next = first >>= further := by
  cases first with
  | error fault => rfl
  | ok value => exact same value rfl

theorem ok_of_toOption {result : Except ε α} {value : α} (given : result.toOption = some value) :
    result = .ok value := by
  cases result with
  | error fault => cases given
  | ok other => exact congrArg Except.ok (Option.some.inj given)

def fault? : Except ε α → Option ε
  | .error fault => some fault
  | .ok _ => none

theorem error_of_fault? {γ : Type} {result : Except ε α} {shown : ε → γ} {value : γ}
    (given : (fault? result).map shown = some value) :
    ∃ fault, result = .error fault ∧ shown fault = value := by
  cases result with
  | error fault => exact ⟨fault, rfl, Option.some.inj given⟩
  | ok other => cases given

/-! ## Kinds of faults -/

/-- Whether a computation fails with faults of one kind only. -/
def FailsWith (kind : ε → Prop) (result : Except ε α) : Prop :=
  ∀ fault, result = .error fault → kind fault

namespace FailsWith

variable {kind : ε → Prop} {result : Except ε α} {next : α → Except ε β} {fault : ε}

theorem ok (value : α) : FailsWith kind (.ok value : Except ε α) := by
  intro fault given
  cases given

theorem error_iff : FailsWith kind (.error fault : Except ε α) ↔ kind fault := by
  constructor
  · intro fails
    exact fails fault rfl
  · rintro allowed other given
    cases given
    exact allowed

theorem error (allowed : kind fault) : FailsWith kind (.error fault : Except ε α) :=
  error_iff.mpr allowed

theorem bind_ok (first : FailsWith kind result)
    (rest : ∀ value, result = .ok value → FailsWith kind (next value)) :
    FailsWith kind (result >>= next) := by
  intro fault given
  cases result with
  | error other =>
    cases given
    exact first fault rfl
  | ok value => exact rest value rfl fault given

theorem bind (first : FailsWith kind result) (rest : ∀ value, FailsWith kind (next value)) :
    FailsWith kind (result >>= next) :=
  first.bind_ok fun value _ => rest value

theorem ite {condition : Prop} [Decidable condition] {yes no : Except ε α}
    (first : FailsWith kind yes) (second : FailsWith kind no) :
    FailsWith kind (if condition then yes else no) := by
  split
  · exact first
  · exact second

theorem mapM {convert : α → Except ε β} (each : ∀ item, FailsWith kind (convert item))
    (items : List α) : FailsWith kind (items.mapM convert) := by
  induction items with
  | nil => exact .ok []
  | cons item items ih =>
    rw [List.mapM_cons]
    exact .bind (each item) fun first => .bind ih fun others => .ok (first :: others)

end FailsWith

end OrderDesk
