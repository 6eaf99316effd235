import OrderDesk.Builder.Objects
import OrderDesk.Proofs.Pipeline.Objects

/-!
# Calls of a builder

* `BuilderKind.answers_append`: what calls answer depends on the draft that earlier ones have left.
* `BuilderKind.answers_without_build`, `BuilderKind.answers_exchange`: calls that leave the answers of
  others as they are.
* `BuilderKind.after_orders`: orders that a builder has built stay as they were built.
-/

namespace OrderDesk

variable {δ σ : Type}

/-! ## Calls -/

namespace BuilderKind

variable {kind : BuilderKind δ σ} {draft : δ}

/-- The draft after a call. -/
def write (kind : BuilderKind δ σ) (draft : δ) : BuilderCall σ → δ
  | .set setting => kind.set draft setting
  | .build => draft

theorem answers_length (kind : BuilderKind δ σ) (draft : δ) (calls : List (BuilderCall σ)) :
    (kind.answers draft calls).length = calls.length := by
  induction calls generalizing draft with
  | nil => rfl
  | cons call calls ih => cases call <;> exact congrArg (· + 1) (ih _)

theorem answers_append (draft : δ) (calls later : List (BuilderCall σ)) :
    kind.answers draft (calls ++ later) =
      kind.answers draft calls ++ kind.answers (calls.foldl kind.write draft) later := by
  induction calls generalizing draft with
  | nil => rfl
  | cons call calls ih => cases call <;> exact congrArg (List.cons _) (ih _)

theorem answers_build (draft : δ) (calls later : List (BuilderCall σ)) :
    (kind.answers draft (calls ++ .build :: later))[calls.length]? =
      some (some (kind.build (calls.foldl kind.write draft))) := by
  have behind := kind.answers_length draft calls
  rw [answers_append, ← behind, List.getElem?_append_right le_rfl, Nat.sub_self]
  rfl

theorem answers_without_build (draft : δ) (calls later : List (BuilderCall σ)) :
    kind.answers draft (calls ++ later) =
      (kind.answers draft (calls ++ .build :: later)).eraseIdx calls.length := by
  have behind := kind.answers_length draft calls
  rw [answers_append, answers_append, ← behind, List.eraseIdx_append_of_length_le le_rfl,
    Nat.sub_self]
  rfl

/-- Two settings that do not touch each other can be made in either order. -/
theorem answers_exchange {one another : σ} (draft : δ) (calls later : List (BuilderCall σ))
    (commute : ∀ draft, kind.set (kind.set draft one) another =
      kind.set (kind.set draft another) one) :
    kind.answers draft (calls ++ .set one :: .set another :: later) =
      kind.answers draft (calls ++ .set another :: .set one :: later) := by
  rw [answers_append, answers_append]
  simp only [answers, commute]

end BuilderKind

/-! ## Objects -/

namespace Builder

variable {builder : Builder δ} {store : OrderStore}

/-- Whether all answers of a builder refer to orders that exist. -/
def Sound (builder : Builder δ) : Prop :=
  ∀ reference, some (.ok reference) ∈ builder.answers → reference < builder.store.nextOrder

/-- Orders that exist are as before in a store that extends theirs. -/
theorem Sound.loaded_eq (sound : builder.Sound) (extension : builder.store.Extends store) :
    builder.answers.map (·.map (·.map store.load)) = builder.orders := by
  refine List.map_congr_left fun answer mem => ?_
  cases answer with
  | none => rfl
  | some result =>
    cases result with
    | error fault => rfl
    | ok reference =>
      have same := extension.load_eq (sound reference mem)
      simp only [Option.map_some, Except.map, same]

theorem Sound.answer (sound : builder.Sound) (extension : builder.store.Extends store) (draft : δ)
    (answer : Option (Except Fault Nat))
    (exists_now : ∀ reference, answer = some (.ok reference) → reference < store.nextOrder) :
    Sound ⟨draft, store, builder.answers ++ [answer]⟩ ∧
      orders ⟨draft, store, builder.answers ++ [answer]⟩ =
        builder.orders ++ [answer.map (·.map store.load)] := by
  constructor
  · intro reference mem
    rcases List.mem_append.mp mem with before | now
    · exact (sound reference before).trans_le extension.orders_le
    · exact exists_now reference (List.mem_singleton.mp now).symm
  · rw [orders, List.map_append, sound.loaded_eq extension]
    rfl

end Builder

namespace BuilderKind

/-- A call answers by its draft, writes into it, and leaves all orders that exist. -/
structure Steps (kind : BuilderKind δ σ) (call : BuilderCall σ) (builder next : Builder δ) :
    Prop where
  draft : next.draft = kind.write builder.draft call
  extended : builder.store.Extends next.store
  sound : next.Sound
  orders : next.orders = builder.orders ++ kind.answers builder.draft [call]

theorem call_steps (kind : BuilderKind δ σ) (call : BuilderCall σ) {builder : Builder δ}
    (sound : builder.Sound) : kind.Steps call builder (kind.call builder call) := by
  cases call with
  | set setting =>
    obtain ⟨next_sound, orders⟩ :=
      sound.answer (.refl _) (kind.set builder.draft setting) none nofun
    exact ⟨rfl, .refl _, next_sound, orders⟩
  | build =>
    cases built : kind.build builder.draft with
    | error fault =>
      obtain ⟨next_sound, orders⟩ :=
        sound.answer (.refl _) builder.draft (some (.error fault)) nofun
      rw [BuilderKind.call, built]
      refine ⟨rfl, .refl _, next_sound, ?_⟩
      rw [orders, answers, built]
      rfl
    | ok order =>
      have extended := (OrderStore.owns_insert builder.store order).extended
      obtain ⟨next_sound, orders⟩ :=
        sound.answer extended builder.draft (some (.ok builder.store.nextOrder)) (by
          intro reference same
          cases same
          exact Nat.lt_succ_self _)
      rw [BuilderKind.call, built]
      refine ⟨rfl, extended, next_sound, ?_⟩
      rw [orders, answers, built, Option.map_some, Except.map, OrderStore.load_insert]
      rfl

theorem calls_run (kind : BuilderKind δ σ) (calls : List (BuilderCall σ)) {builder : Builder δ}
    (sound : builder.Sound) :
    (calls.foldl kind.call builder).orders =
        builder.orders ++ kind.answers builder.draft calls ∧
      builder.store.Extends (calls.foldl kind.call builder).store := by
  induction calls generalizing builder with
  | nil => exact ⟨(List.append_nil _).symm, .refl _⟩
  | cons call calls ih =>
    have steps := kind.call_steps call sound
    obtain ⟨orders, extended⟩ := ih steps.sound
    refine ⟨?_, steps.extended.trans extended⟩
    rw [List.foldl_cons, orders, steps.orders, steps.draft, List.append_assoc]
    exact congrArg _ (answers_append builder.draft [call] calls).symm

/-- The answers of a builder, with its orders as they have become, are those of its drafts. -/
theorem after_orders (kind : BuilderKind δ σ) (store : OrderStore) (calls : List (BuilderCall σ)) :
    (kind.after store calls).orders = kind.answers kind.initial calls ∧
      store.Extends (kind.after store calls).store := by
  have fresh : Builder.Sound ⟨kind.initial, store, []⟩ := nofun
  exact kind.calls_run calls fresh

end BuilderKind

end OrderDesk
