import Mathlib.Tactic
import OrderDesk.Desk
import OrderDesk.Proofs.Except

/-!
# Results of actions

* `Desk.Yields`: a result that an action has in some state of the journal; `Desk.Yields.of_bind` and
  `Desk.Yields.of_all` take a success apart.
* `Desk.Answers`: the one result of an action that only asks the node, whatever was done before.
* `Desk.Steady`: whether an action has such a result.
-/

namespace OrderDesk.Desk

variable {α β : Type} {outside : Outside} {journal : Journal}

theorem outcome_lift (result : Except Fault α) (outside : Outside) (journal : Journal) :
    (liftM result : Desk α).outcome outside journal = (result, journal) := rfl

theorem outcome_within (result : Json.Capacity → Except Fault α) (outside : Outside)
    (journal : Journal) :
    (within result).outcome outside journal = (result outside.capacity, journal) := rfl

/-- Whether an action succeeds with a value after something was done. -/
def Yields (action : Desk α) (outside : Outside) (value : α) : Prop :=
  ∃ journal, (action.outcome outside journal).1 = .ok value

/-- Whether an action has a result whatever was done before. -/
def Answers (action : Desk α) (outside : Outside) (result : Except Fault α) : Prop :=
  ∀ journal, (action.outcome outside journal).1 = result

/-! ## Parts of a success -/

theorem Yields.of_bind {action : Desk α} {next : α → Desk β} {result : β}
    (given : (action >>= next).Yields outside result) :
    ∃ value, action.Yields outside value ∧ (next value).Yields outside result := by
  obtain ⟨journal, given⟩ := given
  rw [outcome_bind] at given
  cases first : action.outcome outside journal with
  | mk value between =>
    rw [first] at given
    cases value with
    | error fault => cases given
    | ok value => exact ⟨value, ⟨journal, by rw [first]⟩, ⟨between, given⟩⟩

theorem Yields.of_pure {value result : α}
    (given : (pure value : Desk α).Yields outside result) : value = result := by
  obtain ⟨journal, given⟩ := given
  cases given
  rfl

theorem not_yields_fail {fault : Fault} {result : α} :
    ¬ (fail fault : Desk α).Yields outside result := by
  rintro ⟨journal, given⟩
  cases given

theorem Yields.of_lift {part : Except Fault α} {result : α}
    (given : (liftM part : Desk α).Yields outside result) : part = .ok result := by
  obtain ⟨journal, given⟩ := given
  exact given

theorem Yields.of_ask {question : NodeRead} {answer : Node → Except Fault α} {value : α}
    (given : (ask question answer).Yields outside value) : answer outside.node = .ok value := by
  obtain ⟨journal, given⟩ := given
  exact given

theorem Yields.of_attempt {action : Desk α} {result : Except Fault α}
    (given : (attempt action).Yields outside result) :
    ∃ journal, (action.outcome outside journal).1 = result := by
  obtain ⟨journal, given⟩ := given
  rw [outcome_attempt] at given
  exact ⟨journal, Except.ok.inj given⟩

theorem Yields.of_all {actions : List (Desk α)} {values : List α}
    (given : (all actions).Yields outside values) :
    List.Forall₂ (fun action value => action.Yields outside value) actions values := by
  induction actions generalizing values with
  | nil =>
    cases given.of_pure
    exact .nil
  | cons action actions ih =>
    obtain ⟨first, first_ok, given⟩ := given.of_bind
    obtain ⟨others, others_ok, given⟩ := given.of_bind
    cases first with
    | error fault => cases others <;> exact absurd given not_yields_fail
    | ok value =>
      cases others with
      | error fault => exact absurd given not_yields_fail
      | ok rest =>
        cases given.of_pure
        exact .cons first_ok.of_attempt (ih others_ok.of_attempt)

/-! ## Answers of the node -/

theorem Answers.ask (question : NodeRead) (answer : Node → Except Fault α) :
    (Desk.ask question answer).Answers outside (answer outside.node) := fun _ => rfl

theorem Answers.lift (result : Except Fault α) :
    (liftM result : Desk α).Answers outside result := fun _ => rfl

theorem Answers.within (result : Json.Capacity → Except Fault α) :
    (Desk.within result).Answers outside (result outside.capacity) := fun _ => rfl

theorem Answers.pure (value : α) : (Pure.pure value : Desk α).Answers outside (.ok value) :=
  fun _ => rfl

theorem Answers.bind {action : Desk α} {next : α → Desk β} {first : Except Fault α}
    {rest : α → Except Fault β} (answers : action.Answers outside first)
    (continues : ∀ value, (next value).Answers outside (rest value)) :
    (action >>= next).Answers outside (first >>= rest) := by
  intro journal
  have now := answers journal
  rw [outcome_bind]
  cases outcome : action.outcome outside journal with
  | mk result between =>
    rw [outcome] at now
    subst now
    cases result with
    | error fault => rfl
    | ok value => exact continues value between

theorem Answers.of_yields {action : Desk α} {result : Except Fault α} {value : α}
    (answers : action.Answers outside result) (given : action.Yields outside value) :
    action.Answers outside (.ok value) := by
  obtain ⟨journal, given⟩ := given
  have same : result = .ok value := (answers journal).symm.trans given
  rwa [same] at answers

theorem Answers.fail (fault : Fault) :
    (Desk.fail fault : Desk α).Answers outside (.error fault) := fun _ => rfl

theorem Answers.ok_bind {action : Desk α} {next : α → Desk β} {value : α} {result : Except Fault β}
    (answers : action.Answers outside (.ok value))
    (continues : (next value).Answers outside result) :
    (action >>= next).Answers outside result := by
  intro journal
  have now := answers journal
  rw [outcome_bind]
  cases outcome : action.outcome outside journal with
  | mk first between =>
    rw [outcome] at now
    subst now
    exact continues between

theorem Answers.error_bind {action : Desk α} {next : α → Desk β} {fault : Fault}
    (answers : action.Answers outside (.error fault)) :
    (action >>= next).Answers outside (.error fault) := by
  intro journal
  have now := answers journal
  rw [outcome_bind]
  cases outcome : action.outcome outside journal with
  | mk first between =>
    rw [outcome] at now
    subst now
    rfl

theorem Answers.mapM {read : α → Desk β} {value : α → β} {items : List α}
    (each : ∀ item ∈ items, (read item).Answers outside (.ok (value item))) :
    (items.mapM read).Answers outside (.ok (items.map value)) := by
  induction items with
  | nil => exact .pure []
  | cons item items ih =>
    have others := ih fun other mem => each other (List.mem_cons_of_mem _ mem)
    rw [List.mapM_cons]
    exact (each item List.mem_cons_self).ok_bind (others.ok_bind (.pure _))

/-- Whether an action has one result, whatever was done before. -/
def Steady (action : Desk α) (outside : Outside) : Prop :=
  ∃ result, action.Answers outside result

theorem Steady.answers {action : Desk α} {value : α} (steady : action.Steady outside)
    (given : action.Yields outside value) : action.Answers outside (.ok value) := by
  obtain ⟨result, answers⟩ := steady
  exact answers.of_yields given

theorem Steady.bind {action : Desk α} {next : α → Desk β} (first : action.Steady outside)
    (rest : ∀ value, (next value).Steady outside) : (action >>= next).Steady outside := by
  obtain ⟨result, answers⟩ := first
  choose continued continues using rest
  exact ⟨result >>= continued, answers.bind continues⟩

end OrderDesk.Desk

namespace OrderDesk

/-- An outside that answers nothing. -/
def Outside.silent : Outside where
  node := {
    blockNumber := .error (.chainRead "" "")
    storage := fun _ _ _ => .error (.chainRead "" "")
    code := fun _ _ => .error (.chainRead "" "")
    call := fun _ _ _ => .error (.chainRead "" "")
    deploy := fun _ _ => .error (.deployCall "" "") }
  reply := fun _ _ => .dropped ""
  candidate := fun _ _ => 0
  choose := fun low _ => low
  patience := 0

theorem price_ok {α : Type} {result : Except PriceFault α} {value : α}
    (given : (liftM result : Except Fault α) = .ok value) : result = .ok value := by
  cases result with
  | error fault => cases given
  | ok other =>
    cases given
    rfl

end OrderDesk
