import OrderDesk.Proofs.Desk

/-!
# Several actions

* `Desk.outcomes`: the results of actions that run one after another, also after a fault.
* `Desk.outcome_all`: what actions come to together, in terms of these results.
* `Desk.Sends`: the requests that an action may send.
-/

namespace OrderDesk

variable {α β : Type}

/-! ## The first fault -/

/-- Whether a fault comes before all others in a list of results. -/
def FirstFault (results : List (Except Fault α)) (fault : Fault) : Prop :=
  ∃ (values : List α) (later : List (Except Fault α)),
    results = values.map .ok ++ .error fault :: later

section Results

variable {results : List (Except Fault α)} {values : List α} {value : α} {fault other : Fault}

theorem firstFault_error : FirstFault (.error other :: results) fault ↔ other = fault := by
  constructor
  · rintro ⟨_ | ⟨value, values⟩, later, split⟩
    · exact Except.error.inj (List.cons.inj split).1
    · cases (List.cons.inj split).1
  · rintro rfl
    exact ⟨[], results, rfl⟩

theorem firstFault_ok : FirstFault (.ok value :: results) fault ↔ FirstFault results fault := by
  constructor
  · rintro ⟨_ | ⟨first, values⟩, later, split⟩
    · cases (List.cons.inj split).1
    · exact ⟨values, later, (List.cons.inj split).2⟩
  · rintro ⟨values, later, rfl⟩
    exact ⟨value :: values, later, rfl⟩

theorem mapM_id_ok_cons : (.ok value :: results).mapM id = (results.mapM id).map (value :: ·) := by
  rw [List.mapM_cons, id, ok_bind]
  cases results.mapM id <;> rfl

theorem mapM_id_eq_ok : results.mapM id = .ok values ↔ results = values.map .ok := by
  induction results generalizing values with
  | nil => cases values <;> simp [pure, Except.pure]
  | cons result results ih =>
    cases result with
    | error fault => cases values <;> simp [List.mapM_cons]
    | ok value =>
      rw [mapM_id_ok_cons]
      cases others : results.mapM id with
      | error fault =>
        have none : ∀ rest : List α, results ≠ rest.map .ok := by
          intro rest same
          cases others.symm.trans (ih.mpr same)
        cases values <;> simp [Except.map, none]
      | ok rest =>
        rw [ih.mp others]
        have inj : Function.Injective (Except.ok : α → Except Fault α) := fun _ _ => Except.ok.inj
        cases values <;> simp [Except.map, inj.list_map.eq_iff]

theorem mapM_id_eq_error : results.mapM id = .error fault ↔ FirstFault results fault := by
  induction results with
  | nil => simp [FirstFault, pure, Except.pure]
  | cons result results ih =>
    cases result with
    | error other =>
      rw [firstFault_error, List.mapM_cons, id, error_bind, Except.error.injEq]
    | ok value =>
      rw [mapM_id_ok_cons, firstFault_ok, ← ih]
      cases results.mapM id <;> simp [Except.map]

end Results

/-! ## Lists taken apart -/

section Lists

variable {convert : α → Except Fault β} {items : List α} {values : List β}

/-- A list is converted if each item is, in order. -/
theorem mapM_eq_ok : items.mapM convert = .ok values ↔
    List.Forall₂ (fun item value => convert item = .ok value) items values := by
  induction items generalizing values with
  | nil =>
    rw [List.mapM_nil, pure_eq_ok, List.forall₂_nil_left_iff, eq_comm]
  | cons item items ih =>
    rw [List.mapM_cons, List.forall₂_cons_left_iff]
    simp only [bind_eq_ok, pure_eq_ok, ih]
    constructor
    · rintro ⟨value, value_ok, rest, each, rfl⟩
      exact ⟨value, rest, value_ok, each, rfl⟩
    · rintro ⟨value, rest, value_ok, each, rfl⟩
      exact ⟨value, value_ok, rest, each, rfl⟩

theorem mapM_succeeds_iff : (∃ values, items.mapM convert = .ok values) ↔
    ∀ item ∈ items, ∃ value, convert item = .ok value := by
  induction items with
  | nil => simp [pure_eq_ok]
  | cons item items ih =>
    rw [List.forall_mem_cons, ← ih, List.mapM_cons]
    simp only [bind_eq_ok, pure_eq_ok]
    constructor
    · rintro ⟨_, value, value_ok, rest, rest_ok, rfl⟩
      exact ⟨⟨value, value_ok⟩, rest, rest_ok⟩
    · rintro ⟨⟨value, value_ok⟩, rest, rest_ok⟩
      exact ⟨_, value, value_ok, rest, rest_ok, rfl⟩

end Lists

namespace Desk

variable {outside : Outside} {journal : Journal}

/-! ## One after another -/

/-- The results of actions that run one after another, and what has been done after the last. -/
def outcomes (outside : Outside) : List (Desk α) → Journal → List (Except Fault α) × Journal
  | [], journal => ([], journal)
  | action :: actions, journal =>
    let first := action.outcome outside journal
    let others := outcomes outside actions first.2
    (first.1 :: others.1, others.2)

theorem outcomes_length (actions : List (Desk α)) (journal : Journal) :
    (outcomes outside actions journal).1.length = actions.length := by
  induction actions generalizing journal with
  | nil => rfl
  | cons action actions ih => exact congrArg (· + 1) (ih _)

theorem outcome_all_cons (action : Desk α) (actions : List (Desk α)) :
    (all (action :: actions)).outcome outside journal =
      let first := action.outcome outside journal
      let others := (all actions).outcome outside first.2
      (do return (← first.1) :: (← others.1), others.2) := by
  rw [all, outcome_bind, outcome_attempt]
  dsimp only
  rw [outcome_bind, outcome_attempt]
  cases (action.outcome outside journal).1 with
  | error fault => rfl
  | ok value =>
    cases ((all actions).outcome outside (action.outcome outside journal).2).1 <;> rfl

theorem outcome_all (actions : List (Desk α)) (outside : Outside) (journal : Journal) :
    (all actions).outcome outside journal =
      ((outcomes outside actions journal).1.mapM id, (outcomes outside actions journal).2) := by
  induction actions generalizing journal with
  | nil => rfl
  | cons action actions ih =>
    rw [outcome_all_cons]
    dsimp only
    rw [ih, outcomes, List.mapM_cons]
    rfl

/-! ## Requests -/

/-- Whether all requests that an action sends are of a certain kind. -/
def Sends (allowed : ApiRequest → Prop) (action : Desk α) : Prop :=
  ∀ outside journal, ∃ sent : List ApiRequest,
    (action.outcome outside journal).2.requests = journal.requests ++ sent ∧
      ∀ request ∈ sent, allowed request

namespace Sends

variable {allowed : ApiRequest → Prop} {action : Desk α} {next : α → Desk β}

theorem of_requests_eq (same : ∀ outside journal,
    (action.outcome outside journal).2.requests = journal.requests) : Sends allowed action := by
  intro outside journal
  exact ⟨[], by rw [same, List.append_nil], nofun⟩

theorem pure (value : α) : Sends allowed (Pure.pure value : Desk α) :=
  .of_requests_eq fun _ _ => rfl

theorem fail (fault : Fault) : Sends allowed (Desk.fail fault : Desk α) :=
  .of_requests_eq fun _ _ => rfl

theorem lift (result : Except Fault α) : Sends allowed (liftM result : Desk α) :=
  .of_requests_eq fun _ _ => rfl

theorem within (result : Json.Capacity → Except Fault α) :
    Sends allowed (Desk.within result) :=
  .of_requests_eq fun _ _ => rfl

theorem ask (question : NodeRead) (answer : Node → Except Fault α) :
    Sends allowed (Desk.ask question answer) :=
  .of_requests_eq fun _ _ => rfl

theorem draw (source : Nat) : Sends allowed (Desk.draw source) :=
  .of_requests_eq fun _ _ => rfl

theorem bind (first : Sends allowed action) (rest : ∀ value, Sends allowed (next value)) :
    Sends allowed (action >>= next) := by
  intro outside journal
  obtain ⟨sent, requests_eq, each⟩ := first outside journal
  rw [outcome_bind]
  cases outcome : action.outcome outside journal with
  | mk result between =>
    rw [outcome] at requests_eq
    cases result with
    | error fault => exact ⟨sent, requests_eq, each⟩
    | ok value =>
      obtain ⟨others, others_eq, others_each⟩ := rest value outside between
      refine ⟨sent ++ others, ?_, ?_⟩
      · rw [← List.append_assoc, ← requests_eq]
        exact others_eq
      · intro request mem
        rcases List.mem_append.mp mem with here | there
        · exact each request here
        · exact others_each request there

theorem ite {condition : Prop} [Decidable condition] {yes no : Desk α} (first : Sends allowed yes)
    (second : Sends allowed no) : Sends allowed (if condition then yes else no) := by
  split
  · exact first
  · exact second

theorem attempt (sends : Sends allowed action) : Sends allowed (Desk.attempt action) := sends

theorem all {actions : List (Desk α)} (each : ∀ action ∈ actions, Sends allowed action) :
    Sends allowed (Desk.all actions) := by
  induction actions with
  | nil => exact .pure []
  | cons action actions ih =>
    refine .bind (each action List.mem_cons_self).attempt fun first => ?_
    have rest := ih fun action mem => each action (List.mem_cons_of_mem _ mem)
    refine .bind rest.attempt fun others => ?_
    cases first <;> cases others
    all_goals first | exact .pure _ | exact .fail _

end Sends

theorem journal_bind_eq (action : Desk α) {next : α → Desk β}
    (unchanged : ∀ value between, ((next value).outcome outside between).2 = between) :
    ((action >>= next).outcome outside journal).2 = (action.outcome outside journal).2 := by
  rw [outcome_bind]
  cases action.outcome outside journal with
  | mk result between =>
    cases result with
    | error fault => rfl
    | ok value => exact unchanged value between

/-- A request is sent under the next number if its values can be sent. -/
theorem outcome_send (method : String) (params : List Json) :
    (send method params).outcome outside journal =
      match checkParams params with
      | .ok () =>
        let request : ApiRequest := ⟨journal.nextId, method, params⟩
        (.ok (outside.reply journal.requests request),
          { journal with requests := journal.requests ++ [request], nextId := journal.nextId + 1 })
      | .error fault => (.error fault, { journal with nextId := journal.nextId + 1 }) := by
  unfold send
  cases checkParams params <;> rfl

theorem Sends.send {allowed : ApiRequest → Prop} {method : String} {params : List Json}
    (fits : ∀ id, allowed ⟨id, method, params⟩) : Sends allowed (Desk.send method params) := by
  intro outside journal
  rw [outcome_send]
  cases checkParams params with
  | error fault => exact ⟨[], (List.append_nil _).symm, nofun⟩
  | ok _ => exact ⟨[_], rfl, fun request mem => List.mem_singleton.mp mem ▸ fits _⟩

end Desk

end OrderDesk
