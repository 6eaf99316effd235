import OrderDesk.Node.Gateway
import OrderDesk.Proofs.Desk

/-!
# Reading at one block

* `Node.AgreesAt`: whether two nodes say the same about a block, as they do over connections with the
  same replies about it.
* `Desk.StaysAt`: whether an action does nothing but ask the node about one block, and depends on
  nothing else. Each way to make an action from others keeps this.
* `ReadsOneBlock`: whether a reading that may be given a block stays at that one or at the current
  one, and `readsOneBlock_pinned`: it does if it chooses its block first.
-/

namespace OrderDesk

variable {α β : Type}

/-! ## Questions and answers -/

/-- Whether a question is about the state at a block. -/
def NodeRead.At (block : BlockName) : NodeRead → Prop
  | .blockNumber => False
  | .storage _ _ place | .code _ place | .call _ _ place | .deploy _ place => place = some block

/-- Whether two nodes say the same about a block. -/
structure Node.AgreesAt (block : BlockName) (first second : Node) : Prop where
  storage : ∀ address slot,
    first.storage address slot (some block) = second.storage address slot (some block)
  code : ∀ address, first.code address (some block) = second.code address (some block)
  call : ∀ target data, first.call target data (some block) = second.call target data (some block)
  deploy : ∀ data, first.deploy data (some block) = second.deploy data (some block)

/-- Whether a request is about the state at a block. -/
def NodeRequest.At (block : BlockName) : NodeRequest → Prop
  | .blockNumber => False
  | .storage _ _ place | .code _ place | .call _ _ place => place = some block

section Gateway

variable {block : BlockName} {first second : NodeRequest → NodeReply}
  (same : ∀ request : NodeRequest, request.At block → first request = second request)
include same

theorem Gateway.ask_eq {question : Except Fault (Question α)}
    (here : ∀ asked, question = .ok asked → asked.request.At block) :
    ask first question = ask second question := by
  cases question with
  | error fault => rfl
  | ok asked => rw [ask, ask, ok_bind, ok_bind, same _ (here asked rfl)]

/-- Over connections with the same replies to requests about a block, nodes say the same about it. -/
theorem Gateway.node_agreesAt : (node first).AgreesAt block (node second) where
  storage := by
    intro address slot
    apply ask_eq same
    intro asked given
    unfold storage at given
    split at given
    · cases given
      rfl
    · cases given
  code := by
    intro address
    apply ask_eq same
    intro asked given
    unfold code at given
    split at given
    · cases given
      rfl
    · cases given
  call := by
    intro target data
    apply ask_eq same
    intro asked given
    obtain ⟨address, -, given⟩ := bind_eq_ok.mp given
    cases given
    rfl
  deploy := by
    intro data
    apply ask_eq same
    intro asked given
    cases given
    rfl

end Gateway

/-- The journal after questions were asked. -/
def Journal.asking (journal : Journal) (questions : List NodeRead) : Journal :=
  { journal with reads := questions.reverse ++ journal.reads }

theorem Journal.asking_asking (journal : Journal) (questions others : List NodeRead) :
    (journal.asking questions).asking others = journal.asking (questions ++ others) := by
  simp [asking]

namespace Desk

theorem outcome_ask (question : NodeRead) (answer : Node → Except Fault α) (outside : Outside)
    (journal : Journal) : (ask question answer).outcome outside journal =
      (answer outside.node, journal.asking [question]) := rfl

/-! ## What is asked -/

/-- Whether an action asks some questions, does nothing else and has one result, whatever was done
before. -/
def Asks (action : Desk α) (outside : Outside) (questions : List NodeRead)
    (result : Except Fault α) : Prop :=
  ∀ journal, action.outcome outside journal = (result, journal.asking questions)

namespace Asks

variable {outside : Outside} {action : Desk α} {next : α → Desk β} {questions others : List NodeRead}

theorem answers {result : Except Fault α} (asks : action.Asks outside questions result) :
    action.Answers outside result := fun journal => congrArg Prod.fst (asks journal)

theorem lift (result : Except Fault α) : (liftM result : Desk α).Asks outside [] result :=
  fun _ => rfl

theorem pure (value : α) : (Pure.pure value : Desk α).Asks outside [] (.ok value) := lift (.ok value)

theorem bind {value : α} {result : Except Fault β} (first : action.Asks outside questions (.ok value))
    (rest : (next value).Asks outside others result) :
    (action >>= next).Asks outside (questions ++ others) result := by
  intro journal
  rw [outcome_bind, first journal]
  dsimp only
  rw [rest, Journal.asking_asking]

theorem lift_bind {value : α} {result : Except Fault β}
    (rest : (next value).Asks outside others result) :
    ((liftM (Except.ok value : Except Fault α) : Desk α) >>= next).Asks outside others result :=
  (lift (.ok value)).bind rest

theorem map {value : α} (convert : α → β) (asks : action.Asks outside questions (.ok value)) :
    (action >>= fun value => Pure.pure (convert value)).Asks outside questions
      (.ok (convert value)) := by
  intro journal
  rw [outcome_bind, asks journal]
  rfl

theorem attempt {result : Except Fault α} (asks : action.Asks outside questions result) :
    (Desk.attempt action).Asks outside questions (.ok result) := by
  intro journal
  rw [outcome_attempt, asks journal]

theorem mapM {read : α → Desk β} {question : α → NodeRead} {value : α → β} {items : List α}
    (each : ∀ item ∈ items, (read item).Asks outside [question item] (.ok (value item))) :
    (items.mapM read).Asks outside (items.map question) (.ok (items.map value)) := by
  induction items with
  | nil => exact .pure []
  | cons item items ih =>
    have others := ih fun other mem => each other (List.mem_cons_of_mem _ mem)
    rw [List.mapM_cons]
    exact (each item List.mem_cons_self).bind (others.map (value item :: ·))

end Asks

/-! ## Staying at a block -/

/-- Whether an action only asks about one block, and comes to the same with nodes that say the same
about it. -/
structure StaysAt (block : BlockName) (action : Desk α) : Prop where
  asks : ∀ outside journal, ∃ questions,
    (action.outcome outside journal).2 = journal.asking questions ∧
      ∀ question ∈ questions, question.At block
  agrees : ∀ first second : Outside, first.node.AgreesAt block second.node →
    ∀ journal, action.outcome first journal = action.outcome second journal

namespace StaysAt

variable {block : BlockName} {action : Desk α} {next : α → Desk β}

theorem lift (result : Except Fault α) : StaysAt block (liftM result : Desk α) where
  asks := fun _ _ => ⟨[], rfl, nofun⟩
  agrees := fun _ _ _ _ => rfl

theorem pure (value : α) : StaysAt block (Pure.pure value : Desk α) := lift (.ok value)

theorem fail (fault : Fault) : StaysAt block (Desk.fail fault : Desk α) := lift (.error fault)

theorem ask {question : NodeRead} {answer : Node → Except Fault α} (here : question.At block)
    (agree : ∀ first second : Node, first.AgreesAt block second → answer first = answer second) :
    StaysAt block (Desk.ask question answer) where
  asks := by
    intro outside journal
    refine ⟨[question], rfl, ?_⟩
    rintro _ (_ | ⟨_, ⟨⟩⟩)
    exact here
  agrees := by
    intro first second same journal
    rw [outcome_ask, outcome_ask, agree _ _ same]

theorem storage (address : Address) (slot : Bytes) :
    StaysAt block (Desk.storage address slot (some block)) :=
  ask rfl fun _ _ same => same.storage address slot

theorem code (address : Address) : StaysAt block (Desk.code address (some block)) :=
  ask rfl fun _ _ same => same.code address

theorem call (target : Address) (data : Bytes) :
    StaysAt block (Desk.call target data (some block)) :=
  ask rfl fun _ _ same => same.call target data

theorem deploy (data : Bytes) : StaysAt block (Desk.deploy data (some block)) :=
  ask rfl fun _ _ same => same.deploy data

theorem bind (first : StaysAt block action) (rest : ∀ value, StaysAt block (next value)) :
    StaysAt block (action >>= next) where
  asks := by
    intro outside journal
    obtain ⟨questions, asked, each⟩ := first.asks outside journal
    rw [outcome_bind]
    cases outcome : action.outcome outside journal with
    | mk result between =>
      rw [outcome] at asked
      cases result with
      | error fault => exact ⟨questions, asked, each⟩
      | ok value =>
        obtain ⟨others, others_asked, others_each⟩ := (rest value).asks outside between
        refine ⟨questions ++ others, ?_, ?_⟩
        · rw [← Journal.asking_asking, ← asked]
          exact others_asked
        · intro question mem
          rcases List.mem_append.mp mem with here | there
          · exact each question here
          · exact others_each question there
  agrees := by
    intro one other same journal
    rw [outcome_bind, outcome_bind, first.agrees one other same journal]
    cases action.outcome other journal with
    | mk result between =>
      cases result with
      | error fault => rfl
      | ok value => exact (rest value).agrees one other same between

theorem ite {condition : Prop} [Decidable condition] {yes no : Desk α} (first : StaysAt block yes)
    (second : StaysAt block no) : StaysAt block (if condition then yes else no) := by
  split
  · exact first
  · exact second

theorem attempt (stays : StaysAt block action) : StaysAt block (Desk.attempt action) where
  asks := stays.asks
  agrees := by
    intro first second same journal
    rw [outcome_attempt, outcome_attempt, stays.agrees first second same journal]

theorem mapM {read : α → Desk β} (each : ∀ item, StaysAt block (read item)) (items : List α) :
    StaysAt block (items.mapM read) := by
  induction items with
  | nil => exact .pure []
  | cons item items ih =>
    rw [List.mapM_cons]
    exact .bind (each item) fun first => .bind ih fun others => .pure (first :: others)

end StaysAt

end Desk

/-! ## One block -/

/-- Whether a reading asks about one block only: the given one, or if none is given the current one,
whose number is asked for once and before all else. It comes to the same on chains that say the same
about that block. -/
structure ReadsOneBlock (reading : Option BlockName → Desk α) : Prop where
  given : ∀ block outside journal, ∃ questions,
    ((reading (some block)).outcome outside journal).2 = journal.asking questions ∧
      ∀ question ∈ questions, question.At block
  current : ∀ outside journal, ∃ questions,
    ((reading none).outcome outside journal).2 = journal.asking (.blockNumber :: questions) ∧
      ∀ question ∈ questions,
        ∃ number, outside.node.blockNumber = .ok number ∧ question.At (.number number)
  given_agrees : ∀ block (first second : Outside), first.node.AgreesAt block second.node →
    ∀ journal,
      (reading (some block)).outcome first journal = (reading (some block)).outcome second journal
  current_agrees : ∀ first second : Outside, first.node.blockNumber = second.node.blockNumber →
    (∀ number : Int, first.node.blockNumber = .ok number →
      first.node.AgreesAt (.number number) second.node) →
    ∀ journal, (reading none).outcome first journal = (reading none).outcome second journal

theorem outcome_pinned (body : BlockName → Desk α) (outside : Outside) (journal : Journal) :
    (Desk.pinned none >>= body).outcome outside journal =
      match outside.node.blockNumber with
      | .ok number => (body (.number number)).outcome outside (journal.asking [.blockNumber])
      | .error fault => (.error fault, journal.asking [.blockNumber]) := by
  rw [Desk.outcome_bind, Desk.pinned, Desk.outcome_bind, Desk.blockNumber, Desk.outcome_ask]
  cases outside.node.blockNumber <;> rfl

theorem readsOneBlock_pinned {body : BlockName → Desk α}
    (stays : ∀ block, (body block).StaysAt block) :
    ReadsOneBlock fun block => Desk.pinned block >>= body where
  given := fun block => (stays block).asks
  current := by
    intro outside journal
    rw [outcome_pinned]
    cases number_eq : outside.node.blockNumber with
    | error fault => exact ⟨[], rfl, nofun⟩
    | ok number =>
      obtain ⟨questions, asked, each⟩ := (stays number).asks outside (journal.asking [.blockNumber])
      refine ⟨questions, ?_, fun question mem => ⟨number, rfl, each question mem⟩⟩
      rw [Journal.asking_asking] at asked
      exact asked
  given_agrees := fun block => (stays block).agrees
  current_agrees := by
    intro first second same agree journal
    rw [outcome_pinned, outcome_pinned, ← same]
    cases number_eq : first.node.blockNumber with
    | error fault => rfl
    | ok number => exact (stays number).agrees first second (agree number number_eq) _

end OrderDesk
