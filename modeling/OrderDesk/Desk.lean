import OrderDesk.Json.Printer
import OrderDesk.Node

/-!
# What a desk does to the outside

Filling and sending orders asks a node, calls the order interface, draws candidates for nonces and
chooses padding. All of that is given as functions, and what was done is kept in a journal.

* `Desk α` is an action with a result in `α` or a fault; its journal survives a fault.
* `Desk.outcome_bind`: a fault ends an action, and what was done before it stays in the journal.
* `Desk.all` runs actions in order and does not stop at a fault.
-/

namespace OrderDesk

structure ApiRequest where
  id : Nat
  method : String
  params : List Json

inductive ApiReply
  | dropped (reason : Text)
  | response (status : Int) (body : Bytes)

structure Outside where
  node : Node
  /-- The reply to a request, after the requests before it. -/
  reply : (earlier : List ApiRequest) → ApiRequest → ApiReply
  /-- The candidates for nonces that a source yields. -/
  candidate : (source index : Nat) → Int
  choose : (low high : Int) → Int
  /-- How often a search without a bound is tried. -/
  patience : Nat
  capacity : Json.Capacity := .usual

structure Journal where
  /-- What the node was asked, the last question first. -/
  reads : List NodeRead
  requests : List ApiRequest
  nextId : Nat
  drawn : Table Nat Nat
  choices : List (Int × Int)
  records : List Text
  printed : List Text

def Journal.empty : Journal where
  reads := []
  requests := []
  nextId := 1
  drawn := []
  choices := []
  records := []
  printed := []

abbrev Desk := ReaderT Outside (ExceptT Fault (StateM Journal))

def Desk.outcome {α : Type} (action : Desk α) (outside : Outside) (journal : Journal) :
    Except Fault α × Journal :=
  (action.run outside).run.run journal

instance : MonadLift (Except Fault) Desk where
  monadLift result := fun _ => ExceptT.mk (pure result)

namespace Desk

def fail {α : Type} (fault : Fault) : Desk α := throw fault

/-! ## Outcomes -/

variable {α β : Type} (outside : Outside) (journal : Journal)

@[simp]
theorem outcome_pure (value : α) :
    (pure value : Desk α).outcome outside journal = (.ok value, journal) := rfl

@[simp]
theorem outcome_fail (fault : Fault) :
    (fail fault : Desk α).outcome outside journal = (.error fault, journal) := rfl

/-- What follows a fault is not carried out; the journal up to it is kept. -/
theorem outcome_bind (action : Desk α) (next : α → Desk β) :
    (action >>= next).outcome outside journal =
      match action.outcome outside journal with
      | (.ok value, after) => (next value).outcome outside after
      | (.error fault, after) => (.error fault, after) := by
  simp only [outcome, ReaderT.run_bind, ExceptT.run_bind, StateT.run_bind]
  cases (action.run outside).run.run journal with
  | mk result after => cases result <;> rfl

/-- Takes values in, as far as the capacity goes. -/
def within (result : Json.Capacity → Except Fault α) : Desk α := do
  result (← read).capacity

/-! ## The node -/

def ask {α : Type} (question : NodeRead) (answer : Node → Except Fault α) : Desk α := do
  modify fun journal => { journal with reads := question :: journal.reads }
  let outside ← read
  answer outside.node

def blockNumber : Desk Int := ask .blockNumber fun node => node.blockNumber

def storage (address : Address) (slot : Bytes) (block : Option BlockName) : Desk Int :=
  ask (.storage address slot block) fun node => node.storage address slot block

def code (address : Address) (block : Option BlockName) : Desk Bytes :=
  ask (.code address block) fun node => node.code address block

def call (target : Address) (data : Bytes) (block : Option BlockName) : Desk Bytes :=
  ask (.call target data block) fun node => node.call target data block

def deploy (data : Bytes) (block : Option BlockName) : Desk Bytes :=
  ask (.deploy data block) fun node => node.deploy data block

def pinned (block : Option BlockName) : Desk BlockName :=
  match block with
  | some block => pure block
  | none => do return .number (← blockNumber)

/-! ## The order interface, candidates and choices -/

/-- Whether values can be sent: numbers must be numbers with few enough digits, and texts consist of
characters. -/
def checkParams (params : List Json) : Except Fault Unit :=
  if !params.all fun value => value.isWritable && value.isFinite then .error .badInteger
  else if !params.all Json.isWhole then .error .halfInText
  else .ok ()

/-- Sends a request under the next number, which is used up even if the request cannot be sent. -/
def send (method : String) (params : List Json) : Desk ApiReply := do
  let outside ← read
  let journal ← get
  let request : ApiRequest := ⟨journal.nextId, method, params⟩
  set { journal with nextId := journal.nextId + 1 }
  checkParams params
  set { journal with requests := journal.requests ++ [request], nextId := journal.nextId + 1 }
  return outside.reply journal.requests request

def draw (source : Nat) : Desk Int := do
  let outside ← read
  let journal ← get
  let index := (Table.get? journal.drawn source).getD 0
  set { journal with drawn := Table.set journal.drawn source (index + 1) }
  return outside.candidate source index

def choose (low high : Int) : Desk Int := do
  modify fun journal => { journal with choices := journal.choices ++ [(low, high)] }
  return (← read).choose low high

def record (document : Text) : Desk Unit :=
  modify fun journal => { journal with records := journal.records ++ [document] }

def print (line : Text) : Desk Unit :=
  modify fun journal => { journal with printed := journal.printed ++ [line] }

/-! ## Several actions -/

/-- The result or the fault of an action, as a value. -/
def attempt {α : Type} (action : Desk α) : Desk (Except Fault α) :=
  fun outside => ExceptT.lift (action outside).run

theorem outcome_attempt (action : Desk α) :
    (attempt action).outcome outside journal =
      (.ok (action.outcome outside journal).1, (action.outcome outside journal).2) := rfl

/-- Runs actions in order, also after a fault; the first fault counts. -/
def all {α : Type} : List (Desk α) → Desk (List α)
  | [] => pure []
  | action :: actions => do
    let first ← attempt action
    let others ← attempt (all actions)
    match first, others with
    | .ok value, .ok values => pure (value :: values)
    | .ok _, .error fault => fail fault
    | .error fault, _ => fail fault

end Desk

end OrderDesk
