import OrderDesk.OrderApi
import OrderDesk.Proofs.Desk
import OrderDesk.Proofs.Json.Reading
import OrderDesk.Proofs.Several

/-!
# Replies of the order interface

The other side decides what a reply says. A reply is an answer if its body is an object; an answer
has an error that counts, or brings a result.

* `OrderApi.readReply_eq_ok`: a reply gives the result that it brings.
* `OrderApi.outcome_call_read`: what a call comes to, by the reply to its request.
* `OrderApi.foreseen_call_iff`: a call ends with a value or a fault that has a name, exactly if its
  values can be sent, the reply is within the capacity, its error is an object, and a result without
  one can be read.
-/

namespace OrderDesk

variable {α β : Type}

/-! ## Faults with a name -/

/-- Whether a fault is reported under a name. -/
def Fault.IsNamed (fault : Fault) : Prop := fault.label?.isSome = true

/-- Whether a computation ends with a value or a fault that has a name. -/
abbrev Foreseen (result : Except Fault α) : Prop := FailsWith Fault.IsNamed result

/-- Whether a computation ends with a value or a fault that has no name. -/
abbrev FailsUnnamed (result : Except Fault α) : Prop := FailsWith (¬ ·.IsNamed) result

theorem foreseen_error_iff {fault : Fault} :
    Foreseen (.error fault : Except Fault α) ↔ fault.IsNamed := FailsWith.error_iff

/-- What fails without a name only is foreseen where it succeeds. -/
theorem foreseen_iff_ok {result : Except Fault α} (fails : FailsUnnamed result) :
    Foreseen result ↔ ∃ value, result = .ok value := by
  constructor
  · intro foreseen
    cases result with
    | ok value => exact ⟨value, rfl⟩
    | error fault => exact absurd (foreseen fault rfl) (fails fault rfl)
  · rintro ⟨value, rfl⟩
    exact .ok value

/-! ## Answers -/

/-- The members of the object that the body of a successful response is. -/
def ApiReply.members? (capacity : Json.Capacity) : ApiReply → Option Members
  | .dropped _ => none
  | .response status body =>
    if status < 200 ∨ 300 ≤ status then none
    else match OrderApi.readBody capacity body with
      | .ok (.object members) => some members
      | _ => none

theorem ApiReply.members?_response (capacity : Json.Capacity) (status : Int) (body : Bytes) :
    (ApiReply.response status body).members? capacity =
      if status < 200 ∨ 300 ≤ status then none
      else match OrderApi.readBody capacity body with
        | .ok (.object members) => some members
        | _ => none := rfl

/-- Whether a reply brings a result, with no error that counts. -/
def ApiReply.Brings (reply : ApiReply) (capacity : Json.Capacity) (result : Json) : Prop :=
  ∃ members, reply.members? capacity = some members ∧
    (members.value "error").truthy = false ∧ members.value "result" = result

/-- The text of the body of a successful response. -/
def ApiReply.text? : ApiReply → Option Text
  | .dropped _ => none
  | .response status body =>
    if status < 200 ∨ 300 ≤ status then none else Encoding.decode? body

/-- Whether the body of a reply opens no more lists and objects than can be held. -/
def ApiReply.Within (reply : ApiReply) (capacity : Json.Capacity) : Prop :=
  ∀ text, reply.text? = some text → capacity.Suffices text

def Json.IsObject : Json → Prop
  | .object _ => True
  | _ => False

/-- Whether a reply, if it is an answer, is in order: an error that counts is an object, and without
one the result fits. -/
def ApiReply.Fits (reply : ApiReply) (capacity : Json.Capacity) (fits : Json → Prop) : Prop :=
  ∀ members, reply.members? capacity = some members →
    if (members.value "error").truthy = true then (members.value "error").IsObject
    else fits (members.value "result")

namespace OrderApi

variable {outside : Outside} {journal : Journal} {method : String} {params : List Json}
  {capacity : Json.Capacity} {reply : ApiReply} {read : Json → Except Fault α}

theorem readBody_tooDeep_iff {body : Bytes} :
    readBody capacity body = .error .tooDeep ↔
      ∃ text, Encoding.decode? body = some text ∧ ¬ capacity.Suffices text := by
  rw [readBody]
  cases Encoding.decode? body with
  | none => simp
  | some text =>
    simp only [Option.some.injEq, exists_eq_left', ← Json.read_tooDeep_iff]
    cases Json.read capacity text with
    | ok value => simp
    | error fault => cases fault <;> simp

/-- A body that cannot be read is reported as one that is not JSON, unless it is too deep. -/
theorem readBody_isNamed_iff {body : Bytes} {fault : Fault}
    (given : readBody capacity body = .error fault) : fault.IsNamed ↔ fault ≠ .tooDeep := by
  unfold readBody at given
  split at given
  · cases given
    exact iff_of_true rfl nofun
  · split at given
    · cases given
    · cases given
      exact iff_of_false nofun fun other => other rfl
    · cases given
      exact iff_of_true rfl nofun
    · cases given
      exact iff_of_true rfl nofun

theorem within_response_iff {status : Int} {body : Bytes}
    (success : ¬ (status < 200 ∨ 300 ≤ status)) :
    (ApiReply.response status body).Within capacity ↔
      readBody capacity body ≠ .error .tooDeep := by
  rw [Ne, readBody_tooDeep_iff, ApiReply.Within, ApiReply.text?, if_neg success]
  simp

theorem readReply_of_members {members : Members} (answer : reply.members? capacity = some members) :
    readReply capacity reply = resultOf members ∧ reply.Within capacity := by
  cases reply with
  | dropped reason => cases answer
  | response status body =>
    rw [ApiReply.members?_response] at answer
    split at answer
    · cases answer
    · rename_i success
      split at answer
      · rename_i body_ok
        cases answer
        rw [readReply, if_neg success, within_response_iff success, body_ok, ok_bind]
        exact ⟨rfl, nofun⟩
      · cases answer

/-- What is no answer counts as a failure of the connection or the protocol, unless it is too
deep. -/
theorem readReply_of_no_members (unanswered : reply.members? capacity = none) :
    ∃ fault, readReply capacity reply = .error fault ∧
      (fault.IsNamed ↔ reply.Within capacity) := by
  cases reply with
  | dropped reason => exact ⟨_, rfl, iff_of_true rfl nofun⟩
  | response status body =>
    rw [ApiReply.members?_response] at unanswered
    rw [readReply]
    split
    · rename_i refused
      have no_text : (ApiReply.response status body).text? = none := if_pos refused
      exact ⟨_, rfl, iff_of_true rfl fun text given => nomatch no_text.symm.trans given⟩
    · rename_i success
      rw [if_neg success] at unanswered
      rw [within_response_iff success]
      cases body_eq : readBody capacity body with
      | error fault => exact ⟨fault, rfl, by simp [readBody_isNamed_iff body_eq]⟩
      | ok value =>
        rw [body_eq] at unanswered
        cases value with
        | object members => cases unanswered
        | null | bool | int | real | text | array => exact ⟨_, rfl, iff_of_true rfl nofun⟩

theorem readReply_eq_ok {result : Json} :
    readReply capacity reply = .ok result ↔ reply.Brings capacity result := by
  cases answer : reply.members? capacity with
  | none =>
    obtain ⟨fault, fault_eq, -⟩ := readReply_of_no_members answer
    simp [fault_eq, ApiReply.Brings, answer]
  | some members =>
    rw [(readReply_of_members answer).1]
    unfold resultOf ApiReply.Brings
    cases counts : (members.value "error").truthy <;> simp [answer, counts]

theorem errorFault_isNamed_iff (error : Json) : (errorFault error).IsNamed ↔ error.IsObject := by
  cases error <;> simp [errorFault, Fault.IsNamed, Fault.label?, Json.IsObject]

theorem foreseen_readReply_iff :
    Foreseen (readReply capacity reply >>= read) ↔
      reply.Within capacity ∧ reply.Fits capacity fun result => Foreseen (read result) := by
  unfold ApiReply.Fits
  cases answer : reply.members? capacity with
  | none =>
    obtain ⟨fault, fault_eq, named_iff⟩ := readReply_of_no_members answer
    rw [fault_eq, error_bind, foreseen_error_iff, named_iff]
    simp
  | some members =>
    obtain ⟨reply_eq, within⟩ := readReply_of_members answer
    rw [reply_eq]
    unfold resultOf
    cases counts : (members.value "error").truthy with
    | true => simp [within, counts, foreseen_error_iff, errorFault_isNamed_iff]
    | false => simp [within, counts]

/-! ## Results about orders -/

/-- The hash that an object reports, or why an order was rejected. -/
def reportOf (members : Members) : Except Text Json :=
  if (members.value "is_success").truthy = true then .ok (members.value "data")
  else .error (Json.plain ((Table.get? members "msg").getD (.text "")))

theorem unwrap_object (members : Members) :
    unwrap (.object members) = (reportOf members).mapError .rejected := by
  change (if (members.value "is_success").truthy = true then _ else _) = _
  unfold reportOf
  split <;> rfl

theorem batchEntry_object (members : Members) :
    batchEntry (.object members) = .ok (reportOf members) := by
  rw [batchEntry, unwrap_object]
  cases reportOf members <;> rfl

/-! ## Calls -/

def requestOf (journal : Journal) (method : String) (params : List Json) : ApiRequest :=
  ⟨journal.nextId, method, params⟩

def replyTo (outside : Outside) (journal : Journal) (method : String) (params : List Json) :
    ApiReply :=
  outside.reply journal.requests (requestOf journal method params)

/-- A call whose values can be sent comes to what is read from the reply. -/
theorem outcome_call_read (outside : Outside) (journal : Journal) (method : String)
    (params : List Json) {next : Json → Desk α} {read : Json → Except Fault α}
    (answers : ∀ result, (next result).Answers outside (read result)) :
    ((call method params >>= next).outcome outside journal).1 =
      Desk.checkParams params >>= fun _ =>
        readReply outside.capacity (replyTo outside journal method params) >>= read := by
  rw [Desk.outcome_bind, call, Desk.outcome_bind, Desk.outcome_send]
  cases Desk.checkParams params with
  | error fault => rfl
  | ok _ =>
    dsimp only
    rw [Desk.outcome_within, ← requestOf, ← replyTo, ok_bind]
    cases readReply outside.capacity (replyTo outside journal method params) with
    | error fault => rfl
    | ok result => exact answers result _

theorem checkParams_unnamed (params : List Json) : FailsUnnamed (Desk.checkParams params) :=
  .ite (.error nofun) (.ite (.error nofun) (.ok ()))

theorem foreseen_call_iff {next : Json → Desk α}
    (answers : ∀ result, (next result).Answers outside (read result)) :
    Foreseen ((call method params >>= next).outcome outside journal).1 ↔
      Desk.checkParams params = .ok () ∧
        (replyTo outside journal method params).Within outside.capacity ∧
        (replyTo outside journal method params).Fits outside.capacity
          fun result => Foreseen (read result) := by
  rw [outcome_call_read outside journal method params answers, ← foreseen_readReply_iff]
  cases checked : Desk.checkParams params with
  | ok _ => simp
  | error fault =>
    have unnamed := checkParams_unnamed params fault checked
    simp [foreseen_error_iff, unnamed]

end OrderApi

/-- An outside in which every request gets the same answer. -/
def Outside.replying (body : String) : Outside :=
  { silent with reply := fun _ _ => .response 200 (Bytes.ofText body) }

end OrderDesk
