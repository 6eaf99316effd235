import OrderDesk.Proofs.OrderApi.Reply

/-!
# Replies that the order interface foresees

A reply that is no answer ends a call with a fault that has a name, unless its body is nested too
deeply. So does an answer whose error is an object; everything else in an answer is taken apart
without a look at it first, and fails without a name where it does not have the expected form.

* `OrderApi.foreseen_iff`: the replies after which a call ends with a value or a fault that has a
  name.
* `OrderApi.orderStatus_unforeseen`: an error that is a text is not among them.
-/

namespace OrderDesk

variable {α : Type}

/-! ## Forms of results -/

namespace Json

/-- Whether each of the parts that a value is made of is of a kind. -/
def HasParts (kind : Json → Prop) (value : Json) : Prop :=
  ∃ parts, value.parts = .ok parts ∧ ∀ part ∈ parts, kind part

def IsNumber (value : Json) : Prop := ∃ number, value.toInt = .ok number

def IsOrder (capacity : Capacity) (value : Json) : Prop :=
  ∃ order, Order.ofJson capacity value = .ok order

/-- Whether a value is made of two numbers. -/
def IsPair (value : Json) : Prop :=
  ∃ first second, value.parts = .ok [first, second] ∧ first.IsNumber ∧ second.IsNumber

/-- Whether a value says why there is no estimate, or is one. -/
def IsEstimate : Json → Prop
  | .object members =>
    (Table.get? members "Err").isSome ∨ ∃ pair, Table.get? members "Ok" = some pair ∧ pair.IsPair
  | value => value.IsPair

end Json

/-! ## Failures without a name -/

namespace Json

theorem toInt_unnamed (value : Json) : FailsUnnamed value.toInt := by
  cases value with
  | int | bool => exact .ok _
  | real number =>
    rw [toInt]
    split
    · exact .ok _
    · split <;> exact .error nofun
  | text source =>
    rw [toInt]
    split
    · exact .ok _
    · exact .error nofun
  | null | array | object => exact .error nofun

theorem toByte_unnamed (value : Json) : FailsUnnamed value.toByte := by
  cases value with
  | int => exact .ite (.ok _) (.error nofun)
  | bool => exact .ok _
  | null | real | text | array | object => exact .error nofun

theorem toBytes_unnamed (capacity : Capacity) (value : Json) :
    FailsUnnamed (value.toBytes capacity) := by
  cases value with
  | text source =>
    rw [toBytes]
    split
    · exact .ok _
    · exact .error nofun
  | array items => exact .mapM toByte_unnamed items
  | int =>
    exact .ite (.error nofun) (.ite (.error nofun) (.ite (.ok _) (.error nofun)))
  | bool => exact .ok _
  | object members =>
    cases members with
    | nil => exact .ok _
    | cons => exact .error nofun
  | null | real => exact .error nofun

theorem toAddress_unnamed (value : Json) : FailsUnnamed value.toAddress := by
  cases value with
  | text spelling =>
    rw [toAddress, readAddress]
    split
    · exact .ok _
    · exact .error nofun
  | int => exact .ite (.ok _) (.error nofun)
  | bool | null | real | array | object => exact .error nofun

theorem parts_unnamed (value : Json) : FailsUnnamed value.parts := by
  cases value with
  | array | text | object => exact .ok _
  | null | bool | int | real => exact .error nofun

end Json

theorem Members.read_unnamed {convert : Json → Except Fault α}
    (each : ∀ value, FailsUnnamed (convert value)) (members : Members) (name : Text)
    (default : α) : FailsUnnamed (members.read name convert default) := by
  unfold Members.read
  split
  · exact each _
  · exact .ok _

theorem Authorization.ofJson_unnamed (capacity : Json.Capacity) (value : Json) :
    FailsUnnamed (Authorization.ofJson capacity value) := by
  cases value with
  | object members =>
    refine .bind (Members.read_unnamed Json.toAddress_unnamed members _ _) fun sender => ?_
    exact .bind (Members.read_unnamed (Json.toBytes_unnamed capacity) members _ _)
      fun signature => .ok _
  | null | bool | int | real | text | array => exact .error nofun

namespace Order

variable (capacity : Json.Capacity) (members : Members)

theorem readInt_unnamed (name : Text) : FailsUnnamed (members.readInt name) :=
  members.read_unnamed Json.toInt_unnamed name 0

theorem readSize_unnamed (exact : Bool) : FailsUnnamed (readSize exact members) := by
  cases exact with
  | true => exact .bind (readInt_unnamed members _) fun amount => .ok _
  | false =>
    exact .bind (readInt_unnamed members _) fun least =>
      .bind (readInt_unnamed members _) fun most => .ok _

theorem readLifetime_unnamed (standing : Bool) : FailsUnnamed (readLifetime standing members) := by
  cases standing with
  | true =>
    exact .bind (readInt_unnamed members _) fun nonce =>
      .bind (readInt_unnamed members _) fun deadline => .ok _
  | false => exact .bind (readInt_unnamed members _) fun block => .ok _

theorem readTerms_unnamed (kind : OrderKind) :
    FailsUnnamed (readTerms capacity kind members) := by
  cases kind with
  | topOfBlock =>
    refine .bind (readInt_unnamed members _) fun quantityIn => ?_
    refine .bind (readInt_unnamed members _) fun quantityOut => ?_
    refine .bind (readInt_unnamed members _) fun maxGas => ?_
    exact .bind (readInt_unnamed members _) fun block => .ok _
  | user exact standing =>
    refine .bind (readInt_unnamed members _) fun refId => ?_
    refine .bind (readSize_unnamed members _) fun size => ?_
    refine .bind (readInt_unnamed members _) fun fee => ?_
    refine .bind (readInt_unnamed members _) fun price => ?_
    refine .bind (members.read_unnamed (Json.toBytes_unnamed capacity) _ _) fun data => ?_
    exact .bind (readLifetime_unnamed members _) fun lifetime => .ok _

theorem ofMembers_unnamed (kind : OrderKind) :
    FailsUnnamed (ofMembers capacity kind members) := by
  have account (name : Text) : FailsUnnamed (members.readAddress name) :=
    members.read_unnamed Json.toAddress_unnamed name .zero
  refine .bind (readTerms_unnamed capacity members kind) fun terms => ?_
  refine .bind (members.read_unnamed (Authorization.ofJson_unnamed capacity) _ _)
    fun authorization => ?_
  exact .bind (account _) fun assetIn => .bind (account _) fun assetOut =>
    .bind (account _) fun recipient => .ok _

theorem ofBody_unnamed (kind : OrderKind) (body : Json) :
    FailsUnnamed (ofBody capacity kind body) := by
  cases body with
  | object members => exact ofMembers_unnamed capacity members kind
  | text | array => exact .ite (.error nofun) (ofMembers_unnamed capacity [] kind)
  | null | bool | int | real => exact .error nofun

theorem ofJson_unnamed (value : Json) : FailsUnnamed (ofJson capacity value) := by
  unfold ofJson
  split
  · split
    · exact ofBody_unnamed capacity _ _
    · exact .error nofun
  · exact .error nofun
  · exact .error nofun
  · exact .error nofun
  · exact .ite (.error nofun) (.error nofun)
  all_goals exact .error nofun

end Order

/-! ## Taking results apart -/

namespace OrderApi

theorem foreseen_unwrap_iff (result : Json) : Foreseen (unwrap result) ↔ result.IsObject := by
  cases result with
  | object members =>
    have foreseen : Foreseen (unwrap (.object members)) := by
      rw [unwrap_object]
      cases reportOf members with
      | ok hash => exact .ok _
      | error reason => exact .error rfl
    exact iff_of_true foreseen trivial
  | null | bool | int | real | text | array =>
    exact iff_of_false (fun foreseen => nomatch foreseen _ rfl) id

theorem batchEntry_succeeds_iff (result : Json) :
    (∃ entry, batchEntry result = .ok entry) ↔ result.IsObject := by
  cases result with
  | object members => exact iff_of_true ⟨_, batchEntry_object members⟩ trivial
  | null | bool | int | real | text | array => exact iff_of_false nofun id

theorem batchEntry_unnamed (result : Json) : FailsUnnamed (batchEntry result) := by
  cases result with
  | object members =>
    rw [batchEntry_object]
    exact .ok _
  | null | bool | int | real | text | array => exact .error nofun

theorem foreseen_entries_iff {convert : Json → Except Fault α}
    (unnamed : ∀ entry, FailsUnnamed (convert entry)) (results : Json) :
    Foreseen (results.parts >>= fun entries => entries.mapM convert) ↔
      results.HasParts fun entry => ∃ value, convert entry = .ok value := by
  rw [foreseen_iff_ok (.bind results.parts_unnamed fun entries => .mapM unnamed entries)]
  simp only [bind_eq_ok, Json.HasParts, ← mapM_succeeds_iff]
  rw [exists_comm]
  simp only [exists_and_left]

theorem foreseen_batch_iff (results : Json) :
    Foreseen (results.parts >>= fun entries => entries.mapM batchEntry) ↔
      results.HasParts Json.IsObject := by
  rw [foreseen_entries_iff batchEntry_unnamed]
  simp only [batchEntry_succeeds_iff]

def pairOf (pair : Json) : Except Fault (Int × Int) := do
  match ← pair.parts with
  | [cost, units] =>
    let cost ← cost.toInt
    let units ← units.toInt
    return (cost, units)
  | _ => .error .wrongCount

theorem estimateOf_object (members : Members) : estimateOf (.object members) =
    match Table.get? members "Err", Table.get? members "Ok" with
    | some reason, _ => .error (.rejected reason.plain)
    | none, some pair => pairOf pair
    | none, none => .error (.missingMember "Ok") := by
  unfold estimateOf
  dsimp only
  cases Table.get? members "Err" <;> cases Table.get? members "Ok" <;> rfl

theorem foreseen_pairOf_iff (pair : Json) : Foreseen (pairOf pair) ↔ pair.IsPair := by
  have unnamed : FailsUnnamed (pairOf pair) := by
    refine .bind pair.parts_unnamed fun parts => ?_
    split
    · exact .bind (Json.toInt_unnamed _) fun cost => .bind (Json.toInt_unnamed _) fun units => .ok _
    · exact .error nofun
  rw [foreseen_iff_ok unnamed]
  constructor
  · rintro ⟨estimate, given⟩
    obtain ⟨parts, parts_eq, given⟩ := bind_eq_ok.mp given
    split at given
    · rename_i first second
      obtain ⟨cost, cost_eq, given⟩ := bind_eq_ok.mp given
      obtain ⟨units, units_eq, -⟩ := bind_eq_ok.mp given
      exact ⟨first, second, parts_eq, ⟨cost, cost_eq⟩, ⟨units, units_eq⟩⟩
    · cases given
  · rintro ⟨first, second, parts_eq, ⟨cost, cost_eq⟩, ⟨units, units_eq⟩⟩
    refine ⟨(cost, units), ?_⟩
    rw [pairOf, parts_eq, ok_bind]
    dsimp only
    rw [cost_eq, ok_bind, units_eq, ok_bind]
    rfl

theorem foreseen_estimateOf_iff (result : Json) :
    Foreseen (estimateOf result) ↔ result.IsEstimate := by
  cases result with
  | object members =>
    rw [estimateOf_object, Json.IsEstimate]
    cases refused : Table.get? members "Err" with
    | some reason => simp [foreseen_error_iff, Fault.IsNamed, Fault.label?]
    | none =>
      cases given : Table.get? members "Ok" with
      | some pair => simp [foreseen_pairOf_iff]
      | none => simp [foreseen_error_iff, Fault.IsNamed, Fault.label?]
  | null | bool | int | real | text | array =>
    simp only [Json.IsEstimate, ← foreseen_pairOf_iff]
    exact Iff.rfl

/-! ## Calls -/

/-- Whether a call ends with a value or a fault that has a name exactly if it can be sent and the
reply is within the capacity and, if it is an answer, in order. -/
def ForeseenWhen (action : Desk α) (method : String) (params : List Json)
    (fits : Json.Capacity → Json → Prop) : Prop :=
  ∀ outside journal, Foreseen (action.outcome outside journal).1 ↔
    Desk.checkParams params = .ok () ∧
      (replyTo outside journal method params).Within outside.capacity ∧
      (replyTo outside journal method params).Fits outside.capacity (fits outside.capacity)

theorem foreseenWhen_call {method : String} {params : List Json} {next : Json → Desk α}
    {read : Json.Capacity → Json → Except Fault α} {fits : Json.Capacity → Json → Prop}
    (reads : ∀ capacity result, Foreseen (read capacity result) ↔ fits capacity result)
    (answers : ∀ outside result, (next result).Answers outside (read outside.capacity result)) :
    ForeseenWhen (call method params >>= next) method params fits := by
  intro outside journal
  rw [foreseen_call_iff (answers outside)]
  simp only [reads]

theorem foreseen_iff (order : Order) (orders : List Order) (hash poolId location : Text)
    (isBook isInternal : Bool) (token0 token1 : Text) :
    ForeseenWhen (sendOrder order) "angstrom_sendOrder" [order.toJson]
      (fun _ => Json.IsObject) ∧
    ForeseenWhen (sendOrders orders) "angstrom_sendOrders" [.array (orders.map Order.toJson)]
      (fun _ => Json.HasParts Json.IsObject) ∧
    ForeseenWhen (orderStatus hash) "angstrom_orderStatus" [.text hash]
      (fun _ => Json.IsObject) ∧
    ForeseenWhen (estimateGas isBook isInternal token0 token1) "angstrom_estimateGas"
      [.bool isBook, .bool isInternal, .text token0, .text token1]
      (fun _ => Json.IsEstimate) ∧
    ForeseenWhen (ordersByPoolId poolId location) "angstrom_ordersByPoolId"
      [.text poolId, .text location]
      (fun capacity => Json.HasParts (Json.IsOrder capacity)) := by
  refine ⟨?_, ?_, ?_, ?_, ?_⟩
  · exact foreseenWhen_call (fun _ => foreseen_unwrap_iff) fun _ _ => .lift _
  · exact foreseenWhen_call (fun _ => foreseen_batch_iff) fun _ _ => .lift _
  · exact foreseenWhen_call (fun _ => foreseen_unwrap_iff) fun _ _ => .lift _
  · exact foreseenWhen_call (fun _ => foreseen_estimateOf_iff) fun _ _ => .lift _
  · exact foreseenWhen_call (fun capacity => foreseen_entries_iff (Order.ofJson_unnamed capacity))
      fun _ _ => .within _

/-- An error that is not an object ends a call without a fault that has a name. -/
theorem orderStatus_unforeseen :
    ¬ Foreseen ((orderStatus "0xabc").outcome (.replying "\x7b\"error\": \"boom\"\x7d") .empty).1 := by
  intro foreseen
  have unnamed : (fault? ((orderStatus "0xabc").outcome
      (.replying "\x7b\"error\": \"boom\"\x7d") .empty).1).map Fault.label? = some none := by
    decide +kernel
  obtain ⟨fault, given, label_eq⟩ := error_of_fault? unnamed
  have named : fault.label?.isSome = true := foreseen fault given
  rw [label_eq] at named
  cases named

end OrderApi

end OrderDesk
