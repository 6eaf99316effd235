import OrderDesk.Client
import OrderDesk.Proofs.OrderApi.Reply
import OrderDesk.Proofs.Order.Wire

/-!
# Entries of a batch

The entries that a batch of orders comes to are those of the outcomes in the reply, in their order;
how many orders were sent plays no part.

* `OrderApi.checkParams_batch`: orders whose numbers have few enough digits can be sent.
* `sendOrders_ok_iff`: the entries that a batch comes to, for the interface and for a client.
* `sendOrders_short`: two orders may come to one entry.
-/

namespace OrderDesk

variable {outside : Outside} {journal : Journal}

/-! ## Outcomes and entries -/

namespace OrderApi

/-- What an outcome says of an order: a hash, or why it was rejected. -/
def Reports (outcome : Json) (entry : Except Text Json) : Prop :=
  ∃ members, outcome = .object members ∧ entry = reportOf members

theorem batchEntry_eq_ok {outcome : Json} {entry : Except Text Json} :
    batchEntry outcome = .ok entry ↔ Reports outcome entry := by
  cases outcome with
  | object members =>
    rw [batchEntry_object, Except.ok.injEq]
    constructor
    · rintro rfl
      exact ⟨members, rfl, rfl⟩
    · rintro ⟨_, ⟨⟩, rfl⟩
      rfl
  | null | bool | int | real | text | array =>
    exact iff_of_false nofun (by rintro ⟨_, ⟨⟩, _⟩)

def batchParams (orders : List Order) : List Json := [.array (orders.map Order.toJson)]

theorem checkParams_legible {params : List Json} (legible : ∀ value ∈ params, value.Legible) :
    Desk.checkParams params = .ok () := by
  have finite : ∀ value ∈ params, value.isFinite = true := by
    intro value mem
    apply Json.allParts_of_legible _ value (legible value mem)
    intro part legible
    cases part with
    | real => exact legible.elim
    | _ => rfl
  have whole : ∀ value ∈ params, value.isWhole = true := by
    intro value mem
    apply Json.allParts_of_legible _ value (legible value mem)
    intro part legible
    cases part with
    | text => exact legible
    | _ => rfl
  have numbers : params.all (fun value => value.isWritable && value.isFinite) = true := by
    rw [List.all_eq_true]
    intro value mem
    rw [Json.isWritable_of_legible (legible value mem), finite value mem, Bool.and_self]
  rw [Desk.checkParams, numbers, List.all_eq_true.mpr whole]
  rfl

theorem checkParams_batch {orders : List Order} (writable : ∀ order ∈ orders, order.Writable) :
    Desk.checkParams (batchParams orders) = .ok () := by
  apply checkParams_legible
  rintro _ (_ | ⟨_, ⟨⟩⟩)
  apply Json.legibleItems_iff.mpr
  rintro _ mem
  obtain ⟨order, given, rfl⟩ := List.mem_map.mp mem
  exact Order.toJson_legible (writable order given)

/-- Whether the reply to a batch has outcomes that report the entries, one by one. -/
structure Settles (outside : Outside) (journal : Journal) (orders : List Order)
    (outcomes : List Json) (entries : List (Except Text Json)) : Prop where
  sendable : Desk.checkParams (batchParams orders) = .ok ()
  brought : ∃ result, (replyTo outside journal "angstrom_sendOrders" (batchParams orders)).Brings
    outside.capacity result ∧ result.parts = .ok outcomes
  reported : List.Forall₂ Reports outcomes entries

theorem Settles.length_eq {orders : List Order} {outcomes : List Json}
    {entries : List (Except Text Json)} (settles : Settles outside journal orders outcomes entries) :
    entries.length = outcomes.length := settles.reported.length_eq.symm

theorem sendOrders_settles {orders : List Order} {entries : List (Except Text Json)} :
    ((sendOrders orders).outcome outside journal).1 = .ok entries ↔
      ∃ outcomes, Settles outside journal orders outcomes entries := by
  rw [sendOrders, outcome_call_read _ _ _ _ fun _ => .lift _]
  simp only [bind_eq_ok, readReply_eq_ok, mapM_eq_ok, batchEntry_eq_ok]
  constructor
  · rintro ⟨_, sendable, result, brings, outcomes, parts_eq, reported⟩
    exact ⟨outcomes, sendable, ⟨result, brings, parts_eq⟩, reported⟩
  · rintro ⟨outcomes, sendable, ⟨result, brings, parts_eq⟩, reported⟩
    exact ⟨(), sendable, result, brings, outcomes, parts_eq, reported⟩

end OrderApi

/-! ## Clients -/

namespace Client

open OrderApi

variable {client : Client} {drafts filled : List Order}

theorem fillMany_length {venue : Venue} {pipeline : Pipeline}
    (given : ((pipeline.fillMany venue drafts).outcome outside journal).1 = .ok filled) :
    filled.length = drafts.length := by
  rw [Pipeline.fillMany, Desk.outcome_all] at given
  have each := congrArg List.length (mapM_id_eq_ok.mp given)
  rw [Desk.outcomes_length, List.length_map, List.length_map] at each
  exact each.symm

theorem withOrderApi_ok {α : Type} {action : Desk α} {value : α} :
    ((client.withOrderApi action).outcome outside journal).1 = .ok value ↔
      client.venue.hasOrderApi = true ∧ (action.outcome outside journal).1 = .ok value := by
  unfold withOrderApi
  cases client.venue.hasOrderApi <;> simp

theorem sendOrders_settles {entries : List (Except Text Json)} :
    ((client.sendOrders drafts).outcome outside journal).1 = .ok entries ↔
      ∃ filled after outcomes,
        (client.pipeline.fillMany client.venue drafts).outcome outside journal =
          (.ok filled, after) ∧
        client.venue.hasOrderApi = true ∧ Settles outside after filled outcomes entries := by
  rw [Client.sendOrders, Desk.outcome_bind]
  cases filling : (client.pipeline.fillMany client.venue drafts).outcome outside journal with
  | mk result after =>
    cases result with
    | error fault => simp
    | ok filled =>
      simp [withOrderApi_ok, OrderApi.sendOrders_settles]

end Client

/-! ## Every entry, and how many -/

open OrderApi in
/-- A batch comes to one entry for each outcome of the reply, in order; these are as many as the
orders only if the outcomes are. -/
theorem sendOrders_ok_iff (outside : Outside) (journal : Journal) :
    (∀ orders entries,
      ((OrderApi.sendOrders orders).outcome outside journal).1 = .ok entries ↔
        ∃ outcomes, Settles outside journal orders outcomes entries ∧
          (entries.length = orders.length ↔ outcomes.length = orders.length)) ∧
    (∀ (client : Client) drafts entries,
      ((client.sendOrders drafts).outcome outside journal).1 = .ok entries ↔
        ∃ filled after outcomes,
          (client.pipeline.fillMany client.venue drafts).outcome outside journal =
            (.ok filled, after) ∧
          client.venue.hasOrderApi = true ∧ Settles outside after filled outcomes entries ∧
          filled.length = drafts.length ∧
          (entries.length = drafts.length ↔ outcomes.length = drafts.length)) := by
  refine ⟨fun orders entries => ?_, fun client drafts entries => ?_⟩
  · rw [OrderApi.sendOrders_settles]
    constructor
    · rintro ⟨outcomes, settles⟩
      exact ⟨outcomes, settles, by rw [settles.length_eq]⟩
    · rintro ⟨outcomes, settles, -⟩
      exact ⟨outcomes, settles⟩
  · rw [Client.sendOrders_settles]
    constructor
    · rintro ⟨filled, after, outcomes, filling, linked, settles⟩
      have length_eq : filled.length = drafts.length :=
        Client.fillMany_length (congrArg Prod.fst filling)
      exact ⟨filled, after, outcomes, filling, linked, settles, length_eq, by rw [settles.length_eq]⟩
    · rintro ⟨filled, after, outcomes, filling, linked, settles, -⟩
      exact ⟨filled, after, outcomes, filling, linked, settles⟩

theorem blank_writable (kind : OrderKind) : kind.blank.Writable := by
  have each : ∀ kind ∈ OrderKind.all, ∀ field ∈ kind.blank.fields, field.blank = field := by
    decide
  intro name bits value mem
  have same : (⟨name, .uint bits 0⟩ : Field) = ⟨name, .uint bits value⟩ :=
    each kind kind.mem_all _ mem
  cases same
  exact Digit.fits_of_lt (by norm_num)

/-- An outside in which every batch has one outcome. -/
def oneOutcome : Outside :=
  .replying "\x7b\"result\": [\x7b\"is_success\": true, \"data\": \"0xaa\"\x7d]\x7d"

/-- Two orders come to one entry. -/
theorem sendOrders_short :
    let orders := [OrderKind.topOfBlock.blank, (OrderKind.user true false).blank]
    ∃ entries, ((OrderApi.sendOrders orders).outcome oneOutcome .empty).1 = .ok entries ∧
      orders.length = 2 ∧ entries.length = 1 := by
  intro orders
  have writable : ∀ order ∈ orders, order.Writable := by
    rintro order mem
    simp only [orders, List.mem_cons, List.not_mem_nil, or_false] at mem
    rcases mem with rfl | rfl <;> exact blank_writable _
  have one : ((OrderApi.readReply .usual (OrderApi.replyTo oneOutcome .empty "angstrom_sendOrders"
      (OrderApi.batchParams orders)) >>= fun result => result.parts >>= fun outcomes =>
        outcomes.mapM OrderApi.batchEntry).toOption.map List.length) = some 1 := by decide +kernel
  obtain ⟨entries, given, length_eq⟩ := Option.map_eq_some_iff.mp one
  refine ⟨entries, ?_, rfl, length_eq⟩
  rw [OrderApi.sendOrders, OrderApi.outcome_call_read _ _ _ _ fun _ => .lift _]
  change Desk.checkParams (OrderApi.batchParams orders) >>= _ = _
  rw [OrderApi.checkParams_batch writable, ok_bind]
  exact ok_of_toOption given

end OrderDesk
