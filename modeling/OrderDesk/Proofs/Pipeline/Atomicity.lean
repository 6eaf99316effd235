import OrderDesk.Client
import OrderDesk.Proofs.Pipeline.Account
import OrderDesk.Proofs.Pipeline.Objects

/-!
# All orders or none

Whatever stages fail, for whichever orders, one fault is determined, the orders that were handed
over are unchanged, and nothing is submitted.

* `Client.Submits`: how the outcome of filling determines what is submitted.
* `Client.filling_allOrNothing`: this for pipelines of stages for trading.
-/

namespace OrderDesk

namespace Client

variable {α β : Type} {client : Client} {stages : List Stage}

/-! ## Submissions -/

/-- The request that values are submitted with, if there is an order interface and they can be
sent. -/
def submission (client : Client) (method : String) (params : List Json) (journal : Journal) :
    List ApiRequest :=
  if client.venue.hasOrderApi then
    match Desk.checkParams params with
    | .ok () => [⟨journal.nextId, method, params⟩]
    | .error _ => []
  else []

/-- Whether an action fills and then submits what was filled. Filling asks for estimates; after a
fault nothing more is done. -/
structure Submits (client : Client) (method : String) (params : α → List Json) (fill : Desk α)
    (send : Desk β) (outside : Outside) (journal : Journal) : Prop where
  estimates : ∃ sent, (fill.outcome outside journal).2.requests = journal.requests ++ sent ∧
    ∀ request ∈ sent, request.isEstimate
  fault : ∀ fault, (fill.outcome outside journal).1 = .error fault →
    send.outcome outside journal = (.error fault, (fill.outcome outside journal).2)
  submitted : ∀ filled, (fill.outcome outside journal).1 = .ok filled →
    (send.outcome outside journal).2.requests = (fill.outcome outside journal).2.requests ++
      client.submission method (params filled) (fill.outcome outside journal).2

theorem requests_withOrderApi (client : Client) (method : String) (params : List Json)
    (read : Json → Except Fault β) (outside : Outside) (journal : Journal) :
    ((client.withOrderApi (do
      let result ← OrderApi.call method params
      read result)).outcome outside journal).2.requests =
      journal.requests ++ client.submission method params journal := by
  unfold withOrderApi submission
  split
  · rw [OrderApi.journal_call_read, Desk.outcome_send]
    cases Desk.checkParams params with
    | error fault => exact (List.append_nil _).symm
    | ok _ => rfl
  · exact (List.append_nil _).symm

theorem submits_of {method : String} {params : α → List Json} {fill : Desk α}
    {read : Json → Except Fault β} (estimates : Desk.Sends ApiRequest.isEstimate fill)
    (outside : Outside) (journal : Journal) :
    client.Submits method params fill (do
      let filled ← fill
      client.withOrderApi do
        let result ← OrderApi.call method (params filled)
        read result) outside journal where
  estimates := estimates outside journal
  fault := by
    intro fault given
    rw [Desk.outcome_bind]
    cases filling : fill.outcome outside journal with
    | mk result between =>
      rw [filling] at given
      subst given
      rfl
  submitted := by
    intro filled given
    rw [Desk.outcome_bind]
    cases filling : fill.outcome outside journal with
    | mk result between =>
      rw [filling] at given
      subst given
      exact requests_withOrderApi client method (params filled) read outside between

/-! ## Filling -/

/-- A fill fails with the first fault among what the stages prepare, in their order, or else with
that of signing what they make of the draft. Filling several orders fails with the first fault of a
fill, in the order of the list, and else makes one order of each. A store from which orders are
filled keeps all that it had. What is submitted are the filled orders, if all were filled. -/
theorem filling_allOrNothing (built : Pipeline.ofStages stages = .ok client.pipeline)
    (builtIn : ∀ stage ∈ stages, stage.isBuiltIn) (outside : Outside) (journal : Journal) :
    (∀ draft fault, ((client.fill draft).outcome outside journal).1 = .error fault ↔
      let prepared := (client.pipeline.preparations client.venue draft outside journal).1
      FirstFault prepared fault ∨
        ∃ outputs signer, prepared = outputs.map .ok ∧ .signer signer ∈ stages ∧
          signer.sign (client.pipeline.enrich draft outputs) = .error fault) ∧
    (∀ drafts,
      let filling := (client.pipeline.fillMany client.venue drafts).outcome outside journal
      let each := (Desk.outcomes outside (drafts.map client.fill) journal).1
      (∀ fault, filling.1 = .error fault ↔ FirstFault each fault) ∧
      (∀ filled, filling.1 = .ok filled ↔ each = filled.map .ok) ∧
      each.length = drafts.length) ∧
    (∀ (store : OrderStore) orders, (∀ order ∈ orders, order < store.nextOrder) →
      let filling := store.fillMany client.pipeline client.venue outside journal orders
      (filling.result.map (·.map filling.store.load), filling.journal) =
        (client.pipeline.fillMany client.venue (orders.map store.load)).outcome outside journal ∧
      ∀ order < store.nextOrder, filling.store.load order = store.load order) ∧
    (∀ draft, client.Submits "angstrom_sendOrder" (fun filled => [filled.toJson])
      (client.fill draft) (client.sendOrder draft) outside journal) ∧
    (∀ drafts, client.Submits "angstrom_sendOrders"
      (fun filled : List Order => [.array (filled.map Order.toJson)])
      (client.pipeline.fillMany client.venue drafts) (client.sendOrders drafts) outside
      journal) := by
  obtain ⟨rfl, last⟩ := Pipeline.ofStages_ok built
  refine ⟨?_, ?_, ?_, ?_, ?_⟩
  · intro draft fault
    exact Pipeline.fill_error_iff last builtIn
  · intro drafts
    refine ⟨fun fault => ?_, fun filled => ?_, ?_⟩
    · rw [Pipeline.fillMany, Desk.outcome_all]
      exact mapM_id_eq_error
    · rw [Pipeline.fillMany, Desk.outcome_all]
      exact mapM_id_eq_ok
    · rw [Desk.outcomes_length, List.length_map]
  · intro store orders exist
    obtain ⟨filling_eq, extension, -⟩ :=
      OrderStore.fillMany_spec last builtIn store client.venue outside journal orders exist
    exact ⟨filling_eq, fun order given => extension.load_eq given⟩
  · intro draft
    exact submits_of (Pipeline.fill_sends last builtIn) outside journal
  · intro drafts
    exact submits_of (Pipeline.fillMany_sends last builtIn drafts) outside journal

end Client

/-! ## A trade that is not covered -/

/-- A client that signs nothing. -/
def plainClient : Client where
  venue := usualVenue
  signer := none
  pipeline := ⟨[.nonce ⟨none, 0⟩, .gas, .balance]⟩
  pools := ⟨.mainnet, none, .ofInts 100 10⟩

/-- A trade of more than the thousand that everybody has. -/
def dearTrade : Order :=
  { tradeFrom otherTrader with
    terms := .user ⟨0, 0, 0, [], .exact true 1001, .standing 0 1900000000⟩ }

/-- The first of the two trades is covered, but neither is sent. -/
theorem Client.filling_allOrNothing_dear :
    let sending := (plainClient.sendOrders [tradeFrom otherTrader, dearTrade]).outcome
      (outsideBut [] []) .empty
    (∃ fault, sending.1 = .error fault ∧ fault.label? = some "InsufficientBalanceError") ∧
      ∀ request ∈ sending.2.requests, request.isEstimate := by
  have built : Pipeline.ofStages plainClient.pipeline.stages = .ok plainClient.pipeline := rfl
  have builtIn : ∀ stage ∈ plainClient.pipeline.stages, stage.isBuiltIn := by decide
  obtain ⟨-, -, -, -, sends⟩ := Client.filling_allOrNothing built builtIn (outsideBut [] []) .empty
  obtain ⟨⟨sent, requests_eq, each⟩, fails, -⟩ := sends [tradeFrom otherTrader, dearTrade]
  obtain ⟨fault, short, label_eq⟩ := error_of_fault? (show (fault? ((plainClient.pipeline.fillMany
    plainClient.venue [tradeFrom otherTrader, dearTrade]).outcome (outsideBut [] []) .empty).1).map
      Fault.label? = some (some "InsufficientBalanceError") by decide +kernel)
  dsimp only
  rw [fails fault short, requests_eq]
  exact ⟨⟨fault, rfl, label_eq⟩, each⟩

end OrderDesk
