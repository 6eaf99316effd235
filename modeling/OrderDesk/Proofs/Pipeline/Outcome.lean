import OrderDesk.Proofs.Pipeline.Fill
import OrderDesk.Proofs.Several

/-!
# What filling comes to

* `Pipeline.fill_outcome`: a fill as a function of what the stages prepare, which all of them do.
* `Pipeline.fill_error_iff`: the fault of a fill.
* `Pipeline.fill_sends`: filling asks the order interface for estimates only.
-/

namespace OrderDesk

variable {venue : Venue} {outside : Outside} {journal : Journal} {draft order : Order}
  {pipeline : Pipeline} {signer : Signer}

/-! ## Applying -/

/-- Whether a stage is one of those for trading; the others are for rehearsals. -/
def Stage.isBuiltIn : Stage → Bool
  | .refuse _ | .record => false
  | .nonce _ | .gas | .balance | .signer _ => true

/-- An order with what an output has for it. -/
def StageOutput.writeTo (order : Order) : StageOutput → Order
  | .nothing => order
  | .nonce value => order.withNonce value
  | .gas cost => order.withFee cost
  | .signer address => { order with recipient := address }

theorem Stage.Prepares.outcome_apply {stage : Stage} {output : StageOutput}
    (prepares : stage.Prepares venue outside draft output) (builtIn : stage.isBuiltIn)
    (unsigned : stage.signer? = none) :
    (stage.apply order output).outcome outside journal = (.ok (output.writeTo order), journal) := by
  cases prepares with
  | nonce | noNonce | gas | balance => rfl
  | signer => cases unsigned
  | record => cases builtIn

theorem Stage.outcome_apply_signer (order : Order) (signer : Signer) (recipient : Address) :
    (Stage.apply order (.signer signer) (.signer recipient)).outcome outside journal =
      ((signer.sign { order with recipient }).map fun authorization =>
        { order with recipient, authorization }, journal) := by
  rw [Stage.apply]
  dsimp only
  cases signed : signer.sign { order with recipient } <;> rfl

section ApplyAll

variable {stages : List Stage} {outputs : List StageOutput}
  (builtIn : ∀ stage ∈ stages, stage.isBuiltIn) (unsigned : ∀ stage ∈ stages, stage.signer? = none)
include builtIn unsigned

theorem outcome_applyAll (same_length : stages.length = outputs.length)
    (prepares : ∀ pair ∈ stages.zip outputs, pair.1.Prepares venue outside draft pair.2) :
    (Pipeline.applyAll order (stages.zip outputs)).outcome outside journal =
      (.ok (outputs.foldl StageOutput.writeTo order), journal) := by
  induction stages generalizing outputs order with
  | nil =>
    cases outputs with
    | nil => rfl
    | cons => cases same_length
  | cons stage stages ih =>
    cases outputs with
    | nil => cases same_length
    | cons output outputs =>
      rw [List.zip_cons_cons, List.forall_mem_cons] at prepares
      rw [List.forall_mem_cons] at builtIn unsigned
      change (Stage.apply order stage output >>= fun between =>
        Pipeline.applyAll between (stages.zip outputs)).outcome outside journal = _
      rw [Desk.outcome_bind, prepares.1.outcome_apply builtIn.1 unsigned.1]
      exact ih builtIn.2 unsigned.2 (Nat.succ.inj same_length) prepares.2

theorem outcome_applyAll_signer
    (same_length : (stages ++ [Stage.signer signer]).length = outputs.length)
    (prepares : ∀ pair ∈ (stages ++ [Stage.signer signer]).zip outputs,
      pair.1.Prepares venue outside draft pair.2) :
    (Pipeline.applyAll order ((stages ++ [Stage.signer signer]).zip outputs)).outcome outside
        journal =
      ((signer.sign (outputs.foldl StageOutput.writeTo order)).map fun authorization =>
        { outputs.foldl StageOutput.writeTo order with authorization }, journal) := by
  induction stages generalizing outputs order with
  | nil =>
    obtain ⟨output, rfl⟩ := List.length_eq_one_iff.mp same_length.symm
    have prepared : (Stage.signer signer).Prepares venue outside draft output :=
      prepares _ List.mem_cons_self
    cases prepared with
    | signer =>
      change (Stage.apply _ _ _ >>= pure).outcome outside journal = _
      rw [Desk.outcome_bind, Stage.outcome_apply_signer]
      dsimp only [List.foldl_cons, List.foldl_nil, StageOutput.writeTo]
      cases signer.sign _ <;> rfl
  | cons stage stages ih =>
    cases outputs with
    | nil => cases same_length
    | cons output outputs =>
      rw [List.cons_append, List.zip_cons_cons, List.forall_mem_cons] at prepares
      rw [List.forall_mem_cons] at builtIn unsigned
      change (Stage.apply order stage output >>= fun between => Pipeline.applyAll between
        ((stages ++ [Stage.signer signer]).zip outputs)).outcome outside journal = _
      rw [Desk.outcome_bind, prepares.1.outcome_apply builtIn.1 unsigned.1]
      exact ih builtIn.2 unsigned.2 (Nat.succ.inj same_length) prepares.2

end ApplyAll

/-! ## Filling -/

namespace Pipeline

/-- A draft with what the outputs have for it. -/
def enrich (pipeline : Pipeline) (draft : Order) (outputs : List StageOutput) : Order :=
  outputs.foldl StageOutput.writeTo (pipeline.adopt draft)

/-- The filled order, once all stages have prepared. -/
def finish (pipeline : Pipeline) (draft : Order) (outputs : List StageOutput) :
    Except Fault Order :=
  match pipeline.signer? with
  | none => .ok (pipeline.enrich draft outputs)
  | some signer => (signer.sign (pipeline.enrich draft outputs)).map fun authorization =>
    { pipeline.enrich draft outputs with authorization }

/-- What the stages prepare for a draft, one after another. -/
def preparations (pipeline : Pipeline) (venue : Venue) (draft : Order) (outside : Outside)
    (journal : Journal) : List (Except Fault StageOutput) × Journal :=
  Desk.outcomes outside (pipeline.stages.map (Stage.prepare venue (pipeline.adopt draft))) journal

theorem signer_mem_iff (last : pipeline.SignsLast) :
    .signer signer ∈ pipeline.stages ↔ pipeline.signer? = some signer := by
  refine ⟨fun mem => (last.signer_last mem).2, fun signs => ?_⟩
  obtain ⟨stage, mem, here⟩ := List.exists_of_findSome?_eq_some signs
  cases stage with
  | signer account => exact Option.some.inj here ▸ mem
  | _ => cases here

section Fill

variable (last : pipeline.SignsLast) (builtIn : ∀ stage ∈ pipeline.stages, stage.isBuiltIn)
include last builtIn

theorem outcome_applyAll_stages {outputs : List StageOutput}
    (same_length : pipeline.stages.length = outputs.length)
    (prepares : ∀ pair ∈ pipeline.stages.zip outputs,
      pair.1.Prepares venue outside (pipeline.adopt draft) pair.2) :
    (applyAll (pipeline.adopt draft) (pipeline.stages.zip outputs)).outcome outside journal =
      (pipeline.finish draft outputs, journal) := by
  cases signs : pipeline.signer? with
  | none =>
    have unsigned := List.findSome?_eq_none_iff.mp signs
    rw [outcome_applyAll builtIn unsigned same_length prepares, finish, signs]
    rfl
  | some signer =>
    obtain ⟨split, -⟩ := last.signer_last ((signer_mem_iff last).mpr signs)
    rw [split] at same_length prepares ⊢
    have early : ∀ stage ∈ pipeline.stages.dropLast, stage.isBuiltIn :=
      fun stage mem => builtIn stage (List.dropLast_subset _ mem)
    rw [outcome_applyAll_signer early last same_length prepares, finish, signs]
    rfl

/-- All stages prepare, whatever the others do; then the order is finished without the outside. -/
theorem fill_outcome : (pipeline.fill venue draft).outcome outside journal =
    ((pipeline.preparations venue draft outside journal).1.mapM id >>= pipeline.finish draft,
      (pipeline.preparations venue draft outside journal).2) := by
  have all_eq := Desk.outcome_all (pipeline.stages.map (Stage.prepare venue (pipeline.adopt draft)))
    outside journal
  rw [fill, Desk.outcome_bind, all_eq, preparations]
  cases results : (Desk.outcomes outside
      (pipeline.stages.map (Stage.prepare venue (pipeline.adopt draft))) journal).1.mapM id with
  | error fault => rfl
  | ok outputs =>
    rw [results] at all_eq
    obtain ⟨same_length, prepares⟩ := prepares_all ⟨journal, congrArg Prod.fst all_eq⟩
    exact outcome_applyAll_stages last builtIn same_length prepares

theorem fill_error_iff {fault : Fault} :
    ((pipeline.fill venue draft).outcome outside journal).1 = .error fault ↔
      FirstFault (pipeline.preparations venue draft outside journal).1 fault ∨
      ∃ outputs signer, (pipeline.preparations venue draft outside journal).1 = outputs.map .ok ∧
        .signer signer ∈ pipeline.stages ∧
        signer.sign (pipeline.enrich draft outputs) = .error fault := by
  rw [fill_outcome last builtIn, ← mapM_id_eq_error]
  simp only [← mapM_id_eq_ok, signer_mem_iff last]
  cases (pipeline.preparations venue draft outside journal).1.mapM id with
  | error first => simp
  | ok outputs =>
    rw [ok_bind, finish]
    cases signs : pipeline.signer? with
    | none => simp
    | some signer => cases signed : signer.sign (pipeline.enrich draft outputs) <;>
        simp [Except.map, signed]

end Fill

end Pipeline

/-! ## Requests -/

/-- Whether a request asks for an estimate. -/
def ApiRequest.isEstimate (request : ApiRequest) : Prop := request.method = "angstrom_estimateGas"

theorem viewCall_sends {target : Address} {signature : String} {types results : List Abi.WordType}
    {values : Abi.Values types} {block : Option BlockName} {allowed : ApiRequest → Prop} :
    Desk.Sends allowed (viewCall target signature types values results block) :=
  .bind (.lift _) fun _ => .bind (.ask _ _) fun _ => .lift _

theorem Nonce.isUsedBy_sends {settlement user : Address} {nonce : Int} {block : Option BlockName}
    {allowed : ApiRequest → Prop} :
    Desk.Sends allowed (Nonce.isUsedBy settlement user nonce block) :=
  .bind (.lift _) fun _ => .bind (.ask _ _) fun _ => .pure _

theorem Nonce.Search.firstUnused_sends {search : Nonce.Search} {settlement user : Address}
    {block : Option BlockName} {exhausted : Fault} {allowed : ApiRequest → Prop} (attempts : Nat) :
    Desk.Sends allowed (search.firstUnused settlement user block exhausted attempts) := by
  induction attempts with
  | zero => exact .fail _
  | succ attempts ih =>
    refine .bind (.bind (.draw _) fun _ => .pure _) fun nonce => ?_
    refine .bind Nonce.isUsedBy_sends fun used => ?_
    cases used
    · exact .pure nonce
    · exact ih

theorem Nonce.Search.allocateFor_sends {search : Nonce.Search} {deployment : Deployment}
    {user : Address} {name : String} {block : Option BlockName} {allowed : ApiRequest → Prop} :
    Desk.Sends allowed (search.allocateFor deployment user name block) := by
  refine .bind (.lift _) fun _ => ?_
  split
  · exact Nonce.Search.firstUnused_sends _
  · exact .bind (.of_requests_eq fun _ _ => rfl) fun outside => Nonce.Search.firstUnused_sends _

/-- A call leaves behind what sending its request does, whatever is read from the reply. -/
theorem OrderApi.journal_call_read {α : Type} (method : String) (params : List Json)
    (read : Json → Except Fault α) :
    ((OrderApi.call method params >>= fun result => liftM (read result)).outcome outside
      journal).2 = ((Desk.send method params).outcome outside journal).2 :=
  (Desk.journal_bind_eq _ fun _ _ => rfl).trans (Desk.journal_bind_eq _ fun _ _ => rfl)

theorem Venue.estimateGas_sends {isBook isInternal : Bool} {token0 token1 : Address} :
    Desk.Sends ApiRequest.isEstimate (venue.estimateGas isBook isInternal token0 token1) := by
  unfold Venue.estimateGas
  split
  · exact .fail _
  · exact .bind (.bind (.send fun _ => rfl) fun _ => .within _) fun _ => .lift _
  · exact .fail _

theorem Stage.estimate_sends : Desk.Sends ApiRequest.isEstimate (Stage.estimate venue order) :=
  .bind Venue.estimateGas_sends fun _ => .ite (.pure _) (.fail _)

theorem Stage.prepare_sends (stage : Stage) :
    Desk.Sends ApiRequest.isEstimate (stage.prepare venue order) := by
  cases stage with
  | nonce search =>
    exact .ite (.bind Nonce.Search.allocateFor_sends fun _ => .pure _) (.pure _)
  | gas => exact .bind Stage.estimate_sends fun _ => .pure _
  | balance =>
    have reads : Desk.Sends ApiRequest.isEstimate (tokenBalance order.assetIn order.sender none) :=
      .bind viewCall_sends fun _ => .pure _
    have checks : Desk.Sends ApiRequest.isEstimate (Stage.checkBalance order) :=
      .bind reads fun _ => .ite (.ite (.fail _) (.fail _)) (.pure _)
    exact .bind checks fun _ => .pure _
  | signer account => exact .pure _
  | refuse reason => exact .fail _
  | record => exact .pure _

namespace Pipeline

theorem fill_sends (last : pipeline.SignsLast)
    (builtIn : ∀ stage ∈ pipeline.stages, stage.isBuiltIn) :
    Desk.Sends ApiRequest.isEstimate (pipeline.fill venue draft) := by
  intro outside journal
  have each : ∀ action ∈ pipeline.stages.map (Stage.prepare venue (pipeline.adopt draft)),
      Desk.Sends ApiRequest.isEstimate action := by
    intro action mem
    obtain ⟨stage, -, rfl⟩ := List.mem_map.mp mem
    exact stage.prepare_sends
  have sends := Desk.Sends.all each outside journal
  rw [Desk.outcome_all] at sends
  rw [fill_outcome last builtIn]
  exact sends

theorem fillMany_sends (last : pipeline.SignsLast)
    (builtIn : ∀ stage ∈ pipeline.stages, stage.isBuiltIn) (drafts : List Order) :
    Desk.Sends ApiRequest.isEstimate (pipeline.fillMany venue drafts) := by
  apply Desk.Sends.all
  intro action mem
  obtain ⟨draft, -, rfl⟩ := List.mem_map.mp mem
  exact fill_sends last builtIn

end Pipeline

end OrderDesk
