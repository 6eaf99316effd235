import OrderDesk.Proofs.Pipeline.Account

/-!
# Signatures of filled orders

A pipeline with a signer applies it last, to an order that the other stages have finished. They and
the signer write a nonce, a fee, the recipient and the authorization, and nothing else.

* `Pipeline.Fills.revises`: what filling leaves of a draft.
* `Pipeline.Fills.signed`: the signer signs the filled order as it is.
* `fill_signed`: the signer is recovered from a filled order.
-/

namespace OrderDesk

variable {venue : Venue} {outside : Outside} {draft order after filled : Order}
  {pipeline : Pipeline} {signer : Signer} {prepared : List (Stage × StageOutput)}

/-! ## What filling writes -/

/-- Whether an order is a draft with another nonce, fee, recipient and authorization. -/
def Order.Revises (draft order : Order) : Prop :=
  ∃ nonce fee recipient authorization,
    order = { (draft.withNonce nonce).withFee fee with recipient, authorization }

theorem Order.Revises.refl (draft : Order) (authorization : Authorization) :
    draft.Revises { draft with authorization } := by
  refine ⟨draft.nonce?.getD 0, draft.fee, draft.recipient, authorization, ?_⟩
  rcases draft with ⟨_, _, _, _, _, _ | ⟨_, _, _, _, _, _ | _⟩⟩ <;> rfl

theorem Order.Revises.withNonce (revises : draft.Revises order) (nonce : Int) :
    draft.Revises (order.withNonce nonce) := by
  obtain ⟨_, fee, recipient, authorization, rfl⟩ := revises
  refine ⟨nonce, fee, recipient, authorization, ?_⟩
  rcases draft with ⟨_, _, _, _, _, _ | ⟨_, _, _, _, _, _ | _⟩⟩ <;> rfl

theorem Order.Revises.withFee (revises : draft.Revises order) (fee : Int) :
    draft.Revises (order.withFee fee) := by
  obtain ⟨nonce, _, recipient, authorization, rfl⟩ := revises
  refine ⟨nonce, fee, recipient, authorization, ?_⟩
  rcases draft with ⟨_, _, _, _, _, _ | ⟨_, _, _, _, _, _ | _⟩⟩ <;> rfl

theorem Order.Revises.kind_eq (revises : draft.Revises order) : order.kind = draft.kind := by
  obtain ⟨nonce, fee, recipient, authorization, rfl⟩ := revises
  rcases draft with ⟨_, _, _, _, _, _ | ⟨_, _, _, _, _, _ | _⟩⟩ <;> rfl

theorem Stage.Applies.revises {stage : Stage} {output : StageOutput}
    (applies : stage.Applies order output after) (revises : draft.Revises order) :
    draft.Revises after := by
  cases applies with
  | nonce => exact revises.withNonce _
  | gas => exact revises.withFee _
  | @signer _ recipient authorization _ =>
    obtain ⟨nonce, fee, _, _, rfl⟩ := revises
    exact ⟨nonce, fee, recipient, authorization, rfl⟩
  | nothing => exact revises

/-! ## The signer comes last -/

theorem AppliesAll.of_append {first last : List (Stage × StageOutput)}
    (applies : AppliesAll order (first ++ last) after) :
    ∃ between, AppliesAll order first between ∧ AppliesAll between last after := by
  induction first generalizing order with
  | nil => exact ⟨order, .nil, applies⟩
  | cons pair first ih =>
    cases applies with
    | cons head others =>
      obtain ⟨between, earlier, later⟩ := ih others
      exact ⟨between, .cons head earlier, later⟩

namespace Pipeline.Fills

variable (fills : Fills pipeline venue outside draft filled prepared)
include fills

theorem revises : draft.Revises filled := by
  apply fills.applies.preserves (q := draft.Revises)
  · intro pair _ before next step
    exact step.revises
  · obtain ⟨authorization, adopted⟩ := pipeline.adopt_eq draft
    rw [adopted]
    exact .refl draft authorization

theorem signed (last : pipeline.SignsLast) (signs : .signer signer ∈ pipeline.stages) :
    signer.sign filled = .ok filled.authorization ∧ filled.recipient = signer.address := by
  have split := fills.stages_eq
  rw [(last.signer_last signs).1, List.map_eq_append_iff] at split
  obtain ⟨init, final, rfl, -, final_eq⟩ := split
  obtain ⟨⟨_, output⟩, rfl, rfl⟩ := List.map_eq_singleton_iff.mp final_eq
  obtain ⟨between, -, applies⟩ := fills.applies.of_append
  have prepares := fills.prepares (.signer signer, output) (by simp)
  cases prepares
  cases applies with
  | cons step others =>
    cases others
    cases step with
    | @signer _ _ authorization given =>
      have same := Signer.sign_authorization signer
        { between with recipient := signer.address } authorization
      exact ⟨same.trans given, rfl⟩

end Pipeline.Fills

/-! ## Filled orders -/

/-- A pipeline made of some stages, to which others are added one by one. -/
def Pipeline.extend (first later : List Stage) : Except Fault Pipeline := do
  later.foldlM Pipeline.add (← Pipeline.ofStages first)

theorem Pipeline.extend_eq (first later : List Stage) :
    Pipeline.extend first later = Pipeline.ofStages (first ++ later) :=
  List.foldlM_append.symm

/-- No stage can be put behind a signer. What a pipeline with a signer fills is the draft but for its
nonce, its fee, its recipient and its authorization; the signer receives it and has signed it, so
that the signer is recovered from the order as it was filled. -/
theorem fill_signed (first later : List Stage) :
    (Pipeline.extend first later = .error .signerNotLast ↔
      ∃ earlier account rest, first ++ later = earlier ++ .signer account :: rest ∧ rest ≠ []) ∧
    ∀ pipeline signer, Pipeline.extend first later = .ok pipeline →
      .signer signer ∈ first ++ later → ∀ venue outside journal draft filled,
      ((pipeline.fill venue draft).outcome outside journal).1 = .ok filled →
      (∀ digest, filled.signingHash signer.deployment = .ok digest →
        signer.key.RecoversFrom digest) →
      filled.kind = draft.kind ∧
      (∃ nonce fee signature, filled =
        { (draft.withNonce nonce).withFee fee with
          recipient := signer.address
          authorization := ⟨true, signer.address, signature⟩ } ∧
        signature.length = 65) ∧
      filled.recoverSigner signer.deployment = .ok signer.address := by
  rw [Pipeline.extend_eq]
  refine ⟨Pipeline.ofStages_error_iff, ?_⟩
  intro pipeline signer built signs venue outside journal draft filled given backend
  obtain ⟨stages_eq, last⟩ := Pipeline.ofStages_ok built
  obtain ⟨prepared, fills⟩ := Pipeline.fill_ok ⟨journal, given⟩
  obtain ⟨sign_ok, recipient_eq⟩ := fills.signed last (stages_eq ▸ signs)
  have recovered := Order.recoverSigner_signed sign_ok backend
  refine ⟨fills.revises.kind_eq, ?_, recovered⟩
  obtain ⟨_, signature, -, -, authorization_eq⟩ := Signer.sign_ok sign_ok
  obtain ⟨nonce, fee, recipient, authorization, rfl⟩ := fills.revises
  cases recipient_eq
  cases authorization_eq
  exact ⟨nonce, fee, _, rfl, signature.bytes_length⟩

theorem tradeDigest_recovers : usualSigner.key.RecoversFrom tradeDigest := by
  intro signature made
  cases made.symm.trans tradeDigest_signed
  have recovered : tradeSignature.recover? tradeDigest = some usualAddress := by decide +kernel
  rw [recovered, ← usualSigner_address]
  rfl

theorem fill_signed_trade :
    Pipeline.extend [.nonce ⟨none, 0⟩, .gas] [.balance, .signer usualSigner] = .ok usualPipeline ∧
    ((usualPipeline.fill usualVenue (tradeFrom .zero)).outcome (outsideBut [] []) .empty).1 =
      .ok filledTrade ∧
    filledTrade.recoverSigner usualSigner.deployment = .ok usualSigner.address := by
  have built : Pipeline.extend [.nonce ⟨none, 0⟩, .gas] [.balance, .signer usualSigner] =
      .ok usualPipeline := rfl
  obtain ⟨-, fills⟩ := fill_signed [.nonce ⟨none, 0⟩, .gas] [.balance, .signer usualSigner]
  obtain ⟨-, -, recovered⟩ := fills usualPipeline usualSigner built (by simp) usualVenue
    (outsideBut [] []) .empty (tradeFrom .zero) filledTrade ownTrade_fill
    fun _ here => Except.ok.inj (filledTrade_digest.symm.trans here) ▸ tradeDigest_recovers
  exact ⟨built, ownTrade_fill, recovered⟩

end OrderDesk
