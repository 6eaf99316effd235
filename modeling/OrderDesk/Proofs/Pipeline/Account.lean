import OrderDesk.Proofs.Pipeline.Fill

/-!
# Accounts of filled orders

* `fill_acts_for_draft`: the account that the stages act for, and the one that the order is from.
* `standard_fill_covered`: when the balance covers an order of the standard pipeline.
-/

namespace OrderDesk

variable {venue : Venue} {outside : Outside} {journal : Journal} {draft order filled : Order}
  {stages : List Stage} {pipeline : Pipeline} {signer : Signer}

/-! ## The standard pipeline -/

theorem standard_built (signer : Option Signer) (source : Nat) (withGas : Bool) :
    Pipeline.ofStages (Pipeline.standard signer source withGas).stages =
      .ok (Pipeline.standard signer source withGas) := by
  cases signer <;> cases withGas <;> rfl

theorem standard_apply {search : Nonce.Search} {nonce cost : Int} {recipient : Address}
    {authorization : Authorization}
    (signed : signer.sign { ((order.withNonce nonce).withFee cost) with recipient } =
      .ok authorization) :
    (Pipeline.applyAll order [(.nonce search, .nonce nonce), (.gas, .gas cost),
      (.balance, .nothing), (.signer signer, .signer recipient)]).Answers outside
      (.ok { ((order.withNonce nonce).withFee cost) with recipient, authorization }) := by
  intro journal
  have last : (Stage.apply ((order.withNonce nonce).withFee cost) (.signer signer)
      (.signer recipient)).outcome outside journal =
        (.ok { ((order.withNonce nonce).withFee cost) with recipient, authorization }, journal) := by
    rw [Stage.apply, Desk.outcome_bind, signed]
    rfl
  change ((Stage.apply ((order.withNonce nonce).withFee cost) (.signer signer)
    (.signer recipient) >>= pure).outcome outside journal).1 = _
  rw [Desk.outcome_bind, last]
  rfl

/-! ## A trade of a thousand

A draft that the signer can just pay for, at an estimate of ten. -/

def usualSigner : Signer := ⟨⟨1, by decide, by decide⟩, .mainnet⟩

def usualAddress : Address := .ofNat 0x7e5f4552091a69125d5dfcb7b8c2659029395bdf

def usualPipeline : Pipeline := .standard (some usualSigner) 0 true

def usualVenue : Venue := ⟨.mainnet, .sound⟩

def tradeFrom (sender : Address) : Order where
  assetIn := .ofNat 0xaaaaaaaaaaaaaaaaaaaaaaaaaaaaaaaaaaaaaaaa
  assetOut := .ofNat 0xbbbbbbbbbbbbbbbbbbbbbbbbbbbbbbbbbbbbbbbb
  recipient := .zero
  useInternal := false
  authorization := ⟨false, sender, []⟩
  terms := .user ⟨0, 0, 0, [], .exact true 1000, .standing 0 1900000000⟩

/-- The trade with what the stages write, and its signature. -/
def filledTrade : Order where
  assetIn := .ofNat 0xaaaaaaaaaaaaaaaaaaaaaaaaaaaaaaaaaaaaaaaa
  assetOut := .ofNat 0xbbbbbbbbbbbbbbbbbbbbbbbbbbbbbbbbbbbbbbbb
  recipient := usualAddress
  useInternal := false
  authorization := ⟨true, usualAddress, 0x1b ::
    Bytes.ofNat 32 0x33843f0531be3ecdb8b30ca6df6e8c3f9c93787bfb5fabc37a8f2ec408c38c31 ++
    Bytes.ofNat 32 0x56c8f11603acf7331d65081e8d772d2bac5a294b00cacf68a014bf823a9961d0⟩
  terms := .user ⟨0, 10, 0, [], .exact true 1000, .standing 5 1900000000⟩

/-- An outside in which all have a thousand and no nonce is used, but for the answers to one
call and the word of one slot. -/
def outsideBut (poor used : Bytes) : Outside where
  node := {
    blockNumber := .ok 100
    storage := fun _ slot _ => .ok (if slot = used then 2 ^ 5 else 0)
    code := fun _ _ => .ok []
    call := fun _ data _ => .ok (Abi.numberWord (if data = poor then 0 else 1000))
    deploy := fun _ _ => .ok [] }
  reply := fun _ _ => .response 200 (Bytes.ofText "\x7b\"result\": [10, 21000]\x7d")
  candidate := fun _ _ => 5
  choose := fun low _ => low
  patience := 1

def tradeDigest : Bytes :=
  Bytes.ofNat 32 0x2f28056a924f276ce91022b0faf51dba4ecc856fbff6fce3e95d4adc1f947321

def tradeSignature : Signature where
  v := 27
  r := 0x33843f0531be3ecdb8b30ca6df6e8c3f9c93787bfb5fabc37a8f2ec408c38c31
  s := 0x56c8f11603acf7331d65081e8d772d2bac5a294b00cacf68a014bf823a9961d0

theorem filledTrade_digest :
    filledTrade.signingHash usualSigner.deployment = .ok tradeDigest := by
  apply ok_of_toOption
  decide +kernel

theorem tradeDigest_signed : usualSigner.key.sign? tradeDigest = some tradeSignature := by
  decide +kernel

theorem usualSigner_address : usualSigner.address = usualAddress := by
  decide +kernel

theorem filledTrade_signed : usualSigner.sign filledTrade = .ok filledTrade.authorization := by
  rw [Signer.sign, filledTrade_digest, ok_bind, tradeDigest_signed]
  simp only [usualSigner_address]
  rfl

theorem trade_fill {sender : Address}
    (prepared : ((Desk.all (usualPipeline.stages.map (Stage.prepare usualVenue
      (usualPipeline.adopt (tradeFrom sender))))).outcome outside .empty).1 =
        .ok [.nonce 5, .gas 10, .nothing, .signer usualAddress]) :
    ((usualPipeline.fill usualVenue (tradeFrom sender)).outcome outside .empty).1 =
      .ok filledTrade := by
  obtain ⟨authorization, adopted⟩ := usualPipeline.adopt_eq (tradeFrom sender)
  have signed : usualSigner.sign { filledTrade with authorization } =
      .ok filledTrade.authorization := by
    rw [Signer.sign_authorization, filledTrade_signed]
  apply Pipeline.fill_of prepared
  rw [adopted]
  exact standard_apply signed

theorem ownTrade_fill :
    ((usualPipeline.fill usualVenue (tradeFrom .zero)).outcome (outsideBut [] []) .empty).1 =
      .ok filledTrade := by
  apply trade_fill
  apply ok_of_toOption
  decide +kernel

/-! ## For whom the stages act -/

/-- What the stages made sure of holds for the account that the draft is from, the signer standing
in for nobody. The filled order is from the signer, which is the same account unless the draft is
from somebody else. -/
theorem fill_acts_for_draft {search : Nonce.Search}
    (built : Pipeline.ofStages stages = .ok pipeline) (nonces : .nonce search ∈ stages)
    (balances : .balance ∈ stages) (signs : .signer signer ∈ stages)
    (given : ((pipeline.fill venue draft).outcome outside journal).1 = .ok filled) :
    let user := if draft.sender = .zero then signer.address else draft.sender
    (∃ available, Holds outside filled.assetIn user available ∧
      draft.requiredInput ≤ available) ∧
    (user ≠ .zero → ∀ nonce, filled.nonce? = some nonce →
      Nonce.Unused outside venue.deployment.angstrom user nonce none) ∧
    filled.sender = signer.address ∧
    (filled.sender = user ↔ draft.sender = .zero ∨ draft.sender = signer.address) := by
  obtain ⟨rfl, last⟩ := Pipeline.ofStages_ok built
  obtain ⟨prepared, fills⟩ := Pipeline.fill_ok ⟨journal, given⟩
  have user_eq : (pipeline.adopt draft).sender = _ :=
    Pipeline.adopt_sender (last.signer_last signs).2
  have sender_eq := fills.sender_eq last signs
  refine ⟨?_, ?_, sender_eq, ?_⟩
  · rw [← user_eq]
    exact fills.covers_draft balances
  · intro somebody nonce now
    rw [← user_eq] at somebody ⊢
    exact fills.nonce_unused nonces somebody now
  · rw [sender_eq]
    split
    · rename_i nobody
      simp [nobody]
    · rename_i somebody
      simp [somebody, eq_comm]

theorem fill_acts_for_draft_trade :
    (∃ available, Holds (outsideBut [] []) filledTrade.assetIn usualSigner.address available ∧
      (tradeFrom .zero).requiredInput ≤ available) ∧
    (usualSigner.address ≠ .zero → ∀ nonce, filledTrade.nonce? = some nonce →
      Nonce.Unused (outsideBut [] []) usualVenue.deployment.angstrom usualSigner.address nonce
        none) ∧
    filledTrade.sender = usualSigner.address := by
  have nonces : .nonce ⟨none, 0⟩ ∈ usualPipeline.stages := by
    simp [usualPipeline, Pipeline.standard]
  have balances : .balance ∈ usualPipeline.stages := by simp [usualPipeline, Pipeline.standard]
  have signs : .signer usualSigner ∈ usualPipeline.stages := by
    simp [usualPipeline, Pipeline.standard]
  obtain ⟨held, unused, sender_eq, -⟩ := fill_acts_for_draft
    (standard_built (some usualSigner) 0 true) nonces balances signs ownTrade_fill
  exact ⟨held, unused, sender_eq⟩

def otherTrader : Address := .ofNat 0x4242424242424242424242424242424242424242

/-- The slot of the nonces of the signer from 0 to 255. -/
def ownNonces : Bytes :=
  Bytes.ofNat 32 0xf77d541e917403ef2273cd579454b5b0cff068875df814f33627770bc7875b10

/-- The question for the balance of the signer. -/
def ownBalance : Bytes :=
  Bytes.ofNat 36 0x70a082310000000000000000000000007e5f4552091a69125d5dfcb7b8c2659029395bdf

/-- A draft from somebody else becomes an order of the signer, who has used its nonce and has none
of the input asset. -/
theorem fill_acts_for_other :
    ((usualPipeline.fill usualVenue (tradeFrom otherTrader)).outcome
      (outsideBut ownBalance ownNonces) .empty).1 = .ok filledTrade ∧
    filledTrade.nonce? = some 5 ∧
    ¬ Nonce.Unused (outsideBut ownBalance ownNonces) usualVenue.deployment.angstrom
      filledTrade.sender 5 none ∧
    Holds (outsideBut ownBalance ownNonces) filledTrade.assetIn filledTrade.sender 0 ∧
    ¬ (tradeFrom otherTrader).requiredInput ≤ 0 := by
  refine ⟨?_, rfl, ?_, ?_, by decide⟩
  · apply trade_fill
    apply ok_of_toOption
    decide +kernel
  · intro unused
    have used : ((Nonce.isUsedBy usualVenue.deployment.angstrom filledTrade.sender 5 none).outcome
        (outsideBut ownBalance ownNonces) .empty).1 = .ok true := by
      apply ok_of_toOption
      decide +kernel
    cases used.symm.trans (unused .empty)
  · obtain ⟨_, answers⟩ := tokenBalance_answers
    apply answers.of_yields ⟨.empty, ok_of_toOption _⟩
    decide +kernel

/-! ## What a filled order requires -/

/-- The balance check is about the fee of the draft. What the filled order requires, with the
estimated fee, is covered exactly if the balance leaves room for the rise of the fee. -/
theorem standard_fill_covered {source : Nat}
    (own : draft.sender = .zero ∨ draft.sender = signer.address)
    (given : (((Pipeline.standard (some signer) source true).fill venue draft).outcome outside
      journal).1 = .ok filled) :
    ∃ available, Holds outside filled.assetIn filled.sender available ∧
      draft.requiredInput ≤ available ∧ (Stage.estimate venue draft).Yields outside filled.fee ∧
      (filled.requiredInput ≤ available ↔
        filled.fee - draft.fee ≤ available - draft.requiredInput) := by
  obtain ⟨-, last⟩ := Pipeline.ofStages_ok (standard_built (some signer) source true)
  obtain ⟨prepared, fills⟩ := Pipeline.fill_ok ⟨journal, given⟩
  have signs : .signer signer ∈ (Pipeline.standard (some signer) source true).stages := by
    simp [Pipeline.standard]
  have sender_eq : filled.sender = _ := fills.sender_eq last signs
  have same : (Pipeline.adopt (Pipeline.standard (some signer) source true) draft).sender =
      filled.sender := by
    rw [Pipeline.adopt_sender (last.signer_last signs).2, sender_eq]
    rcases own with nobody | self
    · rw [if_pos nobody]
    · rw [self, ite_self]
  obtain ⟨available, held, enough⟩ := fills.covers_draft (by simp [Pipeline.standard])
  rw [same] at held
  refine ⟨available, held, enough, fills.fee_estimated (by simp [Pipeline.standard]), ?_⟩
  rw [fills.requiredInput_eq]
  omega

theorem standard_fill_covered_trade :
    ∃ available, Holds (outsideBut [] []) filledTrade.assetIn filledTrade.sender available ∧
      (tradeFrom .zero).requiredInput ≤ available ∧
      (filledTrade.requiredInput ≤ available ↔
        filledTrade.fee - (tradeFrom .zero).fee ≤
          available - (tradeFrom .zero).requiredInput) := by
  obtain ⟨available, held, enough, -, exactly⟩ := standard_fill_covered (.inl rfl) ownTrade_fill
  exact ⟨available, held, enough, exactly⟩

/-- The estimate of ten is signed for, though the signer has only the thousand that the draft
requires. -/
theorem standard_fill_uncovered :
    ((usualPipeline.fill usualVenue (tradeFrom .zero)).outcome (outsideBut [] []) .empty).1 =
      .ok filledTrade ∧
    Holds (outsideBut [] []) filledTrade.assetIn filledTrade.sender 1000 ∧
    ¬ filledTrade.requiredInput ≤ 1000 := by
  refine ⟨ownTrade_fill, ?_, by decide⟩
  obtain ⟨_, answers⟩ := tokenBalance_answers
  apply answers.of_yields ⟨.empty, ok_of_toOption _⟩
  decide +kernel

end OrderDesk
