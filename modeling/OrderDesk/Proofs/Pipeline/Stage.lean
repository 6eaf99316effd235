import OrderDesk.Pipeline
import OrderDesk.Proofs.Nonce
import OrderDesk.Proofs.Order
import OrderDesk.Proofs.Signing

/-!
# What stages prepare and apply

* `Stage.prepares_of_yields`: what a stage has made sure of once it has prepared an output.
* `Stage.Prepares.applies`: what applying that output changes.
-/

namespace OrderDesk

variable {venue : Venue} {outside : Outside} {order after : Order} {stage : Stage}
  {output : StageOutput}

/-! ## Balances -/

theorem viewCall_answers {target : Address} {signature : String} {types results : List Abi.WordType}
    {values : Abi.Values types} {block : Option BlockName} :
    (viewCall target signature types values results block).Answers outside (do
      let data ← Abi.call signature types values
      let returned ← outside.node.call target data block
      Abi.decode results returned) := by
  apply Desk.Answers.bind (.lift _)
  intro data
  apply Desk.Answers.bind (.ask _ _)
  intro returned
  exact .lift _

theorem tokenBalance_answers {token owner : Address} {block : Option BlockName} :
    ∃ result, (tokenBalance token owner block).Answers outside result :=
  ⟨_, viewCall_answers.bind fun values => .pure values.1⟩

/-- Whether an account has an amount of a token now. -/
def Holds (outside : Outside) (token owner : Address) (amount : Int) : Prop :=
  (tokenBalance token owner none).Answers outside (.ok amount)

theorem checkBalance_ok (given : (Stage.checkBalance order).Yields outside ()) :
    ∃ available, Holds outside order.assetIn order.sender available ∧
      order.requiredInput ≤ available := by
  obtain ⟨available, held, given⟩ := given.of_bind
  obtain ⟨result, answers⟩ := tokenBalance_answers
  refine ⟨available, answers.of_yields held, ?_⟩
  by_contra short
  rw [if_pos (not_le.mp short)] at given
  split at given <;> exact absurd given Desk.not_yields_fail

/-! ## Preparing -/

namespace Stage

/-- What a stage has made sure of once it has prepared an output for an order. -/
inductive Prepares (venue : Venue) (outside : Outside) (order : Order) : Stage → StageOutput → Prop
  | nonce {search : Nonce.Search} {value : Int} (due : order.isStanding ∧ order.sender ≠ .zero)
      (unused : Nonce.Unused outside venue.deployment.angstrom order.sender value none) :
      Prepares venue outside order (.nonce search) (.nonce value)
  | noNonce {search : Nonce.Search} (undue : ¬ (order.isStanding ∧ order.sender ≠ .zero)) :
      Prepares venue outside order (.nonce search) .nothing
  | gas {cost : Int} (estimated : (estimate venue order).Yields outside cost) :
      Prepares venue outside order .gas (.gas cost)
  | balance {available : Int} (held : Holds outside order.assetIn order.sender available)
      (enough : order.requiredInput ≤ available) : Prepares venue outside order .balance .nothing
  | signer {account : Signer} :
      Prepares venue outside order (.signer account) (.signer account.address)
  | record : Prepares venue outside order .record .nothing

theorem prepares_of_yields (given : (stage.prepare venue order).Yields outside output) :
    stage.Prepares venue outside order output := by
  cases stage with
  | nonce search =>
    by_cases due : order.isStanding ∧ order.sender ≠ .zero
    · rw [prepare, if_pos due] at given
      obtain ⟨value, drawn, given⟩ := given.of_bind
      cases given.of_pure
      exact .nonce due (Nonce.Search.allocateFor_unused drawn)
    · rw [prepare, if_neg due] at given
      cases given.of_pure
      exact .noNonce due
  | gas =>
    obtain ⟨cost, estimated, given⟩ := given.of_bind
    cases given.of_pure
    exact .gas estimated
  | balance =>
    obtain ⟨_, checked, given⟩ := given.of_bind
    cases given.of_pure
    obtain ⟨available, held, enough⟩ := checkBalance_ok checked
    exact .balance held enough
  | signer account =>
    cases given.of_pure
    exact .signer
  | refuse reason => exact absurd given Desk.not_yields_fail
  | record =>
    cases given.of_pure
    exact .record

/-! ## Applying -/

/-- What applying an output changes. -/
inductive Applies (order : Order) : Stage → StageOutput → Order → Prop
  | nonce {search : Nonce.Search} {value : Int} :
      Applies order (.nonce search) (.nonce value) (order.withNonce value)
  | gas {cost : Int} : Applies order .gas (.gas cost) (order.withFee cost)
  | signer {account : Signer} {recipient : Address} {authorization : Authorization}
      (signed : account.sign { order with recipient } = .ok authorization) :
      Applies order (.signer account) (.signer recipient) { order with recipient, authorization }
  | nothing {stage : Stage} : Applies order stage .nothing order

theorem Prepares.applies {draft : Order} (prepares : stage.Prepares venue outside draft output)
    (given : (stage.apply order output).Yields outside after) :
    stage.Applies order output after := by
  cases prepares with
  | nonce =>
    cases given.of_pure
    exact .nonce
  | gas =>
    cases given.of_pure
    exact .gas
  | signer =>
    obtain ⟨authorization, signed, given⟩ := given.of_bind
    cases given.of_pure
    exact .signer signed.of_lift
  | noNonce | balance =>
    cases given.of_pure
    exact .nothing
  | record =>
    obtain ⟨document, -, given⟩ := given.of_bind
    obtain ⟨_, -, given⟩ := given.of_bind
    cases given.of_pure
    exact .nothing

/-! ## Changes of one field -/

theorem Applies.assetIn_eq (applies : stage.Applies order output after) :
    after.assetIn = order.assetIn := by
  cases applies <;> simp

theorem Applies.amount_eq (applies : stage.Applies order output after) :
    after.requiredInput - after.fee = order.requiredInput - order.fee := by
  cases applies with
  | nonce => simp
  | gas =>
    rw [Order.requiredInput_withFee, Order.fee_withFee]
    omega
  | signer | nothing => rfl

variable {p : Int → Prop}

theorem Applies.nonce_of (applies : stage.Applies order output after)
    (written : ∀ value, output = .nonce value → p value)
    (before : ∀ nonce, order.nonce? = some nonce → p nonce) :
    ∀ nonce, after.nonce? = some nonce → p nonce := by
  intro nonce now
  cases applies with
  | @nonce _ value =>
    rw [Order.nonce?_withNonce, Option.map_eq_some_iff] at now
    obtain ⟨_, -, rfl⟩ := now
    exact written value rfl
  | gas =>
    rw [Order.nonce?_withFee] at now
    exact before nonce now
  | signer | nothing => exact before nonce now

theorem Applies.fee_of (applies : stage.Applies order output after)
    (written : ∀ cost, output = .gas cost → p cost) (before : p order.fee) : p after.fee := by
  cases applies with
  | nonce => rwa [Order.fee_withNonce]
  | gas =>
    rw [Order.fee_withFee]
    exact written _ rfl
  | signer | nothing => exact before

end Stage

/-! ## The sender -/

theorem Stage.Applies.sender_of {p : Address → Prop} (applies : stage.Applies order output after)
    (signed : ∀ account, stage = .signer account → p account.address) (before : p order.sender) :
    p after.sender := by
  cases applies with
  | nonce => rwa [Order.sender_withNonce]
  | gas => rwa [Order.sender_withFee]
  | @signer account _ authorization given =>
    have same : authorization.sender = account.address := Signer.sign_sender given
    change p authorization.sender
    rw [same]
    exact signed account rfl
  | nothing => exact before

end OrderDesk
