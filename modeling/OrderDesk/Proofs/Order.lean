import OrderDesk.Order.Basic

/-!
# What changes of an order leave alone

A nonce and a fee are the two terms that filling writes.

* `Order.requiredInput_withFee`: another fee changes the required input by the difference.
* `Order.nonce?_withNonce`: a standing order has the nonce it was given.
* `Order.withFee_withNonce`: a nonce and a fee may be given in any order.
-/

namespace OrderDesk.Order

/-- What the order may pay for gas. -/
def fee (order : Order) : Int :=
  match order.terms with
  | .topOfBlock terms => terms.maxGas
  | .user terms => terms.maxExtraFee

/-- The nonce of a standing order. -/
def nonce? (order : Order) : Option Int :=
  match order.terms with
  | .topOfBlock _ => none
  | .user terms =>
    match terms.lifetime with
    | .standing nonce _ => some nonce
    | .flash _ => none

variable (order : Order)

theorem isStanding_eq : order.isStanding = order.nonce?.isSome := by
  rcases order with ⟨_, _, _, _, _, _ | ⟨_, _, _, _, _, _ | _⟩⟩ <;> rfl

/-! ## Nonces -/

theorem nonce?_withNonce (nonce : Int) :
    (order.withNonce nonce).nonce? = order.nonce?.map fun _ => nonce := by
  rcases order with ⟨_, _, _, _, _, _ | ⟨_, _, _, _, _, _ | _⟩⟩ <;> rfl

@[simp]
theorem fee_withNonce (nonce : Int) : (order.withNonce nonce).fee = order.fee := by
  rcases order with ⟨_, _, _, _, _, _ | ⟨_, _, _, _, _, _ | _⟩⟩ <;> rfl

@[simp]
theorem requiredInput_withNonce (nonce : Int) :
    (order.withNonce nonce).requiredInput = order.requiredInput := by
  rcases order with ⟨_, _, _, _, _, _ | ⟨_, _, _, _, _, _ | _⟩⟩ <;> rfl

@[simp]
theorem assetIn_withNonce (nonce : Int) : (order.withNonce nonce).assetIn = order.assetIn := by
  rcases order with ⟨_, _, _, _, _, _ | ⟨_, _, _, _, _, _ | _⟩⟩ <;> rfl

@[simp]
theorem sender_withNonce (nonce : Int) : (order.withNonce nonce).sender = order.sender := by
  rcases order with ⟨_, _, _, _, _, _ | ⟨_, _, _, _, _, _ | _⟩⟩ <;> rfl

theorem authorization_withNonce (nonce : Int) :
    (order.withNonce nonce).authorization = order.authorization := by
  rcases order with ⟨_, _, _, _, _, _ | ⟨_, _, _, _, _, _ | _⟩⟩ <;> rfl

/-! ## Fees -/

@[simp]
theorem nonce?_withFee (fee : Int) : (order.withFee fee).nonce? = order.nonce? := by
  rcases order with ⟨_, _, _, _, _, _ | _⟩ <;> rfl

@[simp]
theorem fee_withFee (fee : Int) : (order.withFee fee).fee = fee := by
  rcases order with ⟨_, _, _, _, _, _ | _⟩ <;> rfl

theorem requiredInput_withFee (fee : Int) :
    (order.withFee fee).requiredInput = order.requiredInput - order.fee + fee := by
  rcases order with ⟨_, _, _, _, _, _ | _⟩ <;>
    simp only [withFee, requiredInput, Order.fee] <;> omega

@[simp]
theorem assetIn_withFee (fee : Int) : (order.withFee fee).assetIn = order.assetIn := by
  rcases order with ⟨_, _, _, _, _, _ | _⟩ <;> rfl

@[simp]
theorem sender_withFee (fee : Int) : (order.withFee fee).sender = order.sender := by
  rcases order with ⟨_, _, _, _, _, _ | _⟩ <;> rfl

theorem authorization_withFee (fee : Int) :
    (order.withFee fee).authorization = order.authorization := by
  rcases order with ⟨_, _, _, _, _, _ | _⟩ <;> rfl

/-! ## One after another -/

theorem withFee_withNonce (nonce fee : Int) :
    (order.withNonce nonce).withFee fee = (order.withFee fee).withNonce nonce := by
  rcases order with ⟨_, _, _, _, _, _ | ⟨_, _, _, _, _, _ | _⟩⟩ <;> rfl

theorem withNonce_recipient (recipient : Address) (nonce : Int) :
    ({ order with recipient } : Order).withNonce nonce =
      { order.withNonce nonce with recipient } := by
  rcases order with ⟨_, _, _, _, _, _ | ⟨_, _, _, _, _, _ | _⟩⟩ <;> rfl

theorem withFee_recipient (recipient : Address) (fee : Int) :
    ({ order with recipient } : Order).withFee fee = { order.withFee fee with recipient } := by
  rcases order with ⟨_, _, _, _, _, _ | _⟩ <;> rfl

end OrderDesk.Order
