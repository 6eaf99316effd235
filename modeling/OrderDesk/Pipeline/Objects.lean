import Mathlib.Logic.Function.Basic
import OrderDesk.Pipeline

/-!
# Orders as objects

A caller hands over references to orders, and stages write into the order that they are given. An
order refers to its authorization, an object of its own that other orders may refer to as well. A
fill copies an order with its authorization first, and all it writes is in the copy.

* `OrderStore` holds the objects.
* `OrderStore.fill`, `OrderStore.fillMany` fill orders of a store; the results refer to new orders.
-/

namespace OrderDesk

structure OrderObject where
  assetIn : Address
  assetOut : Address
  recipient : Address
  useInternal : Bool
  terms : OrderTerms
  /-- Where the authorization is kept. -/
  authorization : Nat

namespace OrderObject

def order (object : OrderObject) (authorization : Authorization) : Order where
  assetIn := object.assetIn
  assetOut := object.assetOut
  recipient := object.recipient
  useInternal := object.useInternal
  authorization := authorization
  terms := object.terms

def ofOrder (order : Order) (authorization : Nat) : OrderObject where
  assetIn := order.assetIn
  assetOut := order.assetOut
  recipient := order.recipient
  useInternal := order.useInternal
  terms := order.terms
  authorization := authorization

end OrderObject

structure OrderStore where
  orders : Nat → OrderObject
  authorizations : Nat → Authorization
  /-- Orders up to this reference exist. -/
  nextOrder : Nat
  nextAuthorization : Nat
  authorization_lt : ∀ order < nextOrder, (orders order).authorization < nextAuthorization

namespace OrderStore

def load (store : OrderStore) (order : Nat) : Order :=
  (store.orders order).order (store.authorizations (store.orders order).authorization)

/-! ## Changes -/

/-- Adds an order and its authorization, under the next references. -/
def insert (store : OrderStore) (value : Order) : OrderStore where
  orders := Function.update store.orders store.nextOrder (.ofOrder value store.nextAuthorization)
  authorizations :=
    Function.update store.authorizations store.nextAuthorization value.authorization
  nextOrder := store.nextOrder + 1
  nextAuthorization := store.nextAuthorization + 1
  authorization_lt := by
    intro order given
    by_cases new : order = store.nextOrder
    · simp [new, OrderObject.ofOrder]
    · have old := store.authorization_lt order (by omega)
      simp [new]
      omega

/-- Writes the own fields of an order; it refers to the same authorization as before. -/
def write (store : OrderStore) (order : Nat) (value : Order) : OrderStore :=
  { store with
    orders := Function.update store.orders order
      (.ofOrder value (store.orders order).authorization)
    authorization_lt := by
      intro other given
      have old := store.authorization_lt other given
      by_cases same : other = order
      · subst same
        simpa [OrderObject.ofOrder] using old
      · simpa [same] using old }

/-- Writes into the authorization that an order refers to. -/
def writeSender (store : OrderStore) (order : Nat) (sender : Address) : OrderStore :=
  let reference := (store.orders order).authorization
  { store with
    authorizations := Function.update store.authorizations reference
      { store.authorizations reference with sender } }

/-- Makes an order refer to a new authorization. -/
def renew (store : OrderStore) (order : Nat) (authorization : Authorization) : OrderStore where
  orders := Function.update store.orders order
    { store.orders order with authorization := store.nextAuthorization }
  authorizations := Function.update store.authorizations store.nextAuthorization authorization
  nextOrder := store.nextOrder
  nextAuthorization := store.nextAuthorization + 1
  authorization_lt := by
    intro other given
    have old := store.authorization_lt other given
    by_cases same : other = order
    · simp [same]
    · simp [same]
      omega

/-! ## Filling -/

def adopt (store : OrderStore) (pipeline : Pipeline) (order : Nat) : OrderStore :=
  match pipeline.signer? with
  | some signer =>
    if (store.load order).sender = .zero then store.writeSender order signer.address else store
  | none => store

/-- Writes an output into an order. A signer that fails has written the recipient by then. The
stages for rehearsals write nothing. -/
def apply (store : OrderStore) (order : Nat) : Stage → StageOutput → Except Fault Unit × OrderStore
  | .nonce _, .nonce value => (.ok (), store.write order ((store.load order).withNonce value))
  | .gas, .gas cost => (.ok (), store.write order ((store.load order).withFee cost))
  | .signer account, .signer recipient =>
    let received := store.write order { store.load order with recipient }
    match account.sign (received.load order) with
    | .ok authorization => (.ok (), received.renew order authorization)
    | .error fault => (.error fault, received)
  | _, _ => (.ok (), store)

def applyAll (order : Nat) :
    List (Stage × StageOutput) → OrderStore → Except Fault Unit × OrderStore
  | [], store => (.ok (), store)
  | (stage, output) :: rest, store =>
    match store.apply order stage output with
    | (.ok (), next) => applyAll order rest next
    | (.error fault, next) => (.error fault, next)

/-- What filling orders of a store leaves: references to the filled orders or a fault, and in either
case the store. -/
structure Filling (α : Type) where
  result : Except Fault α
  store : OrderStore
  journal : Journal

def fill (store : OrderStore) (pipeline : Pipeline) (venue : Venue) (outside : Outside)
    (journal : Journal) (order : Nat) : Filling Nat :=
  let working := store.nextOrder
  let copied := (store.insert (store.load order)).adopt pipeline working
  let prepared := (Desk.all (pipeline.stages.map
    (Stage.prepare venue (copied.load working)))).outcome outside journal
  match prepared.1 with
  | .error fault => ⟨.error fault, copied, prepared.2⟩
  | .ok outputs =>
    let applied := applyAll working (pipeline.stages.zip outputs) copied
    ⟨applied.1.map fun _ => working, applied.2, prepared.2⟩

/-- All fills are carried out, also after a fault; the first fault counts. -/
def fillMany (store : OrderStore) (pipeline : Pipeline) (venue : Venue) (outside : Outside)
    (journal : Journal) : List Nat → Filling (List Nat)
  | [] => ⟨.ok [], store, journal⟩
  | order :: orders =>
    let first := store.fill pipeline venue outside journal order
    let others := first.store.fillMany pipeline venue outside first.journal orders
    ⟨do return (← first.result) :: (← others.result), others.store, others.journal⟩

end OrderStore

end OrderDesk
