import OrderDesk.Nonce.Allocation
import OrderDesk.OrderApi
import OrderDesk.Position.Chain
import OrderDesk.Signing.TypedData

/-!
# Filling orders

A pipeline turns a draft into an order that is ready to be sent. Each stage first prepares an
output, which may ask the outside and changes nothing, and then applies it to the order. All stages
prepare before the first applies. A signer comes last, so that its signature covers the whole order.

* `Pipeline.fill` runs a pipeline on an order.
-/

namespace OrderDesk

inductive OrderLink
  | none
  | sound
  /-- Its address is no text, which shows when it is used. -/
  | unusable
deriving DecidableEq, Repr

structure Venue where
  deployment : Deployment
  orderLink : OrderLink

namespace Venue

def hasOrderApi (venue : Venue) : Bool := venue.orderLink ≠ .none

def estimateGas (venue : Venue) (isBook isInternal : Bool) (token0 token1 : Address) :
    Desk (Int × Int) :=
  match venue.orderLink with
  | .none => Desk.fail .noGasSource
  | .sound => OrderApi.estimateGas isBook isInternal token0.text token1.text
  | .unusable => Desk.fail .wrongType

end Venue

inductive Stage
  /-- Gives standing orders an unused nonce. -/
  | nonce (search : Nonce.Search)
  /-- Lets the order pay the estimated gas. -/
  | gas
  /-- Refuses orders that the sender cannot pay for. -/
  | balance
  /-- Makes the signer the recipient, and signs. -/
  | signer (account : Signer)
  | refuse (reason : Text)
  | record

inductive StageOutput
  | nothing
  | nonce (value : Int)
  | gas (cost : Int)
  | signer (address : Address)
deriving DecidableEq, Repr

namespace Stage

def name : Stage → String
  | nonce _ => "nonce"
  | gas => "gas"
  | balance => "balance"
  | signer _ => "signer"
  | refuse _ => "fail"
  | record => "record"

def signer? : Stage → Option Signer
  | signer account => some account
  | _ => none

/-- The gas that an order is estimated to cost. An estimate that is too long to be written down is
refused. -/
def estimate (venue : Venue) (order : Order) : Desk Int := do
  let (token0, token1) := sortTokens order.assetIn order.assetOut
  let (cost, units) ← venue.estimateGas (!order.isTopOfBlock) order.useInternal token0 token1
  if Digit.fits cost && Digit.fits units then return cost else Desk.fail .badInteger

def checkBalance (order : Order) : Desk Unit := do
  let required := order.requiredInput
  let available ← tokenBalance order.assetIn order.sender none
  if available < required then
    if Digit.fits required then Desk.fail (.insufficientBalance order.assetIn required available)
    else Desk.fail .badInteger

/-- The output of a stage for an order. Orders that do not stand and those from nobody need no
nonce. -/
def prepare (venue : Venue) (order : Order) : Stage → Desk StageOutput
  | nonce search =>
    if order.isStanding ∧ order.sender ≠ .zero then do
      let value ← search.allocateFor venue.deployment order.sender order.sender.text none
      return .nonce value
    else pure .nothing
  | gas => do return .gas (← estimate venue order)
  | balance => do
    checkBalance order
    return .nothing
  | signer account => pure (.signer account.address)
  | refuse reason => Desk.fail (.chainRead reason "")
  | record => pure .nothing

def apply (order : Order) : Stage → StageOutput → Desk Order
  | nonce _, .nonce value => pure (order.withNonce value)
  | gas, .gas cost => pure (order.withFee cost)
  | signer account, .signer recipient => do
    let received := { order with recipient }
    let authorization ← account.sign received
    return { received with authorization }
  | record, _ => do
    Desk.record (← order.document)
    return order
  | _, _ => pure order

end Stage

structure Pipeline where
  stages : List Stage

namespace Pipeline

def empty : Pipeline := ⟨[]⟩

def signer? (pipeline : Pipeline) : Option Signer := pipeline.stages.findSome? Stage.signer?

def endsSigned (pipeline : Pipeline) : Bool :=
  match pipeline.stages.getLast? with
  | some stage => stage.signer?.isSome
  | none => false

/-- Adds a stage at the end; nothing may follow a signer. -/
def add (pipeline : Pipeline) (stage : Stage) : Except Fault Pipeline :=
  if pipeline.endsSigned then .error .signerNotLast else .ok ⟨pipeline.stages ++ [stage]⟩

def ofStages (stages : List Stage) : Except Fault Pipeline := stages.foldlM add empty

/-- Nonce and gas if there is an order interface; with a signer, the balance and the signature. -/
def standard (signer : Option Signer) (source : Nat) (withGas : Bool) : Pipeline :=
  ⟨[.nonce ⟨none, source⟩] ++ (if withGas then [.gas] else []) ++
    match signer with
    | some signer => [.balance, .signer signer]
    | none => []⟩

/-- An order from nobody is from the signer. -/
def adopt (pipeline : Pipeline) (order : Order) : Order :=
  match pipeline.signer? with
  | some signer => if order.sender = .zero then order.withSender signer.address else order
  | none => order

def applyAll (order : Order) (outputs : List (Stage × StageOutput)) : Desk Order :=
  outputs.foldlM (fun order (stage, output) => stage.apply order output) order

/-- The filled order. All stages prepare, also after a fault; the first fault counts. -/
def fill (pipeline : Pipeline) (venue : Venue) (order : Order) : Desk Order := do
  let order := pipeline.adopt order
  let outputs ← Desk.all (pipeline.stages.map (Stage.prepare venue order))
  applyAll order (pipeline.stages.zip outputs)

def fillMany (pipeline : Pipeline) (venue : Venue) (orders : List Order) : Desk (List Order) :=
  Desk.all (orders.map (pipeline.fill venue))

end Pipeline

end OrderDesk
