import OrderDesk.Generator

/-!
# The client

One value that bundles a deployment, an optional signer, a pipeline and the readers of pools, with
the operations of a trading desk.
-/

namespace OrderDesk

structure Client where
  venue : Venue
  signer : Option Signer
  pipeline : Pipeline
  pools : PoolReader

namespace Client

/-- A client; without a pipeline it has the standard one, and without reader code pools are read
without ticks. -/
def make (venue : Venue) (signer : Option Signer) (pipeline : Option Pipeline) (source : Nat)
    (readerCode : Bytes) (band : Band) : Client where
  venue := venue
  signer := signer
  pipeline := pipeline.getD (.standard signer source venue.hasOrderApi)
  pools := {
    deployment := venue.deployment
    tickReader := (TickReader.ofCode readerCode).toOption
    band := band }

def deployment (client : Client) : Deployment := client.venue.deployment

def sender? (client : Client) : Option Address := client.signer.map (·.address)

def withOrderApi {α : Type} (client : Client) (action : Desk α) : Desk α :=
  if client.venue.hasOrderApi then action else Desk.fail .noOrderApi

/-! ## Orders -/

def fill (client : Client) (order : Order) : Desk Order := client.pipeline.fill client.venue order

def sendOrder (client : Client) (order : Order) : Desk Json := do
  let filled ← client.fill order
  client.withOrderApi (OrderApi.sendOrder filled)

def sendOrders (client : Client) (orders : List Order) : Desk (List (Except Text Json)) := do
  let filled ← client.pipeline.fillMany client.venue orders
  client.withOrderApi (OrderApi.sendOrders filled)

def pendingOrders (client : Client) (senders : Option (List Text)) : Desk Json :=
  match senders, client.sender? with
  | some senders, _ => client.withOrderApi (OrderApi.pendingOrders senders)
  | none, some sender => client.withOrderApi (OrderApi.pendingOrder sender)
  | none, none => Desk.fail .noAddress

def orderStatus (client : Client) (hash : Text) : Desk Json :=
  client.withOrderApi (OrderApi.orderStatus hash)

def estimateGas (client : Client) (isBook : Bool) (token0 token1 : Text) (isInternal : Bool) :
    Desk (Int × Int) :=
  client.withOrderApi (OrderApi.estimateGas isBook isInternal token0 token1)

def generateOrder (client : Client) (token0 token1 : String) : Desk Order := do
  let generator ← Generator.make client.venue client.pools client.pipeline
    client.sender? Generator.usualFraction Generator.usualSpacings
  generator.generate token0 token1

/-! ## Reading the chain -/

def owner? (client : Client) (owner : Option String) : Option (Setting Address) :=
  match owner.filter fun spelling => !spelling.isEmpty with
  | some spelling => some (readAddress spelling)
  | none => client.sender?.map Except.ok

def balanceOf (client : Client) (token : String) (owner : Option String) (block : Option BlockName) :
    Desk Int := do
  match client.owner? owner with
  | some owner =>
    let owner ← owner
    let token ← readAddress token
    tokenBalance token owner block
  | none => Desk.fail .noOwner

def positionsOf (client : Client) (owner : Option String) (block : Option BlockName) :
    Desk (List LiquidityPosition) := do
  match client.owner? owner with
  | some owner => Positions.ofOwner client.deployment owner block Positions.usualBatch
  | none => Desk.fail .noOwner

def positionFees (client : Client) (tokenId : Int) (block : Option BlockName) : Desk PositionFees := do
  let block ← Desk.pinned block
  let position ← Positions.findAt client.deployment tokenId block
  Positions.feesAt client.deployment position none block

end Client

end OrderDesk
