import OrderDesk.Desk
import OrderDesk.Order.Wire
import OrderDesk.Text.Encoding

/-!
# The order interface

Orders are sent to a node of the settlement system as remote calls over JSON. A reply has an error
or a result; results about orders say whether they succeeded.

* `OrderApi.call` sends a call and takes the result out of its reply.
-/

namespace OrderDesk

namespace OrderApi

def requestJson (request : ApiRequest) : Json :=
  .object [("jsonrpc", .text "2.0"), ("id", .int request.id), ("method", .text request.method),
    ("params", .array request.params)]

def errorFault : Json → Fault
  | .object members =>
    .rpc (Json.plain ((Table.get? members "code").getD (.int (-1))))
      (Json.plain ((Table.get? members "message").getD (.text "")))
  | error => .errorNotAnObject error

def resultOf (members : Members) : Except Fault Json :=
  let error := members.value "error"
  if error.truthy then .error (errorFault error)
  else .ok (members.value "result")

/-- A body that is not JSON is reported as such; one that is nested too deeply is not. -/
def readBody (capacity : Json.Capacity) (body : Bytes) : Except Fault Json :=
  match Encoding.decode? body with
  | none => .error (.replyNotJson "unknown encoding")
  | some text =>
    match Json.read capacity text with
    | .ok value => .ok value
    | .error .tooDeep => .error .tooDeep
    | .error (.badJson detail) => .error (.replyNotJson detail)
    | .error fault => .error (.replyNotJson fault.message.string)

def readReply (capacity : Json.Capacity) : ApiReply → Except Fault Json
  | .dropped reason => .error (.disconnected reason)
  | .response status body =>
    if status < 200 ∨ 300 ≤ status then .error (.disconnected ("status " ++ toString status))
    else do
      match ← readBody capacity body with
      | .object members => resultOf members
      | other => .error (.rpc "-1" ("Unexpected response: " ++ other.shown))

def call (method : String) (params : List Json) : Desk Json := do
  let reply ← Desk.send method params
  Desk.within fun capacity => readReply capacity reply

def unwrap (result : Json) : Except Fault Json := do
  let members ← result.members
  if (members.value "is_success").truthy then
    return members.value "data"
  else .error (.rejected (Json.plain ((Table.get? members "msg").getD (.text ""))))

/-! ## Orders -/

def sendOrder (order : Order) : Desk Json := do
  let result ← call "angstrom_sendOrder" [order.toJson]
  unwrap result

/-- The hash of an order of a batch, or why it was rejected. -/
def batchEntry (result : Json) : Except Fault (Except Text Json) :=
  match unwrap result with
  | .ok hash => .ok (.ok hash)
  | .error (.rejected reason) => .ok (.error reason)
  | .error fault => .error fault

def sendOrders (orders : List Order) : Desk (List (Except Text Json)) := do
  let results ← call "angstrom_sendOrders" [.array (orders.map Order.toJson)]
  (results.parts >>= fun entries => entries.mapM batchEntry : Except Fault _)

def pendingOrder (sender : Address) : Desk Json :=
  call "angstrom_pendingOrder" [.text sender.text]

def pendingOrders (senders : List Text) : Desk Json :=
  call "angstrom_pendingOrders" [.array (senders.map .text)]

def cancelOrder (request : Json) : Desk Bool := do
  return (← call "angstrom_cancelOrder" [request]).truthy

def orderStatus (hash : Text) : Desk Json := do
  let result ← call "angstrom_orderStatus" [.text hash]
  unwrap result

def ordersByPoolId (poolId location : Text) : Desk (List Order) := do
  let results ← call "angstrom_ordersByPoolId" [.text poolId, .text location]
  Desk.within fun capacity =>
    results.parts >>= fun entries => entries.mapM (Order.ofJson capacity)

/-! ## Gas -/

def estimateOf (result : Json) : Except Fault (Int × Int) := do
  let pair ← match result with
    | .object members =>
      match Table.get? members "Err", Table.get? members "Ok" with
      | some reason, _ => .error (.rejected reason.plain)
      | none, some pair => .ok pair
      | none, none => .error (.missingMember "Ok")
    | other => .ok other
  match ← pair.parts with
  | [cost, units] =>
    let cost ← cost.toInt
    let units ← units.toInt
    return (cost, units)
  | _ => .error .wrongCount

/-- What an order will be charged for gas, in token 0, and the units of gas. -/
def estimateGas (isBook isInternal : Bool) (token0 token1 : Text) : Desk (Int × Int) := do
  let result ← call "angstrom_estimateGas"
    [.bool isBook, .bool isInternal, .text token0, .text token1]
  estimateOf result

end OrderApi

end OrderDesk
