import OrderDesk.Desk
import OrderDesk.Json.Convert
import OrderDesk.Node.Snapshot

/-!
# Rehearsals

An outside made of tables, on which a desk is tried without a connection: a recorded chain, prepared
replies of the order interface, and lists of candidates. A list is used up in order, and its last
entry repeats.

* `Rehearsal.outside` is what a desk sees of it.
-/

namespace OrderDesk

/-- The entry of a list for a number of use. -/
def useUp? {α : Type} (items : List α) (index : Nat) : Option α :=
  items[min index (items.length - 1)]?

inductive PreparedReply
  /-- A successful response whose body has these members. -/
  | members (content : Members)
  | response (status : Int) (body : Bytes)
  | dropped (reason : Text)

structure Rehearsal where
  chain : Snapshot
  replies : Table String (List PreparedReply)
  sources : List (List Int)
  /-- What is chosen above the lower bound, if the upper bound allows it. -/
  padding : Int

namespace PreparedReply

def noMethod : PreparedReply :=
  .members [("error", .object [("code", .int (-32601)), ("message", .text "no such method")])]

def reply (request : ApiRequest) : PreparedReply → ApiReply
  | members content =>
    let head : Members := [("jsonrpc", .text "2.0"), ("id", .int request.id)]
    .response 200 (Bytes.ofText (Json.object (head ++ content)).line)
  | response status body => .response status body
  | dropped reason => .dropped reason

end PreparedReply

namespace Rehearsal

def reply (rehearsal : Rehearsal) (earlier : List ApiRequest) (request : ApiRequest) : ApiReply :=
  let count := (earlier.filter fun other => other.method = request.method).length
  let prepared := (Table.get? rehearsal.replies request.method).bind fun replies =>
    useUp? replies count
  (prepared.getD .noMethod).reply request

def outside (rehearsal : Rehearsal) : Outside where
  node := rehearsal.chain.node
  reply := rehearsal.reply
  candidate := fun source index => (useUp? (rehearsal.sources.getD source []) index).getD 0
  choose := fun low high => min (low + rehearsal.padding) high
  patience := 4096

end Rehearsal

end OrderDesk
