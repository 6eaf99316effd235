import OrderDesk.Node

/-!
# Nodes over a connection

A question is sent on as a request; the reply is data, a number, a revert or a failure. What the
other side says of a failure is put behind a text that names the question.

* `Gateway.node` is the node behind a connection.
-/

namespace OrderDesk

inductive NodeRequest
  | blockNumber
  | storage (address : Address) (slot : Int) (block : Option BlockName)
  | code (address : Address) (block : Option BlockName)
  /-- A call of a contract, or of creation code if there is no target. -/
  | call (target : Option Address) (data : Bytes) (block : Option BlockName)
deriving DecidableEq, Repr

def NodeRequest.toJson (request : NodeRequest) : Json :=
  let named (block : Option BlockName) : Json :=
    .object [("block_identifier", (block.map (·.toJson)).getD (.text "latest"))]
  match request with
  | blockNumber => .array [.array [], .object []]
  | storage address slot block => .array [.array [.text address.text, .int slot], named block]
  | code address block => .array [.array [.text address.text], named block]
  | call (some target) data block =>
    .array [.array [.object [("to", .text target.text), ("data", .text (Hex.text data))]], named block]
  | call none data block =>
    .array [.array [.object [("data", .text (Hex.text data))]], named block]

inductive NodeReply
  | data (bytes : Bytes)
  | number (value : Int)
  | reverted (text : Text)
  | failed (text : Text)
deriving DecidableEq, Repr

namespace NodeReply

/-- The data of a reply; a number stands for its bytes. -/
def bytes : NodeReply → Except Text Bytes
  | data bytes => .ok bytes
  | number value => .ok (Bytes.ofNat 32 value.toNat)
  | reverted text | failed text => .error text

/-- The number of a reply; data stand for the number they write. -/
def toInt : NodeReply → Except Text Int
  | data bytes => .ok (Bytes.toNat bytes)
  | number value => .ok value
  | reverted text | failed text => .error text

end NodeReply

structure Question (α : Type) where
  request : NodeRequest
  read : NodeReply → Except Fault α

namespace Gateway

def explain {α : Type} (text : Text) : Except Text α → Except Fault α
  | .ok value => .ok value
  | .error detail => .error (.chainRead text detail)

def storage (spelling : Text) (slot : Slot) (block : Option BlockName) : Except Fault (Question Int) :=
  let text : Text := "get_storage_at(" ++ spelling ++ ") failed: "
  match Address.parse? spelling.string with
  | some address => .ok ⟨.storage address slot.toInt block, fun reply => explain text reply.toInt⟩
  | none => .error (.chainRead text "not an address")

def code (spelling : Text) (block : Option BlockName) : Except Fault (Question Bytes) :=
  let text : Text := "get_code(" ++ spelling ++ ") failed: "
  match Address.parse? spelling.string with
  | some address => .ok ⟨.code address block, fun reply => explain text reply.bytes⟩
  | none => .error (.chainRead text "not an address")

def blockNumber : Question Int :=
  ⟨.blockNumber, fun reply => explain "block_number failed: " reply.toInt⟩

def call (spelling : Text) (data : Bytes) (block : Option BlockName) : Except Fault (Question Bytes) := do
  let address ← readAddress spelling.string
  return ⟨.call (some address) data block, fun reply =>
    match reply with
    | .reverted detail => .error (.reverted ("eth_call to " ++ spelling ++ " reverted: ") detail)
    | reply => explain ("eth_call to " ++ spelling ++ " failed: ") reply.bytes⟩

def deploy (data : Bytes) (block : Option BlockName) : Question Bytes :=
  ⟨.call none data block, fun reply =>
    match reply.bytes with
    | .ok bytes => .ok bytes
    | .error detail => .error (.deployCall "deploy call failed: " detail)⟩

def ask {α : Type} (send : NodeRequest → NodeReply) (question : Except Fault (Question α)) :
    Except Fault α := do
  let question ← question
  question.read (send question.request)

def node (send : NodeRequest → NodeReply) : Node where
  blockNumber := ask send (.ok blockNumber)
  storage := fun address slot block => ask send (storage address.text (.bytes slot) block)
  code := fun address block => ask send (code address.text block)
  call := fun target data block => ask send (call target.text data block)
  deploy := fun data block => ask send (.ok (deploy data block))

end Gateway

end OrderDesk
