import OrderDesk.Block
import OrderDesk.Fault
import OrderDesk.Storage.Slot

/-!
# Nodes

A node answers questions about the state of the chain, at a block or at the latest one.
-/

namespace OrderDesk

/-- What a node answers; without a block, for the latest one. -/
structure Node where
  blockNumber : Except Fault Int
  storage : (address : Address) → (slot : Bytes) → (block : Option BlockName) → Except Fault Int
  code : (address : Address) → (block : Option BlockName) → Except Fault Bytes
  call : (target : Address) → (data : Bytes) → (block : Option BlockName) → Except Fault Bytes
  /-- What creation code returns, if it were run. -/
  deploy : (data : Bytes) → (block : Option BlockName) → Except Fault Bytes

inductive NodeRead
  | blockNumber
  | storage (address : Address) (slot : Bytes) (block : Option BlockName)
  | code (address : Address) (block : Option BlockName)
  | call (target : Address) (data : Bytes) (block : Option BlockName)
  | deploy (data : Bytes) (block : Option BlockName)
deriving DecidableEq, Repr

/-- A question as a row: its kind, the account asked about, what is asked for, and the block. -/
def NodeRead.toRow (question : NodeRead) : List Json :=
  let at? (block : Option BlockName) : Json := (block.map (·.toJson)).getD .null
  match question with
  | blockNumber => [.text "block_number", .null, .null, .null]
  | storage address slot block =>
    [.text "storage", .text address.text, .text (Hex.text slot), at? block]
  | code address block => [.text "code", .text address.text, .null, at? block]
  | call target data block => [.text "call", .text target.text, .text (Hex.text data), at? block]
  | deploy data block => [.text "deploy", .null, .text (Hex.text data), at? block]

end OrderDesk
