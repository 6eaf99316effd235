import OrderDesk.Node
import OrderDesk.Table

/-!
# Recorded chains

A chain given by tables: words, code, and the outcomes of calls. All blocks look alike. Words and
code that are not recorded are zero and empty; a call that is not recorded fails.
-/

namespace OrderDesk

/-- What happens when a call runs, or when something is read. -/
inductive Outcome (α : Type)
  | value (value : α)
  | reverts (text : Text)
  | fails (text : Text)
deriving Repr

structure Snapshot where
  block : Int
  storage : Table (Address × Bytes) (Outcome Int)
  code : Table Address (Outcome Bytes)
  calls : Table (Address × Bytes) (Outcome Bytes)
  deploys : Table Bytes (Outcome Bytes)
  otherDeploys : Option (Outcome Bytes)

namespace Outcome

def read {α : Type} : Outcome α → Except Fault α
  | value result => .ok result
  | reverts text => .error (.reverted text "")
  | fails text => .error (.chainRead text "")

def run {α : Type} : Outcome α → Except Fault α
  | value result => .ok result
  | reverts text => .error (.reverted text "")
  | fails text => .error (.deployCall text "")

end Outcome

namespace Snapshot

def node (snapshot : Snapshot) : Node where
  blockNumber := .ok snapshot.block
  storage := fun address slot _ =>
    ((Table.get? snapshot.storage (address, slot)).getD (.value 0)).read
  code := fun address _ => ((Table.get? snapshot.code address).getD (.value [])).read
  call := fun target data _ =>
    ((Table.get? snapshot.calls (target, data)).getD (.fails "no such call")).read
  deploy := fun data _ =>
    match Table.get? snapshot.deploys data with
    | some outcome => outcome.run
    | none => (snapshot.otherDeploys.getD (.fails "no deploy")).run

end Snapshot

end OrderDesk
