import OrderDesk.Client

/-!
# Settings

A configuration is an object over a set of standard settings. Most settings are read only when they
are used.

* `Settings.load` reads a configuration.
* `Settings.client` makes the client that it describes.
-/

namespace OrderDesk.Settings

/-- What holds where a configuration says nothing. -/
def standard : Members :=
  [("chain_id", .int 1), ("eth_rpc_url", .text "http://127.0.0.1:8545"),
    ("angstrom_rpc_url", .text "http://127.0.0.1:4200"), ("timeout", .int 30),
    ("private_key", .text ""), ("ticks_per_batch", .int 10), ("tick_band", .int 100),
    ("tick_reader_bytecode", .text ""), ("log_level", .text "INFO"), ("addresses", .object [])]

def pairKey : Json → Except Fault Text
  | .text key => .ok key
  | .array _ | .object _ => .error .wrongType
  | other => .ok other.line

def memberOf (pair : Json) : Except Fault (Text × Json) := do
  match ← pair.parts with
  | [key, value] => return (← pairKey key, value)
  | _ => .error .wrongCount

/-- The members of a document: those of an object, or a list of pairs. -/
def membersOf : Json → Except Fault Members
  | .object members => .ok members
  | document => do (← document.parts).mapM memberOf

/-- The settings of a configuration over the standard ones. Without a key of its own, it has the one
from the environment. -/
def load (capacity : Json.Capacity) (document : Option Text) (environmentKey : Option String) :
    Except Fault Members := do
  let members ← match document with
    | none => .ok []
    | some text => membersOf (← Json.read capacity text)
  let settings := members.foldl (fun settings member => settings.set member.1 member.2) standard
  if (settings.value "private_key").truthy then return settings
  else return settings.set "private_key" (.text (environmentKey.getD ""))

def readerCode (settings : Members) : Except Fault Bytes :=
  match Table.get? settings "tick_reader_bytecode" with
  | some (.text source) =>
    match Hex.read? source.string with
    | some code => .ok code
    | none => .error .badHex
  | some other => if other.truthy then .error .notAnObject else .ok []
  | none => .ok []

def quantity (settings : Members) (name : Text) (default : Int) : Setting Quantity :=
  match Quantity.ofJson? ((Table.get? settings name).getD (.int default)) with
  | some value => .ok value
  | none => .error .wrongType

def signer (settings : Members) (deployment : Deployment) : Except Fault (Option Signer) :=
  let key := settings.value "private_key"
  if key.truthy then do return some ⟨← SigningKey.ofJson key, deployment⟩ else .ok none

def orderLink (settings : Members) : OrderLink :=
  match settings.value "angstrom_rpc_url" with
  | .text address => if address.isEmpty then .none else .sound
  | other => if other.truthy then .unusable else .none

def client (settings : Members) (source : Nat) : Except Fault Client := do
  let deployment ← Deployment.ofSettings settings
  let signer ← signer settings deployment
  let readerCode ← readerCode settings
  let band : Band := ⟨quantity settings "tick_band" 100, quantity settings "ticks_per_batch" 10⟩
  return Client.make ⟨deployment, orderLink settings⟩ signer none source readerCode band

def checkLogLevel (settings : Members) (given : Option String) : Except Fault Unit :=
  match given.filter fun level => !level.isEmpty, Table.get? settings "log_level" with
  | some _, _ => .ok ()
  | none, none => .ok ()
  | none, some (.text _) => .ok ()
  | none, some _ => .error .notAnObject

end OrderDesk.Settings
