import OrderDesk.Json.Convert
import OrderDesk.Json.Quantity

/-!
# Deployments

The contracts of the settlement system on one chain. Two deployments are known; a configuration may
replace parts of them. Its name, its chain and its first block are then what the configuration gives,
of whatever kind; only a signature needs the number of the chain.
-/

namespace OrderDesk

structure Deployment where
  name : Json
  chainId : Json
  /-- The settlement contract, which is also the hook of its pools. -/
  angstrom : Address
  controller : Address
  gasToken : Address
  poolManager : Address
  positionManager : Address
  deployBlock : Json

namespace Deployment

def mainnetChain : Int := 1
def sepoliaChain : Int := 11155111

def mainnet : Deployment where
  name := .text "mainnet"
  chainId := .int mainnetChain
  angstrom := .ofNat 0x0000000aa232009084bd71a5797d089aa4edfad4
  controller := .ofNat 0x1746484ea5e11c75e009252c102c8c33e0315fd4
  gasToken := .ofNat 0xc02aaa39b223fe8d0a0e5c4f27ead9083c756cc2
  poolManager := .ofNat 0x000000000004444c5dc75cb358380d2e3de08a90
  positionManager := .ofNat 0xbd216513d74c8cf14cf4747e6aaa6420ff64ee9e
  deployBlock := .int 22971781

def sepolia : Deployment where
  name := .text "sepolia"
  chainId := .int sepoliaChain
  angstrom := .ofNat 0x3b9172ef12bd245a07da0d43de29e09036626afc
  controller := .ofNat 0x977c67e6cee5b5de090006e87adafc99ebed2a7a
  gasToken := .ofNat 0xfff9976782d46cc05630d1f6ebab18b2324d6b14
  poolManager := .ofNat 0xe03a1074c86cfedd5c142c4f04f1a1536e203543
  positionManager := .ofNat 0x429ba70129df741b2ca2a85bc3a2a3328e5c09b4
  deployBlock := .int 8578780

def known : List (Int × Deployment) := [(mainnetChain, mainnet), (sepoliaChain, sepolia)]

def ofChainId (chainId : Int) : Except Fault Deployment :=
  match known.find? fun entry => entry.1 = chainId with
  | some (_, deployment) => .ok deployment
  | none => .error (.unknownChain chainId)

def toJson (deployment : Deployment) : Json :=
  .object [("name", deployment.name), ("chain_id", deployment.chainId),
    ("angstrom_address", .text deployment.angstrom.text),
    ("controller_address", .text deployment.controller.text),
    ("gas_token_address", .text deployment.gasToken.text),
    ("pool_manager_address", .text deployment.poolManager.text),
    ("position_manager_address", .text deployment.positionManager.text),
    ("deploy_block", deployment.deployBlock)]

/-! ## Replacing parts -/

def memberNames : List Text :=
  ["name", "chain_id", "angstrom_address", "controller_address", "gas_token_address",
    "pool_manager_address", "position_manager_address", "deploy_block"]

def replace (deployment : Deployment) (members : Members) : Except Fault Deployment := do
  let name ← members.read "name" .ok deployment.name
  let chainId ← members.read "chain_id" .ok deployment.chainId
  let deployBlock ← members.read "deploy_block" .ok deployment.deployBlock
  let angstrom ← members.read "angstrom_address" Json.toAddress deployment.angstrom
  let controller ← members.read "controller_address" Json.toAddress deployment.controller
  let gasToken ← members.read "gas_token_address" Json.toAddress deployment.gasToken
  let poolManager ← members.read "pool_manager_address" Json.toAddress deployment.poolManager
  let positionManager ←
    members.read "position_manager_address" Json.toAddress deployment.positionManager
  return {
    name, chainId, angstrom, controller, gasToken, poolManager, positionManager, deployBlock }

/-! ### Names of parts -/

inductive PartName
  | nothing
  | text (value : Text)
  | number (value : Quantity)
deriving DecidableEq, Repr

namespace PartName

/-- Arrays and objects cannot be looked up. -/
def ofJson : Json → Except Fault PartName
  | .null => .ok nothing
  | .text value => .ok (text value)
  | .bool value => .ok (number (.truth value))
  | .int value => .ok (number (.whole value))
  | .real value => .ok (number (.real value))
  | .array _ | .object _ => .error .wrongType

def toJson : PartName → Json
  | nothing => .null
  | text value => .text value
  | number (.whole value) => .int value
  | number (.truth value) => .bool value
  | number (.real value) => .real value

def compare? : PartName → PartName → Option Ordering
  | text first, text second => some (first.compare second)
  | number first, number second => first.compare? second
  | _, _ => none

/-- Whether two names are one: numbers are by what they are worth. -/
def same (first second : PartName) : Bool :=
  first = nothing && second = nothing || compare? first second = some .eq

def isMember : PartName → Bool
  | text value => memberNames.contains value
  | _ => false

def isText : PartName → Bool
  | text _ => true
  | _ => false

def isNumber : PartName → Bool
  | number _ => true
  | _ => false

/-- Names in order; more than one must be all texts or all numbers. -/
def sort (names : List PartName) : Except Fault (List PartName) :=
  if names.length ≤ 1 ∨ names.all isText ∨ names.all isNumber then
    .ok (names.mergeSort fun first second => compare? first second ≠ some .gt)
  else .error .wrongType

end PartName

def foreignNames (names : List PartName) : Except Fault (List PartName) :=
  PartName.sort ((names.filter fun name => !name.isMember).eraseDupsBy PartName.same)

/-- The deployment with the parts that a value of a configuration names. A value without any content
names none. -/
def replaceWith (deployment : Deployment) (parts : Json) : Except Fault Deployment := do
  if ¬ parts.truthy then return deployment
  let names ← (← parts.parts).mapM PartName.ofJson
  let foreign ← foreignNames names
  if ¬ foreign.isEmpty then .error (.unknownFields (Json.array (foreign.map (·.toJson))).shown)
  else match parts with
    | .object members => deployment.replace members
    | _ => .error .wrongType

def readChainId : Json → Except Fault Int
  | .text text =>
    match IntegerText.read? 10 text.chars with
    | some value => .ok value
    | none => .error .badInteger
  | value => value.toInt

/-- The deployment that a configuration asks for; without a chain, the first known one. -/
def ofSettings (settings : Members) : Except Fault Deployment := do
  let chainId ← settings.read "chain_id" readChainId 1
  let deployment ← ofChainId chainId
  deployment.replaceWith (settings.value "addresses")

end Deployment

end OrderDesk
