import OrderDesk.Abi
import OrderDesk.Deployment
import OrderDesk.Order.Wire
import OrderDesk.Signing.Key

/-!
# Typed structured data

What a signature covers: the digest of a structure and of the domain that it is meant for. The
digest of a structure covers its type and one word for each field.

* `Order.signingHash` is the digest that is signed for an order; the authorization is not part of it.
-/

namespace OrderDesk

/-! ## Structures -/

def FieldValue.word? : FieldValue → Option Bytes
  | uint bits value =>
    if 0 ≤ value ∧ value < 2 ^ bits then some (Abi.numberWord value) else none
  | flag value => some (Abi.numberWord (if value then 1 else 0))
  | account value => some (Abi.numberWord value.val)
  | bytes value => some (Keccak.hash value)

/-- The digest of a structure: the digest of its type, and the words of its fields. -/
def structHash? (typeText : String) (values : List FieldValue) : Option Bytes := do
  let words ← values.mapM FieldValue.word?
  return Keccak.hash (Keccak.hash (Bytes.ofText typeText) ++ words.flatten)

/-! ## Domains -/

def domainName : String := "Angstrom"
def domainVersion : String := "v1"

def domainTypes : List (String × String) :=
  [("name", "string"), ("version", "string"), ("chainId", "uint256"), ("verifyingContract", "address")]

def domainTypeText : String :=
  "EIP712Domain(" ++ String.intercalate "," (domainTypes.map fun (name, type) => type ++ " " ++ name) ++ ")"

/-- The number that a text writes for a chain: in base sixteen behind `0x`, or in base ten. -/
def readChainNumber? (text : List Char) : Option Int :=
  match text with
  | '0' :: mark :: digits =>
    if (mark = 'x' ∨ mark = 'X') ∧ digits.all fun c => (Hex.digit? c).isSome then
      IntegerText.read? 16 text
    else IntegerText.read? 10 text
  | text => IntegerText.read? 10 text

def Deployment.chainNumber? (deployment : Deployment) : Option Int :=
  match deployment.chainId with
  | .int value => some value
  | .text text => readChainNumber? text.chars
  | _ => none

def Deployment.domainHash? (deployment : Deployment) : Option Bytes := do
  let chain ← deployment.chainNumber?
  structHash? domainTypeText
    [.bytes (Bytes.ofText domainName), .bytes (Bytes.ofText domainVersion),
      .uint 256 chain, .account deployment.angstrom]

/-! ## Orders -/

namespace Order

def signingHash (order : Order) (deployment : Deployment) : Except Fault Bytes :=
  match deployment.domainHash?, structHash? order.typeText (order.fields.map (·.value)) with
  | some domain, some struct => .ok (Keccak.hash ([0x19, 0x01] ++ domain ++ struct))
  | _, _ => .error (.unsignable order.kind.structName)

def recoverSigner (order : Order) (deployment : Deployment) : Except Fault Address := do
  let signature ← Signature.split order.authorization.signature
  match order.signingHash deployment with
  | .ok digest =>
    match signature.recover? digest with
    | some signer => .ok signer
    | none => .error .unrecoverable
  | .error _ => .error .unrecoverable

end Order

structure Signer where
  key : SigningKey
  deployment : Deployment

namespace Signer

def address (signer : Signer) : Address := signer.key.address

def sign (signer : Signer) (order : Order) : Except Fault Authorization := do
  let digest ← order.signingHash signer.deployment
  match signer.key.sign? digest with
  | some signature => return ⟨true, signer.address, signature.bytes⟩
  | none => .error (.unsigned order.kind.structName)

end Signer

/-! ## The message as a document -/

def typesJson (types : List (String × String)) : Json :=
  .array (types.map fun (name, type) => .object [("name", .text name), ("type", .text type)])

def Order.message (order : Order) : Json :=
  .object (order.fields.map fun field => ((field.name : Text), field.value.toJson))

def Deployment.domain (deployment : Deployment) : Json :=
  .object [("name", .text domainName), ("version", .text domainVersion),
    ("chainId", deployment.chainId), ("verifyingContract", .text deployment.angstrom.text)]

def Order.typedData (order : Order) (deployment : Deployment) : Json :=
  let types := order.fields.map fun field => (field.name, field.value.typeName)
  .object [
    ("types", .object [("EIP712Domain", typesJson domainTypes), (order.kind.structName, typesJson types)]),
    ("primaryType", .text order.kind.structName),
    ("domain", deployment.domain),
    ("message", order.message)]

end OrderDesk
