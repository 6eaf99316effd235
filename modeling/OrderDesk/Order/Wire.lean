import OrderDesk.Json.Convert
import OrderDesk.Json.Printer
import OrderDesk.Json.Reader
import OrderDesk.Order.Basic

/-!
# Orders in JSON

An order is an object with one member: its tag, and under it the signed fields followed by the
authorization. Reading is generous: members may be missing, and values come in several forms.

* `Order.toText` and `Order.ofText` write and read whole documents; `Order.document` refuses numbers
  that are too long to be written.
-/

namespace OrderDesk

/-! ## Writing -/

def FieldValue.toJson : FieldValue → Json
  | uint _ value => .int value
  | flag value => .bool value
  | account value => .text value.text
  | bytes value => .text (Hex.text value)

def Authorization.toJson (authorization : Authorization) : Json :=
  .object [("isEcdsa", .bool authorization.isEcdsa), ("from", .text authorization.sender.text),
    ("signature", .text (Hex.text authorization.signature))]

namespace Order

def toJson (order : Order) : Json :=
  let fields : Members := order.fields.map fun field => (field.name, field.value.toJson)
  let authorization : Members := [("meta", order.authorization.toJson)]
  .object [(order.kind.tag, .object (fields ++ authorization))]

def toText (order : Order) : String := order.toJson.pretty

def document (order : Order) : Except Fault String :=
  if order.toJson.isWritable then .ok order.toText else .error .badInteger

end Order

/-! ## Reading -/

def Authorization.ofJson (capacity : Json.Capacity) : Json → Except Fault Authorization
  | .object members => do
    let sender ← Members.readAddress members "from"
    let signature ← Members.read members "signature" (Json.toBytes capacity) []
    return { isEcdsa := Members.readFlag members "isEcdsa" false, sender, signature }
  | _ => .error .notAnObject

namespace Order

def readSize (exact : Bool) (members : Members) : Except Fault OrderSize := do
  if exact then
    return .exact (members.readFlag "exact_in" true) (← members.readInt "amount")
  else
    let least ← members.readInt "min_amount_in"
    let most ← members.readInt "max_amount_in"
    return .range least most

def readLifetime (standing : Bool) (members : Members) : Except Fault Lifetime := do
  if standing then
    let nonce ← members.readInt "nonce"
    let deadline ← members.readInt "deadline"
    return .standing nonce deadline
  else
    return .flash (← members.readInt "valid_for_block")

variable (capacity : Json.Capacity)

def readTerms (kind : OrderKind) (members : Members) : Except Fault OrderTerms := do
  match kind with
  | .topOfBlock =>
    let quantityIn ← members.readInt "quantity_in"
    let quantityOut ← members.readInt "quantity_out"
    let maxGas ← members.readInt "max_gas_asset0"
    let validForBlock ← members.readInt "valid_for_block"
    return .topOfBlock { quantityIn, quantityOut, maxGas, validForBlock }
  | .user exact standing =>
    let refId ← members.readInt "ref_id"
    let size ← readSize exact members
    let maxExtraFee ← members.readInt "max_extra_fee_asset0"
    let minPrice ← members.readInt "min_price"
    let hookData ← members.read "hook_data" (Json.toBytes capacity) []
    let lifetime ← readLifetime standing members
    return .user { refId, maxExtraFee, minPrice, hookData, size, lifetime }

/-- Numbers and bytes are read first, then the authorization, then the addresses. -/
def ofMembers (kind : OrderKind) (members : Members) : Except Fault Order := do
  let terms ← readTerms capacity kind members
  let authorization ← members.read "meta" (Authorization.ofJson capacity) .empty
  let assetIn ← members.readAddress "asset_in"
  let assetOut ← members.readAddress "asset_out"
  let recipient ← members.readAddress "recipient"
  return {
    assetIn, assetOut, recipient, authorization, terms
    useInternal := members.readFlag "use_internal" false }

def memberNames (kind : OrderKind) : List String :=
  match ofMembers capacity kind [] with
  | .ok order => order.fields.map (·.name) ++ ["meta"]
  | .error _ => []

def occurs (part : List Char) : List Char → Bool
  | [] => part.isEmpty
  | c :: rest => part.isPrefixOf (c :: rest) || occurs part rest

/-- A body that is a text or a list has no members; it must not name any either. -/
def ofBody (kind : OrderKind) : Json → Except Fault Order
  | .object members => ofMembers capacity kind members
  | .text text =>
    if (memberNames capacity kind).any fun name => occurs name.toList text.chars then
      .error .wrongType
    else ofMembers capacity kind []
  | .array items =>
    if items.any fun item =>
      match item with
      | .text text => (memberNames capacity kind).any fun name => text = name
      | _ => false
    then .error .wrongType
    else ofMembers capacity kind []
  | .null | .bool _ | .int _ | .real _ => .error .wrongType

def ofJson : Json → Except Fault Order
  | .object [(tag, body)] =>
    match OrderKind.ofTag? tag with
    | some kind => ofBody capacity kind body
    | none => .error .unknownTag
  | .object members => .error (.tagCount (Json.shown (.array (members.map fun member => .text member.1))))
  | .array [_] => .error .notAnObject
  | .array items => .error (.tagCount (Json.shown (.array items)))
  | .text text =>
    let items := text.points.map fun point => Json.text (.singleton point)
    if items.length = 1 then .error .notAnObject
    else .error (.tagCount (Json.shown (.array items)))
  | .null | .bool _ | .int _ | .real _ => .error .wrongType

def ofText (text : Text) : Except Fault Order := do
  ofJson capacity (← Json.read capacity text)

end Order

end OrderDesk
