import OrderDesk.Address
import OrderDesk.Text.Basic

/-!
# Orders

An order trades one asset for another. A top-of-block order runs before all others of one block. A
user order is for an exact amount or for a range of amounts, and either stands until a deadline,
under a nonce, or is valid for a single block.

* `Order.fields` lists what is signed, in order; all of an order except its authorization.
-/

namespace OrderDesk

structure Authorization where
  isEcdsa : Bool
  sender : Address
  signature : Bytes
deriving DecidableEq, Repr

def Authorization.empty : Authorization := ⟨false, .zero, []⟩

def Authorization.isEmpty (authorization : Authorization) : Bool :=
  authorization.signature.isEmpty && authorization.sender = .zero

inductive OrderSize
  | range (least most : Int)
  | exact (exactIn : Bool) (amount : Int)
deriving DecidableEq, Repr

inductive Lifetime
  | standing (nonce deadline : Int)
  | flash (block : Int)
deriving DecidableEq, Repr

structure TopOfBlockTerms where
  quantityIn : Int
  quantityOut : Int
  maxGas : Int
  validForBlock : Int
deriving DecidableEq, Repr

structure UserTerms where
  refId : Int
  maxExtraFee : Int
  minPrice : Int
  hookData : Bytes
  size : OrderSize
  lifetime : Lifetime
deriving DecidableEq, Repr

inductive OrderTerms
  | topOfBlock (terms : TopOfBlockTerms)
  | user (terms : UserTerms)
deriving DecidableEq, Repr

structure Order where
  assetIn : Address
  assetOut : Address
  recipient : Address
  useInternal : Bool
  authorization : Authorization
  terms : OrderTerms
deriving DecidableEq, Repr

inductive OrderKind
  | topOfBlock
  | user (exact standing : Bool)
deriving DecidableEq, Repr

namespace OrderKind

def all : List OrderKind :=
  [topOfBlock, user false true, user true true, user false false, user true false]

def tag : OrderKind → String
  | topOfBlock => "TOB"
  | user exact standing =>
    (if exact then "Exact" else "Partial") ++ (if standing then "Standing" else "Flash")

def ofTag? (tag : Text) : Option OrderKind := all.find? fun kind => tag = kind.tag

def structName : OrderKind → String
  | topOfBlock => "TopOfBlockOrder"
  | kind => kind.tag ++ "Order"

end OrderKind

/-! ## Fields -/

/-- The value of a field, with the type under which it is signed. -/
inductive FieldValue
  | uint (bits : Nat) (value : Int)
  | flag (value : Bool)
  | account (value : Address)
  | bytes (value : Bytes)
deriving DecidableEq, Repr

def FieldValue.typeName : FieldValue → String
  | uint bits _ => "uint" ++ toString bits
  | flag _ => "bool"
  | account _ => "address"
  | bytes _ => "bytes"

structure Field where
  name : String
  value : FieldValue
deriving DecidableEq, Repr

def OrderSize.fields : OrderSize → List Field
  | range least most => [⟨"min_amount_in", .uint 128 least⟩, ⟨"max_amount_in", .uint 128 most⟩]
  | exact exactIn amount => [⟨"exact_in", .flag exactIn⟩, ⟨"amount", .uint 128 amount⟩]

def Lifetime.fields : Lifetime → List Field
  | standing nonce deadline => [⟨"nonce", .uint 64 nonce⟩, ⟨"deadline", .uint 40 deadline⟩]
  | flash block => [⟨"valid_for_block", .uint 64 block⟩]

namespace Order

def commonFields (order : Order) : List Field :=
  [⟨"use_internal", .flag order.useInternal⟩, ⟨"asset_in", .account order.assetIn⟩,
    ⟨"asset_out", .account order.assetOut⟩, ⟨"recipient", .account order.recipient⟩]

def fields (order : Order) : List Field :=
  match order.terms with
  | .topOfBlock terms =>
    [⟨"quantity_in", .uint 128 terms.quantityIn⟩, ⟨"quantity_out", .uint 128 terms.quantityOut⟩,
      ⟨"max_gas_asset0", .uint 128 terms.maxGas⟩] ++ order.commonFields ++
      [⟨"valid_for_block", .uint 64 terms.validForBlock⟩]
  | .user terms =>
    ⟨"ref_id", .uint 32 terms.refId⟩ :: terms.size.fields ++
      [⟨"max_extra_fee_asset0", .uint 128 terms.maxExtraFee⟩,
        ⟨"min_price", .uint 256 terms.minPrice⟩] ++ order.commonFields ++
      ⟨"hook_data", .bytes terms.hookData⟩ :: terms.lifetime.fields

/-! ## Questions -/

def kind (order : Order) : OrderKind :=
  match order.terms with
  | .topOfBlock _ => .topOfBlock
  | .user terms =>
    .user (match terms.size with | .exact .. => true | .range .. => false)
      (match terms.lifetime with | .standing .. => true | .flash _ => false)

def sender (order : Order) : Address := order.authorization.sender

def isTopOfBlock (order : Order) : Bool := order.kind = .topOfBlock

def isStanding (order : Order) : Bool :=
  match order.kind with
  | .user _ standing => standing
  | .topOfBlock => false

/-- The most that the sender may have to pay of the input asset, fee included. -/
def requiredInput (order : Order) : Int :=
  match order.terms with
  | .topOfBlock terms => terms.quantityIn + terms.maxGas
  | .user terms =>
    (match terms.size with | .exact _ amount => amount | .range _ most => most) + terms.maxExtraFee

/-- The signed structure: its name, and type and name of each field. -/
def typeText (order : Order) : String :=
  order.kind.structName ++ "(" ++ String.intercalate ","
    (order.fields.map fun field => field.value.typeName ++ " " ++ field.name) ++ ")"

/-! ## Changes -/

/-- Gives a standing order its nonce; other orders have none. -/
def withNonce (order : Order) (nonce : Int) : Order :=
  match order.terms with
  | .user terms =>
    match terms.lifetime with
    | .standing _ deadline =>
      { order with terms := .user { terms with lifetime := .standing nonce deadline } }
    | .flash _ => order
  | .topOfBlock _ => order

def withFee (order : Order) (fee : Int) : Order :=
  match order.terms with
  | .topOfBlock terms => { order with terms := .topOfBlock { terms with maxGas := fee } }
  | .user terms => { order with terms := .user { terms with maxExtraFee := fee } }

def withSender (order : Order) (sender : Address) : Order :=
  { order with authorization := { order.authorization with sender } }

end Order

end OrderDesk
