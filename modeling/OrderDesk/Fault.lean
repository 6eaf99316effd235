import OrderDesk.Json.Basic
import OrderDesk.Price.Fault

/-!
# Faults

Every way in which an operation ends without a value. The faults that the desk reports under a name
of their own are those with a `label?`; the others are refusals of an argument or a reply.
-/

namespace OrderDesk

inductive KeyFlaw
  | digit
  | script
  /-- The value is neither a text nor a number. -/
  | kind
  /-- The number does not have 32 bytes, or is out of range. -/
  | range
deriving DecidableEq, Repr

def KeyFlaw.word : KeyFlaw → String
  | digit => "Error"
  | script => "UnicodeEncodeError"
  | kind => "TypeError"
  | range => "ValueError"

inductive Fault
  | price (fault : PriceFault)
  -- Encoding
  /-- A number is negative or too wide for its bytes. -/
  | tooWide
  | tooLong
  | tooDeep
  /-- Half of a pair has no place in what is sent. -/
  | halfInText
  | argumentOutOfRange
  | argumentMistyped
  | undecodable (types : List String) (size : Nat)
  | malformedStore (size : Nat)
  | validBeyondBuffer (valid : Nat) (buffer : Nat)
  | mapKeySize (size : Nat)
  -- Reading texts and values
  | badAddress
  | badInteger
  | badHex
  | badJson (detail : String)
  | badByte
  | wrongType
  | notAnObject
  | errorNotAnObject (error : Json)
  | missingMember (name : String)
  | wrongCount
  | unknownTag
  | tagCount (listing : String)
  -- Building orders
  | flashNeedsBlock
  | minimumAboveMaximum (minimum maximum : Int)
  -- Signing
  | badKey (flaw : KeyFlaw)
  | unsignable (structName : String)
  | unsigned (structName : String)
  | signatureSize (size : Nat)
  | unrecoverable
  -- The chain
  | chainRead (text : Text) (detail : Text)
  | reverted (text : Text) (detail : Text)
  | deployCall (text : Text) (detail : Text)
  | attemptsNotPositive (attempts : Int)
  | noncesExhausted (user : String) (attempts : Nat)
  | noReader
  | batchNotPositive
  | noPoolConfig (token0 token1 : Address)
  | insufficientBalance (token : Address) (required available : Int)
  -- The order interface
  | rpc (code : Text) (message : Text)
  | disconnected (detail : Text)
  | replyNotJson (detail : String)
  | rejected (message : Text)
  -- The desk
  | signerNotLast
  | unknownChain (chainId : Int)
  | unknownFields (listing : String)
  | noGasSource
  | noOrderSource
  | noSender
  | noOrderApi
  | noAddress
  | noOwner
  | isFolder
  | nameTooLong
  /-- A search without a bound did not end in time. -/
  | unfinished

namespace Fault

def message : Fault → Text
  | price fault => fault.message
  | tooWide => "number too wide"
  | tooLong => "byte string too long"
  | tooDeep => "values nested too deeply"
  | halfInText => "half of a pair in a text"
  | argumentOutOfRange => "argument out of range"
  | argumentMistyped => "argument of another kind"
  | undecodable types size =>
    "Cannot decode " ++ Quoted.encodeList types ++ " from " ++ toString size ++ " bytes: "
  | malformedStore size => "Malformed pool config store (" ++ toString size ++ " bytes)"
  | validBeyondBuffer valid buffer =>
    "validTo " ++ toString valid ++ " exceeds tick buffer of " ++ toString buffer
  | mapKeySize size => "pool map key must be 25 bytes, got " ++ toString size
  | badAddress => "not an address"
  | badInteger => "not a whole number"
  | badHex => "not hexadecimal"
  | badJson detail => "not JSON: " ++ detail
  | badByte => "not a byte"
  | wrongType => "value of the wrong type"
  | notAnObject => "value without members"
  | errorNotAnObject error => "'" ++ kind error ++ "' object has no attribute 'get'"
  | missingMember name => "missing member " ++ name
  | wrongCount => "wrong number of items"
  | unknownTag => "unknown variant tag"
  | tagCount listing => "Expected a single variant tag, got " ++ listing
  | flashNeedsBlock => "Flash orders need a block: call .block(n)"
  | minimumAboveMaximum minimum maximum =>
    "min_amount " ++ toString minimum ++ " exceeds max_amount " ++ toString maximum
  | badKey flaw => "Invalid private key: " ++ flaw.word
  | unsignable structName => "Cannot encode " ++ structName ++ " for signing: "
  | unsigned structName => "Signing " ++ structName ++ " failed: "
  | signatureSize size => "Expected a 65-byte signature, got " ++ toString size ++ " bytes"
  | unrecoverable => "Signature recovery failed: "
  | chainRead text detail | reverted text detail | deployCall text detail => text ++ detail
  | attemptsNotPositive attempts => "max_attempts must be positive, got " ++ toString attempts
  | noncesExhausted user attempts =>
    "No unused nonce found for " ++ user ++ " after " ++ toString attempts ++ " attempts"
  | noReader => "Tick reader bytecode is required"
  | batchNotPositive => "batch_size must be positive"
  | noPoolConfig token0 token1 => "No pool config entry for " ++ token0.text ++ "/" ++ token1.text
  | insufficientBalance token required available =>
    "Insufficient balance of " ++ token.text ++ ": required " ++ toString required ++
      ", available " ++ toString available
  | rpc code text => ("RPC Error " : Text) ++ code ++ (": " : Text) ++ text
  | disconnected detail => ("RPC Error -1: Connection failed: " : Text) ++ detail
  | replyNotJson detail => "RPC Error -1: Invalid JSON response: " ++ detail
  | rejected text => text
  | signerNotLast => "The signer must be the last stage of a pipeline"
  | unknownChain chainId => "No Angstrom deployment for chain id " ++ toString chainId
  | unknownFields listing => "Unknown chain config fields: " ++ listing
  | noGasSource => "Gas estimation needs an order API client"
  | noOrderSource => "Generating orders needs an order API client"
  | noSender => "ValidOrderGenerator needs a from address or a signing pipeline"
  | noOrderApi => "No Angstrom order API configured"
  | noAddress => "No address given and no signer configured"
  | noOwner => "No owner given and no signer configured"
  | isFolder => "a folder in place of a file"
  | nameTooLong => "file name too long"
  | unfinished => "the search did not end"
where
  kind : Json → String
    | .null => "NoneType"
    | .bool _ => "bool"
    | .int _ => "int"
    | .real _ => "float"
    | .text _ => "str"
    | .array _ => "list"
    | .object _ => "dict"

def detail : Fault → Text
  | chainRead _ detail | reverted _ detail | deployCall _ detail | disconnected detail => detail
  | replyNotJson detail => detail
  | _ => ""

def ownMessage : Fault → Text
  | chainRead text _ | reverted text _ | deployCall text _ => text
  | disconnected _ => (disconnected "").message
  | replyNotJson _ => (replyNotJson "").message
  | fault => fault.message

def label? : Fault → Option String
  | price fault => if fault.isOverflow then some "MathOverflow" else none
  | undecodable .. | malformedStore _ | validBeyondBuffer .. => some "AbiDecodeError"
  | badKey _ | unsignable _ | unsigned _ | signatureSize _ | unrecoverable => some "SignerError"
  | chainRead .. => some "ChainReadError"
  | reverted .. => some "CallRevertedError"
  | deployCall .. => some "ChainCallError"
  | noncesExhausted .. => some "NonceExhaustedError"
  | noPoolConfig .. => some "NoPoolConfigEntry"
  | insufficientBalance .. => some "InsufficientBalanceError"
  | rpc .. | disconnected _ | replyNotJson _ => some "RPCError"
  | rejected _ => some "OrderApiError"
  | unknownChain _ | noGasSource | noOrderSource | noSender | noOrderApi | noAddress | noOwner =>
    some "SDKError"
  | _ => none

def report? (fault : Fault) : Option Text :=
  fault.label?.map fun label => (label ++ ": " : Text) ++ fault.message

end Fault

/-- A setting that was given from outside. What is wrong with it shows when it is used. -/
abbrev Setting (α : Type) := Except Fault α

def readAddress (spelling : String) : Except Fault Address :=
  match Address.parse? spelling with
  | some address => .ok address
  | none => .error .badAddress

instance : Coe PriceFault Fault := ⟨.price⟩

instance : MonadLift (Except PriceFault) (Except Fault) where
  monadLift
    | .ok value => .ok value
    | .error fault => .error (.price fault)

end OrderDesk
