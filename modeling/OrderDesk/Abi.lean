import OrderDesk.Fault

/-!
# Call data

Arguments and results of contract calls are 32-byte words. A word of a narrow type is padded: numbers
in front with their sign, byte strings behind with zeros. Reading is strict about the padding.

* `Abi.encodeWord_length`: a written value takes 32 bytes.
* `Abi.signedValue_numberWord`: a signed number reads back from its word.
-/

namespace OrderDesk.Abi

inductive WordType
  | uint (bits : Nat)
  | int (bits : Nat)
  | bool
  | address
  | bytes (size : Nat)
deriving DecidableEq, Repr

namespace WordType

/-- The values of a type. Numbers may be out of its range until they are written. -/
@[reducible] def Value : WordType → Type
  | uint _ | int _ => Int
  | bool => Bool
  | address => Address
  | bytes _ => Bytes

def name : WordType → String
  | uint bits => "uint" ++ toString bits
  | int bits => "int" ++ toString bits
  | bool => "bool"
  | address => "address"
  | bytes size => "bytes" ++ toString size

def all : List WordType :=
  let sizes := (List.range 32).map (· + 1)
  bool :: address :: sizes.map (fun size => uint (8 * size)) ++
    sizes.map (fun size => int (8 * size)) ++ sizes.map bytes

def ofName? (name : String) : Option WordType := all.find? fun type => type.name = name

end WordType

/-! ## Words -/

/-- The word of a number, negative ones in two's complement. -/
def numberWord (value : Int) : Bytes := Bytes.ofNat 32 (value % 2 ^ 256).toNat

def signedValue (word : Bytes) : Int :=
  let value := Bytes.toNat word
  if value < 2 ^ 255 then value else (value : Int) - 2 ^ 256

def encodeWord : (type : WordType) → type.Value → Except Fault Bytes
  | .uint bits, value =>
    if 0 ≤ value ∧ value < 2 ^ bits then .ok (numberWord value) else .error .argumentOutOfRange
  | .int bits, value =>
    if -2 ^ (bits - 1) ≤ value ∧ value < 2 ^ (bits - 1) then .ok (numberWord value)
    else .error .argumentOutOfRange
  | .bool, value => .ok (numberWord (if value then 1 else 0))
  | .address, value => .ok (numberWord value.val)
  | .bytes size, value =>
    if value.length ≤ size then .ok (value.padRight 32) else .error .argumentOutOfRange

/-- The value of a word, if its padding is right. -/
def decodeWord : (type : WordType) → Bytes → Option type.Value
  | .uint bits, word =>
    let value := Bytes.toNat word
    if value < 2 ^ bits then some (value : Int) else none
  | .int bits, word =>
    let value := signedValue word
    if -2 ^ (bits - 1) ≤ value ∧ value < 2 ^ (bits - 1) then some value else none
  | .bool, word =>
    match Bytes.toNat word with
    | 0 => some false
    | 1 => some true
    | _ => none
  | .address, word =>
    if within : Bytes.toNat word < 2 ^ 160 then some ⟨Bytes.toNat word, within⟩ else none
  | .bytes size, word =>
    if (word.drop size).all (· = 0) then some (word.take size) else none

/-! ## Sequences of words -/

@[reducible] def Values : List WordType → Type
  | [] => Unit
  | type :: types => type.Value × Values types

def encode : (types : List WordType) → Values types → Except Fault Bytes
  | [], _ => .ok []
  | type :: types, (value, values) => do
    let word ← encodeWord type value
    let rest ← encode types values
    return word ++ rest

def decodeHead? : (types : List WordType) → Bytes → Option (Values types)
  | [], _ => some ()
  | type :: types, data => do
    if data.length < 32 then none
    else
      let value ← decodeWord type (data.take 32)
      let values ← decodeHead? types (data.drop 32)
      return (value, values)

/-- The values of returned data; what follows the last word is ignored. -/
def decode (types : List WordType) (data : Bytes) : Except Fault (Values types) :=
  match decodeHead? types data with
  | some values => .ok values
  | none => .error (.undecodable (types.map (·.name)) data.length)

/-! ## Arguments of any type -/

/-- A value of some type. An address may be given by its spelling. -/
inductive Argument
  | number (value : Int)
  | flag (value : Bool)
  | account (address : Address)
  | spelled (text : String)
  | bytes (value : Bytes)
deriving DecidableEq, Repr

def Argument.as : Argument → (type : WordType) → Except Fault type.Value
  | .number value, .uint _ => .ok value
  | .number value, .int _ => .ok value
  | .flag value, .bool => .ok value
  | .account address, .address => .ok address
  | .spelled text, .address =>
    match Address.parse? text with
    | some address => .ok address
    | none => .error .argumentMistyped
  | .bytes value, .bytes _ => .ok value
  | _, _ => .error .argumentMistyped

def Argument.ofValue : (type : WordType) → type.Value → Argument
  | .uint _, value => .number value
  | .int _, value => .number value
  | .bool, value => .flag value
  | .address, value => .account value
  | .bytes _, value => .bytes value

def encodeEach : List WordType → List Argument → Except Fault Bytes
  | [], _ => .ok []
  | _ :: _, [] => .ok []
  | type :: types, argument :: arguments => do
    let value ← argument.as type
    let word ← encodeWord type value
    let rest ← encodeEach types arguments
    return word ++ rest

def encodeArguments (types : List WordType) (arguments : List Argument) : Except Fault Bytes :=
  if types.length = arguments.length then encodeEach types arguments
  else .error .argumentOutOfRange

def argumentsOf : (types : List WordType) → Values types → List Argument
  | [], _ => []
  | type :: types, (value, values) => Argument.ofValue type value :: argumentsOf types values

/-! ## Calls -/

def selector (signature : String) : Bytes := (Keccak.hash (Bytes.ofText signature)).take 4

def call (signature : String) (types : List WordType) (values : Values types) :
    Except Fault Bytes := do
  return selector signature ++ (← encode types values)

def callWith (signature : String) (types : List WordType) (arguments : List Argument) :
    Except Fault Bytes := do
  return selector signature ++ (← encodeArguments types arguments)

/-! ## Laws -/

theorem numberWord_length (value : Int) : (numberWord value).length = 32 := Bytes.ofNat_length _ _

theorem encodeWord_length {type : WordType} {value : type.Value} {word : Bytes}
    (small : ∀ size, type = .bytes size → size ≤ 32) (written : encodeWord type value = .ok word) :
    word.length = 32 := by
  cases type with
  | bytes size =>
    have bound := small size rfl
    simp only [encodeWord] at written
    split at written <;> simp only [Except.ok.injEq, reduceCtorEq] at written
    subst written
    simp only [Bytes.padRight, Bytes.zeros, List.length_append, List.length_replicate]
    omega
  | uint | int | bool | address =>
    simp only [encodeWord] at written
    try split at written
    all_goals simp only [Except.ok.injEq, reduceCtorEq] at written
    all_goals
      subst written
      exact numberWord_length _

theorem toNat_numberWord (value : Int) : (Bytes.toNat (numberWord value) : Int) = value % 2 ^ 256 := by
  rw [numberWord, Bytes.toNat_ofNat]
  omega

theorem signedValue_numberWord {value : Int} (low : -2 ^ 255 ≤ value) (high : value < 2 ^ 255) :
    signedValue (numberWord value) = value := by
  have whole := toNat_numberWord value
  simp only [signedValue]
  split <;> omega

end OrderDesk.Abi
