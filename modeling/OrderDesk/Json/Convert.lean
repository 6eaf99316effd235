import OrderDesk.Fault
import OrderDesk.Text.Integer

/-!
# Taking values apart

What a value of JSON stands for where a number, a byte string, an address or a list is expected.
Conversions are generous: numbers, bytes and addresses come in several forms.
-/

namespace OrderDesk

namespace Json

/-- A whole number: a number without its fraction, a truth value as 0 or 1, or a text. -/
def toInt : Json → Except Fault Int
  | .int value => .ok value
  | .bool value => .ok (if value then 1 else 0)
  | .real value =>
    match value.truncate? with
    | some whole => .ok whole
    | none => .error (if value = .undefined then .badInteger else .tooWide)
  | .text source =>
    match IntegerText.readMarked? source with
    | some value => .ok value
    | none => .error .badInteger
  | .null | .array _ | .object _ => .error .wrongType

def toByte : Json → Except Fault UInt8
  | .int value =>
    if 0 ≤ value ∧ value < 256 then .ok (UInt8.ofNat value.toNat) else .error .badByte
  | .bool value => .ok (if value then 1 else 0)
  | _ => .error .wrongType

/-- A run of zero bytes as long as this cannot even be asked for. -/
def zerosLimit : Int := 2 ^ 63 - 33

/-- A byte string: hexadecimal text, a list of bytes, or a number of zero bytes. -/
def toBytes (capacity : Capacity) : Json → Except Fault Bytes
  | .text source =>
    match Hex.read? source.string with
    | some bytes => .ok bytes
    | none => .error .badHex
  | .array items => items.mapM toByte
  | .int count =>
    if count < -2 ^ 63 ∨ zerosLimit ≤ count then .error .tooWide
    else if count < 0 then .error .badByte
    else if count ≤ capacity.zeros then .ok (Bytes.zeros count.toNat)
    else .error .tooLong
  | .bool value => .ok (Bytes.zeros (if value then 1 else 0))
  | .object [] => .ok []
  | .object _ | .null | .real _ => .error .wrongType

/-- An address: its spelling, or a number of forty hexadecimal digits. -/
def toAddress : Json → Except Fault Address
  | .text spelling => readAddress spelling.string
  | .int value =>
    if 16 ^ 39 ≤ value ∧ value < 16 ^ 40 then .ok (Address.ofNat value.toNat)
    else .error .badAddress
  | .bool _ => .error .badAddress
  | .null | .real _ | .array _ | .object _ => .error .wrongType

/-- The parts that a value is made of: items, code points, or the keys of an object. -/
def parts : Json → Except Fault (List Json)
  | .array items => .ok items
  | .text source => .ok (source.points.map fun point => .text (.singleton point))
  | .object members => .ok (members.map fun member => .text member.1)
  | .null | .bool _ | .int _ | .real _ => .error .wrongType

end Json

/-! ## Members -/

abbrev Members := Table Text Json

def Json.members : Json → Except Fault Members
  | .object members => .ok members
  | _ => .error .notAnObject

namespace Members

/-- Converts a member; a missing one has its default. -/
def read {α : Type} (members : Members) (name : Text) (convert : Json → Except Fault α)
    (default : α) : Except Fault α :=
  match Table.get? members name with
  | some value => convert value
  | none => .ok default

def readInt (members : Members) (name : Text) : Except Fault Int :=
  members.read name Json.toInt 0

def readAddress (members : Members) (name : Text) : Except Fault Address :=
  members.read name Json.toAddress .zero

def readFlag (members : Members) (name : Text) (default : Bool) : Bool :=
  match Table.get? members name with
  | some value => value.truthy
  | none => default

def value (members : Members) (name : Text) : Json := (Table.get? members name).getD .null

end Members

end OrderDesk
