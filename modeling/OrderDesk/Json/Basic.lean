import OrderDesk.Json.Binary64
import OrderDesk.Table
import OrderDesk.Text.Quoted

/-!
# JSON values

Whole numbers stay exact whatever their size; numbers with a fraction or an exponent are doubles.
The members of an object keep the order in which their keys came in. Texts are made of any code
points.
-/

namespace OrderDesk

inductive Json
  | null
  | bool (value : Bool)
  | int (value : Int)
  | real (value : Binary64)
  | text (value : Text)
  | array (items : List Json)
  | object (members : List (Text × Json))

namespace Json

instance : Inhabited Json := ⟨.null⟩

def member? (value : Json) (key : Text) : Option Json :=
  match value with
  | .object members => Table.get? members key
  | _ => none

/-- Nothing, false, zero and the empty text, array and object count as false. -/
def truthy : Json → Bool
  | .null => false
  | .bool value => value
  | .int value => value ≠ 0
  | .real value => !value.isZero
  | .text value => !value.isEmpty
  | .array items => !items.isEmpty
  | .object members => !members.isEmpty

/-! ## Values inside messages -/

mutual

def shown : Json → String
  | .null => "None"
  | .bool true => "True"
  | .bool false => "False"
  | .int value => toString value
  | .real value =>
    match value with
    | .infinite false => "inf"
    | .infinite true => "-inf"
    | .undefined => "nan"
    | number => number.text
  | .text value => Quoted.encode value
  | .array items => "[" ++ shownItems items ++ "]"
  | .object members => "\x7b" ++ shownMembers members ++ "\x7d"

def shownItems : List Json → String
  | [] => ""
  | [item] => shown item
  | item :: rest => shown item ++ ", " ++ shownItems rest

def shownMembers : List (Text × Json) → String
  | [] => ""
  | [(key, value)] => Quoted.encode key ++ ": " ++ shown value
  | (key, value) :: rest => Quoted.encode key ++ ": " ++ shown value ++ ", " ++ shownMembers rest

end

/-- A value that is itself a message: a text stands for itself. -/
def plain : Json → Text
  | .text value => value
  | value => shown value

/-! ## Capacity -/

/-- What can be held while values are read. An order is written with three objects in one another,
and can always be read; and what was read can be shown. -/
structure Capacity where
  /-- How many lists and objects can be open at a time. -/
  nesting : Nat
  /-- How many zero bytes a number can stand for. -/
  zeros : Nat
  nesting_ge : 3 ≤ nesting

def Capacity.usual : Capacity := ⟨10000, 2 ^ 24, by decide⟩

end Json

end OrderDesk
