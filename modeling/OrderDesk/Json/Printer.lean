import OrderDesk.Json.Basic
import OrderDesk.Text.Digit

/-!
# Writing JSON

A value is written in one line, or with one member or item a line and two blanks a level. All
characters beyond ASCII are escaped. A value with a whole number of too many digits has no document,
and one with a number that is none, or with half of a pair, cannot be sent.
-/

namespace OrderDesk.Json

def escapeUnit (unit : Nat) : List Char := '\\' :: 'u' :: Quoted.hexDigits 4 unit

def escapeChar (c : Char) : List Char :=
  if c = '"' then ['\\', '"']
  else if c = '\\' then ['\\', '\\']
  else if c = '\n' then ['\\', 'n']
  else if c = '\r' then ['\\', 'r']
  else if c = '\t' then ['\\', 't']
  else if c.toNat = 8 then ['\\', 'b']
  else if c.toNat = 12 then ['\\', 'f']
  else if 32 ≤ c.toNat ∧ c.toNat < 127 then [c]
  else if c.toNat < 0x10000 then escapeUnit c.toNat
  else
    let offset := c.toNat - 0x10000
    escapeUnit (0xd800 + offset / 0x400) ++ escapeUnit (0xdc00 + offset % 0x400)

def escapePoint : CodePoint → List Char
  | .char c => escapeChar c
  | .half place => escapeUnit (CodePoint.half place).toNat

def writeText (text : Text) : List Char :=
  '"' :: text.points.flatMap escapePoint ++ ['"']

structure Layout where
  line : Nat → List Char
  colon : List Char

def indented : Layout := ⟨fun level => '\n' :: List.replicate (2 * level) ' ', [':', ' ']⟩

def compact : Layout := ⟨fun _ => [], [':']⟩

mutual

def write (layout : Layout) (level : Nat) : Json → List Char
  | .null => ['n', 'u', 'l', 'l']
  | .bool true => ['t', 'r', 'u', 'e']
  | .bool false => ['f', 'a', 'l', 's', 'e']
  | .int value => (toString value).toList
  | .real value => value.text.toList
  | .text value => writeText value
  | .array [] => ['[', ']']
  | .array (item :: items) =>
    '[' :: layout.line (level + 1) ++ writeItems layout (level + 1) (item :: items) ++
      layout.line level ++ [']']
  | .object [] => ['\x7b', '\x7d']
  | .object (member :: members) =>
    '\x7b' :: layout.line (level + 1) ++ writeMembers layout (level + 1) (member :: members) ++
      layout.line level ++ ['\x7d']

def writeItems (layout : Layout) (level : Nat) : List Json → List Char
  | [] => []
  | [item] => write layout level item
  | item :: rest =>
    write layout level item ++ ',' :: layout.line level ++ writeItems layout level rest

def writeMembers (layout : Layout) (level : Nat) : List (Text × Json) → List Char
  | [] => []
  | [(key, value)] => writeText key ++ layout.colon ++ write layout level value
  | (key, value) :: rest =>
    writeText key ++ layout.colon ++ write layout level value ++ ',' :: layout.line level ++
      writeMembers layout level rest

end

/-! ## What can be written -/

mutual

/-- Whether a property holds of every part of a value that is no array or object, keys included. -/
def allParts (holds : Json → Bool) : Json → Bool
  | .array items => allItems holds items
  | .object members => allMembers holds members
  | part => holds part

def allItems (holds : Json → Bool) : List Json → Bool
  | [] => true
  | item :: rest => allParts holds item && allItems holds rest

def allMembers (holds : Json → Bool) : List (Text × Json) → Bool
  | [] => true
  | (key, value) :: rest => holds (.text key) && allParts holds value && allMembers holds rest

end

/-- Whether the whole numbers in a value have few enough digits. -/
def isWritable (value : Json) : Bool :=
  value.allParts fun
    | .int number => Digit.fits number
    | _ => true

/-- Whether the numbers with a fraction in a value are numbers. -/
def isFinite (value : Json) : Bool :=
  value.allParts fun
    | .real (.finite ..) => true
    | .real _ => false
    | _ => true

/-- Whether the texts in a value consist of characters. -/
def isWhole (value : Json) : Bool :=
  value.allParts fun
    | .text value => value.isWhole
    | _ => true

/-! ## Documents -/

def pretty (value : Json) : String := String.ofList (write indented 0 value)

def line (value : Json) : String := String.ofList (write compact 0 value)

end OrderDesk.Json
