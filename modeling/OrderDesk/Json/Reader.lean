import OrderDesk.Fault
import OrderDesk.Text.Digit

/-!
# Reading JSON

The grammar of JSON, with `NaN`, `Infinity` and `-Infinity` as numbers. Of members with one key the
last counts. A text that breaks the grammar is refused with the place where it does; whole numbers
of too many digits and values in more lists and objects than can be open are refused as well,
whichever comes first.
-/

namespace OrderDesk.Json

inductive Flaw
  /-- The grammar is broken, with so many code points left to read. -/
  | grammar (reason : String) (left : Nat)
  | digits
  | nesting
deriving DecidableEq, Repr

abbrev Step (α : Type) := α × List CodePoint

def stop {α : Type} (reason : String) (left : List CodePoint) : Except Flaw α :=
  .error (.grammar reason left.length)

def isBlank : CodePoint → Bool
  | .char c => c = ' ' || c = '\t' || c = '\n' || c = '\r'
  | .half _ => false

def skipBlanks (text : List CodePoint) : List CodePoint := text.dropWhile isBlank

/-! ## Texts -/

def unescape? : CodePoint → Option Nat
  | .char '"' => some 0x22
  | .char '\\' => some 0x5c
  | .char '/' => some 0x2f
  | .char 'b' => some 8
  | .char 'f' => some 12
  | .char 'n' => some 10
  | .char 'r' => some 13
  | .char 't' => some 9
  | _ => none

def hexFour? (a b c d : CodePoint) : Option Nat := do
  let a ← Hex.digit? a.toChar
  let b ← Hex.digit? b.toChar
  let c ← Hex.digit? c.toChar
  let d ← Hex.digit? d.toChar
  return ((a * 16 + b) * 16 + c) * 16 + d

inductive Piece
  | point (point : CodePoint)
  | unit (value : Nat)
deriving DecidableEq, Repr

/-- The pieces up to the closing quote, collected in front of `done`; `start` code points are left
from the opening quote on. -/
def readPieces (start : Nat) (done : List Piece) : List CodePoint → Except Flaw (Step (List Piece))
  | [] => .error (.grammar "Unterminated string starting at" start)
  | .char '"' :: rest => .ok (done.reverse, rest)
  | .char '\\' :: .char 'u' :: a :: b :: c :: d :: next :: rest =>
    match hexFour? a b c d with
    | some unit => readPieces start (.unit unit :: done) (next :: rest)
    | none => .error (.grammar "Invalid \\uXXXX escape" (rest.length + 6))
  | .char '\\' :: .char 'u' :: rest => .error (.grammar "Invalid \\uXXXX escape" (rest.length + 1))
  | [.char '\\'] => .error (.grammar "Unterminated string starting at" start)
  | .char '\\' :: mark :: rest =>
    match unescape? mark with
    | some point => readPieces start (.point (.ofNat point) :: done) rest
    | none => .error (.grammar "Invalid \\escape" (rest.length + 2))
  | point :: rest =>
    if point.toNat < 32 then .error (.grammar "Invalid control character at" (rest.length + 1))
    else readPieces start (.point point :: done) rest

def joinPieces : List Piece → List CodePoint
  | [] => []
  | .point point :: rest => point :: joinPieces rest
  | .unit high :: .unit low :: rest =>
    match CodePoint.ofPair? high low with
    | some point => point :: joinPieces rest
    | none => .ofNat high :: joinPieces (.unit low :: rest)
  | .unit value :: rest => .ofNat value :: joinPieces rest

def readText (source : List CodePoint) : Except Flaw (Step Text) := do
  let (pieces, rest) ← readPieces (source.length + 1) [] source
  return (⟨joinPieces pieces⟩, rest)

/-! ## Numbers -/

def digits : List CodePoint → List Char
  | .char c :: rest => if '0' ≤ c ∧ c ≤ '9' then c :: digits rest else []
  | _ => []

def valueOf (digits : List Char) : Nat :=
  digits.foldl (fun value c => value * 10 + (c.toNat - 48)) 0

/-- The digits before the point: a zero alone, or digits that do not start with one. -/
def readWhole : List CodePoint → Option (List Char × List CodePoint)
  | .char '0' :: rest => some (['0'], rest)
  | source =>
    let found := digits source
    if found.isEmpty then none else some (found, source.drop found.length)

def readFraction : List CodePoint → Option (List Char × List CodePoint)
  | .char '.' :: rest =>
    let found := digits rest
    if found.isEmpty then none else some (found, rest.drop found.length)
  | _ => none

def readSign : List CodePoint → Bool × List CodePoint
  | .char '-' :: rest => (true, rest)
  | .char '+' :: rest => (false, rest)
  | rest => (false, rest)

def readExponent : List CodePoint → Option (Int × List CodePoint)
  | .char mark :: rest =>
    if mark = 'e' ∨ mark = 'E' then
      let (negative, rest) := readSign rest
      let found := digits rest
      if found.isEmpty then none
      else
        let size : Int := valueOf found
        some (if negative then -size else size, rest.drop found.length)
    else none
  | _ => none

/-- A number without its sign; `start` is left from its sign on. -/
def readUnsigned (start : List CodePoint) (negative : Bool) (source : List CodePoint) : Except Flaw (Step Json) :=
  match readWhole source with
  | none => stop "Expecting value" start
  | some (whole, rest) =>
    let fraction := readFraction rest
    let rest := (fraction.map (·.2)).getD rest
    let exponent := readExponent rest
    let rest := (exponent.map (·.2)).getD rest
    if fraction.isNone && exponent.isNone then
      if Digit.maxCount < whole.length then .error .digits
      else
        let size : Int := valueOf whole
        .ok (.int (if negative then -size else size), rest)
    else
      let digits := (fraction.map (·.1)).getD []
      let power := (exponent.map (·.1)).getD 0 - digits.length
      .ok (.real (Binary64.ofDecimal negative (valueOf (whole ++ digits)) power), rest)

def readNumber : List CodePoint → Except Flaw (Step Json)
  | .char '-' :: rest => readUnsigned (.char '-' :: rest) true rest
  | source => readUnsigned source false source

/-! ## Values -/

def words : List (List Char × Json) := [
  (['n', 'u', 'l', 'l'], .null),
  (['t', 'r', 'u', 'e'], .bool true),
  (['f', 'a', 'l', 's', 'e'], .bool false),
  (['N', 'a', 'N'], .real .undefined),
  (['I', 'n', 'f', 'i', 'n', 'i', 't', 'y'], .real (.infinite false)),
  (['-', 'I', 'n', 'f', 'i', 'n', 'i', 't', 'y'], .real (.infinite true))]

def dropWord? : List Char → List CodePoint → Option (List CodePoint)
  | [], rest => some rest
  | c :: word, .char other :: rest => if c = other then dropWord? word rest else none
  | _ :: _, _ => none

def readPlain (source : List CodePoint) : Except Flaw (Step Json) :=
  match words.findSome? fun (word, value) => (dropWord? word source).map (value, ·) with
  | some found => .ok found
  | none => readNumber source

/-- Opens a list or an object, if one more can be open. -/
def enter : (room : Nat) → Except Flaw Nat
  | 0 => .error .nesting
  | room + 1 => .ok room

mutual

/-- Reads a value, with room for so many lists and objects in one another. -/
def readValue : (steps room : Nat) → List CodePoint → Except Flaw (Step Json)
  | 0, _, source => stop "Expecting value" source
  | steps + 1, room, source =>
    match source with
    | .char '"' :: rest => do
      let (value, rest) ← readText rest
      return (.text value, rest)
    | .char '[' :: rest => do
      let room ← enter room
      match skipBlanks rest with
      | .char ']' :: rest => return (.array [], rest)
      | rest =>
        let (items, rest) ← readItems steps room rest
        return (.array items, rest)
    | .char '\x7b' :: rest => do
      let room ← enter room
      match skipBlanks rest with
      | .char '\x7d' :: rest => return (.object [], rest)
      | rest =>
        let (members, rest) ← readMembers steps room rest
        return (.object (Table.ofList members), rest)
    | source => readPlain source

def readItems : (steps room : Nat) → List CodePoint → Except Flaw (Step (List Json))
  | 0, _, source => stop "Expecting value" source
  | steps + 1, room, source => do
    let (item, rest) ← readValue steps room source
    match skipBlanks rest with
    | .char ',' :: rest =>
      let (items, rest) ← readItems steps room (skipBlanks rest)
      return (item :: items, rest)
    | .char ']' :: rest => return ([item], rest)
    | rest => stop "Expecting ',' delimiter" rest

def readMembers : (steps room : Nat) → List CodePoint →
    Except Flaw (Step (List (Text × Json)))
  | 0, _, source => stop "Expecting value" source
  | steps + 1, room, source =>
    match source with
    | .char '"' :: rest => do
      let (key, rest) ← readText rest
      match skipBlanks rest with
      | .char ':' :: rest =>
        let (value, rest) ← readValue steps room (skipBlanks rest)
        match skipBlanks rest with
        | .char ',' :: rest =>
          let (members, rest) ← readMembers steps room (skipBlanks rest)
          return ((key, value) :: members, rest)
        | .char '\x7d' :: rest => return ([(key, value)], rest)
        | rest => stop "Expecting ',' delimiter" rest
      | rest => stop "Expecting ':' delimiter" rest
    | rest => stop "Expecting property name enclosed in double quotes" rest

end

/-- Steps that suffice for a text. A list takes one step and its first item another, and there is a
code point in front of the item. -/
def stepsFor (source : List CodePoint) : Nat := 2 * source.length + 1

def readWholeText (room : Nat) (source : List CodePoint) : Except Flaw Json := do
  let (value, rest) ← readValue (stepsFor source) room (skipBlanks source)
  match skipBlanks rest with
  | [] => return value
  | rest => stop "Extra data" rest

/-! ## Documents -/

/-- A place in a text: line and column, counted from one, and the code points in front of it. -/
def place (text : Text) (front : Nat) : String :=
  let before := text.points.take front
  let lines := before.count (.char '\n')
  let column := (before.reverse.takeWhile (· ≠ .char '\n')).length + 1
  "line " ++ toString (lines + 1) ++ " column " ++ toString column ++ " (char " ++ toString front ++ ")"

def Flaw.fault (text : Text) : Flaw → Fault
  | grammar reason left => .badJson (reason ++ ": " ++ place text (text.points.length - left))
  | digits => .badInteger
  | nesting => .tooDeep

def read (capacity : Capacity) (text : Text) : Except Fault Json :=
  match readWholeText capacity.nesting text.points with
  | .ok value => .ok value
  | .error flaw => .error (flaw.fault text)

end OrderDesk.Json
