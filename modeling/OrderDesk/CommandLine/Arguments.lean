import OrderDesk.Text.Integer

/-!
# Arguments of a command line

A command has places, each for one value, and options, which may stand anywhere behind the command.
An option is written in full or by a start of its name, with its value behind it or behind `=`. A
word that could be a negative number is a value, and so are all words behind the mark `--`. Words are
told apart before any of them is carried out.

* `Arguments.parse` reads a command line.
-/

namespace OrderDesk.CommandLine

inductive ValueKind
  | flag
  | text
  | whole
deriving DecidableEq, Repr

structure OptionSpec where
  name : String
  spellings : List String
  kind : ValueKind
deriving Repr

structure CommandSpec where
  name : String
  places : List (String × ValueKind)
  options : List OptionSpec
deriving Repr

inductive Value
  | given
  | text (value : String)
  | whole (value : Int)
  /-- The mark `--` stands where a value should. -/
  | blank
deriving DecidableEq, Repr

abbrev Values := List (String × Value)

inductive Stop
  | help
  | misuse
deriving DecidableEq, Repr

/-! ## Words -/

def helpOption : OptionSpec := ⟨"help", ["-h", "--help"], .flag⟩

def mark : String := "--"

/-- Drops one line break at the end. -/
def dropBreak (word : List Char) : List Char :=
  if word.getLast? = some '\n' then word.dropLast else word

def looksNegative (word : List Char) : Bool :=
  match dropBreak word with
  | '-' :: digits =>
    let rest := digits.dropWhile fun c => (Digit.value? c).isSome
    match rest with
    | [] => !digits.isEmpty
    | '.' :: fraction => !fraction.isEmpty && fraction.all fun c => (Digit.value? c).isSome
    | _ => false
  | _ => false

def splitAssignment (word : List Char) : List Char × Option (List Char) :=
  match word.dropWhile (· ≠ '=') with
  | '=' :: value => (word.takeWhile (· ≠ '='), some value)
  | _ => (word, none)

inductive Word
  | value
  | option (spec : OptionSpec) (attached : Option (List Char))
  | unknown

def spelled? (options : List OptionSpec) (spelling : List Char) : Option OptionSpec :=
  options.find? fun option => option.spellings.any fun name => name.toList = spelling

def starting (options : List OptionSpec) (start : List Char) : List OptionSpec :=
  options.flatMap fun option =>
    (option.spellings.filter fun name => start.isPrefixOf name.toList).map fun _ => option

def abbreviated (options : List OptionSpec) (word : List Char) :
    List (OptionSpec × Option (List Char)) :=
  match word with
  | '-' :: '-' :: _ =>
    let (name, attached) := splitAssignment word
    (starting options name).map fun option => (option, attached)
  | dash :: letter :: attached =>
    match spelled? options [dash, letter] with
    | some option => [(option, some attached)]
    | none => (starting options word).map fun option => (option, none)
  | _ => []

/-- Tells options from values; an abbreviation must fit one option only. -/
def classify (options : List OptionSpec) (word : String) : Except Stop Word :=
  let chars := word.toList
  match chars with
  | '-' :: _ :: _ =>
    let (name, attached) := splitAssignment chars
    match spelled? options chars, spelled? options name with
    | some option, _ => .ok (.option option none)
    | none, some option => if attached.isSome then .ok (.option option attached) else .ok .unknown
    | none, none =>
      match abbreviated options chars with
      | [(option, attached)] => .ok (.option option attached)
      | _ :: _ :: _ => .error .misuse
      | [] => .ok (if looksNegative chars || chars.contains ' ' then .value else .unknown)
  | _ => .ok .value

def checkWords (options : List OptionSpec) (words : List String) : Except Stop Unit :=
  (words.takeWhile (· ≠ mark)).forM fun word => do
    let _ ← classify options word

def readValue : ValueKind → String → Except Stop Value
  | .flag, _ => .error .misuse
  | .text, word => .ok (.text word)
  | .whole, word =>
    match IntegerText.read? 10 word.toList with
    | some value => .ok (.whole value)
    | none => .error .misuse

def readUnmarked (kind : ValueKind) (word : String) : Except Stop Value :=
  if word = mark then .ok .blank else readValue kind word

/-! ## Options -/

/-- Letters attached to a short flag must be options themselves, the last with its value. Then the
flag is carried out, which is that for help. -/
def stopAtLetters (options : List OptionSpec) : (letters : List Char) → (words : List String) → Stop
  | [], _ => .help
  | letter :: letters, words =>
    match spelled? options ['-', letter] with
    | none => .misuse
    | some option =>
      if option.kind = .flag then stopAtLetters options letters words
      else if !letters.isEmpty then .help
      else match words with
        | [] => .misuse
        | next :: _ =>
          match classify options next with
          | .ok .value => .help
          | _ => .misuse

abbrev Rest (words : List String) := { rest : List String // rest.length ≤ words.length }

def optionValue (options : List OptionSpec) (word : String) (option : OptionSpec)
    (attached : Option (List Char)) (words : List String) : Except Stop (Value × Rest words) :=
  match option.kind, attached with
  | .flag, none => if option.name = "help" then .error .help else .ok (.given, ⟨words, by omega⟩)
  | .flag, some letters =>
    if word.startsWith "--" || letters.isEmpty then .error .misuse
    else .error (stopAtLetters options letters words)
  | kind, some attached => do
    return (← readUnmarked kind (String.ofList attached), ⟨words, by omega⟩)
  | kind, none =>
    match words with
    | [] => .error .misuse
    | next :: words =>
      if next = mark then .error .misuse
      else do
        match ← classify options next with
        | .value => return (← readValue kind next, ⟨words, by simp⟩)
        | _ => .error .misuse

/-! ## Lines -/

structure Reading where
  values : Values
  places : List (String × ValueKind)
  excess : Bool
  filled : Bool

def Reading.start (places : List (String × ValueKind)) : Reading := ⟨[], places, false, false⟩

def Reading.fill (reading : Reading) (read : ValueKind → String → Except Stop Value)
    (word : String) : Except Stop Reading :=
  match reading.places with
  | [] => .ok { reading with excess := true }
  | (name, kind) :: places => do
    let values := reading.values ++ [(name, ← read kind word)]
    return { reading with values, places, filled := true }

def Reading.keep (reading : Reading) (name : String) (value : Value) : Reading :=
  { reading with values := reading.values ++ [(name, value)], filled := false }

/-- The words behind the mark. The mark goes with the word in front of it if that filled a place, and
else, being `due`, with the word behind it; a further mark in a place of its own leaves it blank. -/
def readMarked (due : Bool) (reading : Reading) : (words : List String) → Except Stop Reading
  | [] => .ok { reading with excess := reading.excess || due }
  | word :: words => do
    readMarked false (← reading.fill (if due then readValue else readUnmarked) word) words

def readWords (options : List OptionSpec) (reading : Reading) :
    (words : List String) → Except Stop Reading
  | [] => .ok reading
  | word :: words => do
    if word = mark then readMarked (!reading.filled) reading words
    else match ← classify options word with
      | .value => readWords options (← reading.fill readValue word) words
      | .unknown => readWords options { reading with excess := true } words
      | .option option attached =>
        let (value, rest) ← optionValue options word option attached words
        readWords options (reading.keep option.name value) rest.val
termination_by words => words.length
decreasing_by
  all_goals
    simp only [List.length_cons]
    omega

def readCommand (spec : CommandSpec) (words : List String) : Except Stop Values := do
  let options := helpOption :: spec.options
  checkWords options words
  let reading ← readWords options (.start spec.places) words
  if reading.places.isEmpty && !reading.excess then return reading.values else .error .misuse

structure Line where
  general : Values
  command : Option (String × Values)

def readLine (options : List OptionSpec) (commands : List CommandSpec) (reading : Reading) :
    (words : List String) → Except Stop Line
  | [] => if reading.excess then .error .misuse else .ok ⟨reading.values, none⟩
  | word :: words => do
    if word = mark then .error .misuse
    else match ← classify options word with
      | .value =>
        match commands.find? fun spec => spec.name = word with
        | none => .error .misuse
        | some spec =>
          let values ← readCommand spec words
          if reading.excess then .error .misuse
          else return ⟨reading.values, some (word, values)⟩
      | .unknown => readLine options commands { reading with excess := true } words
      | .option option attached =>
        let (value, rest) ← optionValue options word option attached words
        readLine options commands (reading.keep option.name value) rest.val
termination_by words => words.length
decreasing_by
  all_goals
    simp only [List.length_cons]
    omega

def parse (options : List OptionSpec) (commands : List CommandSpec) (words : List String) :
    Except Stop Line := do
  let options := helpOption :: options
  checkWords options words
  readLine options commands (.start []) words

/-! ## Values by name -/

namespace Values

def last? (values : Values) (name : String) : Option Value :=
  (values.reverse.find? fun entry => entry.1 = name).map (·.2)

def isBlank (values : Values) (name : String) : Bool := values.last? name = some .blank

def text? (values : Values) (name : String) : Option String :=
  match values.last? name with
  | some (.text value) => some value
  | _ => none

def whole? (values : Values) (name : String) : Option Int :=
  match values.last? name with
  | some (.whole value) => some value
  | _ => none

def flag (values : Values) (name : String) : Bool := (values.last? name).isSome

end Values

end OrderDesk.CommandLine
