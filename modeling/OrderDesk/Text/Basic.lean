/-!
# Texts

A text is a list of code points. Beside the characters these are the halves of surrogate pairs, which
stand for no character but may come in on their own, as escapes or in a damaged encoding.

* `Text.string_ofString`: a string is a text and reads back from it.
* `CodePoint.toNat_ofNat`: a code point is known by its number.
-/

namespace OrderDesk

/-- A character, or half of a surrogate pair by its place among all halves. -/
inductive CodePoint
  | char (c : Char)
  | half (place : Fin 2048)
deriving DecidableEq, Repr

namespace CodePoint

def toNat : CodePoint → Nat
  | char c => c.toNat
  | half place => 0xd800 + place.val

def ofNat (value : Nat) : CodePoint :=
  if between : 0xd800 ≤ value ∧ value < 0xe000 then .half ⟨value - 0xd800, by omega⟩
  else .char (Char.ofNat value)

def ofPair? (high low : Nat) : Option CodePoint :=
  if 0xd800 ≤ high ∧ high < 0xdc00 ∧ 0xdc00 ≤ low ∧ low < 0xe000 then
    some (ofNat (0x10000 + (high - 0xd800) * 0x400 + (low - 0xdc00)))
  else none

/-- A half is shown by the mark for unknown characters. -/
def toChar : CodePoint → Char
  | char c => c
  | half _ => '\ufffd'

def isHalf : CodePoint → Bool
  | char _ => false
  | half _ => true

theorem toNat_ofNat {value : Nat} (bound : value < 0x110000) : (ofNat value).toNat = value := by
  by_cases between : 0xd800 ≤ value ∧ value < 0xe000
  · rw [ofNat, dif_pos between]
    show 0xd800 + (value - 0xd800) = value
    omega
  · have valid : value.isValidChar := by
      simp only [Nat.isValidChar]
      omega
    rw [ofNat, dif_neg between]
    show (Char.ofNat value).toNat = value
    rw [Char.ofNat, dif_pos valid]
    rfl

end CodePoint

structure Text where
  points : List CodePoint
deriving DecidableEq, Repr

namespace Text

def ofString (string : String) : Text := ⟨string.toList.map .char⟩

instance : Coe String Text := ⟨ofString⟩

instance : Inhabited Text := ⟨⟨[]⟩⟩

instance : Append Text := ⟨fun first second => ⟨first.points ++ second.points⟩⟩

def singleton (point : CodePoint) : Text := ⟨[point]⟩

def isEmpty (text : Text) : Bool := text.points.isEmpty

def isWhole (text : Text) : Bool := !text.points.any (·.isHalf)

/-- The characters of a text, for readers that no half means anything to. -/
def chars (text : Text) : List Char := text.points.map (·.toChar)

def string (text : Text) : String := String.ofList text.chars

def compare (first second : Text) : Ordering :=
  go first.points second.points
where
  go : List CodePoint → List CodePoint → Ordering
    | [], [] => .eq
    | [], _ :: _ => .lt
    | _ :: _, [] => .gt
    | x :: xs, y :: ys => (Ord.compare x.toNat y.toNat).then (go xs ys)

theorem string_ofString (string : String) : (ofString string).string = string := by
  have same : CodePoint.toChar ∘ CodePoint.char = id := rfl
  simp [Text.string, chars, ofString, same]

end Text

end OrderDesk
