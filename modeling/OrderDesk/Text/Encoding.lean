import OrderDesk.Bytes
import OrderDesk.Text.Basic

/-!
# Encodings

How bytes write a text: in units of one, two or four bytes. A document says which by a mark in front
of it, or by where its first bytes are zero, as it starts with characters of one byte.

* `Encoding.decode?` reads a document.
-/

namespace OrderDesk

inductive Encoding
  | utf8
  | utf16 (bigEndian : Bool)
  | utf32 (bigEndian : Bool)
deriving DecidableEq, Repr

namespace Encoding

/-- The code points of units of one byte, behind those in `done`. Of the code point that is being
read `due` bytes are to come, its bits so far are `value`, and it must not be below `least`. -/
def readUtf8? (due value least : Nat) (done : List CodePoint) : Bytes → Option (List CodePoint)
  | [] => if due = 0 then some done.reverse else none
  | byte :: rest =>
    let bits := byte.toNat
    match due with
    | 0 =>
      if bits < 0x80 then readUtf8? 0 0 0 (.ofNat bits :: done) rest
      else if 0xc0 ≤ bits ∧ bits < 0xe0 then readUtf8? 1 (bits % 0x20) 0x80 done rest
      else if 0xe0 ≤ bits ∧ bits < 0xf0 then readUtf8? 2 (bits % 0x10) 0x800 done rest
      else if 0xf0 ≤ bits ∧ bits < 0xf8 then readUtf8? 3 (bits % 0x08) 0x10000 done rest
      else none
    | due + 1 =>
      let value := value * 0x40 + bits % 0x40
      if bits < 0x80 ∨ 0xc0 ≤ bits then none
      else if due ≠ 0 then readUtf8? due value least done rest
      else if least ≤ value ∧ value < 0x110000 then readUtf8? 0 0 0 (.ofNat value :: done) rest
      else none

/-- The numbers that units of a width write; nothing if the last one is cut off. -/
def units? (width : Nat) (bigEndian : Bool) : (count : Nat) → Bytes → Option (List Nat)
  | _, [] => some []
  | 0, _ :: _ => none
  | count + 1, bytes =>
    let unit := bytes.take width
    if unit.length < width then none
    else do
      let rest ← units? width bigEndian count (bytes.drop width)
      return Bytes.toNat (if bigEndian then unit else unit.reverse) :: rest

def joinPairs : List Nat → List CodePoint
  | [] => []
  | [unit] => [.ofNat unit]
  | high :: low :: rest =>
    match CodePoint.ofPair? high low with
    | some point => point :: joinPairs rest
    | none => .ofNat high :: joinPairs (low :: rest)

def read? (encoding : Encoding) (bytes : Bytes) : Option Text :=
  match encoding with
  | utf8 => (readUtf8? 0 0 0 [] bytes).map (⟨·⟩)
  | utf16 bigEndian => (units? 2 bigEndian bytes.length bytes).map fun units => ⟨joinPairs units⟩
  | utf32 bigEndian => do
    let units ← units? 4 bigEndian bytes.length bytes
    if units.all (· < 0x110000) then return ⟨units.map .ofNat⟩ else none

/-- The encoding of a document without a mark, whose first two characters take one byte each if its
units do. -/
def ofZeros : Bytes → Encoding
  | 0 :: 0 :: _ :: _ :: _ => utf32 true
  | 0 :: _ :: _ :: _ :: _ => utf16 true
  | _ :: 0 :: 0 :: 0 :: _ => utf32 false
  | _ :: 0 :: _ :: _ :: _ => utf16 false
  | [0, _] => utf16 true
  | [_, 0] => utf16 false
  | _ => utf8

def decode? : Bytes → Option Text
  | 0xef :: 0xbb :: 0xbf :: rest => utf8.read? rest
  | 0 :: 0 :: 0xfe :: 0xff :: rest => (utf32 true).read? rest
  | 0xff :: 0xfe :: 0 :: 0 :: rest => (utf32 false).read? rest
  | 0xfe :: 0xff :: rest => (utf16 true).read? rest
  | 0xff :: 0xfe :: rest => (utf16 false).read? rest
  | bytes => (ofZeros bytes).read? bytes

end Encoding

end OrderDesk
