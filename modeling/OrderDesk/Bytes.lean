import OrderDesk.Power

/-!
# Byte strings

Byte strings, their big-endian reading as numbers, and their hexadecimal text.

* `Bytes.ofNat_length`: a number written in `width` bytes takes `width` bytes.
* `Bytes.toNat_ofNat`: reading a written number back gives it modulo `256 ^ width`.
* `Hex.decode_encode`: hexadecimal text reads back.
-/

namespace OrderDesk

abbrev Bytes := List UInt8

namespace Bytes

/-- The number whose big-endian digits in base 256 are the bytes. -/
def toNat (bytes : Bytes) : Nat :=
  bytes.foldl (fun value byte => value * 256 + byte.toNat) 0

/-- The low `width` bytes of `value`, most significant first. -/
def ofNat : (width value : Nat) → Bytes
  | 0, _ => []
  | width + 1, value => UInt8.ofNat (value >>> (8 * width)) :: ofNat width value

/-- `value` in `width` bytes, or nothing when it is negative or too wide. -/
def ofInt? (width : Nat) (value : Int) : Option Bytes :=
  if 0 ≤ value ∧ value < 256 ^ width then some (ofNat width value.toNat) else none

def zeros (count : Nat) : Bytes := List.replicate count 0

/-- Zero bytes in front until the string has `width` bytes; longer strings stay as they are. -/
def padLeft (width : Nat) (bytes : Bytes) : Bytes := zeros (width - bytes.length) ++ bytes

def padRight (width : Nat) (bytes : Bytes) : Bytes := bytes ++ zeros (width - bytes.length)

def ofText (text : String) : Bytes := text.toUTF8.toList

/-- Byte strings compare by their first difference; a proper start comes first. -/
def compare : Bytes → Bytes → Ordering
  | [], [] => .eq
  | [], _ :: _ => .lt
  | _ :: _, [] => .gt
  | x :: xs, y :: ys => if x < y then .lt else if y < x then .gt else compare xs ys

/-! ## Laws -/

theorem ofNat_length (width value : Nat) : (ofNat width value).length = width := by
  induction width with
  | zero => rfl
  | succ width ih => simp [ofNat, ih]

theorem foldl_toNat (bytes : Bytes) (start : Nat) :
    bytes.foldl (fun value byte => value * 256 + byte.toNat) start =
      start * 256 ^ bytes.length + toNat bytes := by
  induction bytes generalizing start with
  | nil => simp [toNat]
  | cons byte rest ih =>
    simp only [toNat, List.foldl_cons, List.length_cons]
    rw [ih, ih (0 * 256 + byte.toNat), Nat.pow_succ]
    grind

theorem toNat_cons (byte : UInt8) (rest : Bytes) :
    toNat (byte :: rest) = byte.toNat * 256 ^ rest.length + toNat rest := by
  have := foldl_toNat rest (0 * 256 + byte.toNat)
  simpa [toNat] using this

theorem toNat_ofNat (width value : Nat) : toNat (ofNat width value) = value % 256 ^ width := by
  induction width with
  | zero => simp [ofNat, toNat, Nat.mod_one]
  | succ width ih =>
    have shifted : value >>> (8 * width) = value / 256 ^ width := by
      rw [Nat.shiftRight_eq_div_pow, Nat.pow_mul]
    rw [ofNat, toNat_cons, ih, ofNat_length, shifted, Nat.pow_succ, Nat.mod_mul]
    simp [Nat.add_comm, Nat.mul_comm]

end Bytes

/-! ## Hexadecimal text -/

namespace Hex

def digit (value : Nat) : Char :=
  if value < 10 then Char.ofNat (48 + value) else Char.ofNat (87 + value)

def digit? (c : Char) : Option Nat :=
  if '0' ≤ c ∧ c ≤ '9' then some (c.toNat - 48)
  else if 'a' ≤ c ∧ c ≤ 'f' then some (c.toNat - 87)
  else if 'A' ≤ c ∧ c ≤ 'F' then some (c.toNat - 55)
  else none

def encode (bytes : Bytes) : List Char :=
  bytes.flatMap fun byte => [digit (byte.toNat / 16), digit (byte.toNat % 16)]

def text (bytes : Bytes) : String := "0x" ++ String.ofList (encode bytes)

def decode? : List Char → Option Bytes
  | [] => some []
  | high :: low :: rest => do
    let high ← digit? high
    let low ← digit? low
    let rest ← decode? rest
    return UInt8.ofNat (16 * high + low) :: rest
  | [_] => none

def isBlank (c : Char) : Bool :=
  c = ' ' || c = '\t' || c = '\n' || c = '\r' || c = '\x0b' || c = '\x0c'

/-- Reads pairs of digits with blanks before, between and after the pairs. -/
def decodeSpaced? : List Char → Option Bytes
  | [] => some []
  | [c] => if isBlank c then some [] else none
  | first :: second :: rest =>
    if isBlank first then decodeSpaced? (second :: rest)
    else do
      let high ← digit? first
      let low ← digit? second
      let rest ← decodeSpaced? rest
      return UInt8.ofNat (16 * high + low) :: rest

def read? (source : String) : Option Bytes :=
  match source.toList with
  | '0' :: 'x' :: rest => decodeSpaced? rest
  | all => decodeSpaced? all

theorem digit?_digit : ∀ value < 16, digit? (digit value) = some value := by decide

theorem decode_encode (bytes : Bytes) : decode? (encode bytes) = some bytes := by
  induction bytes with
  | nil => rfl
  | cons byte rest ih =>
    have bound := byte.toNat_lt
    have high := digit?_digit (byte.toNat / 16) (by omega)
    have low := digit?_digit (byte.toNat % 16) (by omega)
    have joined : 16 * (byte.toNat / 16) + byte.toNat % 16 = byte.toNat := by omega
    have cons : encode (byte :: rest) =
        digit (byte.toNat / 16) :: digit (byte.toNat % 16) :: encode rest := by
      simp [encode]
    simp only [cons, decode?, high, low, ih, joined, Option.bind_eq_bind, Option.bind_some,
      UInt8.ofNat_toNat, Option.pure_def]

end Hex

end OrderDesk
