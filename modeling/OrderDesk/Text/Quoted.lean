import OrderDesk.Bytes
import OrderDesk.Text.Basic
import OrderDesk.Text.Printable

/-!
# Quoted text in messages

A text is quoted with `'`, or with `"` if it holds the former and not the latter. Characters that
are not printable and halves of pairs are written as numbered escapes.
-/

namespace OrderDesk.Quoted

def hexDigits (width value : Nat) : List Char :=
  (List.range width).map fun i => Hex.digit (value / 16 ^ (width - 1 - i) % 16)

def numbered (point : Nat) : List Char :=
  if point < 256 then '\\' :: 'x' :: hexDigits 2 point
  else if point < 65536 then '\\' :: 'u' :: hexDigits 4 point
  else '\\' :: 'U' :: hexDigits 8 point

def escapeChar (quote c : Char) : List Char :=
  if c = quote ∨ c = '\\' then ['\\', c]
  else if c = '\t' then ['\\', 't']
  else if c = '\n' then ['\\', 'n']
  else if c = '\r' then ['\\', 'r']
  else if isPrintable c then [c]
  else numbered c.toNat

def escape (quote : Char) : CodePoint → List Char
  | .char c => escapeChar quote c
  | .half place => numbered (CodePoint.half place).toNat

def encode (text : Text) : String :=
  let points := text.points
  let quote := if points.contains (.char '\'') && !points.contains (.char '"') then '"' else '\''
  String.ofList (quote :: points.flatMap (escape quote) ++ [quote])

def encodeList (texts : List String) : String :=
  "[" ++ String.intercalate ", " (texts.map fun text : String => encode text) ++ "]"

end OrderDesk.Quoted
