import OrderDesk.Fault
import OrderDesk.Hash.Sha256
import OrderDesk.Signing.Curve

/-!
# Signing keys

A key signs digests of 32 bytes. The random number of a signature is drawn from the key and the
digest, so the same digest is always signed alike; of the two signatures that a number gives, the
one with the lower second part is taken.

* `Signature.recover?` finds the address that signed a digest.
-/

namespace OrderDesk

structure SigningKey where
  secret : Nat
  pos : 0 < secret
  lt_order : secret < Curve.order

/-- The parts of a signature; `v` tells which of two points was used. -/
structure Signature where
  v : Nat
  r : Nat
  s : Nat
deriving DecidableEq, Repr

/-- The address of a point: the last twenty bytes of the digest of its coordinates. -/
def Curve.Point.address? (p : Curve.Point) : Option Address :=
  p.coordinates?.map fun (x, y) =>
    Address.ofBytes (Keccak.hash (Bytes.ofNat 32 x ++ Bytes.ofNat 32 y))

namespace SigningKey

def ofBytes (bytes : Bytes) : Except Fault SigningKey :=
  let secret := Bytes.toNat bytes
  if range : bytes.length = 32 ∧ 0 < secret ∧ secret < Curve.order then
    .ok ⟨secret, range.2.1, range.2.2⟩
  else .error (.badKey .range)

/-- Reads hexadecimal digits after an optional mark; an odd digit in front counts as a byte. -/
def read (spelling : String) : Except Fault SigningKey :=
  let digits := Address.dropMark spelling.toList
  if digits.any fun c => 128 ≤ c.toNat then .error (.badKey .script)
  else match Hex.decode? (if digits.length % 2 = 1 then '0' :: digits else digits) with
    | some bytes => ofBytes bytes
    | none => .error (.badKey .digit)

/-- The key of a configuration: its digits, or a number, which must not have fewer than 32 bytes. -/
def ofJson : Json → Except Fault SigningKey
  | .text spelling => read spelling.string
  | .int value =>
    if 2 ^ 248 ≤ value ∧ value < 2 ^ 256 then ofBytes (Bytes.ofNat 32 value.toNat)
    else .error (.badKey .range)
  | .bool _ => .error (.badKey .range)
  | .null | .real _ | .array _ | .object _ => .error (.badKey .kind)

def address (key : SigningKey) : Address :=
  ((Curve.Point.generator.multiply key.secret).address?).getD .zero

/-! ## Signing -/

structure Draw where
  key : Bytes
  value : Bytes

def Draw.mix (draw : Draw) (seed : Bytes) : Draw :=
  let key := Sha256.keyed draw.key (draw.value ++ seed)
  ⟨key, Sha256.keyed key draw.value⟩

def Draw.start (key : SigningKey) (digest : Bytes) : Draw :=
  let seed := Bytes.ofNat 32 key.secret ++ Bytes.ofNat 32 (Bytes.toNat digest % Curve.order)
  let first := Draw.mix ⟨Bytes.zeros 32, List.replicate 32 1⟩ (0 :: seed)
  first.mix (1 :: seed)

def signWith? (key : SigningKey) (digest : Bytes) (number : Nat) : Option Signature := do
  if number = 0 ∨ Curve.order ≤ number then none
  else
    let (x, y) ← (Curve.Point.generator.multiply number).coordinates?
    let r := x % Curve.order
    let s := Curve.inverse Curve.order number * (Bytes.toNat digest + r * key.secret) % Curve.order
    if r = 0 ∨ s = 0 then none
    else if Curve.order / 2 < s then some ⟨27 + (y + 1) % 2, r, Curve.order - s⟩
    else some ⟨27 + y % 2, r, s⟩

/-- Draws numbers until one gives a signature, at most `rounds` times. -/
def drawSignature? (key : SigningKey) (digest : Bytes) : (rounds : Nat) → Draw → Option Signature
  | 0, _ => none
  | rounds + 1, draw =>
    let value := Sha256.keyed draw.key draw.value
    match key.signWith? digest (Bytes.toNat value) with
    | some signature => some signature
    | none => drawSignature? key digest rounds (Draw.mix ⟨draw.key, value⟩ [0])

/-- The signature of a digest. Nearly every number drawn gives one; sixteen are tried. -/
def sign? (key : SigningKey) (digest : Bytes) : Option Signature :=
  drawSignature? key digest 16 (Draw.start key digest)

end SigningKey

namespace Signature

def bytes (signature : Signature) : Bytes :=
  Bytes.ofNat 1 signature.v ++ Bytes.ofNat 32 signature.r ++ Bytes.ofNat 32 signature.s

def split (bytes : Bytes) : Except Fault Signature :=
  if bytes.length = 65 then
    .ok ⟨Bytes.toNat (bytes.take 1), Bytes.toNat ((bytes.drop 1).take 32),
      Bytes.toNat (bytes.drop 33)⟩
  else .error (.signatureSize bytes.length)

/-- Whether `v` names the point of odd second coordinate. -/
def odd? (v : Nat) : Option Bool :=
  if v = 0 ∨ v = 27 then some false
  else if v = 1 ∨ v = 28 then some true
  else if 35 ≤ v then some ((v - 35) % 2 = 1)
  else none

def recover? (signature : Signature) (digest : Bytes) : Option Address := do
  let odd ← odd? signature.v
  if signature.r = 0 ∨ Curve.order ≤ signature.r ∨ signature.s = 0 ∨ Curve.order ≤ signature.s then
    none
  else
    let point ← Curve.Point.ofX? signature.r odd
    let inverse := Curve.inverse Curve.order signature.r
    let ofPoint := inverse * signature.s % Curve.order
    let ofDigest := inverse * (Curve.order - Bytes.toNat digest % Curve.order) % Curve.order
    let sum := (point.multiply ofPoint).add (Curve.Point.generator.multiply ofDigest)
    sum.address?

end Signature

end OrderDesk
