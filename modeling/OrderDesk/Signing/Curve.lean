import OrderDesk.Power

/-!
# The curve of signatures

The points of `y ^ 2 = x ^ 3 + 7` over the integers modulo a prime, in coordinates that need no
division: `(x, y, z)` stands for the point `(x / z ^ 2, y / z ^ 3)`, and `z = 0` for the point at
infinity.
-/

namespace OrderDesk.Curve

def prime : Nat := 2 ^ 256 - 2 ^ 32 - 977

def order : Nat := 0xfffffffffffffffffffffffffffffffebaaedce6af48a03bbfd25e8cd0364141

/-- Binary digits of a number below `2 ^ 256`, highest first. -/
def digits (value : Nat) : List Bool := (List.range 256).reverse.map value.testBit

/-- `base ^ exponent` modulo `modulus`, for an exponent below `2 ^ 256`. -/
def powerMod (modulus base exponent : Nat) : Nat :=
  (digits exponent).foldl
    (fun power digit =>
      let square := power * power % modulus
      if digit then square * base % modulus else square)
    (1 % modulus)

def inverse (modulus value : Nat) : Nat := powerMod modulus value (modulus - 2)

/-- `a - b` modulo the prime, for `b` below it. -/
def subtract (a b : Nat) : Nat := (a + (prime - b)) % prime

structure Point where
  x : Nat
  y : Nat
  z : Nat
deriving DecidableEq, Repr

namespace Point

def infinity : Point := ⟨1, 1, 0⟩

def generator : Point where
  x := 0x79be667ef9dcbbac55a06295ce870b07029bfcdb2dce28d959f2815b16f81798
  y := 0x483ada7726a3c4655da4fbfc0e1108a8fd17b448a68554199c47d08ffb10d4b8
  z := 1

def double (p : Point) : Point :=
  if p.y = 0 ∨ p.z = 0 then infinity
  else
    let square := p.y * p.y % prime
    let s := 4 * p.x * square % prime
    let m := 3 * p.x * p.x % prime
    let x := subtract (m * m) (2 * s % prime)
    let y := subtract (m * subtract s x) (8 * square * square % prime)
    ⟨x, y, 2 * p.y * p.z % prime⟩

def add (p q : Point) : Point :=
  if p.z = 0 then q
  else if q.z = 0 then p
  else
    let pz := p.z * p.z % prime
    let qz := q.z * q.z % prime
    let u := p.x * qz % prime
    let v := q.x * pz % prime
    let s := p.y * qz * q.z % prime
    let t := q.y * pz * p.z % prime
    if u = v then if s = t then p.double else infinity
    else
      let h := subtract v u
      let r := subtract t s
      let square := h * h % prime
      let cube := square * h % prime
      let w := u * square % prime
      let x := subtract (r * r) ((cube + 2 * w) % prime)
      let y := subtract (r * subtract w x) (s * cube % prime)
      ⟨x, y, h * p.z * q.z % prime⟩

/-- The sum of `factor` copies of a point, for a factor below `2 ^ 256`. -/
def multiply (factor : Nat) (p : Point) : Point :=
  (digits factor).foldl
    (fun sum digit =>
      let sum := sum.double
      if digit then sum.add p else sum)
    infinity

def coordinates? (p : Point) : Option (Nat × Nat) :=
  if p.z = 0 then none
  else
    let z := inverse prime p.z
    let square := z * z % prime
    some (p.x * square % prime, p.y * square * z % prime)

def ofX? (x : Nat) (odd : Bool) : Option Point :=
  let square := (x * x * x + 7) % prime
  let root := powerMod prime square ((prime + 1) / 4)
  if root * root % prime = square then
    some ⟨x, if (root % 2 = 1) = odd then root else (prime - root) % prime, 1⟩
  else none

end Point

end OrderDesk.Curve
