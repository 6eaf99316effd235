import OrderDesk.Bytes

/-!
# Keccak-256

The sponge with 1600 bits of state, a rate of 136 bytes, and the padding that starts with a one
byte. A state is five rows of five lanes of 64 bits.
-/

namespace OrderDesk.Keccak

structure Five (α : Type) where
  a : α
  b : α
  c : α
  d : α
  e : α
deriving DecidableEq

namespace Five

variable {α β γ : Type}

def tabulate (f : Nat → α) : Five α := ⟨f 0, f 1, f 2, f 3, f 4⟩

def map (f : α → β) (values : Five α) : Five β :=
  ⟨f values.a, f values.b, f values.c, f values.d, f values.e⟩

def zip (f : α → β → γ) (values : Five α) (others : Five β) : Five γ :=
  ⟨f values.a others.a, f values.b others.b, f values.c others.c, f values.d others.d,
    f values.e others.e⟩

def next (values : Five α) : Five α := ⟨values.b, values.c, values.d, values.e, values.a⟩

def previous (values : Five α) : Five α := ⟨values.e, values.a, values.b, values.c, values.d⟩

end Five

abbrev Row := Five UInt64

/-- The 25 lanes of the sponge, by row. -/
abbrev State := Five Row

def Row.xor (row other : Row) : Row := row.zip (· ^^^ ·) other

@[inline] def rotateLeft (word : UInt64) (count : UInt64) : UInt64 :=
  if count = 0 then word else (word <<< count) ||| (word >>> (64 - count))

/-- Every lane is mixed with the parities of its two neighbouring columns. -/
def theta (state : State) : State :=
  let parity := Row.xor state.a (Row.xor state.b (Row.xor state.c (Row.xor state.d state.e)))
  let mixed := Row.xor parity.previous (parity.next.map (rotateLeft · 1))
  state.map (Row.xor mixed)

def rotations : State where
  a := ⟨0, 1, 62, 28, 27⟩
  b := ⟨36, 44, 6, 55, 20⟩
  c := ⟨3, 10, 43, 25, 39⟩
  d := ⟨41, 45, 15, 21, 8⟩
  e := ⟨18, 2, 61, 56, 14⟩

/-- Every lane is rotated and moved: column `x`, row `y` receives column `x + 3 * y`, row `x`. -/
def rotateAndMove (state : State) : State :=
  let turned := state.zip (fun row counts => row.zip rotateLeft counts) rotations
  { a := ⟨turned.a.a, turned.b.b, turned.c.c, turned.d.d, turned.e.e⟩
    b := ⟨turned.a.d, turned.b.e, turned.c.a, turned.d.b, turned.e.c⟩
    c := ⟨turned.a.b, turned.b.c, turned.c.d, turned.d.e, turned.e.a⟩
    d := ⟨turned.a.e, turned.b.a, turned.c.b, turned.d.c, turned.e.d⟩
    e := ⟨turned.a.c, turned.b.d, turned.c.e, turned.d.a, turned.e.b⟩ }

def chi (state : State) : State :=
  state.map fun row => Row.xor row ((row.next.map (~~~ ·)).zip (· &&& ·) row.next.next)

def roundConstants : List UInt64 := [
  0x0000000000000001, 0x0000000000008082, 0x800000000000808a, 0x8000000080008000,
  0x000000000000808b, 0x0000000080000001, 0x8000000080008081, 0x8000000000008009,
  0x000000000000008a, 0x0000000000000088, 0x0000000080008009, 0x000000008000000a,
  0x000000008000808b, 0x800000000000008b, 0x8000000000008089, 0x8000000000008003,
  0x8000000000008002, 0x8000000000000080, 0x000000000000800a, 0x800000008000000a,
  0x8000000080008081, 0x8000000000008080, 0x0000000080000001, 0x8000000080008008]

def round (state : State) (constant : UInt64) : State :=
  let mixed := chi (rotateAndMove (theta state))
  { mixed with a := { mixed.a with a := mixed.a.a ^^^ constant } }

def permute (state : State) : State := roundConstants.foldl round state

def rate : Nat := 136

/-- A one bit behind the message, zeros, and a one bit at the end of the last block. -/
def pad (message : Bytes) : Bytes :=
  let room := rate - message.length % rate
  if room = 1 then message ++ [0x81]
  else message ++ 0x01 :: Bytes.zeros (room - 2) ++ [0x80]

/-- Eight bytes as a lane, least significant first. -/
def laneOfBytes (bytes : Bytes) : UInt64 :=
  bytes.foldr (fun byte lane => (lane <<< 8) ||| byte.toUInt64) 0

def bytesOfLane (lane : UInt64) : Bytes :=
  (List.range 8).map fun i => (lane >>> (8 * UInt64.ofNat i)).toUInt8

def addBlock (state : State) (block : Bytes) : State :=
  let lanes := Five.tabulate fun y => Five.tabulate fun x =>
    laneOfBytes ((block.drop (8 * (x + 5 * y))).take 8)
  state.zip Row.xor lanes

def absorb (state : State) : (count : Nat) → Bytes → State
  | 0, _ => state
  | count + 1, bytes => absorb (permute (addBlock state (bytes.take rate))) count (bytes.drop rate)

def blank : State := Five.tabulate fun _ => Five.tabulate fun _ => 0

def hash (message : Bytes) : Bytes :=
  let padded := pad message
  let first := (absorb blank (padded.length / rate) padded).a
  [first.a, first.b, first.c, first.d].flatMap bytesOfLane

theorem bytesOfLane_length (lane : UInt64) : (bytesOfLane lane).length = 8 := by
  simp [bytesOfLane]

theorem flatMap_bytesOfLane_length (lanes : List UInt64) :
    (lanes.flatMap bytesOfLane).length = 8 * lanes.length := by
  induction lanes with
  | nil => rfl
  | cons lane rest ih => simp [bytesOfLane_length, ih, Nat.mul_add, Nat.add_comm]

theorem hash_length (message : Bytes) : (hash message).length = 32 := by
  rw [hash, flatMap_bytesOfLane_length]
  rfl

end OrderDesk.Keccak
