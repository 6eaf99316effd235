import OrderDesk.Storage.Slot

/-!
# Used nonces

Each account has a bitmap of used nonces, 256 of them in a word. The word is found by the nonce
without its low byte, the bit by the low byte; a set bit is a used nonce.
-/

namespace OrderDesk.Nonce

/-- Marks the preimages of nonce words. -/
def discriminator : Bytes := [0xda, 0xa0, 0x50, 0xe9]

def slot (user : Address) (nonce : Int) : Except Fault Bytes :=
  match Bytes.ofInt? 8 nonce with
  | some digits => .ok (Keccak.hash (user.bytes ++ discriminator ++ digits.take 7))
  | none => .error .tooWide

def bit (nonce : Int) : Nat := (bitField nonce 0 8).toNat

def flag (nonce : Int) : Int := 2 ^ bit nonce

def isUnused (word nonce : Int) : Bool := bitField word (bit nonce) 1 = 0

theorem bit_lt (nonce : Int) : bit nonce < 256 := by
  simp only [bit, bitField]
  omega

end OrderDesk.Nonce
