import OrderDesk.Storage.Slot

/-!
# Packed positions

A position is packed into one word: a flag in the low byte, its two ticks, and the key of its pool
in the upper 25 bytes. In a pool it is found by the digest of its owner, ticks and token.
-/

namespace OrderDesk

structure PositionInfo where
  poolMapKey : Bytes
  tickLower : Int
  tickUpper : Int
  hasSubscriber : Bool
deriving DecidableEq, Repr

namespace PositionInfo

def unpack (packed : Int) : Except Fault PositionInfo :=
  match Bytes.ofInt? 32 (packed / 2 ^ 56) with
  | some key => .ok {
      poolMapKey := key.drop 7
      tickLower := signExtend24 (bitField packed 8 24)
      tickUpper := signExtend24 (bitField packed 32 24)
      hasSubscriber := bitField packed 0 8 ≠ 0 }
  | none => .error .tooWide

def pack (info : PositionInfo) : Except Fault Int :=
  if info.poolMapKey.length = 25 then
    .ok (Bytes.toNat info.poolMapKey * 2 ^ 56 + bitField info.tickUpper 0 24 * 2 ^ 32 +
      bitField info.tickLower 0 24 * 2 ^ 8 + if info.hasSubscriber then 1 else 0)
  else .error (.mapKeySize info.poolMapKey.length)

end PositionInfo

/-- The key of a position in its pool; the token stands for the salt. -/
def positionKey (owner : Address) (tickLower tickUpper tokenId : Int) : Except Fault Bytes :=
  match Bytes.ofInt? 32 tokenId with
  | some token =>
    .ok (Keccak.hash (owner.bytes ++ int24Bytes tickLower ++ int24Bytes tickUpper ++ token))
  | none => .error .tooWide

end OrderDesk
