import OrderDesk.Abi
import OrderDesk.Pool.Basic
import OrderDesk.Storage.Slot

/-!
# Where contracts keep their values

An entry of a mapping lies at the digest of its key and of the mapping's own slot; the parts of an
entry lie in the slots that follow. The pool manager keeps pools with their ticks and positions; the
settlement contract keeps rewards and the pointer to its store of pool configurations.
-/

namespace OrderDesk

/-- The slot of an entry whose key is a word. -/
def mappingSlot (key : Bytes) (slot : Int) : Except Fault Bytes := do
  return Keccak.hash (← Abi.encode [.bytes 32, .uint 256] (key, slot, ()))

/-! ## Pool manager -/

def poolsSlot : Int := 6
def feeGrowth0Offset : Int := 1
def feeGrowth1Offset : Int := 2
def liquidityOffset : Int := 3
def ticksOffset : Int := 4
def positionsOffset : Int := 6

def PoolKey.id (key : PoolKey) : Except Fault Bytes := do
  return Keccak.hash (← Abi.encode [.address, .address, .uint 24, .int 24, .address]
    (key.currency0, key.currency1, key.fee, key.tickSpacing, key.hooks, ()))

def poolStateSlot (poolId : Bytes) : Except Fault Bytes := mappingSlot poolId poolsSlot

def poolMemberSlot (poolId : Bytes) (offset : Int) : Except Fault Int := do
  return (Slot.bytes (← poolStateSlot poolId)).toInt + offset

def positionStateSlot (poolId positionKey : Bytes) : Except Fault Bytes := do
  mappingSlot positionKey (← poolMemberSlot poolId positionsOffset)

def poolTickSlot (poolId : Bytes) (tick : Int) : Except Fault Bytes := do
  let slot ← poolMemberSlot poolId ticksOffset
  return Keccak.hash (← Abi.encode [.int 24, .uint 256] (tick, slot, ()))

def Slot0.ofWord (word : Int) : Slot0 where
  sqrtPrice := bitField word 0 160
  tick := signExtend24 (bitField word 160 24)
  protocolFee := bitField word 184 24
  lpFee := bitField word 208 24

/-! ## Settlement contract -/

def configStoreSlot : Int := 2
def rewardPositionsSlot : Int := 6
def poolRewardsSlot : Int := 7

/-- Rewards outside of a tick fill one slot for each tick; the global growth follows them. -/
def rewardTickCount : Int := 2 ^ 24

def rewardsSlot (poolId : Bytes) : Except Fault Bytes := mappingSlot poolId poolRewardsSlot

def rewardOutsideSlot (poolId : Bytes) (tick : Int) : Except Fault Bytes := do
  return (Slot.bytes (← rewardsSlot poolId)).offset (bitField tick 0 24)

def rewardGlobalSlot (poolId : Bytes) : Except Fault Bytes := do
  return (Slot.bytes (← rewardsSlot poolId)).offset rewardTickCount

def rewardPositionSlot (poolId positionKey : Bytes) : Except Fault Bytes := do
  let inner ← mappingSlot poolId rewardPositionsSlot
  return Keccak.hash (← Abi.encode [.bytes 32, .bytes 32] (positionKey, inner, ()))

end OrderDesk
