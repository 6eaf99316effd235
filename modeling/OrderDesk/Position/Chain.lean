import OrderDesk.Deployment
import OrderDesk.Desk
import OrderDesk.Position.Basic
import OrderDesk.Position.Fees
import OrderDesk.Position.Packed
import OrderDesk.Storage.Layout

/-!
# Positions on the chain

The position manager keeps what a token stands for; the pool manager keeps the liquidity and the
growth of fees, the settlement contract the growth of rewards.

* `Positions.find` resolves a token.
* `Positions.fees` computes what a position has earned.
* `Positions.owned` finds the tokens of an owner.
-/

namespace OrderDesk

def viewCall (target : Address) (signature : String) (types : List Abi.WordType)
    (values : Abi.Values types) (results : List Abi.WordType) (block : Option BlockName) :
    Desk (Abi.Values results) := do
  let data ← Abi.call signature types values
  let returned ← Desk.call target data block
  Abi.decode results returned

def tokenBalance (token owner : Address) (block : Option BlockName) : Desk Int := do
  let (balance, _) ← viewCall token "balanceOf(address)" [.address] (owner, ()) [.uint 256] block
  return balance

namespace Positions

variable (deployment : Deployment)

/-! ## Resolving a token -/

def info (tokenId : Int) (block : Option BlockName) : Desk PositionInfo := do
  let (packed, _) ← viewCall deployment.positionManager "positionInfo(uint256)" [.uint 256]
    (tokenId, ()) [.uint 256] block
  PositionInfo.unpack packed

def poolKeyFor (mapKey : Bytes) (block : Option BlockName) : Desk PoolKey := do
  let (currency0, currency1, fee, tickSpacing, hooks, _) ←
    viewCall deployment.positionManager "poolKeys(bytes25)" [.bytes 25] (mapKey, ())
      [.address, .address, .uint 24, .int 24, .address] block
  return { currency0, currency1, fee, tickSpacing, hooks }

def liquidity (poolId : Bytes) (tokenId tickLower tickUpper : Int) (block : Option BlockName) :
    Desk Int := do
  let key ← positionKey deployment.positionManager tickLower tickUpper tokenId
  let slot ← positionStateSlot poolId key
  return low128 (← Desk.storage deployment.poolManager slot block)

def findAt (tokenId : Int) (block : BlockName) : Desk LiquidityPosition := do
  let info ← info deployment tokenId (some block)
  let poolKey ← poolKeyFor deployment info.poolMapKey (some block)
  let poolId ← poolKey.id
  let liquidity ← liquidity deployment poolId tokenId info.tickLower info.tickUpper (some block)
  return { tokenId, tickLower := info.tickLower, tickUpper := info.tickUpper, liquidity, poolKey }

def find (tokenId : Int) (block : Option BlockName) : Desk LiquidityPosition := do
  findAt deployment tokenId (← Desk.pinned block)

/-! ## Fees and rewards -/

def currentTick (poolId : Bytes) (block : Option BlockName) : Desk Int := do
  let slot ← poolStateSlot poolId
  return (Slot0.ofWord (← Desk.storage deployment.poolManager slot block)).tick

structure RangeSlots where
  state : Bytes
  lower : Bytes
  upper : Bytes
deriving DecidableEq, Repr

def rangeSlots (poolId : Bytes) (lower upper : Int) : Except Fault RangeSlots := do
  let state ← poolStateSlot poolId
  let lower ← poolTickSlot poolId lower
  let upper ← poolTickSlot poolId upper
  return { state, lower, upper }

def managerWord (slot : Bytes) (distance : Int) (block : Option BlockName) : Desk Int :=
  Desk.storage deployment.poolManager ((Slot.bytes slot).offset distance) block

def feeGrowth (slots : RangeSlots) (block : Option BlockName) : Desk (GrowthReadings × GrowthReadings) := do
  let whole0 ← managerWord deployment slots.state feeGrowth0Offset block
  let whole1 ← managerWord deployment slots.state feeGrowth1Offset block
  let lower0 ← managerWord deployment slots.lower 1 block
  let lower1 ← managerWord deployment slots.lower 2 block
  let upper0 ← managerWord deployment slots.upper 1 block
  let upper1 ← managerWord deployment slots.upper 2 block
  return (⟨whole0, lower0, upper0⟩, ⟨whole1, lower1, upper1⟩)

def rewardGrowth (poolId : Bytes) (lower upper : Int) (block : Option BlockName) :
    Desk GrowthReadings := do
  let whole ← Desk.storage deployment.angstrom (← rewardGlobalSlot poolId) block
  let lowerOutside ← Desk.storage deployment.angstrom (← rewardOutsideSlot poolId lower) block
  let upperOutside ← Desk.storage deployment.angstrom (← rewardOutsideSlot poolId upper) block
  return { whole, lowerOutside, upperOutside }

def lastFeeGrowth (poolId key : Bytes) (block : Option BlockName) : Desk (Int × Int) := do
  let base ← positionStateSlot poolId key
  let last0 ← managerWord deployment base 1 block
  let last1 ← managerWord deployment base 2 block
  return (last0, last1)

/-- What a position has earned at a block; the tick is read if none is given. -/
def feesAt (position : LiquidityPosition) (tick : Option Int) (block : BlockName) :
    Desk PositionFees := do
  let poolId ← position.poolKey.id
  let tick ← match tick with
    | some tick => pure tick
    | none => currentTick deployment poolId (some block)
  let lower := position.tickLower
  let upper := position.tickUpper
  let key ← positionKey deployment.positionManager lower upper position.tokenId
  let slots ← rangeSlots poolId lower upper
  let lastRewards ←
    Desk.storage deployment.angstrom (← rewardPositionSlot poolId key) (some block)
  let (growth0, growth1) ← feeGrowth deployment slots (some block)
  let (last0, last1) ← lastFeeGrowth deployment poolId key (some block)
  let growth ← rewardGrowth deployment poolId lower upper (some block)
  let earned (readings : GrowthReadings) (last : Int) : Except Fault Int :=
    feesFromGrowth (growthInside tick lower upper readings) last position.liquidity
  let rewards0 ← earned growth lastRewards
  let fees0 ← earned growth0 last0
  let fees1 ← earned growth1 last1
  return { liquidity := position.liquidity, rewards0, fees0, fees1 }

def fees (position : LiquidityPosition) (tick : Option Int) (block : Option BlockName) :
    Desk PositionFees := do
  feesAt deployment position tick (← Desk.pinned block)

/-! ## Tokens of an owner -/

def balance (owner : Address) (block : Option BlockName) : Desk Int :=
  tokenBalance deployment.positionManager owner block

def nextTokenId (block : Option BlockName) : Desk Int := do
  let (next, _) ← viewCall deployment.positionManager "nextTokenId()" [] () [.uint 256] block
  return next

/-- The owner of a token; none if it was burned or never made. -/
def ownerOf (tokenId : Int) (block : Option BlockName) : Desk (Option Address) := do
  let result ← Desk.attempt (viewCall deployment.positionManager "ownerOf(uint256)" [.uint 256]
    (tokenId, ()) [.address] block)
  match result with
  | .ok (owner, _) => return some owner
  | .error (.reverted ..) => return none
  | .error fault => Desk.fail fault

def countDown (top : Int) (count : Nat) : List Int :=
  (List.range count).map fun (i : Nat) => top - (i : Int)

def ownedAmong (owner : Address) (block : Option BlockName) (tokenIds : List Int) : Desk (List Int) := do
  let owners ← tokenIds.mapM fun tokenId => ownerOf deployment tokenId block
  return (tokenIds.zip owners).filterMap fun (tokenId, holder) =>
    if holder = some owner then some tokenId else none

/-- Looks through the tokens from `top` down, a batch at a time, until `balance` of an owner's are
found. -/
def scan (owner : Address) (block : Option BlockName) (batch : Nat) (balance : Int) :
    (rounds : Nat) → (top : Int) → (found : List Int) → Desk (List Int)
  | 0, _, found => pure found
  | rounds + 1, top, found =>
    if 1 ≤ top ∧ found.length < balance then do
      let more ← ownedAmong deployment owner block (countDown top (min batch top.toNat))
      scan owner block batch balance rounds (top - batch) (found ++ more)
    else pure found

/-- The tokens of an owner, ascending; at most as many as the owner is said to hold, the newest. -/
def ownedBy (owner : Address) (block : Option BlockName) (batch : Nat) : Desk (List Int) := do
  let balance ← balance deployment owner block
  if balance = 0 then return []
  else
    let next ← nextTokenId deployment block
    let top := next - 1
    let found ← scan deployment owner block batch balance top.toNat top []
    return (found.take balance.toNat).reverse

def owned (owner : Setting Address) (block : Option BlockName) (batch : Int) : Desk (List Int) := do
  if batch ≤ 0 then Desk.fail .batchNotPositive
  else ownedBy deployment (← owner) block batch.toNat

def usualBatch : Int := 50

def ofOwnerAt (owner : Setting Address) (block : BlockName) (batch : Int) :
    Desk (List LiquidityPosition) := do
  let tokenIds ← owned deployment owner (some block) batch
  let positions ← tokenIds.mapM fun tokenId => findAt deployment tokenId block
  return positions.filter fun position => position.poolKey.hooks = deployment.angstrom

def ofOwner (owner : Setting Address) (block : Option BlockName) (batch : Int) :
    Desk (List LiquidityPosition) := do
  ofOwnerAt deployment owner (← Desk.pinned block) batch

end Positions

end OrderDesk
