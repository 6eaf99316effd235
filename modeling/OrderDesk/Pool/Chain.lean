import OrderDesk.Pool.ConfigStore
import OrderDesk.Storage.Layout
import OrderDesk.TickReader.Loading

/-!
# Pools on the chain

The pools of the settlement contract are configured in a store that it points to; their state is
kept by the pool manager. Tokens may be given in either order and in any spelling.

* `PoolReader.snapshot` reads a whole pool at one block.
-/

namespace OrderDesk

/-- The fee of all pools of the settlement contract: it is set anew for each swap. -/
def dynamicFee : Int := 0x800000

/-- What pools are read with. Without a tick reader, pools are read without ticks. -/
structure PoolReader where
  deployment : Deployment
  tickReader : Option TickReader
  band : Band

def readPair (token0 token1 : String) : Except Fault (Address × Address) := do
  let a ← readAddress token0
  let b ← readAddress token1
  return sortTokens a b

namespace PoolReader

/-! ## Configuration -/

def storeAddress (pointer : Int) : Except Fault Address :=
  match Bytes.ofInt? 32 pointer with
  | some word => .ok (.ofBytes ((word.drop 4).take 20))
  | none => .error .tooWide

def configStore (reader : PoolReader) (block : Option BlockName) : Desk (Table Bytes ConfigEntry) := do
  let slot := Bytes.ofNat 32 configStoreSlot.toNat
  let pointer ← Desk.storage reader.deployment.angstrom slot block
  let store ← storeAddress pointer
  let code ← Desk.code store block
  return ConfigStore.byKey (← ConfigStore.decode code)

def configOf (reader : PoolReader) (token0 token1 : Address) (block : Option BlockName) :
    Desk ConfigEntry := do
  let store ← reader.configStore block
  match Table.get? store (ConfigStore.partialKey token0 token1) with
  | some entry => return entry
  | none => Desk.fail (.noPoolConfig token0 token1)

def config (reader : PoolReader) (token0 token1 : String) (block : Option BlockName) :
    Desk ConfigEntry := do
  let (low, high) ← readPair token0 token1
  reader.configOf low high block

def key (reader : PoolReader) (token0 token1 : String) (block : Option BlockName) :
    Desk (PoolKey × ConfigEntry) := do
  let (low, high) ← readPair token0 token1
  let entry ← reader.configOf low high block
  return ({
    currency0 := low
    currency1 := high
    fee := dynamicFee
    tickSpacing := entry.tickSpacing
    hooks := reader.deployment.angstrom }, entry)

def id (reader : PoolReader) (token0 token1 : String) (block : Option BlockName) : Desk Bytes := do
  let (key, _) ← reader.key token0 token1 block
  key.id

/-! ## State -/

def slot0 (reader : PoolReader) (poolId : Bytes) (block : Option BlockName) : Desk Slot0 := do
  let slot ← poolStateSlot poolId
  return .ofWord (← Desk.storage reader.deployment.poolManager slot block)

def liquidity (reader : PoolReader) (poolId : Bytes) (block : Option BlockName) : Desk Int := do
  let slot := (Slot.bytes (← poolStateSlot poolId)).offset liquidityOffset
  return low128 (← Desk.storage reader.deployment.poolManager slot block)

def ticks (reader : PoolReader) (poolId : Bytes) (tick spacing : Int) (block : BlockName) :
    Desk TickMaps :=
  match reader.tickReader with
  | some tickReader =>
    tickReader.loadBand reader.deployment ⟨poolId, spacing, some block⟩ tick reader.band
  | none => pure ⟨[], []⟩

def snapshot (reader : PoolReader) (token0 token1 : String) (block : Option BlockName)
    (withTicks : Bool) : Desk (BlockName × Pool) := do
  let block ← Desk.pinned block
  let (key, entry) ← reader.key token0 token1 (some block)
  let poolId ← key.id
  let slot0 ← reader.slot0 poolId (some block)
  let liquidity ← reader.liquidity poolId (some block)
  let maps ← if withTicks then reader.ticks poolId slot0.tick entry.tickSpacing block
    else pure ⟨[], []⟩
  let pool : Pool := {
    token0 := key.currency0
    token1 := key.currency1
    tick := slot0.tick
    tickSpacing := entry.tickSpacing
    sqrtPrice := slot0.sqrtPrice
    liquidity
    ticks := maps.ticks
    bitmap := maps.bitmap
    feePips := slot0.lpFee
    id := poolId
    block := some block }
  let complete ← (liftM pool.complete : Except Fault Pool)
  return (block, complete)

end PoolReader

end OrderDesk
