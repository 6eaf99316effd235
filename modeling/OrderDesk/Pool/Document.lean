import OrderDesk.Json.Printer
import OrderDesk.Pool.ConfigStore

/-!
# Pools as documents

What is known of a pool, written as objects for a reader. Addresses and bytes are texts.
-/

namespace OrderDesk

def PoolKey.toJson (key : PoolKey) : Json :=
  .object [("currency0", .text key.currency0.text), ("currency1", .text key.currency1.text),
    ("fee", .int key.fee), ("tick_spacing", .int key.tickSpacing), ("hooks", .text key.hooks.text)]

def ConfigEntry.toJson (entry : ConfigEntry) : Json :=
  .object [("partial_key", .text (Hex.text entry.partialKey)), ("tick_spacing", .int entry.tickSpacing),
    ("fee_in_e6", .int entry.feeInE6), ("store_index", .int entry.storeIndex)]

def Slot0.toJson (slot0 : Slot0) : Json :=
  .object [("sqrt_price_x96", .int slot0.sqrtPrice), ("tick", .int slot0.tick),
    ("protocol_fee", .int slot0.protocolFee), ("lp_fee", .int slot0.lpFee)]

def TickRow.toJson (row : TickRow) : Json :=
  .object [("initialized", .bool row.initialized), ("tick", .int row.tick),
    ("liquidity_gross", .int row.liquidityGross), ("liquidity_net", .int row.liquidityNet)]

/-- Rows by number, in ascending order; no rows are an empty object. -/
def Json.ofRows (rows : Table Int Int) : Json :=
  if rows.isEmpty then .object []
  else .array ((rows.mergeSort fun a b => decide (a.1 ≤ b.1)).map fun (key, value) =>
    .array [.int key, .int value])

def Pool.toJson (pool : Pool) : Json :=
  .object [("token0", .text pool.token0.text), ("token1", .text pool.token1.text),
    ("tick", .int pool.tick), ("tick_spacing", .int pool.tickSpacing),
    ("sqrt_price_x96", .int pool.sqrtPrice), ("liquidity", .int pool.liquidity),
    ("ticks", .ofRows pool.ticks), ("tick_bitmap", .ofRows pool.bitmap),
    ("fee_pips", .int pool.feePips), ("pool_id", .text (Hex.text pool.id)),
    ("block_number", match pool.block with | some block => block.toJson | none => .null)]

end OrderDesk
