import OrderDesk.Pool.Document
import OrderDesk.Position.Packed

/-!
# Liquidity positions

A position is liquidity in a range of ticks of a pool, held as a token.
-/

namespace OrderDesk

structure LiquidityPosition where
  tokenId : Int
  tickLower : Int
  tickUpper : Int
  liquidity : Int
  poolKey : PoolKey
deriving DecidableEq, Repr

structure PositionFees where
  liquidity : Int
  /-- Rewards of the settlement contract, paid in token 0. -/
  rewards0 : Int
  fees0 : Int
  fees1 : Int
deriving DecidableEq, Repr

/-! ## As documents -/

/-- The members of a position; liquidity is written as a text. -/
def LiquidityPosition.members (position : LiquidityPosition) : List (Text × Json) :=
  [("token_id", .int position.tokenId), ("tick_lower", .int position.tickLower),
    ("tick_upper", .int position.tickUpper), ("liquidity", .text (toString position.liquidity)),
    ("pool_key", position.poolKey.toJson)]

def LiquidityPosition.toJson (position : LiquidityPosition) : Json := .object position.members

def PositionInfo.toJson (info : PositionInfo) : Json :=
  .object [("pool_map_key", .text (Hex.text info.poolMapKey)), ("tick_lower", .int info.tickLower),
    ("tick_upper", .int info.tickUpper), ("has_subscriber", .bool info.hasSubscriber)]

def PositionFees.toJson (fees : PositionFees) : Json :=
  .object [("position_liquidity", .text (toString fees.liquidity)),
    ("angstrom_token0_fees", .text (toString fees.rewards0)),
    ("uniswap_token0_fees", .text (toString fees.fees0)),
    ("uniswap_token1_fees", .text (toString fees.fees1))]

end OrderDesk
