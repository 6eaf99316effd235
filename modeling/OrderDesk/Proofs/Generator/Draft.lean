import OrderDesk.Generator
import OrderDesk.Proofs.Fields
import OrderDesk.Proofs.Pipeline.Signature
import OrderDesk.Proofs.Swap.Termination

/-!
# What a generator makes an order from

* `PoolReader.snapshot_fromChain`: what holds of a pool that was read from the chain.
* `Generator.plan_ok`: how a trade was planned.
* `Generator.generate_ok`: what was read and chosen for an order that was made.
* `Generator.Makes.order_eq`: the order is the draft but for what the stages write.
-/

namespace OrderDesk

/-! ## Snapshots -/

/-- What holds of a pool that was read: its tokens are sorted, its numbers are those of words. -/
structure Pool.FromChain (pool : Pool) : Prop where
  sorted : pool.token0.val ≤ pool.token1.val
  price_mem : 0 ≤ pool.sqrtPrice ∧ pool.sqrtPrice < 2 ^ 160
  liquidity_nonneg : 0 ≤ pool.liquidity
  fee_nonneg : 0 ≤ pool.feePips

theorem Pool.FromChain.complete {pool completed : Pool} (read : pool.FromChain)
    (given : pool.complete = .ok completed) : completed.FromChain := by
  unfold Pool.complete at given
  split at given
  · cases given
    exact read
  · obtain ⟨bitmap, -, given⟩ := bind_eq_ok.mp given
    cases pure_eq_ok.mp given
    exact ⟨read.sorted, read.price_mem, read.liquidity_nonneg, read.fee_nonneg⟩

namespace PoolReader

variable {reader : PoolReader} {outside : Outside} {token0 token1 : String}
  {block : Option BlockName}

theorem key_sorted {key : PoolKey} {entry : ConfigEntry}
    (given : (reader.key token0 token1 block).Yields outside (key, entry)) :
    key.currency0.val ≤ key.currency1.val := by
  obtain ⟨⟨low, high⟩, pair_ok, given⟩ := given.of_bind
  obtain ⟨_, -, given⟩ := given.of_bind
  cases given.of_pure
  obtain ⟨a, -, pair_ok⟩ := bind_eq_ok.mp pair_ok.of_lift
  obtain ⟨b, -, pair_ok⟩ := bind_eq_ok.mp pair_ok
  have sorted := pure_eq_ok.mp pair_ok
  unfold sortTokens at sorted
  split at sorted
  all_goals
    cases sorted
    dsimp only
    omega

theorem snapshot_fromChain {withTicks : Bool} {name : BlockName} {pool : Pool}
    (given : (reader.snapshot token0 token1 block withTicks).Yields outside (name, pool)) :
    pool.FromChain := by
  obtain ⟨_, -, given⟩ := given.of_bind
  obtain ⟨⟨key, entry⟩, key_ok, given⟩ := given.of_bind
  obtain ⟨_, -, given⟩ := given.of_bind
  obtain ⟨slot0, slot0_ok, given⟩ := given.of_bind
  obtain ⟨liquidity, liquidity_ok, given⟩ := given.of_bind
  obtain ⟨_, -, slot0_ok⟩ := slot0_ok.of_bind
  obtain ⟨word, -, slot0_ok⟩ := slot0_ok.of_bind
  cases slot0_ok.of_pure
  obtain ⟨_, -, liquidity_ok⟩ := liquidity_ok.of_bind
  obtain ⟨depth, -, liquidity_ok⟩ := liquidity_ok.of_bind
  cases liquidity_ok.of_pure
  dsimp only at given
  split at given
  all_goals
    obtain ⟨maps, -, given⟩ := given.of_bind
    obtain ⟨completed, completed_ok, given⟩ := given.of_bind
    cases given.of_pure
    refine Pool.FromChain.complete ?_ (price_ok completed_ok.of_lift)
    exact ⟨key_sorted key_ok, bitField_mem word 0 160, (bitField_mem depth 0 128).1,
      (bitField_mem word 208 24).1⟩

end PoolReader

namespace Generator

variable {generator : Generator} {outside : Outside} {token0 token1 : String} {order : Order}

/-! ## Trades -/

/-- How a generator has planned a trade. -/
structure Plans (generator : Generator) (pool : Pool) (balance0 balance1 : Int) (trade : Trade)
    (fraction amount limit : Int) : Prop where
  fraction_ok : generator.fraction = .ok fraction
  amount_ok : divDown (if trade.zeroForOne then balance0 else balance1) fraction = .ok amount
  simulated : simulate pool (if trade.zeroForOne then pool.token0 else pool.token1) amount
    (some limit) = .ok (trade.amountIn, trade.amountOut)

theorem plan_ok {pool : Pool} {balance0 balance1 : Int} {trade : Trade}
    (given : generator.plan pool balance0 balance1 = .ok trade) :
    ∃ fraction amount limit,
      generator.Plans pool balance0 balance1 trade fraction amount limit := by
  obtain ⟨⟨zeroForOne, converted⟩, -, given⟩ := bind_eq_ok.mp given
  obtain ⟨fraction, fraction_ok, given⟩ := bind_eq_ok.mp given
  obtain ⟨amount, amount_ok, given⟩ := bind_eq_ok.mp given
  obtain ⟨spacings, -, given⟩ := bind_eq_ok.mp given
  obtain ⟨limit, -, given⟩ := bind_eq_ok.mp given
  obtain ⟨⟨amountIn, amountOut⟩, simulated, given⟩ := bind_eq_ok.mp given
  cases pure_eq_ok.mp given
  exact ⟨fraction, amount, limit, fraction_ok, price_ok amount_ok, price_ok simulated⟩

/-! ## Orders -/

/-- What a generator reads and chooses for an order. -/
structure Reading where
  block : Int
  pool : Pool
  cost : Int
  balance0 : Int
  balance1 : Int
  trade : Trade
  padding : Int

/-- The draft of what was read and chosen. An estimate of no gas counts as one. -/
def drafted (generator : Generator) (reading : Reading) : Order :=
  generator.draft reading.pool reading.trade (reading.trade.amountIn + reading.padding)
    (if reading.cost = 0 then 1 else reading.cost) reading.block

/-- How a generator has made an order from what it read. -/
structure Makes (generator : Generator) (outside : Outside) (token0 token1 : String)
    (reading : Reading) (order : Order) : Prop where
  block_ok : outside.node.blockNumber = .ok reading.block
  snapshot_ok : ∃ name, (generator.pools.snapshot token0 token1 (some reading.block) true).Yields
    outside (name, reading.pool)
  cost_ok : ∃ units, (generator.venue.estimateGas false false reading.pool.token0
    reading.pool.token1).Yields outside (reading.cost, units)
  balance0_ok : (tokenBalance reading.pool.token0 generator.wallet (some reading.block)).Answers
    outside (.ok reading.balance0)
  balance1_ok : (tokenBalance reading.pool.token1 generator.wallet (some reading.block)).Answers
    outside (.ok reading.balance1)
  trade_ok : generator.plan reading.pool reading.balance0 reading.balance1 = .ok reading.trade
  padding_eq : reading.padding = outside.choose 100 (max (reading.trade.amountIn / 100) 101)
  filled : (generator.pipeline.fill generator.venue (generator.drafted reading)).Yields outside
    order

theorem generate_ok (given : (generator.generate token0 token1).Yields outside order) :
    ∃ reading, generator.Makes outside token0 token1 reading order := by
  unfold generate at given
  split at given
  · exact absurd given Desk.not_yields_fail
  · obtain ⟨block, block_ok, given⟩ := given.of_bind
    obtain ⟨⟨name, pool⟩, snapshot_ok, given⟩ := given.of_bind
    obtain ⟨⟨cost, units⟩, cost_ok, given⟩ := given.of_bind
    obtain ⟨balance0, balance0_ok, given⟩ := given.of_bind
    obtain ⟨balance1, balance1_ok, given⟩ := given.of_bind
    obtain ⟨_, -, given⟩ := given.of_bind
    obtain ⟨_, -, given⟩ := given.of_bind
    obtain ⟨trade, trade_ok, given⟩ := given.of_bind
    obtain ⟨padding, chosen, given⟩ := given.of_bind
    dsimp only at given
    by_cases short : Digit.fits (if cost = 0 then 1 else cost) = true
    · rw [if_pos short] at given
      obtain ⟨_, answers0⟩ := tokenBalance_answers
      obtain ⟨_, answers1⟩ := tokenBalance_answers
      obtain ⟨journal, chosen⟩ := chosen
      exact ⟨⟨block, pool, cost, balance0, balance1, trade, padding⟩, block_ok.of_ask,
        ⟨name, snapshot_ok⟩, ⟨units, cost_ok⟩, answers0.of_yields balance0_ok,
        answers1.of_yields balance1_ok, trade_ok.of_lift, (Except.ok.inj chosen).symm, given⟩
    · rw [if_neg short] at given
      exact absurd given Desk.not_yields_fail

namespace Makes

variable {reading : Reading} (makes : generator.Makes outside token0 token1 reading order)
include makes

/-- The order is the draft, but for what the stages write. -/
theorem order_eq : ∃ recipient authorization,
    order = { (generator.drafted reading).withFee order.fee with recipient, authorization } := by
  obtain ⟨prepared, fills⟩ := Pipeline.fill_ok makes.filled
  obtain ⟨nonce, fee, recipient, authorization, rfl⟩ := fills.revises
  exact ⟨recipient, authorization, rfl⟩

theorem terms_eq : order.terms = .topOfBlock ⟨reading.trade.amountIn + reading.padding,
    reading.trade.amountOut, order.fee, reading.block + 1⟩ := by
  obtain ⟨recipient, authorization, same⟩ := makes.order_eq
  rw [same]
  rfl

theorem assetIn_eq : order.assetIn =
    if reading.trade.zeroForOne then reading.pool.token0 else reading.pool.token1 := by
  obtain ⟨recipient, authorization, same⟩ := makes.order_eq
  rw [same]
  rfl

theorem fromChain : reading.pool.FromChain := by
  obtain ⟨name, snapshot_ok⟩ := makes.snapshot_ok
  exact PoolReader.snapshot_fromChain snapshot_ok

end Makes

/-- A generator without ticks, with the wallet of the usual signer. -/
def usualGenerator (pipeline : Pipeline) : Generator where
  venue := usualVenue
  pools := ⟨.mainnet, none, .ofInts 100 10⟩
  pipeline := pipeline
  wallet := usualAddress
  fraction := usualFraction
  spacings := usualSpacings

end Generator

end OrderDesk
