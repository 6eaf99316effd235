import OrderDesk.Proofs.Abi
import OrderDesk.Proofs.Generator.Draft

/-!
# What a generated order costs its wallet

The amount of the swap is a part of the balance, and the padding comes on top of it. The least
padding does not depend on the balance.

* `simulate_spends`: a swap takes at most what is offered, whatever was read of the pool.
* `Generator.generate_affordable`: when the wallet can pay for a generated order.
-/

namespace OrderDesk

/-! ## Swaps of what was read -/

section Swap

variable {pool : Pool} {token : Address} {amount amountIn amountOut : Int} {limit : Option Int}

theorem simulate_spends (read : pool.FromChain) (nonneg : 0 ≤ amount)
    (given : simulate pool token amount limit = .ok (amountIn, amountOut)) :
    0 ≤ amountIn ∧ amountIn ≤ amount := by
  rcases nonneg.eq_or_lt with none | paid
  · subst none
    cases given
    exact ⟨le_rfl, le_rfl⟩
  · obtain ⟨plan, final, plan_ok, run_ok, amounts_eq⟩ := simulate_ok paid.ne' given
    obtain ⟨rfl, exactIn_eq, reachable⟩ := planSwap_ok plan_ok
    rw [if_pos paid, Prod.mk.injEq] at amounts_eq
    have word := reachable_word read.price_mem reachable
    have price_le : plan.pool.sqrtPrice ≤ priceWordMax := by
      have bound : (2 ^ 160 : Int) = priceWordMax + 1 := by decide
      have price_lt := read.price_mem.2
      omega
    rcases read.price_mem.1.eq_or_lt with worthless | price_pos
    · -- No step starts from a price of zero, so nothing is spent.
      cases SwapPlan.run_ends run_ok with
      | done =>
        have all : (plan.start amount).remaining = amount := rfl
        omega
      | advance _ first =>
        obtain ⟨found, _, step, -, step_ok, -⟩ := SwapPlan.advance_cases first
        have price_pos : 0 < plan.pool.sqrtPrice :=
          swapStep_pos read.price_mem.1 (SwapPlan.target_word found word).1 step_ok
        omega
    · obtain ⟨reaches, -⟩ := SwapPlan.run_reaches run_ok
      have keeps := reaches.keeps_of_word word read.fee_nonneg
        (SwapPlan.keeps_first ⟨price_pos, price_le⟩ read.liquidity_nonneg exactIn_eq)
      have left := keeps.left
      rw [SwapPlan.LeftOf, exactIn_eq, decide_eq_true paid, if_pos rfl] at left
      omega

end Swap

/-! ## Balances -/

theorem tokenBalance_nonneg {token owner : Address} {block : Option BlockName} {outside : Outside}
    {balance : Int} (given : (tokenBalance token owner block).Yields outside balance) :
    0 ≤ balance := by
  obtain ⟨⟨value, _⟩, read, given⟩ := given.of_bind
  cases given.of_pure
  obtain ⟨_, -, read⟩ := read.of_bind
  obtain ⟨data, -, read⟩ := read.of_bind
  exact (Abi.decode_uint_bounds read.of_lift).1

theorem div_le_half {balance fraction : Int} (nonneg : 0 ≤ balance) (half : 2 ≤ fraction) :
    balance / fraction ≤ balance / 2 := by
  have quotient_nonneg := Int.ediv_nonneg nonneg (by omega : 0 ≤ fraction)
  apply Int.le_ediv_of_mul_le (by decide)
  calc balance / fraction * 2 ≤ balance / fraction * fraction :=
        mul_le_mul_of_nonneg_left half quotient_nonneg
    _ ≤ balance := Int.ediv_mul_le _ (by omega)

/-- Whether what is chosen lies within the bounds asked for. -/
def Outside.ChoosesWithin (outside : Outside) : Prop :=
  ∀ low high, low ≤ high → low ≤ outside.choose low high ∧ outside.choose low high ≤ high

namespace Generator

variable {generator : Generator} {outside : Outside} {journal : Journal} {token0 token1 : String}
  {order : Order} {fraction : Int}

namespace Makes

variable {reading : Reading} (makes : generator.Makes outside token0 token1 reading order)
include makes

theorem spends (fraction_ok : generator.fraction = .ok fraction) (fraction_pos : 1 ≤ fraction) :
    ∃ balance, (tokenBalance order.assetIn generator.wallet (some reading.block)).Answers outside
        (.ok balance) ∧
      0 ≤ balance ∧ 0 ≤ reading.trade.amountIn ∧ reading.trade.amountIn ≤ balance / fraction := by
  obtain ⟨_, amount, limit, planned⟩ := plan_ok makes.trade_ok
  cases fraction_ok.symm.trans planned.fraction_ok
  obtain ⟨balance, held, here⟩ : ∃ balance,
      (tokenBalance order.assetIn generator.wallet (some reading.block)).Answers outside
        (.ok balance) ∧
      (if reading.trade.zeroForOne then reading.balance0 else reading.balance1) = balance := by
    refine ⟨_, ?_, rfl⟩
    rw [makes.assetIn_eq]
    split
    · exact makes.balance0_ok
    · exact makes.balance1_ok
  have balance_nonneg : 0 ≤ balance := tokenBalance_nonneg ⟨.empty, held .empty⟩
  have divided := planned.amount_ok
  rw [here, divDown, if_neg (by omega), Int.fdiv_eq_ediv_of_nonneg _ (by omega)] at divided
  cases divided
  have part_nonneg := Int.ediv_nonneg balance_nonneg (by omega : 0 ≤ fraction)
  have spent := simulate_spends makes.fromChain part_nonneg planned.simulated
  exact ⟨balance, held, balance_nonneg, spent⟩

theorem covered_now (balances : .balance ∈ generator.pipeline.stages)
    (somebody : generator.wallet ≠ .zero) :
    ∃ available, Holds outside order.assetIn generator.wallet available ∧
      (generator.drafted reading).requiredInput ≤ available := by
  obtain ⟨prepared, fills⟩ := Pipeline.fill_ok makes.filled
  obtain ⟨available, now, enough⟩ := fills.covers_draft balances
  have own : (generator.drafted reading).sender ≠ .zero := somebody
  rw [Pipeline.adopt_of_sender own] at now
  exact ⟨available, now, enough⟩

end Makes

/-- A generated order costs a part of the balance that was read for its input asset, and the
padding. It is covered by that balance exactly if the padding fits into what the part leaves, which
it does for a part of at most a half unless the balance is tiny, and never does for less than the
least padding. A stage for the balance makes sure of it only for the balance now. -/
theorem generate_affordable (fraction_ok : generator.fraction = .ok fraction)
    (fraction_pos : 1 ≤ fraction) (within : outside.ChoosesWithin)
    (given : ((generator.generate token0 token1).outcome outside journal).1 = .ok order) :
    ∃ reading balance terms, generator.Makes outside token0 token1 reading order ∧
      (tokenBalance order.assetIn generator.wallet (some reading.block)).Answers outside
        (.ok balance) ∧
      order.terms = .topOfBlock terms ∧
      terms.quantityIn = reading.trade.amountIn + reading.padding ∧
      (0 ≤ reading.trade.amountIn ∧ reading.trade.amountIn ≤ balance / fraction) ∧
      (100 ≤ reading.padding ∧ reading.padding ≤ max (reading.trade.amountIn / 100) 101) ∧
      (terms.quantityIn ≤ balance ↔ reading.padding ≤ balance - reading.trade.amountIn) ∧
      (2 ≤ fraction → 201 ≤ balance → terms.quantityIn ≤ balance) ∧
      (balance < 100 → balance < terms.quantityIn) ∧
      (.balance ∈ generator.pipeline.stages → generator.wallet ≠ .zero →
        ∃ available, Holds outside order.assetIn generator.wallet available ∧
          terms.quantityIn + (if reading.cost = 0 then 1 else reading.cost) ≤ available) := by
  obtain ⟨reading, makes⟩ := generate_ok ⟨journal, given⟩
  obtain ⟨balance, held, nonneg, spent⟩ := makes.spends fraction_ok fraction_pos
  have padded := within 100 (max (reading.trade.amountIn / 100) 101) (by omega)
  rw [← makes.padding_eq] at padded
  refine ⟨reading, balance, _, makes, held, makes.terms_eq, rfl, spent, padded, ?_, ?_, ?_, ?_⟩
  · dsimp only
    omega
  · intro half rich
    have part := div_le_half nonneg half
    dsimp only
    omega
  · intro poor
    dsimp only
    omega
  · exact makes.covered_now

/-! ## Two wallets

A pool at a price of one, a wallet that holds much of either token, and one that holds little. -/

def lowToken : Address := .ofNat 0xaaaaaaaaaaaaaaaaaaaaaaaaaaaaaaaaaaaaaaaa

def highToken : Address := .ofNat 0xbbbbbbbbbbbbbbbbbbbbbbbbbbbbbbbbbbbbbbbb

/-- The code of a store with the pool of the two tokens, at a spacing of sixty. -/
def pairStore : Bytes :=
  0 :: Bytes.ofNat 27 0x658330584768e7cc0742a4b80ebe26baf5eb5f94795db969818388 ++
    Bytes.ofNat 5 0x3c000000

/-- An outside with balances, in which gas is free and the least padding is chosen. Every slot
reads as a price of one, which is also a liquidity. -/
def walletOutside (balance0 balance1 : Int) : Outside where
  node := {
    blockNumber := .ok 100
    storage := fun _ _ _ => .ok q96
    code := fun _ _ => .ok pairStore
    call := fun token _ _ => .ok (Abi.numberWord (if token = lowToken then balance0 else balance1))
    deploy := fun _ _ => .ok [] }
  reply := fun _ _ => .response 200 (Bytes.ofText "\x7b\"result\": [0, 21000]\x7d")
  candidate := fun _ _ => 5
  choose := fun low _ => low
  patience := 1

def signingPipeline : Pipeline := ⟨[.signer usualSigner]⟩

/-- An order for the pool of the two tokens, with its signature. -/
def generatedOrder (terms : TopOfBlockTerms) (v : UInt8) (r s : Nat) : Order where
  assetIn := lowToken
  assetOut := highToken
  recipient := usualAddress
  useInternal := false
  authorization := ⟨true, usualAddress, v :: Bytes.ofNat 32 r ++ Bytes.ofNat 32 s⟩
  terms := .topOfBlock terms

def poorOrder : Order :=
  generatedOrder ⟨101, 0, 1, 101⟩ 0x1c
    0x1130d03001aa542fbdce26c0eb55f8606a6d717e630cc1958d9c39e7c6890d58
    0x40ee9ba6a39aee0db9faef053b8da8e12d11c263a0faa949106328a2026dde60

def richOrder : Order :=
  generatedOrder ⟨2000000000000000100, 1999999999949512902, 0, 101⟩ 0x1c
    0xab0a104e350110f27ae6d61a8d13e50d3c843415e1185da00608dd9bebcaa3c5
    0x38473ffda6eecaffa7641a3c735e04df2e394aed1a67a1c25756781a6ac912af

theorem poorOrder_generated :
    (((usualGenerator signingPipeline).generate lowToken.text highToken.text).outcome
      (walletOutside 50 40) .empty).1 = .ok poorOrder := by
  apply ok_of_toOption
  decide +kernel

theorem richOrder_generated :
    (((usualGenerator usualPipeline).generate lowToken.text highToken.text).outcome
      (walletOutside (10 ^ 20) (10 ^ 18)) .empty).1 = .ok richOrder := by
  apply ok_of_toOption
  decide +kernel

theorem walletOutside_choosesWithin (balance0 balance1 : Int) :
    (walletOutside balance0 balance1).ChoosesWithin :=
  fun _ _ le => ⟨le_rfl, le⟩

theorem generate_affordable_rich :
    ∃ terms, richOrder.terms = .topOfBlock terms ∧
      (tokenBalance richOrder.assetIn usualAddress (some (.number 100))).Answers
        (walletOutside (10 ^ 20) (10 ^ 18)) (.ok (10 ^ 20)) ∧
      terms.quantityIn ≤ 10 ^ 20 := by
  obtain ⟨reading, balance, terms, makes, held, terms_eq, -, -, -, -, covered, -⟩ :=
    generate_affordable rfl (by decide) (walletOutside_choosesWithin _ _) richOrder_generated
  have block_eq : reading.block = 100 := (Except.ok.inj makes.block_ok).symm
  rw [block_eq] at held
  have read : ((tokenBalance richOrder.assetIn usualAddress (some (.number 100))).outcome
      (walletOutside (10 ^ 20) (10 ^ 18)) .empty).1 = .ok (10 ^ 20) := by
    apply ok_of_toOption
    decide +kernel
  cases (held .empty).symm.trans read
  exact ⟨terms, terms_eq, held, covered (by decide) (by norm_num)⟩

/-- The least padding is twice what the poor wallet has. -/
theorem generate_unaffordable :
    Pipeline.ofStages signingPipeline.stages = .ok signingPipeline ∧
    (walletOutside 50 40).ChoosesWithin ∧
    (((usualGenerator signingPipeline).generate lowToken.text highToken.text).outcome
      (walletOutside 50 40) .empty).1 = .ok poorOrder ∧
    (walletOutside 50 40).node.blockNumber = .ok 100 ∧
    (tokenBalance poorOrder.assetIn usualAddress (some (.number 100))).Answers
      (walletOutside 50 40) (.ok 50) ∧
    poorOrder.terms = .topOfBlock ⟨101, 0, 1, 101⟩ ∧ ¬ (101 : Int) ≤ 50 := by
  refine ⟨rfl, walletOutside_choosesWithin _ _, poorOrder_generated, rfl, ?_, rfl, by decide⟩
  obtain ⟨_, answers⟩ := tokenBalance_answers
  apply answers.of_yields ⟨.empty, ok_of_toOption _⟩
  decide +kernel

end Generator

end OrderDesk
