import OrderDesk.Proofs.Generator.Amount

/-!
# What a generated order may pay for gas

An estimate of no gas counts as one in the draft. A stage for gas asks again for the same estimate
when the draft is filled, and writes it as it is.

* `Pipeline.Fills.fee_eq`: without a stage for gas, filling leaves the fee.
* `Generator.generate_gas`: when a generated order may pay for gas.
-/

namespace OrderDesk

theorem Pipeline.Fills.fee_eq {pipeline : Pipeline} {venue : Venue} {outside : Outside}
    {draft filled : Order} {prepared : List (Stage × StageOutput)}
    (fills : pipeline.Fills venue outside draft filled prepared)
    (unestimated : .gas ∉ pipeline.stages) : filled.fee = draft.fee := by
  obtain ⟨authorization, adopted⟩ := pipeline.adopt_eq draft
  have start : (pipeline.adopt draft).fee = draft.fee := by
    rw [adopted]
    rfl
  apply fills.applies.preserves (q := (·.fee = draft.fee)) ?_ start
  rintro ⟨stage, output⟩ mem before next step
  apply step.fee_of (p := (· = draft.fee))
  rintro cost rfl
  cases fills.prepares _ mem with
  | gas => exact absurd (fills.stage_mem mem) unestimated

theorem sortTokens_sorted {first second : Address} (sorted : first.val ≤ second.val) :
    sortTokens first second = (first, second) ∧ sortTokens second first = (first, second) := by
  unfold sortTokens
  rcases sorted.eq_or_lt with same | less
  · cases first
    cases second
    cases same
    simp
  · rw [if_pos less, if_neg less.not_gt]
    exact ⟨rfl, rfl⟩

namespace Generator

variable {generator : Generator} {outside : Outside} {journal : Journal} {token0 token1 : String}
  {order : Order}

/-- Whether an order may cost an amount of gas, by what the order interface answers about the pool
that was read. -/
def Estimates (generator : Generator) (outside : Outside) (pool : Pool) (cost : Int) : Prop :=
  ∃ units, (generator.venue.estimateGas false false pool.token0 pool.token1).Yields outside
    (cost, units)

theorem drafted_tokens (generator : Generator) {reading : Reading}
    (read : reading.pool.FromChain) :
    sortTokens (generator.drafted reading).assetIn (generator.drafted reading).assetOut =
      (reading.pool.token0, reading.pool.token1) := by
  obtain ⟨same, swapped⟩ := sortTokens_sorted read.sorted
  unfold drafted draft
  dsimp only
  cases reading.trade.zeroForOne
  · exact swapped
  · exact same

theorem Makes.fee_estimated {reading : Reading}
    (makes : generator.Makes outside token0 token1 reading order)
    (estimated : .gas ∈ generator.pipeline.stages) :
    generator.Estimates outside reading.pool order.fee := by
  obtain ⟨prepared, fills⟩ := Pipeline.fill_ok makes.filled
  have yields := fills.fee_estimated estimated
  unfold Stage.estimate at yields
  rw [generator.drafted_tokens makes.fromChain] at yields
  obtain ⟨⟨cost, units⟩, answered, yields⟩ := yields.of_bind
  dsimp only at yields
  split at yields
  · cases yields.of_pure
    exact ⟨units, answered⟩
  · exact absurd yields Desk.not_yields_fail

/-- Without a stage for gas, the order may pay the estimate that was read, or one if that is zero.
With one, it may pay what that stage was answered, zero included. So where the answer is always the
same, the order may pay for gas exactly if the answer is not zero or no stage asks for it. -/
theorem generate_gas (given : ((generator.generate token0 token1).outcome outside journal).1 =
      .ok order) :
    ∃ reading, generator.Makes outside token0 token1 reading order ∧
      generator.Estimates outside reading.pool reading.cost ∧
      (.gas ∉ generator.pipeline.stages →
        order.fee = if reading.cost = 0 then 1 else reading.cost) ∧
      (.gas ∈ generator.pipeline.stages →
        generator.Estimates outside reading.pool order.fee) ∧
      ∀ answer, 0 ≤ answer →
        (∀ cost, generator.Estimates outside reading.pool cost → cost = answer) →
        (1 ≤ order.fee ↔ answer ≠ 0 ∨ .gas ∉ generator.pipeline.stages) := by
  obtain ⟨reading, makes⟩ := generate_ok ⟨journal, given⟩
  have unestimated : .gas ∉ generator.pipeline.stages →
      order.fee = if reading.cost = 0 then 1 else reading.cost := by
    intro none
    obtain ⟨prepared, fills⟩ := Pipeline.fill_ok makes.filled
    exact fills.fee_eq none
  refine ⟨reading, makes, makes.cost_ok, unestimated, makes.fee_estimated, ?_⟩
  intro answer nonneg always
  have cost_eq := always reading.cost makes.cost_ok
  by_cases estimated : .gas ∈ generator.pipeline.stages
  · have fee_eq := always order.fee (makes.fee_estimated estimated)
    simp only [estimated, not_true_eq_false, or_false]
    omega
  · have fee_eq := unestimated estimated
    rw [cost_eq] at fee_eq
    simp only [estimated, not_false_eq_true, or_true, iff_true]
    split at fee_eq <;> omega

/-- The poor wallet signs without a stage for gas. -/
theorem generate_gas_signing :
    ∃ reading : Reading,
      (usualGenerator signingPipeline).Estimates (walletOutside 50 40) reading.pool reading.cost ∧
      poorOrder.fee = if reading.cost = 0 then 1 else reading.cost := by
  obtain ⟨reading, -, cost_ok, unestimated, -⟩ := generate_gas poorOrder_generated
  exact ⟨reading, cost_ok, unestimated (by simp [usualGenerator, signingPipeline])⟩

/-- At an estimate of nothing, the standard pipeline signs an order that may pay nothing for gas. -/
theorem generate_gas_nothing :
    usualPipeline = .standard (some usualSigner) 0 usualVenue.hasOrderApi ∧
    (((usualGenerator usualPipeline).generate lowToken.text highToken.text).outcome
      (walletOutside (10 ^ 20) (10 ^ 18)) .empty).1 = .ok richOrder ∧
    richOrder.terms = .topOfBlock ⟨2000000000000000100, 1999999999949512902, 0, 101⟩ ∧
    ¬ 1 ≤ richOrder.fee :=
  ⟨rfl, richOrder_generated, rfl, by decide⟩

end Generator

end OrderDesk
