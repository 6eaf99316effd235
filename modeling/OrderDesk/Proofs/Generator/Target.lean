import OrderDesk.Proofs.Generator.Draft
import OrderDesk.Proofs.Price.Inverse

/-!
# Target prices as limits of swaps

A target is held back at the ends of the range of ticks, where no swap may have its limit; and the
price of a pool may already be at the next tick, where it is left by a swap that came down to it.

* `simulate_refuses_iff`: a swap refuses its limit before its first round, and never later.
* `Pool.HasTarget`: the targets that are limits of swaps.
* `targetPrice_reachable`: a swap accepts the price of its target in no other case.
-/

namespace OrderDesk

/-! ## Limits are refused at the start -/

/-- Whether a computation does not fail for the limit of a swap. -/
def LimitFree {α : Type} (result : Except PriceFault α) : Prop :=
  ∀ limit direction, result ≠ .error (.limitOutOfReach limit direction)

namespace LimitFree

variable {α β : Type}

theorem ok (value : α) : LimitFree (.ok value) := nofun

theorem error {fault : PriceFault}
    (other : ∀ limit direction, fault ≠ .limitOutOfReach limit direction) :
    LimitFree (.error fault : Except PriceFault α) := by
  intro limit direction same
  exact other limit direction (Except.error.inj same)

theorem bind {first : Except PriceFault α} {next : α → Except PriceFault β}
    (head : LimitFree first) (rest : ∀ value, LimitFree (next value)) :
    LimitFree (first >>= next) := by
  cases first with
  | error fault => exact error fun limit direction same => head limit direction (congrArg _ same)
  | ok value => exact rest value

theorem ite {condition : Prop} [Decidable condition] {first second : Except PriceFault α}
    (yes : LimitFree first) (no : LimitFree second) :
    LimitFree (if condition then first else second) := by
  split
  · exact yes
  · exact no

end LimitFree

section Amounts

variable {rounding : Rounding} {a b price liquidity amount : Int} {add zeroForOne : Bool}

theorem mulDiv_limitFree {denominator : Int} : LimitFree (mulDiv rounding a b denominator) :=
  .ite (.error nofun) (.ite (.error nofun) (.ok _))

theorem checkPrice_limitFree : LimitFree (checkPrice price) :=
  .ite (.error nofun) (.ok _)

theorem amount0_limitFree : LimitFree (amount0 rounding a b liquidity) :=
  .ite (.error nofun) (.bind mulDiv_limitFree fun _ => .ok _)

theorem paidIn_limitFree : LimitFree (paidIn zeroForOne a b liquidity) :=
  .ite amount0_limitFree mulDiv_limitFree

theorem paidOut_limitFree : LimitFree (paidOut zeroForOne a b liquidity) :=
  .ite mulDiv_limitFree amount0_limitFree

theorem nextPrice0_limitFree : LimitFree (nextPrice0 price liquidity amount add) := by
  refine .ite (.ok _) (.ite (.ite ?_ ?_) (.ite (.error nofun) ?_))
  · exact .bind mulDiv_limitFree fun _ => checkPrice_limitFree
  · refine .bind (.ite (.error nofun) (.ok _)) fun _ => ?_
    refine .bind (.ite (.error nofun) (.ok _)) fun _ => ?_
    exact checkPrice_limitFree
  · exact .bind mulDiv_limitFree fun _ => checkPrice_limitFree

theorem nextPrice1_limitFree : LimitFree (nextPrice1 price liquidity amount add) :=
  .ite (.bind mulDiv_limitFree fun _ => checkPrice_limitFree)
    (.bind mulDiv_limitFree fun _ => .ite (.error nofun) (.ok _))

end Amounts

section Rounds

variable {current target liquidity remaining fee : Int}

theorem stepPrice_limitFree :
    LimitFree (stepPrice current target liquidity remaining fee) := by
  refine .ite (.bind mulDiv_limitFree fun _ => .bind paidIn_limitFree fun _ => ?_)
    (.bind paidOut_limitFree fun _ => ?_)
  · exact .ite (.ok _) (.ite (.error nofun) (.ite nextPrice0_limitFree nextPrice1_limitFree))
  · exact .ite (.ok _) (.ite (.error nofun) (.ite nextPrice1_limitFree nextPrice0_limitFree))

theorem swapStep_limitFree :
    LimitFree (swapStep current target liquidity remaining fee) := by
  refine .ite (.error nofun) (.bind stepPrice_limitFree fun _ => ?_)
  refine .bind paidIn_limitFree fun _ => .bind paidOut_limitFree fun _ => ?_
  exact .ite (.ok _) (.bind mulDiv_limitFree fun _ => .ok _)

theorem nextTick_limitFree {bitmap : Bitmap} {tick spacing : Int} {downward : Bool} :
    LimitFree (bitmap.nextTick tick spacing downward) := by
  refine .bind (.ite (.error nofun) (.ok _)) fun compressed => .ite ?_ ?_
  · dsimp only
    split <;> exact .ok _
  · dsimp only
    split <;> exact .ok _

variable {plan : SwapPlan}

theorem advance_limitFree {state : SwapState} : LimitFree (plan.advance state) := by
  refine .bind nextTick_limitFree fun found => .bind (.ite (.error nofun) (.ok _)) fun price => ?_
  refine .bind swapStep_limitFree fun step => .ite (.ite ?_ (.ok _)) (.ite ?_ (.ok _))
  · exact .bind (.ite (.error nofun) (.ok _)) fun _ => .ok _
  · exact .bind (.ite (.error nofun) (.ok _)) fun _ => .ok _

theorem run_limitFree (rounds : Nat) (state : SwapState) : LimitFree (plan.run rounds state) := by
  induction rounds generalizing state with
  | zero => exact .ite (.ok _) (.error nofun)
  | succ rounds ih => exact .ite (.ok _) (.bind advance_limitFree ih)

end Rounds

variable {pool : Pool} {token : Address} {zeroForOne : Bool} {amount limit spacings : Int}

theorem isToken0_limitFree : LimitFree (pool.isToken0 token) :=
  .ite (.ok _) (.ite (.ok _) (.error nofun))

theorem simulate_refuses {refused : Int} {direction : Bool}
    (given : simulate pool token amount (some limit) =
      .error (.limitOutOfReach refused direction)) :
    refused = limit ∧ pool.isToken0 token = .ok direction ∧ amount ≠ 0 ∧
      ¬ limitReachable direction pool.sqrtPrice limit := by
  unfold simulate at given
  split at given
  · cases given
  · rename_i traded
    cases side : pool.isToken0 token with
    | error fault =>
      rw [planSwap, side] at given
      cases given
      exact absurd side (isToken0_limitFree refused direction)
    | ok zeroForOne =>
      rw [planSwap, side, ok_bind] at given
      dsimp only [Option.getD_some] at given
      split at given
      · refine absurd given (LimitFree.bind (.ok _) (fun plan => ?_) refused direction)
        exact .bind (run_limitFree _ _) fun final => .ite (.ok _) (.ok _)
      · rename_i beyond
        cases given
        exact ⟨rfl, rfl, traded, beyond⟩

theorem simulate_refuses_iff (side : pool.isToken0 token = .ok zeroForOne) (traded : amount ≠ 0) :
    simulate pool token amount (some limit) = .error (.limitOutOfReach limit zeroForOne) ↔
      ¬ limitReachable zeroForOne pool.sqrtPrice limit := by
  constructor
  · intro given
    exact (simulate_refuses given).2.2.2
  · intro beyond
    rw [simulate, if_neg traded, planSwap, side, ok_bind]
    dsimp only [Option.getD_some]
    rw [if_neg beyond]
    rfl

/-! ## Targets -/

def Pool.targetTick (pool : Pool) (zeroForOne : Bool) (spacings : Int) : Int :=
  if zeroForOne then pool.tick - spacings * pool.tickSpacing
  else pool.tick + spacings * pool.tickSpacing

/-- Whether the target lies inside the range of ticks, away from the price of the pool. -/
def Pool.HasTarget (pool : Pool) (zeroForOne : Bool) (spacings : Int) : Prop :=
  (minTick < pool.targetTick zeroForOne spacings ∧ pool.targetTick zeroForOne spacings < maxTick) ∧
    pool.sqrtPrice ≠ tickPrice (pool.targetTick zeroForOne spacings)

instance (pool : Pool) (zeroForOne : Bool) (spacings : Int) :
    Decidable (pool.HasTarget zeroForOne spacings) := by
  unfold Pool.HasTarget; infer_instance

theorem targetPrice_eq : targetPrice pool.tick pool.tickSpacing zeroForOne spacings =
    .ok (tickPrice (clampTick (pool.targetTick zeroForOne spacings))) := by
  rw [targetPrice, priceAt_eq_ok]
  exact ⟨clampTick_mem _, rfl⟩

theorem clampTick_of_mem {tick : Int} (ge : minTick ≤ tick) (le : tick ≤ maxTick) :
    clampTick tick = tick := by
  rw [clampTick, min_eq_right le, max_eq_right ge]

theorem minPrice_lt_clamped {tick : Int} :
    minPrice < tickPrice (clampTick tick) ↔ minTick < tick := by
  obtain ⟨ge, le⟩ := clampTick_mem tick
  have within : minTick < clampTick tick ↔ minTick < tick := by
    rw [clampTick, minTick_eq, maxTick_eq]
    omega
  rw [← within]
  refine ⟨minTick_lt ge, fun above => ?_⟩
  rw [← tickPrice_minTick]
  exact tickPrice_strictMono above le_rfl le

theorem clamped_lt_maxPrice {tick : Int} :
    tickPrice (clampTick tick) < maxPrice ↔ tick < maxTick := by
  obtain ⟨ge, le⟩ := clampTick_mem tick
  have within : clampTick tick < maxTick ↔ tick < maxTick := by
    rw [clampTick, minTick_eq, maxTick_eq]
    omega
  rw [← within]
  refine ⟨lt_maxTick le, fun below => ?_⟩
  rw [← tickPrice_maxTick]
  exact tickPrice_strictMono below ge le_rfl

section Reachable

variable (moved : 1 ≤ spacings * pool.tickSpacing)
  (tick_mem : minTick ≤ pool.tick ∧ pool.tick < maxTick)
include moved tick_mem

theorem reachable_down (price_ge : tickPrice pool.tick ≤ pool.sqrtPrice) :
    limitReachable true pool.sqrtPrice (tickPrice (clampTick (pool.targetTick true spacings))) ↔
      pool.HasTarget true spacings := by
  have target_eq : pool.targetTick true spacings = pool.tick - spacings * pool.tickSpacing := rfl
  rw [limitReachable, if_pos rfl, minPrice_lt_clamped, Pool.HasTarget]
  constructor
  · rintro ⟨inside, below⟩
    rw [clampTick_of_mem inside.le (by omega)] at below
    exact ⟨⟨inside, by omega⟩, below.ne'⟩
  · rintro ⟨⟨inside, -⟩, -⟩
    rw [clampTick_of_mem inside.le (by omega)]
    exact ⟨inside, (tickPrice_strictMono (by omega) inside.le (by omega)).trans_le price_ge⟩

theorem reachable_up (price_le : pool.sqrtPrice ≤ tickPrice (pool.tick + 1)) :
    limitReachable false pool.sqrtPrice (tickPrice (clampTick (pool.targetTick false spacings))) ↔
      pool.HasTarget false spacings := by
  have target_eq : pool.targetTick false spacings = pool.tick + spacings * pool.tickSpacing := rfl
  rw [limitReachable, if_neg Bool.false_ne_true, clamped_lt_maxPrice, Pool.HasTarget]
  constructor
  · rintro ⟨above, inside⟩
    rw [clampTick_of_mem (by omega) inside.le] at above
    exact ⟨⟨by omega, inside⟩, above.ne⟩
  · rintro ⟨⟨-, inside⟩, away⟩
    rw [clampTick_of_mem (by omega) inside.le]
    have rises : tickPrice (pool.tick + 1) ≤ tickPrice (pool.targetTick false spacings) :=
      tickPrice_mono (by omega) (by omega) (by omega)
    exact ⟨(price_le.trans rises).lt_of_ne away, inside⟩

end Reachable

/-! ## Plans -/

section Plan

variable {generator : Generator} {fraction balance0 balance1 refused : Int} {direction : Bool}

theorem selectDirection_limitFree {price : Int} :
    LimitFree (selectDirection balance0 balance1 price) :=
  .bind mulDiv_limitFree fun _ => .ok _

theorem divDown_limitFree {x y : Int} : LimitFree (divDown x y) := .ite (.error nofun) (.ok _)

theorem sizedAmount_limitFree {converted : Int} :
    LimitFree (sizedAmount balance0 balance1 converted zeroForOne true fraction) :=
  .ite divDown_limitFree (.bind divDown_limitFree fun _ => .ok _)

theorem targetPrice_limitFree {tick spacing : Int} :
    LimitFree (targetPrice tick spacing zeroForOne spacings) :=
  .ite (.error nofun) (.ok _)

theorem LimitFree.refused_bind {α β : Type} {result : Except PriceFault α}
    {next : α → Except Fault β} (free : LimitFree result) :
    (liftM result >>= next) = .error (.price (.limitOutOfReach refused direction)) ↔
      ∃ value, result = .ok value ∧
        next value = .error (.price (.limitOutOfReach refused direction)) := by
  constructor
  · intro given
    cases result with
    | error fault =>
      cases given
      exact absurd rfl (free refused direction)
    | ok value => exact ⟨value, rfl, given⟩
  · rintro ⟨value, rfl, given⟩
    exact given

theorem isToken0_tokenIn (distinct : pool.token0 ≠ pool.token1) :
    pool.isToken0 (if zeroForOne then pool.token0 else pool.token1) = .ok zeroForOne := by
  cases zeroForOne
  · exact (if_neg distinct.symm).trans (if_pos rfl)
  · exact if_pos rfl

/-- A plan is refused for its limit exactly if it trades something and its limit is out of reach. -/
theorem Generator.plan_refuses_iff (fraction_ok : generator.fraction = .ok fraction)
    (spacings_ok : generator.spacings = .ok spacings) (distinct : pool.token0 ≠ pool.token1) :
    generator.plan pool balance0 balance1 = .error (.price (.limitOutOfReach refused direction)) ↔
      ∃ converted amount, selectDirection balance0 balance1 pool.sqrtPrice =
          .ok (direction, converted) ∧
        sizedAmount balance0 balance1 converted direction true fraction = .ok amount ∧
        targetPrice pool.tick pool.tickSpacing direction spacings = .ok refused ∧
        amount ≠ 0 ∧ ¬ limitReachable direction pool.sqrtPrice refused := by
  rw [plan, fraction_ok, spacings_ok, selectDirection_limitFree.refused_bind]
  constructor
  · rintro ⟨⟨zeroForOne, converted⟩, selected, given⟩
    obtain ⟨amount, sized, given⟩ := sizedAmount_limitFree.refused_bind.mp given
    obtain ⟨limit, limit_ok, given⟩ := targetPrice_limitFree.refused_bind.mp given
    dsimp only at given
    cases simulated : simulate pool (if zeroForOne then pool.token0 else pool.token1) amount
        (some limit) with
    | ok amounts =>
      rw [simulated] at given
      cases given
    | error fault =>
      rw [simulated] at given
      cases given
      obtain ⟨rfl, side, traded, beyond⟩ := simulate_refuses simulated
      cases side.symm.trans (isToken0_tokenIn distinct)
      exact ⟨converted, amount, selected, sized, limit_ok, traded, beyond⟩
  · rintro ⟨converted, amount, selected, sized, limit_ok, traded, beyond⟩
    refine ⟨(direction, converted), selected, sizedAmount_limitFree.refused_bind.mpr ⟨amount, sized,
      targetPrice_limitFree.refused_bind.mpr ⟨refused, limit_ok, ?_⟩⟩⟩
    dsimp only
    rw [(simulate_refuses_iff (isToken0_tokenIn distinct) traded).mpr beyond]
    rfl

end Plan

/-- The price of a target is always defined. It is a limit that a swap accepts exactly if the target
is inside the range and its price is not the current one already; else a swap that trades anything
refuses it, and so does a plan to trade in that direction. -/
theorem targetPrice_reachable (spacing_pos : 1 ≤ pool.tickSpacing) (spacings_pos : 1 ≤ spacings)
    (tick_mem : minTick ≤ pool.tick ∧ pool.tick < maxTick)
    (price_mem : tickPrice pool.tick ≤ pool.sqrtPrice ∧
      pool.sqrtPrice ≤ tickPrice (pool.tick + 1)) :
    ∃ limit, targetPrice pool.tick pool.tickSpacing zeroForOne spacings = .ok limit ∧
      (limitReachable zeroForOne pool.sqrtPrice limit ↔ pool.HasTarget zeroForOne spacings) ∧
      (∀ token amount, pool.isToken0 token = .ok zeroForOne → amount ≠ 0 →
        (simulate pool token amount (some limit) = .error (.limitOutOfReach limit zeroForOne) ↔
          ¬ pool.HasTarget zeroForOne spacings)) ∧
      ∀ (generator : Generator) fraction balance0 balance1, generator.fraction = .ok fraction →
        generator.spacings = .ok spacings → pool.token0 ≠ pool.token1 →
        (generator.plan pool balance0 balance1 =
            .error (.price (.limitOutOfReach limit zeroForOne)) ↔
          ¬ pool.HasTarget zeroForOne spacings ∧
            ∃ converted amount, selectDirection balance0 balance1 pool.sqrtPrice =
                .ok (zeroForOne, converted) ∧
              sizedAmount balance0 balance1 converted zeroForOne true fraction = .ok amount ∧
              amount ≠ 0) := by
  have reachable_iff : limitReachable zeroForOne pool.sqrtPrice
      (tickPrice (clampTick (pool.targetTick zeroForOne spacings))) ↔
        pool.HasTarget zeroForOne spacings := by
    have moved : 1 ≤ spacings * pool.tickSpacing :=
      one_le_mul_of_one_le_of_one_le spacings_pos spacing_pos
    cases zeroForOne with
    | true => exact reachable_down moved tick_mem price_mem.1
    | false => exact reachable_up moved tick_mem price_mem.2
  refine ⟨_, targetPrice_eq, reachable_iff, ?_, ?_⟩
  · intro token amount side traded
    rw [simulate_refuses_iff side traded, reachable_iff]
  · intro generator fraction balance0 balance1 fraction_ok spacings_ok distinct
    rw [Generator.plan_refuses_iff fraction_ok spacings_ok distinct, reachable_iff]
    constructor
    · rintro ⟨converted, amount, selected, sized, -, traded, beyond⟩
      exact ⟨beyond, converted, amount, selected, sized, traded⟩
    · rintro ⟨beyond, converted, amount, selected, sized, traded⟩
      exact ⟨converted, amount, selected, sized, targetPrice_eq, traded, beyond⟩

theorem targetPrice_reachable_onePosition :
    ∃ limit, targetPrice onePosition.tick onePosition.tickSpacing true 5 = .ok limit ∧
      limitReachable true onePosition.sqrtPrice limit := by
  obtain ⟨limit, limit_ok, reachable_iff, -⟩ := @targetPrice_reachable onePosition true 5
    (by decide) (by decide) (by decide) (by decide)
  exact ⟨limit, limit_ok, reachable_iff.mpr (by decide)⟩

/-- A pool close to the upper end of the range, without ticks. -/
def highPool : Pool :=
  { onePosition with tick := 887000, sqrtPrice := tickPrice 887000, ticks := [], bitmap := [] }

/-- A price may rise from there to limits below the end, but the target is held back at the end
itself, and a wallet with enough of the other token cannot plan a trade. -/
theorem targetPrice_unreachable :
    (1 ≤ highPool.tickSpacing ∧ minTick ≤ highPool.tick ∧ highPool.tick < maxTick ∧
      tickPrice highPool.tick ≤ highPool.sqrtPrice ∧
      highPool.sqrtPrice ≤ tickPrice (highPool.tick + 1) ∧ highPool.sqrtPrice < maxPrice - 1) ∧
    targetPrice highPool.tick highPool.tickSpacing false 5 = .ok maxPrice ∧
    ¬ limitReachable false highPool.sqrtPrice maxPrice ∧
    (Generator.usualGenerator .empty).plan highPool 1 (10 ^ 40) =
      .error (.price (.limitOutOfReach maxPrice false)) := by
  refine ⟨by decide, rfl, by decide, ?_⟩
  rfl

end OrderDesk
