import OrderDesk.Proofs.Price.Inverse
import OrderDesk.Proofs.Swap.Totals

/-!
# Swaps over well-formed pools succeed

Over a pool whose liquidity stays in its words at every tick of the range, each round is given; and
a round that does not end the swap leaves fewer ticks ahead.

* `advance_total`: a round is given.
* `advance_nears`: a round ends the swap or comes nearer to the end of the range.
* `simulate_total`: a swap has amounts.
-/

namespace OrderDesk

variable {plan : SwapPlan} {state after : SwapState} {price tick liquidity amount : Int}

/-! ## Liquidity in its words -/

/-- A pool whose liquidity, with the ticks crossed on the way to any tick of the range, stays in
128-bit words. -/
structure Pool.Bounded (pool : Pool) : Prop where
  below : ∀ tick, minTick ≤ tick → tick ≤ pool.tick →
    0 ≤ pool.liquidity - pool.netOver tick pool.tick ∧
      pool.liquidity - pool.netOver tick pool.tick < 2 ^ 128
  above : ∀ tick, pool.tick ≤ tick → tick < maxTick →
    0 ≤ pool.liquidity + pool.netOver pool.tick tick ∧
      pool.liquidity + pool.netOver pool.tick tick < 2 ^ 128

theorem Pool.Bounded.liquidityAt_mem (bounded : plan.pool.Bounded)
    (tick_mem : minTick ≤ tick ∧ tick < maxTick)
    (toward : Toward plan.zeroForOne plan.pool.tick tick) :
    0 ≤ plan.liquidityAt tick ∧ plan.liquidityAt tick < 2 ^ 128 := by
  unfold SwapPlan.liquidityAt
  cases direction : plan.zeroForOne with
  | false =>
    rw [direction, toward_up] at toward
    exact bounded.above tick toward tick_mem.2
  | true =>
    rw [direction, toward_down] at toward
    exact bounded.below tick tick_mem.1 toward

theorem SwapPlan.Invariant.liquidity_lt (inv : plan.Invariant price tick liquidity)
    (bounded : plan.pool.Bounded) : liquidity < 2 ^ 128 := by
  rw [inv.liquidity_eq]
  exact (bounded.liquidityAt_mem inv.tick_mem inv.tick_toward).2

theorem SwapPlan.cross_total {next : Int}
    (nonneg : 0 ≤ if plan.zeroForOne then liquidity - plan.pool.netAt next
      else liquidity + plan.pool.netAt next) : ∃ left, plan.cross next liquidity = .ok left :=
  ⟨_, if_neg (not_lt.mpr nonneg)⟩

/-! ## One round -/

theorem SwapPlan.Admissible.search_total (admissible : plan.Admissible) (tick : Int) :
    ∃ found initialized,
      plan.pool.bitmap.nextTick tick plan.pool.tickSpacing plan.zeroForOne =
        .ok (found, initialized) := by
  have consistent := admissible.consistent
  have spacing_pos : 0 < plan.pool.tickSpacing := by
    have := consistent.spacing_pos
    omega
  cases plan.zeroForOne with
  | false =>
    obtain ⟨found, initialized, search, -⟩ := nextTick_up spacing_pos consistent.marks tick
    exact ⟨found, initialized, search⟩
  | true =>
    obtain ⟨found, initialized, search, -⟩ := nextTick_down spacing_pos consistent.marks tick
    exact ⟨found, initialized, search⟩

/-- The tick that a swap reaches within its limit can be crossed. -/
theorem SwapPlan.Invariant.crossed_total {found : Int} {initialized : Bool}
    (inv : plan.Invariant price tick liquidity) (admissible : plan.Admissible)
    (bounded : plan.pool.Bounded)
    (search : plan.pool.bitmap.nextTick tick plan.pool.tickSpacing plan.zeroForOne =
      .ok (found, initialized))
    (within : Toward plan.zeroForOne (tickPrice (clampTick found)) plan.limit) :
    ∃ left, (if initialized then plan.cross (clampTick found) liquidity else .ok liquidity) =
      .ok left := by
  obtain ⟨low, high⟩ := inv.tick_mem
  have toward := inv.tick_toward
  have before := inv.liquidity_eq
  have limit_mem := admissible.limit_mem
  cases initialized with
  | false => exact ⟨liquidity, rfl⟩
  | true =>
    rw [if_pos rfl]
    apply cross_total
    cases direction : plan.zeroForOne with
    | false =>
      rw [direction] at search within toward
      rw [toward_up] at within toward
      obtain ⟨lt_next, next_le, none, -⟩ := next_up admissible.consistent low high search
      have inside := lt_maxTick next_le (within.trans_lt limit_mem.2)
      have along := liquidityAt_above direction lt_next toward none
      have further : Toward plan.zeroForOne plan.pool.tick (clampTick found) := by
        rw [direction, toward_up]
        omega
      have ends := bounded.liquidityAt_mem ⟨by omega, inside⟩ further
      rw [if_neg Bool.false_ne_true]
      omega
    | true =>
      rw [direction] at search within toward
      rw [toward_down] at within toward
      obtain ⟨next_ge, next_le, none, -⟩ := next_down admissible.consistent low high search
      have inside := minTick_lt next_ge (limit_mem.1.trans_le within)
      have along := liquidityAt_below direction next_le toward none
      have further : Toward plan.zeroForOne plan.pool.tick (clampTick found - 1) := by
        rw [direction, toward_down]
        omega
      have ends := bounded.liquidityAt_mem ⟨by omega, by omega⟩ further
      rw [if_pos rfl]
      omega

/-- The price of a step stays inside the range, short of its upper end. -/
theorem SwapPlan.Admissible.price_mem (admissible : plan.Admissible)
    (price_lt : plan.pool.sqrtPrice < maxPrice)
    (toward : Toward plan.zeroForOne plan.pool.sqrtPrice price)
    (within : Toward plan.zeroForOne price plan.limit) : minPrice ≤ price ∧ price < maxPrice := by
  have between := toward_between toward within
  have limit_mem := admissible.limit_mem
  have bounds := price_bounds admissible.consistent.tick_mem admissible.consistent.price_mem
  omega

theorem advance_total (admissible : plan.Admissible) (bounded : plan.pool.Bounded)
    (price_lt : plan.pool.sqrtPrice < maxPrice) (fee_lt : plan.pool.feePips < pipsDenominator)
    (inv : plan.Holds state) (remaining_small : state.remaining ≤ wordMax) :
    ∃ after, plan.advance state = .ok after := by
  obtain ⟨found, initialized, search⟩ := admissible.search_total state.tick
  have limit_mem := admissible.limit_mem
  have ahead := inv.ahead admissible search
  have next_mem := clampTick_mem found
  have next_ok := priceAt_eq_ok.mpr ⟨next_mem, rfl⟩
  have next_price := tickPrice_mem next_mem.1 next_mem.2
  have target_mem : minPrice ≤ plan.target (tickPrice (clampTick found)) ∧
      plan.target (tickPrice (clampTick found)) ≤ maxPrice := by
    unfold SwapPlan.target
    split <;> omega
  obtain ⟨step, step_ok⟩ := swapStep_total inv.price_bounds target_mem inv.liquidity_nonneg
    (inv.liquidity_lt bounded) remaining_small admissible.fee_nonneg fee_lt
  obtain ⟨moved, -, within⟩ := step_toward admissible inv ahead.pos ahead.toward step_ok
  simp only [SwapPlan.advance, search, next_ok, step_ok, ok_bind]
  split
  · rename_i here
    rw [here] at within
    obtain ⟨left, crossed⟩ := inv.crossed_total admissible bounded search within
    cases initialized with
    | false => exact ⟨_, rfl⟩
    | true =>
      rw [if_pos rfl] at crossed
      simp only [if_true, crossed, ok_bind]
      exact ⟨_, rfl⟩
  · split
    · obtain ⟨ge, lt⟩ := admissible.price_mem price_lt (inv.price_toward.trans moved) within
      obtain ⟨tick, tick_ok⟩ := tickAt_total ge lt
      rw [tick_ok, ok_bind]
      exact ⟨_, rfl⟩
    · exact ⟨_, rfl⟩

/-! ## All rounds -/

/-- How many ticks a swap may still pass. -/
def SwapPlan.ticksAhead (plan : SwapPlan) (tick : Int) : Nat :=
  if plan.zeroForOne then (tick - minTick).toNat else (maxTick - tick).toNat

theorem SwapPlan.target_of_ne {nextPrice : Int} (short : plan.target nextPrice ≠ nextPrice) :
    plan.target nextPrice = plan.limit := by
  unfold target at short ⊢
  split at short
  · rename_i down
    rw [if_pos down]
    omega
  · rename_i up
    rw [if_neg up]
    omega

/-- A step that stops before the next tick is the last: it meets the limit or uses the request up. -/
theorem SwapPlan.Lands.done_of_short {next : Int} {initialized : Bool} {step : SwapStep}
    (lands : plan.Lands state next initialized step after) (keeps : plan.Keeps amount state)
    (undone : ¬ plan.isDone state)
    (contract : StepContract state.price (plan.target (tickPrice next)) state.liquidity
      state.remaining plan.pool.feePips step)
    (short : step.price ≠ tickPrice next) : plan.isDone after := by
  by_cases here : step.price = plan.target (tickPrice next)
  · refine .inr ?_
    rw [lands.price_eq, here]
    exact SwapPlan.target_of_ne (here ▸ short)
  · exact lands.done_of_usesUp keeps.left undone (contract.usesUp here)

theorem SwapPlan.Invariant.ticksAhead_lt {found : Int} {initialized : Bool}
    (inv : plan.Invariant price tick liquidity) (admissible : plan.Admissible)
    (search : plan.pool.bitmap.nextTick tick plan.pool.tickSpacing plan.zeroForOne =
      .ok (found, initialized))
    (now_mem : minTick ≤ (if plan.zeroForOne then clampTick found - 1 else clampTick found)) :
    plan.ticksAhead (if plan.zeroForOne then clampTick found - 1 else clampTick found) <
      plan.ticksAhead tick := by
  obtain ⟨low, high⟩ := inv.tick_mem
  unfold ticksAhead
  cases direction : plan.zeroForOne with
  | false =>
    rw [direction] at search
    obtain ⟨lt_next, next_le, -⟩ := next_up admissible.consistent low high search
    simp only [Bool.false_eq_true, if_false]
    omega
  | true =>
    rw [direction] at search now_mem
    obtain ⟨-, next_le, -⟩ := next_down admissible.consistent low high search
    simp only [if_true] at now_mem ⊢
    omega

theorem advance_nears (admissible : plan.Admissible) (inv : plan.Holds state)
    (keeps : plan.Keeps amount state) (undone : ¬ plan.isDone state)
    (given : plan.advance state = .ok after) :
    plan.isDone after ∨ plan.ticksAhead after.tick < plan.ticksAhead state.tick := by
  obtain ⟨found, initialized, step, search, step_ok, lands⟩ := SwapPlan.advance_cases given
  have now_mem := (advance_holds admissible inv given).1.tick_mem.1
  have target_mem := SwapPlan.target_mem found admissible.limit_mem
  have contract := swapStep_ok keeps.price_mem.1 keeps.price_mem.2 target_mem.1
    keeps.liquidity_nonneg admissible.fee_nonneg step_ok
  have done := lands.done_of_short keeps undone contract
  cases lands with
  | reached => exact .inr (inv.ticksAhead_lt admissible search now_mem)
  | moved short | still short => exact .inl (done short)

theorem SwapPlan.Keeps.remaining_le {bound : Int} (keeps : plan.Keeps amount state)
    (nonneg : 0 ≤ bound) (le : amount ≤ bound) : state.remaining ≤ bound := by
  have left := keeps.left
  unfold LeftOf at left
  split at left <;> omega

theorem SwapPlan.run_of_done (done : plan.isDone state) (rounds : Nat) :
    plan.run rounds state = .ok state := by
  cases rounds <;> exact if_pos done

theorem SwapPlan.run_total (admissible : plan.Admissible) (bounded : plan.pool.Bounded)
    (price_lt : plan.pool.sqrtPrice < maxPrice) (fee_lt : plan.pool.feePips < pipsDenominator)
    (amount_small : amount ≤ wordMax) {rounds : Nat} (inv : plan.Holds state)
    (keeps : plan.Keeps amount state) (enough : plan.ticksAhead state.tick < rounds) :
    ∃ final, plan.run rounds state = .ok final := by
  induction rounds generalizing state with
  | zero => exact absurd enough (Nat.not_lt_zero _)
  | succ rounds ih =>
    by_cases done : plan.isDone state
    · exact ⟨state, run_of_done done _⟩
    · obtain ⟨after, given⟩ := advance_total admissible bounded price_lt fee_lt inv
        (keeps.remaining_le (by decide) amount_small)
      simp only [run, done, if_false, given, ok_bind]
      rcases advance_nears admissible inv keeps done given with ended | nearer
      · exact ⟨after, run_of_done ended _⟩
      · exact ih (advance_holds admissible inv given).1
          (advance_keeps admissible.limit_mem admissible.fee_nonneg keeps done given) (by omega)

/-! ## Whole swaps -/

variable {pool : Pool} {token : Address} {limit : Int}

theorem isToken0_of_mem (mem : token = pool.token0 ∨ token = pool.token1) :
    pool.isToken0 token = .ok (decide (token = pool.token0)) := by
  unfold Pool.isToken0
  by_cases first : token = pool.token0
  · rw [if_pos first, decide_eq_true first]
  · rw [if_neg first, if_pos (mem.resolve_left first), decide_eq_false first]

theorem planSwap_total (mem : token = pool.token0 ∨ token = pool.token1)
    (reachable : limitReachable (decide (token = pool.token0)) pool.sqrtPrice limit) :
    planSwap pool token amount (some limit) =
      .ok ⟨pool, decide (token = pool.token0), decide (0 < amount), limit⟩ := by
  rw [planSwap, isToken0_of_mem mem, ok_bind]
  exact if_pos reachable

theorem SwapPlan.ticksAhead_lt_roundLimit (tick_mem : minTick ≤ tick ∧ tick < maxTick) :
    plan.ticksAhead tick < SwapPlan.roundLimit := by
  have low_eq := minTick_eq
  have high_eq := maxTick_eq
  unfold ticksAhead SwapPlan.roundLimit
  split <;> omega

/-- Over a consistent pool whose liquidity stays in its words, every amount of either token has a
quote at every limit that lies ahead. -/
theorem simulate_total (consistent : pool.Consistent) (bounded : pool.Bounded)
    (price_lt : pool.sqrtPrice < maxPrice)
    (fee_mem : 0 ≤ pool.feePips ∧ pool.feePips < pipsDenominator)
    (token_mem : token = pool.token0 ∨ token = pool.token1) (amount_mem : |amount| < 2 ^ 255)
    (reachable : limitReachable (decide (token = pool.token0)) pool.sqrtPrice limit) :
    ∃ amountIn amountOut, simulate pool token amount (some limit) = .ok (amountIn, amountOut) := by
  by_cases none : amount = 0
  · exact ⟨0, 0, if_pos none⟩
  · have plan_ok : planSwap pool token amount (some limit) =
        .ok ⟨pool, decide (token = pool.token0), decide (0 < amount), limit⟩ :=
      planSwap_total token_mem reachable
    have admissible := planSwap_admissible consistent fee_mem.1 plan_ok
    have word : (2 ^ 255 : Int) ≤ wordMax := by decide
    have small : amount ≤ wordMax := (abs_lt.mp amount_mem).2.le.trans word
    obtain ⟨final, run_ok⟩ := SwapPlan.run_total admissible bounded price_lt fee_mem.2 small
      (admissible.holds_start amount)
      (SwapPlan.keeps_start (price_bounds consistent.tick_mem consistent.price_mem)
        consistent.liquidity_nonneg rfl)
      (SwapPlan.ticksAhead_lt_roundLimit consistent.tick_mem)
    rw [simulate, if_neg none, plan_ok, ok_bind, run_ok, ok_bind]
    split
    · exact ⟨_, _, rfl⟩
    · exact ⟨_, _, rfl⟩

theorem onePosition_netOver (low high : Int) :
    onePosition.netOver low high =
      (if low < -600 ∧ -600 ≤ high then 10 ^ 18 else 0) +
        (if low < 600 ∧ 600 ≤ high then -10 ^ 18 else 0) := by
  have change : ∀ tick, onePosition.netAt tick =
      (if tick = -600 then 10 ^ 18 else 0) + (if tick = 600 then -10 ^ 18 else 0) := by
    intro tick
    simp only [Pool.netAt, onePosition, Table.get?]
    by_cases lower : tick = -600
    · simp [lower]
    · by_cases upper : tick = 600 <;> simp [lower, upper, eq_comm]
  simp only [Pool.netOver, change, Finset.sum_add_distrib, Finset.sum_ite_eq', Finset.mem_Ioc]

theorem onePosition_bounded : onePosition.Bounded := by
  have tick_eq : onePosition.tick = 0 := rfl
  have liquidity_eq : onePosition.liquidity = 10 ^ 18 := rfl
  constructor
  · intro tick _ below
    rw [tick_eq] at below
    rw [onePosition_netOver, tick_eq, liquidity_eq]
    split_ifs <;> omega
  · intro tick above _
    rw [tick_eq] at above
    rw [onePosition_netOver, tick_eq, liquidity_eq]
    split_ifs <;> omega

/-- The largest payment leaves the position at its upper end and has the empty rest of the range
ahead. -/
theorem simulate_total_onePosition :
    ∃ amountIn amountOut, simulate onePosition onePosition.token1 (2 ^ 255 - 1)
      (some (maxPrice - 1)) = .ok (amountIn, amountOut) :=
  simulate_total onePosition_consistent onePosition_bounded (by decide) (by decide) (.inr rfl)
    (by norm_num) (by decide)

end OrderDesk
