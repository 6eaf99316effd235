import OrderDesk.Proofs.Pool.Bitmap
import OrderDesk.Proofs.Swap.Round
import OrderDesk.Proofs.Swap.Step

/-!
# Liquidity and ticks of a swap

* `swap_invariant`: whenever a swap asks whether it is done, its tick belongs to its price, the
  price has moved only towards the limit, and the liquidity is that of the pool with each passed
  tick crossed once.
-/

namespace OrderDesk

variable {plan : SwapPlan} {start state after : SwapState}

/-! ## Liquidity in range -/

/-- The change of liquidity at a tick; none at a tick that is not loaded. -/
def Pool.netAt (pool : Pool) (tick : Int) : Int := (pool.ticks.get? tick).getD 0

/-- What the ticks after `low` up to `high` change together. -/
noncomputable def Pool.netOver (pool : Pool) (low high : Int) : Int :=
  ∑ tick ∈ Finset.Ioc low high, pool.netAt tick

/-- The liquidity of the pool with each tick crossed on the way to `tick`. -/
noncomputable def SwapPlan.liquidityAt (plan : SwapPlan) (tick : Int) : Int :=
  if plan.zeroForOne then plan.pool.liquidity - plan.pool.netOver tick plan.pool.tick
  else plan.pool.liquidity + plan.pool.netOver plan.pool.tick tick

theorem Pool.netOver_add (pool : Pool) {low middle high : Int} (le : low ≤ middle)
    (le' : middle ≤ high) :
    pool.netOver low middle + pool.netOver middle high = pool.netOver low high := by
  unfold netOver
  rw [← Finset.Ioc_union_Ioc_eq_Ioc le le',
    Finset.sum_union (Finset.Ioc_disjoint_Ioc_of_le le_rfl)]

theorem Pool.netOver_eq_zero (pool : Pool) {low high : Int}
    (none : ∀ tick, low < tick → tick ≤ high → pool.netAt tick = 0) : pool.netOver low high = 0 := by
  apply Finset.sum_eq_zero
  intro tick mem
  rw [Finset.mem_Ioc] at mem
  exact none tick mem.1 mem.2

theorem Pool.netOver_single (pool : Pool) (tick : Int) :
    pool.netOver (tick - 1) tick = pool.netAt tick := by
  have single : Finset.Ioc (tick - 1) tick = {tick} := by
    ext other
    simp only [Finset.mem_Ioc, Finset.mem_singleton]
    omega
  rw [netOver, single, Finset.sum_singleton]

theorem SwapPlan.liquidityAt_start : plan.liquidityAt plan.pool.tick = plan.pool.liquidity := by
  simp [liquidityAt, Pool.netOver]

theorem SwapPlan.liquidityAt_down (down : plan.zeroForOne = true) {low high : Int}
    (le : low ≤ high) (le' : high ≤ plan.pool.tick) :
    plan.liquidityAt low = plan.liquidityAt high - plan.pool.netOver low high := by
  have sum := plan.pool.netOver_add le le'
  simp only [liquidityAt, down, if_true]
  omega

theorem SwapPlan.liquidityAt_up (up : plan.zeroForOne = false) {low high : Int}
    (le : low ≤ high) (le' : plan.pool.tick ≤ low) :
    plan.liquidityAt high = plan.liquidityAt low + plan.pool.netOver low high := by
  have sum := plan.pool.netOver_add le' le
  simp only [liquidityAt, up, Bool.false_eq_true, if_false]
  omega

/-! ## The invariant -/

/-- A pool whose bitmap marks its ticks and whose tick belongs to its price. -/
structure Pool.Consistent (pool : Pool) : Prop where
  spacing_pos : 1 ≤ pool.tickSpacing
  liquidity_nonneg : 0 ≤ pool.liquidity
  marks : pool.bitmap.Marks pool.tickSpacing fun tick => (pool.ticks.get? tick).isSome = true
  tick_mem : minTick ≤ pool.tick ∧ pool.tick < maxTick
  price_mem : tickPrice pool.tick ≤ pool.sqrtPrice ∧ pool.sqrtPrice ≤ tickPrice (pool.tick + 1)

/-- What holds of the price, the tick and the liquidity whenever a swap asks whether it is done. -/
structure SwapPlan.Invariant (plan : SwapPlan) (price tick liquidity : Int) : Prop where
  tick_mem : minTick ≤ tick ∧ tick < maxTick
  price_mem : tickPrice tick ≤ price ∧ price ≤ tickPrice (tick + 1)
  price_toward : Toward plan.zeroForOne plan.pool.sqrtPrice price
  within_limit : Toward plan.zeroForOne price plan.limit
  tick_toward : Toward plan.zeroForOne plan.pool.tick tick
  liquidity_nonneg : 0 ≤ liquidity
  liquidity_eq : liquidity = plan.liquidityAt tick

theorem Pool.netAt_of_none {pool : Pool} {tick : Int} (none : ¬ (pool.ticks.get? tick).isSome) :
    pool.netAt tick = 0 := by
  rw [Option.not_isSome_iff_eq_none] at none
  simp [netAt, none]

/-! ## The next tick -/

theorem next_down {pool : Pool} (consistent : pool.Consistent) {tick found : Int}
    {initialized : Bool} (ge : minTick ≤ tick) (lt : tick < maxTick)
    (search : pool.bitmap.nextTick tick pool.tickSpacing true = .ok (found, initialized)) :
    minTick ≤ clampTick found ∧ clampTick found ≤ tick ∧
      (∀ between, clampTick found < between → between ≤ tick → pool.netAt between = 0) ∧
      (minTick < clampTick found → initialized = false → pool.netAt (clampTick found) = 0) := by
  have spacing_pos := consistent.spacing_pos
  obtain ⟨_, _, search', found_le, none, flag⟩ :=
    nextTick_down (by omega) consistent.marks tick
  rw [search] at search'
  cases search'
  have clamped : clampTick found = max minTick found := by
    unfold clampTick
    omega
  rw [clamped]
  refine ⟨le_max_left _ _, max_le ge found_le, ?_, ?_⟩
  · intro between above below
    exact Pool.netAt_of_none (none between ((le_max_right _ _).trans_lt above) below)
  · intro inside unset
    have same : max minTick found = found := by omega
    rw [same]
    apply Pool.netAt_of_none
    rw [← flag, unset]
    exact Bool.false_ne_true

theorem next_up {pool : Pool} (consistent : pool.Consistent) {tick found : Int}
    {initialized : Bool} (ge : minTick ≤ tick) (lt : tick < maxTick)
    (search : pool.bitmap.nextTick tick pool.tickSpacing false = .ok (found, initialized)) :
    tick < clampTick found ∧ clampTick found ≤ maxTick ∧
      (∀ between, tick < between → between < clampTick found → pool.netAt between = 0) ∧
      (clampTick found < maxTick → initialized = false → pool.netAt (clampTick found) = 0) := by
  have spacing_pos := consistent.spacing_pos
  obtain ⟨_, _, search', lt_found, none, flag⟩ :=
    nextTick_up (by omega) consistent.marks tick
  rw [search] at search'
  cases search'
  have clamped : clampTick found = min maxTick found := by
    unfold clampTick
    omega
  rw [clamped]
  refine ⟨lt_min lt lt_found, min_le_left _ _, ?_, ?_⟩
  · intro between above below
    exact Pool.netAt_of_none (none between above (below.trans_le (min_le_right _ _)))
  · intro inside unset
    have same : min maxTick found = found := by omega
    rw [same]
    apply Pool.netAt_of_none
    rw [← flag, unset]
    exact Bool.false_ne_true

theorem SwapPlan.cross_ok {next before liquidity : Int}
    (given : plan.cross next before = .ok liquidity) :
    0 ≤ liquidity ∧ liquidity =
      if plan.zeroForOne then before - plan.pool.netAt next
      else before + plan.pool.netAt next := by
  generalize passed : (if plan.zeroForOne then before - plan.pool.netAt next
    else before + plan.pool.netAt next) = result
  have cross_eq : plan.cross next before =
      if result < 0 then .error (.liquidityUnderflow next) else .ok result := by
    rw [← passed]
    rfl
  rw [cross_eq] at given
  split at given
  · cases given
  · rename_i nonneg
    rw [Except.ok.injEq] at given
    exact ⟨given ▸ not_lt.mp nonneg, given.symm⟩

theorem SwapPlan.crossed_ok {next before liquidity : Int} {initialized : Bool}
    (nonneg : 0 ≤ before) (unset : initialized = false → plan.pool.netAt next = 0)
    (given : (if initialized then plan.cross next before else .ok before) = .ok liquidity) :
    0 ≤ liquidity ∧ liquidity =
      if plan.zeroForOne then before - plan.pool.netAt next
      else before + plan.pool.netAt next := by
  cases initialized with
  | false =>
    rw [if_neg Bool.false_ne_true, Except.ok.injEq] at given
    rw [unset rfl, ← given, sub_zero, add_zero, ite_self]
    exact ⟨nonneg, rfl⟩
  | true => exact SwapPlan.cross_ok given

/-! ## Steps of a plan -/

/-- A plan over a consistent pool whose limit lies ahead and inside the range of prices. -/
structure SwapPlan.Admissible (plan : SwapPlan) : Prop where
  consistent : plan.pool.Consistent
  fee_nonneg : 0 ≤ plan.pool.feePips
  limit_mem : minPrice < plan.limit ∧ plan.limit < maxPrice
  limit_toward : Toward plan.zeroForOne plan.pool.sqrtPrice plan.limit

variable {price tick liquidity remaining next : Int} {step : SwapStep}

theorem SwapPlan.Invariant.price_bounds (inv : plan.Invariant price tick liquidity) :
    minPrice ≤ price ∧ price ≤ maxPrice :=
  OrderDesk.price_bounds inv.tick_mem inv.price_mem

theorem step_toward {nextPrice : Int} (admissible : plan.Admissible)
    (inv : plan.Invariant price tick liquidity) (next_pos : 0 < nextPrice)
    (ahead : Toward plan.zeroForOne price nextPrice)
    (given : swapStep price (plan.target nextPrice) liquidity remaining plan.pool.feePips =
      .ok step) :
    Toward plan.zeroForOne price step.price ∧ Toward plan.zeroForOne step.price nextPrice ∧
      Toward plan.zeroForOne step.price plan.limit := by
  have low := minPrice_pos
  have high : maxPrice ≤ priceWordMax := by decide
  have bounds := inv.price_bounds
  have limit_mem := admissible.limit_mem
  have within := inv.within_limit
  cases direction : plan.zeroForOne with
  | false =>
    rw [direction, toward_up] at ahead within
    rw [SwapPlan.target, direction, if_neg Bool.false_ne_true] at given
    have between := (swapStep_ok (by omega) (by omega) (by omega) inv.liquidity_nonneg
      admissible.fee_nonneg given).between
    simp only [toward_up]
    omega
  | true =>
    rw [direction, toward_down] at ahead within
    rw [SwapPlan.target, direction, if_pos rfl] at given
    have between := (swapStep_ok (by omega) (by omega) (by omega) inv.liquidity_nonneg
      admissible.fee_nonneg given).between
    simp only [toward_down]
    omega

theorem SwapPlan.Invariant.moveTo {now nowTick left : Int}
    (inv : plan.Invariant price tick liquidity) (tick_mem : minTick ≤ nowTick ∧ nowTick < maxTick)
    (price_mem : tickPrice nowTick ≤ now ∧ now ≤ tickPrice (nowTick + 1))
    (moved : Toward plan.zeroForOne price now) (within : Toward plan.zeroForOne now plan.limit)
    (tick_moved : Toward plan.zeroForOne tick nowTick) (nonneg : 0 ≤ left)
    (passed : plan.liquidityAt nowTick - plan.liquidityAt tick = left - liquidity) :
    plan.Invariant now nowTick left := by
  have before := inv.liquidity_eq
  exact ⟨tick_mem, price_mem, inv.price_toward.trans moved, within,
    inv.tick_toward.trans tick_moved, nonneg, by omega⟩

/-- What is ahead of a swap at the next tick that the search finds: reaching it and stopping short
of it both keep the invariant. -/
structure SwapPlan.Ahead (plan : SwapPlan) (price liquidity next : Int) (initialized : Bool) :
    Prop where
  pos : 0 < tickPrice next
  toward : Toward plan.zeroForOne price (tickPrice next)
  reach : ∀ {left : Int}, Toward plan.zeroForOne (tickPrice next) plan.limit →
    (if initialized then plan.cross next liquidity else .ok liquidity) = .ok left →
    plan.Invariant (tickPrice next) (if plan.zeroForOne then next - 1 else next) left
  move : ∀ {now nowTick : Int}, Toward plan.zeroForOne price now → now ≠ price →
    Toward plan.zeroForOne now (tickPrice next) → now ≠ tickPrice next →
    Toward plan.zeroForOne now plan.limit → tickAt now = .ok nowTick →
    plan.Invariant now nowTick liquidity

/-! ## Falling prices -/

theorem SwapPlan.liquidityAt_below (down : plan.zeroForOne = true) (next_le : next ≤ tick)
    (tick_le : tick ≤ plan.pool.tick)
    (none : ∀ between, next < between → between ≤ tick → plan.pool.netAt between = 0) :
    plan.liquidityAt (next - 1) = plan.liquidityAt tick - plan.pool.netAt next := by
  rw [liquidityAt_down down (by omega : next - 1 ≤ tick) tick_le,
    ← plan.pool.netOver_add (by omega : next - 1 ≤ next) next_le,
    plan.pool.netOver_single, plan.pool.netOver_eq_zero none, add_zero]

theorem SwapPlan.Invariant.reach_down (inv : plan.Invariant price tick liquidity)
    (down : plan.zeroForOne = true) (inside : minTick < next) (next_le : next ≤ tick)
    (none : ∀ between, next < between → between ≤ tick → plan.pool.netAt between = 0)
    (nonneg : 0 ≤ liquidity - plan.pool.netAt next)
    (within : Toward plan.zeroForOne (tickPrice next) plan.limit) :
    plan.Invariant (tickPrice next) (next - 1) (liquidity - plan.pool.netAt next) := by
  obtain ⟨low, high⟩ := inv.tick_mem
  have tick_le := inv.tick_toward
  rw [down, toward_down] at tick_le
  have prices : tickPrice (next - 1) ≤ tickPrice next :=
    tickPrice_mono (by omega) (by omega) (by omega)
  have next_price_le : tickPrice next ≤ price :=
    (tickPrice_mono next_le inside.le (by omega)).trans inv.price_mem.1
  refine inv.moveTo (by omega) ?_ ?_ within ?_ nonneg ?_
  · rw [sub_add_cancel]
    exact ⟨prices, le_rfl⟩
  · rwa [down]
  · rw [down, toward_down]
    omega
  · rw [liquidityAt_below down next_le tick_le none]
    omega

theorem SwapPlan.Invariant.move_down {now nowTick : Int}
    (inv : plan.Invariant price tick liquidity) (down : plan.zeroForOne = true)
    (next_le : next ≤ tick)
    (none : ∀ between, next < between → between ≤ tick → plan.pool.netAt between = 0)
    (moved : now < price) (ahead : tickPrice next ≤ now)
    (within : Toward plan.zeroForOne now plan.limit) (nowTick_ok : tickAt now = .ok nowTick) :
    plan.Invariant now nowTick liquidity := by
  obtain ⟨low, high⟩ := inv.tick_mem
  have tick_le := inv.tick_toward
  rw [down, toward_down] at tick_le
  obtain ⟨nowTick_mem, reached, missed⟩ := tickAt_spec nowTick_ok
  have le_tick : nowTick ≤ tick := by
    apply Int.lt_add_one_iff.mp
    have prices := (reached.trans_lt moved).trans_le inv.price_mem.2
    exact lt_of_tickPrice_lt prices (by omega) (by omega)
  have next_le_now : next ≤ nowTick := by
    apply Int.lt_add_one_iff.mp
    exact lt_of_tickPrice_lt (ahead.trans_lt missed) (by omega) (by omega)
  refine inv.moveTo nowTick_mem ⟨reached, missed.le⟩ ?_ within ?_ inv.liquidity_nonneg ?_
  · rw [down]
    exact moved.le
  · rwa [down]
  · rw [liquidityAt_down down le_tick tick_le, plan.pool.netOver_eq_zero]
    · omega
    · intro between above
      exact none between (next_le_now.trans_lt above)

theorem SwapPlan.Invariant.ahead_down {found : Int} {initialized : Bool}
    (inv : plan.Invariant price tick liquidity) (admissible : plan.Admissible)
    (down : plan.zeroForOne = true)
    (search : plan.pool.bitmap.nextTick tick plan.pool.tickSpacing true = .ok (found, initialized)) :
    plan.Ahead price liquidity (clampTick found) initialized := by
  obtain ⟨low, high⟩ := inv.tick_mem
  obtain ⟨next_ge, next_le, none, unset⟩ := next_down admissible.consistent low high search
  refine ⟨minPrice_pos.trans_le (tickPrice_mem next_ge (by omega)).1, ?_, ?_, ?_⟩
  · rw [down]
    exact (tickPrice_mono next_le next_ge (by omega)).trans inv.price_mem.1
  · intro left within crossed
    -- The limit keeps the price above that of the lowest tick.
    have ge_limit := within
    rw [down, toward_down] at ge_limit
    have inside := minTick_lt next_ge (admissible.limit_mem.1.trans_le ge_limit)
    obtain ⟨nonneg, left_eq⟩ := crossed_ok inv.liquidity_nonneg (unset inside) crossed
    rw [down, if_pos rfl] at left_eq ⊢
    subst left_eq
    exact inv.reach_down down inside next_le none nonneg within
  · intro now nowTick moved different ahead _ within nowTick_ok
    rw [down] at moved ahead
    exact inv.move_down down next_le none (lt_of_le_of_ne moved different) ahead within nowTick_ok

/-! ## Rising prices -/

theorem SwapPlan.liquidityAt_above (up : plan.zeroForOne = false) (lt_next : tick < next)
    (tick_ge : plan.pool.tick ≤ tick)
    (none : ∀ between, tick < between → between < next → plan.pool.netAt between = 0) :
    plan.liquidityAt next = plan.liquidityAt tick + plan.pool.netAt next := by
  rw [liquidityAt_up up lt_next.le tick_ge,
    ← plan.pool.netOver_add (by omega : tick ≤ next - 1) (by omega), plan.pool.netOver_single,
    plan.pool.netOver_eq_zero fun between above below => none between above (by omega), zero_add]

theorem SwapPlan.Invariant.reach_up (inv : plan.Invariant price tick liquidity)
    (up : plan.zeroForOne = false) (inside : next < maxTick) (lt_next : tick < next)
    (none : ∀ between, tick < between → between < next → plan.pool.netAt between = 0)
    (nonneg : 0 ≤ liquidity + plan.pool.netAt next)
    (within : Toward plan.zeroForOne (tickPrice next) plan.limit) :
    plan.Invariant (tickPrice next) next (liquidity + plan.pool.netAt next) := by
  obtain ⟨low, high⟩ := inv.tick_mem
  have tick_ge := inv.tick_toward
  rw [up, toward_up] at tick_ge
  have prices : tickPrice next ≤ tickPrice (next + 1) :=
    tickPrice_mono (by omega) (by omega) (by omega)
  have price_le_next : price ≤ tickPrice next :=
    inv.price_mem.2.trans (tickPrice_mono lt_next (by omega) (by omega))
  refine inv.moveTo (by omega) ⟨le_rfl, prices⟩ ?_ within ?_ nonneg ?_
  · rwa [up]
  · rw [up]
    exact lt_next.le
  · rw [liquidityAt_above up lt_next tick_ge none]
    omega

theorem SwapPlan.Invariant.move_up {now nowTick : Int}
    (inv : plan.Invariant price tick liquidity) (up : plan.zeroForOne = false)
    (lt_next : tick < next)
    (none : ∀ between, tick < between → between < next → plan.pool.netAt between = 0)
    (moved : price < now) (ahead : now < tickPrice next)
    (within : Toward plan.zeroForOne now plan.limit) (nowTick_ok : tickAt now = .ok nowTick) :
    plan.Invariant now nowTick liquidity := by
  obtain ⟨low, high⟩ := inv.tick_mem
  have tick_ge := inv.tick_toward
  rw [up, toward_up] at tick_ge
  obtain ⟨nowTick_mem, reached, missed⟩ := tickAt_spec nowTick_ok
  have tick_le : tick ≤ nowTick := by
    apply Int.lt_add_one_iff.mp
    have prices := (inv.price_mem.1.trans_lt moved).trans missed
    exact lt_of_tickPrice_lt prices (by omega) (by omega)
  have now_lt_next : nowTick < next :=
    lt_of_tickPrice_lt (reached.trans_lt ahead) (by omega) (by omega)
  refine inv.moveTo nowTick_mem ⟨reached, missed.le⟩ ?_ within ?_ inv.liquidity_nonneg ?_
  · rw [up]
    exact moved.le
  · rwa [up]
  · rw [liquidityAt_up up tick_le tick_ge, plan.pool.netOver_eq_zero]
    · omega
    · intro between above below
      exact none between above (below.trans_lt now_lt_next)

theorem SwapPlan.Invariant.ahead_up {found : Int} {initialized : Bool}
    (inv : plan.Invariant price tick liquidity) (admissible : plan.Admissible)
    (up : plan.zeroForOne = false)
    (search : plan.pool.bitmap.nextTick tick plan.pool.tickSpacing false =
      .ok (found, initialized)) :
    plan.Ahead price liquidity (clampTick found) initialized := by
  obtain ⟨low, high⟩ := inv.tick_mem
  obtain ⟨lt_next, next_le, none, unset⟩ := next_up admissible.consistent low high search
  refine ⟨minPrice_pos.trans_le (tickPrice_mem (by omega) next_le).1, ?_, ?_, ?_⟩
  · rw [up]
    exact inv.price_mem.2.trans (tickPrice_mono lt_next (by omega) (by omega))
  · intro left within crossed
    -- The limit keeps the price below that of the highest tick.
    have le_limit := within
    rw [up, toward_up] at le_limit
    have inside := lt_maxTick next_le (le_limit.trans_lt admissible.limit_mem.2)
    obtain ⟨nonneg, left_eq⟩ := crossed_ok inv.liquidity_nonneg (unset inside) crossed
    rw [up, if_neg Bool.false_ne_true] at left_eq ⊢
    subst left_eq
    exact inv.reach_up up inside lt_next none nonneg within
  · intro now nowTick moved different ahead short within nowTick_ok
    rw [up] at moved ahead
    exact inv.move_up up lt_next none (lt_of_le_of_ne moved different.symm)
      (lt_of_le_of_ne ahead short) within nowTick_ok

/-! ## What a round and a whole swap preserve -/

theorem SwapPlan.Invariant.ahead {found : Int} {initialized : Bool}
    (inv : plan.Invariant price tick liquidity) (admissible : plan.Admissible)
    (search : plan.pool.bitmap.nextTick tick plan.pool.tickSpacing plan.zeroForOne =
      .ok (found, initialized)) :
    plan.Ahead price liquidity (clampTick found) initialized := by
  cases direction : plan.zeroForOne with
  | false => exact inv.ahead_up admissible direction (direction ▸ search)
  | true => exact inv.ahead_down admissible direction (direction ▸ search)

def SwapPlan.Holds (plan : SwapPlan) (state : SwapState) : Prop :=
  plan.Invariant state.price state.tick state.liquidity

theorem advance_holds (admissible : plan.Admissible) (inv : plan.Holds state)
    (given : plan.advance state = .ok after) :
    plan.Holds after ∧ Toward plan.zeroForOne state.price after.price := by
  obtain ⟨found, initialized, step, search, step_ok, lands⟩ := SwapPlan.advance_cases given
  have ahead := inv.ahead admissible search
  obtain ⟨moved, before_next, within⟩ :=
    step_toward admissible inv ahead.pos ahead.toward step_ok
  cases lands with
  | reached here crossed =>
    rw [here] at within moved
    constructor
    · simpa [SwapPlan.Holds, here] using ahead.reach within crossed
    · simpa [here] using moved
  | moved short different tick_ok =>
    constructor
    · simpa [SwapPlan.Holds] using ahead.move moved different before_next short within tick_ok
    · simpa using moved
  | still short same =>
    constructor
    · simpa [SwapPlan.Holds, same] using inv
    · simpa using moved

theorem SwapPlan.Reaches.holds (reaches : plan.Reaches start state)
    (admissible : plan.Admissible) (inv : plan.Holds start) :
    plan.Holds state ∧ Toward plan.zeroForOne start.price state.price := by
  induction reaches with
  | refl => exact ⟨inv, .refl start.price⟩
  | advance _ _ given ih =>
    obtain ⟨before, moved⟩ := ih
    obtain ⟨now, step⟩ := advance_holds admissible before given
    exact ⟨now, moved.trans step⟩

variable {pool : Pool} {token : Address} {amount : Int} {limit : Option Int}

theorem planSwap_admissible (consistent : pool.Consistent) (fee_nonneg : 0 ≤ pool.feePips)
    (given : planSwap pool token amount limit = .ok plan) : plan.Admissible := by
  obtain ⟨rfl, -, reachable⟩ := planSwap_ok given
  have limit_mem :=
    limitReachable_mem (price_bounds consistent.tick_mem consistent.price_mem) reachable
  refine ⟨consistent, fee_nonneg, limit_mem, ?_⟩
  unfold limitReachable at reachable
  cases direction : plan.zeroForOne with
  | false =>
    rw [direction, if_neg Bool.false_ne_true] at reachable
    exact reachable.1.le
  | true =>
    rw [direction, if_pos rfl] at reachable
    exact reachable.2.le

theorem SwapPlan.Admissible.holds_start (admissible : plan.Admissible) (amount : Int) :
    plan.Holds (plan.start amount) := by
  obtain ⟨consistent, -, -, toward⟩ := admissible
  exact ⟨consistent.tick_mem, consistent.price_mem, .refl _, toward, .refl _,
    consistent.liquidity_nonneg, SwapPlan.liquidityAt_start.symm⟩

/-- Whenever a swap over a consistent pool asks whether it is done, its tick belongs to its price,
the price has moved only towards the limit, and the liquidity is that of the pool with each tick
on the way crossed once. -/
theorem swap_invariant (consistent : pool.Consistent) (fee_nonneg : 0 ≤ pool.feePips)
    (given : planSwap pool token amount limit = .ok plan)
    (earlier : plan.Reaches (plan.start amount) state) (later : plan.Reaches state after) :
    tickPrice after.tick ≤ after.price ∧ after.price ≤ tickPrice (after.tick + 1) ∧
      Toward plan.zeroForOne state.price after.price ∧
      Toward plan.zeroForOne after.price plan.limit ∧
      after.liquidity =
        if plan.zeroForOne then
          pool.liquidity - ∑ tick ∈ Finset.Ioc after.tick pool.tick, pool.netAt tick
        else pool.liquidity + ∑ tick ∈ Finset.Ioc pool.tick after.tick, pool.netAt tick := by
  have admissible := planSwap_admissible consistent fee_nonneg given
  obtain ⟨rfl, -⟩ := planSwap_ok given
  obtain ⟨before, -⟩ := earlier.holds admissible (admissible.holds_start amount)
  obtain ⟨now, moved⟩ := later.holds admissible before
  exact ⟨now.price_mem.1, now.price_mem.2, moved, now.within_limit, now.liquidity_eq⟩

/-- One position around a price of one. -/
def onePosition : Pool where
  token0 := ⟨1, by decide⟩
  token1 := ⟨2, by decide⟩
  tick := 0
  tickSpacing := 60
  sqrtPrice := q96
  liquidity := 10 ^ 18
  ticks := [(-600, 10 ^ 18), (600, -10 ^ 18)]
  bitmap := [(-1, 2 ^ 246), (0, 2 ^ 10)]
  feePips := 3000
  id := []
  block := none

theorem onePosition_consistent : onePosition.Consistent := by
  have made : ({ onePosition with bitmap := [] } : Pool).complete = .ok onePosition := by decide
  have aligned : ∀ tick, (onePosition.ticks.get? tick).isSome = true → 60 ∣ tick := by
    intro tick loaded
    rw [Table.get?_isSome] at loaded
    revert tick
    decide
  obtain ⟨bitmap, given, marks⟩ :=
    complete_marks (by decide : 0 < ({ onePosition with bitmap := [] } : Pool).tickSpacing) rfl
      aligned
  rw [made] at given
  cases given
  exact ⟨by decide, by decide, marks, by decide, by decide⟩

/-- A sale of its token 0 past the lower end. -/
def onePositionSale : SwapPlan := ⟨onePosition, true, true, tickPrice (-1200)⟩

/-- The lower end has been crossed once the sale is below it. -/
theorem swap_invariant_onePosition :
    ∃ after, onePositionSale.Reaches (onePositionSale.start (10 ^ 30)) after ∧ after.tick = -601 ∧
      after.liquidity = onePosition.liquidity -
        ∑ tick ∈ Finset.Ioc after.tick onePosition.tick, onePosition.netAt tick := by
  have given : planSwap onePosition onePosition.token0 (10 ^ 30) (some (tickPrice (-1200))) =
      .ok onePositionSale := rfl
  have toTick : onePositionSale.advance (onePositionSale.start (10 ^ 30)) =
      .ok ⟨10 ^ 30, 0, q96, -1, 10 ^ 18⟩ := rfl
  have across : onePositionSale.advance ⟨10 ^ 30, 0, q96, -1, 10 ^ 18⟩ =
      .ok ⟨999999999999969455377757359319, 29553010879137169, 76886731765546235930195592750,
        -601, 0⟩ := rfl
  have reaches := SwapPlan.Reaches.advance
    (SwapPlan.Reaches.advance .refl (by decide) toTick) (by decide) across
  obtain ⟨-, -, -, -, liquidity_eq⟩ :=
    swap_invariant onePosition_consistent (by decide) given .refl reaches
  exact ⟨_, reaches, rfl, liquidity_eq⟩

end OrderDesk
