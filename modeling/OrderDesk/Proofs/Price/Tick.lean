import Mathlib.Tactic
import OrderDesk.Price.Tick
import OrderDesk.Proofs.Except

/-!
# Prices rise with their ticks

One tick further, the binary digits of a distance carry: a run of low ones becomes a single digit
above them. The products of the factors below never fall under the factor above (`carries`), and
the factors further up keep their order.

* `tickPrice_mono`: a higher tick has no lower price.
* `tickAt_spec`: the tick of a price is the one whose price and whose next price it lies between.
-/

namespace OrderDesk

/-! ## Distances -/

theorem decayBy_mono (ratios : List Nat) (distance : Nat) {low high : Nat} (le : low ≤ high) :
    decayBy ratios distance low ≤ decayBy ratios distance high := by
  induction ratios generalizing distance low high with
  | nil => exact le
  | cons factor ratios ih =>
    simp only [decayBy]
    split
    · exact ih _ (Nat.div_le_div_right (Nat.mul_le_mul_right _ le))
    · exact ih _ le

/-- Whether each factor takes no less from `whole` than all the factors before it took together,
if those before this list have left `rest`. -/
def carries : (ratios : List Nat) → (whole rest : Nat) → Bool
  | [], _, _ => true
  | factor :: ratios, whole, rest =>
    whole * factor / 2 ^ 128 ≤ rest && carries ratios whole (rest * factor / 2 ^ 128)

theorem decayBy_succ_le (ratios : List Nat) (distance : Nat) {whole rest : Nat}
    (carry : carries ratios whole rest = true) (room : distance + 1 < 2 ^ ratios.length) :
    decayBy ratios (distance + 1) whole ≤ decayBy ratios distance rest := by
  induction ratios generalizing distance rest with
  | nil => simp at room
  | cons factor ratios ih =>
    simp only [carries, Bool.and_eq_true, decide_eq_true_eq] at carry
    rcases Nat.mod_two_eq_zero_or_one distance with even | odd
    · have odd_next : (distance + 1) % 2 = 1 := by omega
      have same_half : (distance + 1) / 2 = distance / 2 := by omega
      simp only [decayBy, even, odd_next, same_half, if_true, zero_ne_one, if_false]
      exact decayBy_mono _ _ carry.1
    · have even_next : (distance + 1) % 2 = 0 := by omega
      have next_half : (distance + 1) / 2 = distance / 2 + 1 := by omega
      rw [List.length_cons, pow_succ] at room
      simp only [decayBy, odd, even_next, next_half, if_true, zero_ne_one, if_false]
      exact ih (distance / 2) carry.2 (by omega)

theorem decayBy_antitone {start near far : Nat} (carry : carries tickRatios start start = true)
    (le : near ≤ far) (small : far < 2 ^ 20) :
    decayBy tickRatios far start ≤ decayBy tickRatios near start := by
  induction far, le using Nat.le_induction with
  | base => exact le_rfl
  | succ far _ ih => exact (decayBy_succ_le tickRatios far carry small).trans (ih (by omega))

theorem decay_antitone {near far : Nat} (le : near ≤ far) (small : far < 2 ^ 20) :
    decay far ≤ decay near :=
  decayBy_antitone (by decide) le small

theorem decay_pos {distance : Nat} (le : distance ≤ 887273) : 0 < decay distance :=
  lt_of_lt_of_le (by decide : 0 < decay 887273) (decay_antitone le (by norm_num))

/-! ## Prices -/

/-- The price of a tick scaled by `2 ^ 128`. -/
def tickRatio (tick : Int) : Nat :=
  if 0 < tick then (2 ^ 256 - 1) / decay tick.natAbs else decay tick.natAbs

theorem tickPrice_eq (tick : Int) : tickPrice tick =
    (tickRatio tick / 2 ^ 32 + (if tickRatio tick % 2 ^ 32 = 0 then 0 else 1) : Nat) := rfl

theorem minTick_eq : minTick = -887272 := rfl

theorem maxTick_eq : maxTick = 887272 := rfl

theorem tickRatio_mono {low high : Int} (le : low ≤ high) (low_ge : minTick ≤ low)
    (high_le : high ≤ maxTick + 1) : tickRatio low ≤ tickRatio high := by
  rw [minTick_eq] at low_ge
  rw [maxTick_eq] at high_le
  unfold tickRatio
  rcases lt_or_ge 0 low with rising | falling
  · rw [if_pos rising, if_pos (rising.trans_le le)]
    exact Nat.div_le_div_left (decay_antitone (by omega) (by omega)) (decay_pos (by omega))
  · rw [if_neg (not_lt.mpr falling)]
    split
    · rename_i positive
      have small : decay high.natAbs ≤ decay 1 := decay_antitone (by omega) (by omega)
      have one_le : decay low.natAbs ≤ decay 0 := decay_antitone (by omega) (by omega)
      have ends : decay 0 * decay 1 ≤ 2 ^ 256 - 1 := by decide
      rw [Nat.le_div_iff_mul_le (decay_pos (by omega))]
      exact (Nat.mul_le_mul one_le small).trans ends
    · exact decay_antitone (by omega) (by omega)

theorem tickPrice_mono {low high : Int} (le : low ≤ high) (low_ge : minTick ≤ low)
    (high_le : high ≤ maxTick + 1) : tickPrice low ≤ tickPrice high := by
  have ratios := tickRatio_mono le low_ge high_le
  rw [tickPrice_eq, tickPrice_eq, Int.ofNat_le]
  split <;> split <;> omega

theorem lt_of_tickPrice_lt {low high : Int} (lt : tickPrice low < tickPrice high)
    (low_le : low ≤ maxTick + 1) (high_ge : minTick ≤ high) : low < high := by
  apply lt_of_not_ge
  intro ge
  exact absurd (tickPrice_mono ge high_ge low_le) (not_le.mpr lt)

theorem tickPrice_minTick : tickPrice minTick = minPrice := by decide

theorem tickPrice_maxTick : tickPrice maxTick = maxPrice := by decide

theorem tickPrice_mem {tick : Int} (low : minTick ≤ tick) (high : tick ≤ maxTick) :
    minPrice ≤ tickPrice tick ∧ tickPrice tick ≤ maxPrice := by
  rw [← tickPrice_minTick, ← tickPrice_maxTick]
  have ends : minTick ≤ maxTick := by decide
  exact ⟨tickPrice_mono low le_rfl (by omega), tickPrice_mono high low (by omega)⟩

theorem price_bounds {tick price : Int} (tick_mem : minTick ≤ tick ∧ tick < maxTick)
    (price_mem : tickPrice tick ≤ price ∧ price ≤ tickPrice (tick + 1)) :
    minPrice ≤ price ∧ price ≤ maxPrice := by
  have lower := (tickPrice_mem tick_mem.1 tick_mem.2.le).1
  have upper := (tickPrice_mem (by omega : minTick ≤ tick + 1) (by omega)).2
  exact ⟨lower.trans price_mem.1, price_mem.2.trans upper⟩

theorem minTick_lt {tick : Int} (ge : minTick ≤ tick) (lt : minPrice < tickPrice tick) :
    minTick < tick := by
  apply lt_of_tickPrice_lt _ (by decide) ge
  rwa [tickPrice_minTick]

theorem lt_maxTick {tick : Int} (le : tick ≤ maxTick) (lt : tickPrice tick < maxPrice) :
    tick < maxTick := by
  apply lt_of_tickPrice_lt _ (by omega) (by decide)
  rwa [tickPrice_maxTick]

theorem priceAt_eq_ok {tick price : Int} :
    priceAt tick = .ok price ↔ (minTick ≤ tick ∧ tick ≤ maxTick) ∧ tickPrice tick = price := by
  have low_eq := minTick_eq
  have high_eq := maxTick_eq
  unfold priceAt
  split
  · simp only [reduceCtorEq, false_iff]
    omega
  · simp only [Except.ok.injEq, iff_and_self]
    omega

/-! ## The tick of a price -/

theorem searchTick_spec {price low high : Int} (le : low ≤ high) (below : tickPrice low ≤ price)
    (above : price < tickPrice (high + 1)) :
    low ≤ searchTick price low high ∧ searchTick price low high ≤ high ∧
      tickPrice (searchTick price low high) ≤ price ∧
      price < tickPrice (searchTick price low high + 1) := by
  fun_induction searchTick price low high with
  | case1 low high lt middle reached ih =>
    have bounds := ih (by omega) reached above
    omega
  | case2 low high lt middle missed ih =>
    have bounds := ih (by omega) below (by rwa [sub_add_cancel, ← not_le])
    omega
  | case3 low high done =>
    have same : low = high := by omega
    exact ⟨le_rfl, le, below, same ▸ above⟩

theorem tickAt_spec {price tick : Int} (given : tickAt price = .ok tick) :
    (minTick ≤ tick ∧ tick < maxTick) ∧
      tickPrice tick ≤ price ∧ price < tickPrice (tick + 1) := by
  unfold tickAt at given
  split at given
  · cases given
  · rename_i within
    rw [Except.ok.injEq] at given
    have below : tickPrice minTick ≤ price := by
      rw [tickPrice_minTick]
      omega
    have above : price < tickPrice maxTick := by
      rw [tickPrice_maxTick]
      omega
    have beyond : tickPrice maxTick ≤ tickPrice (maxTick + 1) :=
      tickPrice_mono (by omega) (by decide) le_rfl
    have found := searchTick_spec (by decide) below (above.trans_le beyond)
    rw [given] at found
    obtain ⟨low, high, reached, short⟩ := found
    have inside : tick ≠ maxTick := by
      rintro rfl
      omega
    exact ⟨⟨low, lt_of_le_of_ne high inside⟩, reached, short⟩

end OrderDesk
