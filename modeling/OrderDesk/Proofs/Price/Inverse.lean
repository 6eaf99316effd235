import OrderDesk.Proofs.Price.Tick

/-!
# Ticks and prices are inverse to each other

Rounding never lets two ticks share a price: from one distance to the next the ratio falls by more
than a price keeps of it, also where it is smallest.

* `decay_succ_add_le`, `tickRatio_succ`: neighbouring ratios lie apart.
* `tickPrice_strictMono`: a higher tick has a higher price.
* `tickAt_inverse`: the tick of a price is the greatest whose price is not above it, and the tick of
  the price of a tick is that tick.
-/

namespace OrderDesk

/-! ## Neighbouring ratios -/

theorem decayBy_add_le (ratios : List Nat) (distance first second : Nat) :
    decayBy ratios distance first + decayBy ratios distance second ≤
      decayBy ratios distance (first + second) := by
  induction ratios generalizing distance first second with
  | nil => exact le_rfl
  | cons factor ratios ih =>
    simp only [decayBy]
    split
    · refine (ih _ _ _).trans (decayBy_mono _ _ ?_)
      rw [add_mul]
      exact Nat.div_add_div_le_add_div
    · exact ih _ _ _

/-- The factors leave room for `2 ^ 113` more at the start of the farther distance, and that much
does not decay below `2 ^ 33`. -/
theorem decay_succ_add_le {distance : Nat} (lt : distance < 887272) :
    decay (distance + 1) + 2 ^ 33 ≤ decay distance := by
  have digits : tickRatios.length = 20 := rfl
  have room : carries tickRatios (2 ^ 128 + 2 ^ 113) (2 ^ 128) = true := by decide
  have least : 2 ^ 33 ≤ decayBy tickRatios 887272 (2 ^ 113) := by decide
  have kept : 2 ^ 33 ≤ decayBy tickRatios (distance + 1) (2 ^ 113) :=
    least.trans (decayBy_antitone (by decide) lt (by norm_num))
  calc decay (distance + 1) + 2 ^ 33
      ≤ decay (distance + 1) + decayBy tickRatios (distance + 1) (2 ^ 113) :=
        Nat.add_le_add_left kept _
    _ ≤ decayBy tickRatios (distance + 1) (2 ^ 128 + 2 ^ 113) := decayBy_add_le _ _ _ _
    _ ≤ decay distance := decayBy_succ_le _ _ room (by rw [digits]; omega)

theorem decay_le {distance : Nat} (le : distance ≤ 887272) : decay distance ≤ 2 ^ 128 :=
  decay_antitone (Nat.zero_le _) (by omega)

/-- Dividing a word by ratios that lie apart gives ratios that lie apart. -/
theorem word_div_add_le {low high : Nat} (pos : 0 < low) (apart : low + 2 ^ 33 ≤ high)
    (small : high ≤ 2 ^ 128) :
    (2 ^ 256 - 1) / high + 2 ^ 32 ≤ (2 ^ 256 - 1) / low := by
  have quotient_le : (2 ^ 256 - 1) / high * high ≤ 2 ^ 256 - 1 := Nat.div_mul_le_self _ _
  have quotient_ge : 2 ^ 128 - 1 ≤ (2 ^ 256 - 1) / high := by
    rw [Nat.le_div_iff_mul_le (by omega)]
    exact (Nat.mul_le_mul_left _ small).trans (by norm_num)
  have wider : (2 ^ 256 - 1) / high * (low + 2 ^ 33) ≤ (2 ^ 256 - 1) / high * high :=
    Nat.mul_le_mul_left _ apart
  rw [Nat.le_div_iff_mul_le pos, add_mul]
  rw [mul_add] at wider
  omega

theorem tickRatio_succ {tick : Int} (ge : minTick ≤ tick) (lt : tick < maxTick) :
    tickRatio tick + 2 ^ 32 ≤ tickRatio (tick + 1) := by
  rw [minTick_eq] at ge
  rw [maxTick_eq] at lt
  rcases lt_trichotomy tick 0 with falling | rfl | rising
  · have next : tick.natAbs = (tick + 1).natAbs + 1 := by omega
    have apart := decay_succ_add_le (by omega : (tick + 1).natAbs < 887272)
    rw [tickRatio, tickRatio, if_neg (by omega), if_neg (by omega), next]
    omega
  · decide
  · have next : (tick + 1).natAbs = tick.natAbs + 1 := by omega
    rw [tickRatio, tickRatio, if_pos rising, if_pos (by omega), next]
    exact word_div_add_le (decay_pos (by omega)) (decay_succ_add_le (by omega))
      (decay_le (by omega))

/-! ## Prices -/

theorem tickPrice_lt_succ {tick : Int} (ge : minTick ≤ tick) (lt : tick < maxTick) :
    tickPrice tick < tickPrice (tick + 1) := by
  have apart := tickRatio_succ ge lt
  rw [tickPrice_eq, tickPrice_eq, Int.ofNat_lt]
  split <;> split <;> omega

theorem tickPrice_strictMono {low high : Int} (lt : low < high) (low_ge : minTick ≤ low)
    (high_le : high ≤ maxTick) : tickPrice low < tickPrice high :=
  (tickPrice_lt_succ low_ge (by omega)).trans_le (tickPrice_mono lt (by omega) (by omega))

theorem tickAt_total {price : Int} (ge : minPrice ≤ price) (lt : price < maxPrice) :
    ∃ tick, tickAt price = .ok tick :=
  ⟨_, if_neg (by omega)⟩

theorem tickPrice_le_iff {price tick found : Int} (given : tickAt price = .ok found)
    (ge : minTick ≤ tick) (le : tick ≤ maxTick) : tickPrice tick ≤ price ↔ tick ≤ found := by
  obtain ⟨⟨low, high⟩, reached, missed⟩ := tickAt_spec given
  constructor
  · intro below
    exact Int.lt_add_one_iff.mp (lt_of_tickPrice_lt (below.trans_lt missed) (by omega) (by omega))
  · intro below
    exact (tickPrice_mono below ge (by omega)).trans reached

theorem tickAt_tickPrice {tick : Int} (ge : minTick ≤ tick) (lt : tick < maxTick) :
    tickAt (tickPrice tick) = .ok tick := by
  have price_lt : tickPrice tick < maxPrice := by
    rw [← tickPrice_maxTick]
    exact tickPrice_strictMono lt ge le_rfl
  obtain ⟨found, given⟩ := tickAt_total (tickPrice_mem ge lt.le).1 price_lt
  obtain ⟨⟨low, high⟩, reached, -⟩ := tickAt_spec given
  have found_ge : tick ≤ found := (tickPrice_le_iff given ge lt.le).mp le_rfl
  have found_le : found ≤ tick := by
    apply le_of_not_gt
    intro beyond
    exact absurd reached (not_le.mpr (tickPrice_strictMono beyond ge high.le))
  rw [given, le_antisymm found_le found_ge]

/-- Prices rise strictly with their ticks; the tick of a price is the greatest whose price is not
above it; and the price of a tick leads back to the tick. -/
theorem tickAt_inverse :
    (∀ low high, minTick ≤ low → low < high → high ≤ maxTick →
      ∃ below above, priceAt low = .ok below ∧ priceAt high = .ok above ∧ below < above) ∧
    (∀ price, minPrice ≤ price → price < maxPrice →
      ∃ found, tickAt price = .ok found ∧ ∀ tick, minTick ≤ tick → tick ≤ maxTick →
        ∃ ofTick, priceAt tick = .ok ofTick ∧ (ofTick ≤ price ↔ tick ≤ found)) ∧
    (∀ tick, minTick ≤ tick → tick < maxTick → priceAt tick >>= tickAt = .ok tick) := by
  refine ⟨fun low high ge lt le => ?_, fun price ge lt => ?_, fun tick ge lt => ?_⟩
  · exact ⟨_, _, priceAt_eq_ok.mpr ⟨⟨ge, by omega⟩, rfl⟩,
      priceAt_eq_ok.mpr ⟨⟨by omega, le⟩, rfl⟩, tickPrice_strictMono lt ge le⟩
  · obtain ⟨found, given⟩ := tickAt_total ge lt
    refine ⟨found, given, fun tick tick_ge tick_le => ?_⟩
    exact ⟨_, priceAt_eq_ok.mpr ⟨⟨tick_ge, tick_le⟩, rfl⟩, tickPrice_le_iff given tick_ge tick_le⟩
  · rw [priceAt_eq_ok.mpr ⟨⟨ge, lt.le⟩, rfl⟩, ok_bind]
    exact tickAt_tickPrice ge lt

/-- The lowest tick leads back to itself, and the highest price short of the end belongs to the tick
before the last. -/
theorem tickAt_inverse_ends :
    priceAt minTick >>= tickAt = .ok minTick ∧
    ∃ found, tickAt (maxPrice - 1) = .ok found ∧
      ∃ last, priceAt maxTick = .ok last ∧ (last ≤ maxPrice - 1 ↔ maxTick ≤ found) := by
  obtain ⟨-, greatest, back⟩ := tickAt_inverse
  obtain ⟨found, given, here⟩ := greatest (maxPrice - 1) (by decide) (by decide)
  exact ⟨back minTick le_rfl (by decide), found, given, here maxTick (by decide) le_rfl⟩

end OrderDesk
