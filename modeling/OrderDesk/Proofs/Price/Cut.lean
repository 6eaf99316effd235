import OrderDesk.Proofs.Price.Amount

/-!
# Amounts over a range that is cut

A swap that stops on its way exchanges an amount over each part of its range, and each of them is
rounded by itself.

* `Rounding.loss_round_add`: what a trader loses where two parts are rounded instead of their sum.
* `ExactlyRounded.cut_loss`: a trader gains by no cut, and loses at most one unit by each.
* `amounts_cut_safely`: the amounts of both tokens are exactly rounded and safe to split.
-/

namespace OrderDesk

/-- What a trader loses where amounts come to `parts` instead of `whole`. What a trader pays is
rounded up, and what a trader is paid is rounded down. -/
def Rounding.loss : Rounding → (whole parts : Int) → Int
  | .up, whole, parts => parts - whole
  | .down, whole, parts => whole - parts

theorem Rounding.loss_self (rounding : Rounding) (whole : Int) : rounding.loss whole whole = 0 := by
  cases rounding <;> exact sub_self whole

theorem Rounding.loss_round_add (rounding : Rounding) (x y : ℚ) :
    0 ≤ rounding.loss (rounding.round (x + y)) (rounding.round x + rounding.round y) ∧
    rounding.loss (rounding.round (x + y)) (rounding.round x + rounding.round y) ≤ 1 := by
  cases rounding with
  | down =>
    have least := Int.le_floor_add x y
    have most := Int.le_floor_add_floor x y
    simp only [loss, round]
    omega
  | up =>
    have least := Int.ceil_add_le x y
    have most := Int.ceil_add_ceil_le x y
    simp only [loss, round]
    omega

/-- The amount over the range from a price through all of the following ones, part by part. -/
def cutAmount (amount : Int → Int → Except PriceFault Int) : Int → List Int → Except PriceFault Int
  | _, [] => .ok 0
  | price, next :: later => do
    let part ← amount price next
    let rest ← cutAmount amount next later
    return part + rest

/-- Whether the amounts of a token are the exact ones, rounded, and the exact ones of adjoining
ranges add up. -/
structure ExactlyRounded (amount : Rounding → Int → Int → Except PriceFault Int)
    (exact : Int → Int → ℚ) : Prop where
  given : ∀ {rounding low high}, 0 < low → low ≤ high → high < 2 ^ 160 →
    amount rounding low high = .ok (rounding.round (exact low high))
  symmetric : ∀ rounding priceA priceB,
    amount rounding priceA priceB = amount rounding priceB priceA
  add : ∀ {low middle high}, 0 < low → low ≤ middle → middle ≤ high →
    exact low middle + exact middle high = exact low high

namespace ExactlyRounded

variable {amount : Rounding → Int → Int → Except PriceFault Int} {exact : Int → Int → ℚ}
  {low middle high : Int}

theorem split_loss (exactly : ExactlyRounded amount exact) (rounding : Rounding) (pos : 0 < low)
    (le_middle : low ≤ middle) (middle_le : middle ≤ high) (small : high < 2 ^ 160) :
    ∃ whole first second, amount rounding low high = .ok whole ∧
      amount rounding low middle = .ok first ∧ amount rounding middle high = .ok second ∧
      0 ≤ rounding.loss whole (first + second) ∧ rounding.loss whole (first + second) ≤ 1 := by
  have bounds := rounding.loss_round_add (exact low middle) (exact middle high)
  rw [exactly.add pos le_middle middle_le] at bounds
  exact ⟨_, _, _, exactly.given pos (le_middle.trans middle_le) small,
    exactly.given pos le_middle (middle_le.trans_lt small),
    exactly.given (pos.trans_le le_middle) middle_le small, bounds⟩

/-- Each cut parts a range in two, and what is lost by it comes on top of what the cuts above it
lose. -/
theorem cut_loss (exactly : ExactlyRounded amount exact) (rounding : Rounding) {cuts : List Int}
    (pos : 0 < low) (sorted : (low :: (cuts ++ [high])).Pairwise (· ≤ ·)) (small : high < 2 ^ 160) :
    ∃ whole parts, amount rounding low high = .ok whole ∧
      cutAmount (amount rounding) low (cuts ++ [high]) = .ok parts ∧
      0 ≤ rounding.loss whole parts ∧ rounding.loss whole parts ≤ cuts.length := by
  induction cuts generalizing low with
  | nil =>
    have le : low ≤ high := (List.pairwise_cons.mp sorted).1 high (by simp)
    have given : amount rounding low high = .ok (rounding.round (exact low high)) :=
      exactly.given pos le small
    refine ⟨_, rounding.round (exact low high) + 0, given, ?_, ?_⟩
    · rw [List.nil_append, cutAmount, given, cutAmount]
      rfl
    · rw [add_zero, rounding.loss_self]
      exact ⟨le_rfl, le_rfl⟩
  | cons cut cuts ih =>
    obtain ⟨below, above⟩ := List.pairwise_cons.mp sorted
    have le_cut : low ≤ cut := below cut (by simp)
    have cut_le : cut ≤ high := (List.pairwise_cons.mp above).1 high (by simp)
    obtain ⟨whole, first, second, whole_ok, first_ok, second_ok, split⟩ :=
      exactly.split_loss rounding pos le_cut cut_le small
    obtain ⟨rest, parts, rest_ok, parts_ok, others⟩ := ih (pos.trans_le le_cut) above
    cases second_ok.symm.trans rest_ok
    refine ⟨whole, first + parts, whole_ok, ?_, ?_⟩
    · rw [List.cons_append, cutAmount, first_ok, parts_ok]
      rfl
    · rw [List.length_cons]
      cases rounding
      all_goals
        simp only [Rounding.loss] at split others ⊢
        omega

end ExactlyRounded

/-! ## Both tokens -/

section Tokens

variable {liquidity : Int}

theorem amount0_exactlyRounded (nonneg : 0 ≤ liquidity) (fits : liquidity < 2 ^ 128) :
    ExactlyRounded (fun rounding priceA priceB => amount0 rounding priceA priceB liquidity)
      (fun low high => liquidity * 2 ^ 96 * (high - low) / (low * high)) where
  given {rounding low high} pos le small := by
    rw [amount0_total pos (pos.trans_le le) nonneg fits, exactAmount0_of_le liquidity le, q96]
    push_cast
    rfl
  symmetric _ _ _ := amount0_comm
  add {low middle high} pos le_middle middle_le := by
    have low_ne : (low : ℚ) ≠ 0 := by exact_mod_cast pos.ne'
    have middle_ne : (middle : ℚ) ≠ 0 := by exact_mod_cast (pos.trans_le le_middle).ne'
    have high_ne : (high : ℚ) ≠ 0 := by
      exact_mod_cast (pos.trans_le (le_middle.trans middle_le)).ne'
    field_simp
    ring

theorem amount1_exactlyRounded (nonneg : 0 ≤ liquidity) (fits : liquidity < 2 ^ 128) :
    ExactlyRounded (fun rounding priceA priceB => amount1 rounding priceA priceB liquidity)
      (fun low high => liquidity * (high - low) / 2 ^ 96) where
  given {rounding low high} pos le small := by
    rw [amount1_total pos.le (pos.le.trans le) (le.trans_lt small) small nonneg fits,
      exactAmount1_of_le liquidity le, q96]
    push_cast
    rfl
  symmetric _ _ _ := amount1_comm
  add _ _ _ := by ring

end Tokens

/-- What the amounts of a token over a range come to, if it is whole, cut at a price between, or cut
at any number of prices. -/
structure CutSafely (amount : Rounding → Int → Int → Except PriceFault Int)
    (exact : Int → Int → ℚ) (low middle high : Int) : Prop where
  up : amount .up low high = .ok ⌈exact low high⌉
  down : amount .down low high = .ok ⌊exact low high⌋
  symmetric : ∀ rounding, amount rounding high low = amount rounding low high
  split_up : ∃ whole first second, amount .up low high = .ok whole ∧
    amount .up low middle = .ok first ∧ amount .up middle high = .ok second ∧
    whole ≤ first + second ∧ first + second ≤ whole + 1
  split_down : ∃ whole first second, amount .down low high = .ok whole ∧
    amount .down low middle = .ok first ∧ amount .down middle high = .ok second ∧
    first + second ≤ whole ∧ whole ≤ first + second + 1
  cuts : ∀ rounding cuts, (low :: (cuts ++ [high])).Pairwise (· ≤ ·) →
    ∃ whole parts, amount rounding low high = .ok whole ∧
      cutAmount (amount rounding) low (cuts ++ [high]) = .ok parts ∧
      0 ≤ rounding.loss whole parts ∧ rounding.loss whole parts ≤ cuts.length

theorem ExactlyRounded.cutSafely {amount : Rounding → Int → Int → Except PriceFault Int}
    {exact : Int → Int → ℚ} {low middle high : Int} (exactly : ExactlyRounded amount exact)
    (pos : 0 < low) (le_middle : low ≤ middle) (middle_le : middle ≤ high)
    (small : high < 2 ^ 160) : CutSafely amount exact low middle high where
  up := exactly.given pos (le_middle.trans middle_le) small
  down := exactly.given pos (le_middle.trans middle_le) small
  symmetric rounding := exactly.symmetric rounding high low
  split_up := by
    obtain ⟨whole, first, second, whole_ok, first_ok, second_ok, least, most⟩ :=
      exactly.split_loss .up pos le_middle middle_le small
    exact ⟨whole, first, second, whole_ok, first_ok, second_ok, sub_nonneg.mp least,
      sub_le_iff_le_add'.mp most⟩
  split_down := by
    obtain ⟨whole, first, second, whole_ok, first_ok, second_ok, least, most⟩ :=
      exactly.split_loss .down pos le_middle middle_le small
    exact ⟨whole, first, second, whole_ok, first_ok, second_ok, sub_nonneg.mp least,
      sub_le_iff_le_add'.mp most⟩
  cuts rounding _ sorted := exactly.cut_loss rounding pos sorted small

/-- Between prices of 160 bits, at a liquidity of 128 bits, the amounts of both tokens are the exact
ones, rounded up or down once, and cutting a range never favours the trader. -/
theorem amounts_cut_safely {low middle high liquidity : Int} (pos : 0 < low)
    (le_middle : low ≤ middle) (middle_le : middle ≤ high) (small : high < 2 ^ 160)
    (nonneg : 0 ≤ liquidity) (fits : liquidity < 2 ^ 128) :
    CutSafely (fun rounding priceA priceB => amount0 rounding priceA priceB liquidity)
      (fun low high => liquidity * 2 ^ 96 * (high - low) / (low * high)) low middle high ∧
    CutSafely (fun rounding priceA priceB => amount1 rounding priceA priceB liquidity)
      (fun low high => liquidity * (high - low) / 2 ^ 96) low middle high :=
  ⟨(amount0_exactlyRounded nonneg fits).cutSafely pos le_middle middle_le small,
    (amount1_exactlyRounded nonneg fits).cutSafely pos le_middle middle_le small⟩

/-- Half a unit of token 1 lies on either side of the cut: a trader pays one unit more for it, or is
paid one unit less. -/
theorem amounts_cut_safely_halves :
    CutSafely (fun rounding priceA priceB => amount0 rounding priceA priceB (2 ^ 95))
      (fun low high => (2 ^ 95 : Int) * 2 ^ 96 * (high - low) / (low * high))
      (2 ^ 96) (2 ^ 96 + 1) (2 ^ 96 + 2) ∧
    CutSafely (fun rounding priceA priceB => amount1 rounding priceA priceB (2 ^ 95))
      (fun low high => (2 ^ 95 : Int) * (high - low) / 2 ^ 96)
      (2 ^ 96) (2 ^ 96 + 1) (2 ^ 96 + 2) ∧
    amount1 .up (2 ^ 96) (2 ^ 96 + 2) (2 ^ 95) = .ok 1 ∧
    cutAmount (fun priceA priceB => amount1 .up priceA priceB (2 ^ 95)) (2 ^ 96)
      [2 ^ 96 + 1, 2 ^ 96 + 2] = .ok 2 ∧
    amount1 .down (2 ^ 96) (2 ^ 96 + 2) (2 ^ 95) = .ok 1 ∧
    cutAmount (fun priceA priceB => amount1 .down priceA priceB (2 ^ 95)) (2 ^ 96)
      [2 ^ 96 + 1, 2 ^ 96 + 2] = .ok 0 := by
  refine ⟨?_, ?_, rfl, rfl, rfl, rfl⟩
  · exact (amounts_cut_safely (by decide) (by decide) (by decide) (by decide) (by decide)
      (by decide)).1
  · exact (amounts_cut_safely (by decide) (by decide) (by decide) (by decide) (by decide)
      (by decide)).2

end OrderDesk
