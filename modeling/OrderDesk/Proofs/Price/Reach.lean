import OrderDesk.Proofs.Price.Amount

/-!
# Prices that an amount reaches

The price after a payment is the last whole price that the payment covers; the price after a
purchase is the first whole price at which the pool has released it. Either way the price rounds to
the side of the pool.

* `priceAfterInput_ok`: an input covers the price it leads to, and stops short of every price that
  it does not cover.
* `priceAfterOutput_ok`: a price that an output leads to releases it, and lies no further than any
  other price that does.
* `priceAfterInput_total`, `priceAfterOutput_total`: short of a price that would take more, there
  is such a price.
-/

namespace OrderDesk

/-- Whether a trade leads from one price towards the other: token 0 coming in lets the price fall. -/
def Toward (zeroForOne : Bool) (price next : Int) : Prop :=
  if zeroForOne then next ≤ price else price ≤ next

theorem Toward.refl {zeroForOne : Bool} (price : Int) : Toward zeroForOne price price := by
  cases zeroForOne <;> exact le_refl price

@[simp]
theorem toward_down {before now : Int} : Toward true before now ↔ now ≤ before := Iff.rfl

@[simp]
theorem toward_up {before now : Int} : Toward false before now ↔ before ≤ now := Iff.rfl

theorem Toward.trans {zeroForOne : Bool} {first second third : Int}
    (toward : Toward zeroForOne first second) (further : Toward zeroForOne second third) :
    Toward zeroForOne first third := by
  cases zeroForOne with
  | false => exact le_trans (toward_up.mp toward) further
  | true => exact le_trans (toward_down.mp further) toward

/-- The input that moves the price, not rounded. -/
def exactIn (zeroForOne : Bool) (priceA priceB liquidity : Int) : ℚ :=
  if zeroForOne then exactAmount0 priceA priceB liquidity
  else exactAmount1 priceA priceB liquidity

/-- The output released between two prices, not rounded. -/
def exactOut (zeroForOne : Bool) (priceA priceB liquidity : Int) : ℚ :=
  if zeroForOne then exactAmount1 priceA priceB liquidity
  else exactAmount0 priceA priceB liquidity

variable {price liquidity amount next : Int}

/-! ## Paying token 0 -/

/-- What the scaled liquidity is divided by after a payment of token 0: its depth at the price and
the payment. The less exact formula takes the depth as a whole number. -/
def depthAfter (price liquidity amount : Int) : ℚ :=
  if amount = 0 ∨ amount * price ≤ wordMax ∧ liquidity * q96 + amount * price ≤ wordMax then
    (liquidity * q96 : ℚ) / price + amount
  else ⌊(liquidity * q96 : ℚ) / price⌋ + amount

theorem depthAfter_le : depthAfter price liquidity amount ≤ (liquidity * q96 : ℚ) / price + amount := by
  unfold depthAfter
  split
  · exact le_rfl
  · exact add_le_add_left (Int.floor_le _) _

theorem le_depthAfter (nonneg : 0 ≤ amount) :
    (liquidity * q96 : ℚ) / price ≤ depthAfter price liquidity amount := by
  have nonneg' : (0 : ℚ) ≤ amount := by exact_mod_cast nonneg
  unfold depthAfter
  split
  · exact le_add_of_nonneg_right nonneg'
  · rename_i inexact
    have some : amount ≠ 0 := fun none => inexact (.inl none)
    have one_le : (1 : ℚ) ≤ amount := by exact_mod_cast (by omega : 1 ≤ amount)
    linarith [Int.lt_floor_add_one ((liquidity * q96 : ℚ) / price)]

theorem scaled_pos (liquid : 0 < liquidity) : (0 : ℚ) < liquidity * q96 :=
  mul_pos (by exact_mod_cast liquid) q96_pos

theorem ceil_depthAfter_le (pos : 0 < price) (liquid : 0 < liquidity) (nonneg : 0 ≤ amount) :
    ⌈(liquidity * q96 : ℚ) / depthAfter price liquidity amount⌉ ≤ price := by
  have pos' : (0 : ℚ) < price := by exact_mod_cast pos
  have ge : (liquidity * q96 : ℚ) / price ≤ depthAfter price liquidity amount := le_depthAfter nonneg
  have depth_pos := (div_pos (scaled_pos liquid) pos').trans_le ge
  rw [Int.ceil_le, div_le_iff₀ depth_pos]
  rwa [div_le_iff₀' pos'] at ge

theorem nextPrice0_exact (pos : 0 < price) (small : price ≤ priceWordMax) (liquid : 0 < liquidity)
    (nonneg : 0 ≤ amount) (some : amount ≠ 0)
    (exact : amount * price ≤ wordMax ∧ liquidity * q96 + amount * price ≤ wordMax) :
    nextPrice0 price liquidity amount true =
      .ok ⌈(liquidity * q96 : ℚ) / depthAfter price liquidity amount⌉ := by
  have pos' : (0 : ℚ) < price := by exact_mod_cast pos
  have nonneg' : (0 : ℚ) ≤ amount := by exact_mod_cast nonneg
  have scaled := scaled_pos liquid
  have sum_pos : 0 < liquidity * q96 + amount * price :=
    add_pos_of_pos_of_nonneg (mul_pos liquid (by decide)) (mul_nonneg nonneg pos.le)
  have le := ceil_depthAfter_le pos liquid nonneg
  rw [depthAfter, if_pos (.inr exact)] at le ⊢
  have quotient : (liquidity * q96 : ℚ) * price / (liquidity * q96 + amount * price) =
      liquidity * q96 / (liquidity * q96 / price + amount) := by
    field_simp
  have ceil_nonneg : 0 ≤ ⌈(liquidity * q96 : ℚ) / (liquidity * q96 / price + amount)⌉ :=
    Int.ceil_nonneg (by positivity)
  have fits : ⌈(liquidity * q96 : ℚ) / (liquidity * q96 / price + amount)⌉ ≤ wordMax :=
    (le.trans small).trans (by decide)
  simp only [nextPrice0, some, exact, if_false, if_true, and_self]
  refine bind_eq_ok.mpr ⟨_, (mulDiv_eq_ok sum_pos).mpr ⟨?_, ceil_nonneg, fits⟩,
    checkPrice_eq_ok.mpr ⟨rfl, ceil_nonneg, le.trans small⟩⟩
  push_cast
  rw [quotient, Rounding.round]

theorem nextPrice0_inexact (pos : 0 < price) (small : price ≤ priceWordMax) (liquid : 0 < liquidity)
    (nonneg : 0 ≤ amount) (some : amount ≠ 0)
    (inexact : ¬ (amount * price ≤ wordMax ∧ liquidity * q96 + amount * price ≤ wordMax)) :
    nextPrice0 price liquidity amount true =
      .ok ⌈(liquidity * q96 : ℚ) / depthAfter price liquidity amount⌉ := by
  have pos' : (0 : ℚ) < price := by exact_mod_cast pos
  have scaled := scaled_pos liquid
  have le := ceil_depthAfter_le pos liquid nonneg
  rw [depthAfter, if_neg (not_or_intro some inexact)] at le ⊢
  have floor_eq : Int.fdiv (liquidity * q96) price = ⌊(liquidity * q96 : ℚ) / price⌋ := by
    simpa [Rounding.round, Rounding.divide] using Rounding.down.divide_eq (liquidity * q96) pos
  have floor_nonneg : 0 ≤ ⌊(liquidity * q96 : ℚ) / price⌋ := Int.floor_nonneg.mpr (by positivity)
  have depth_pos : 0 < ⌊(liquidity * q96 : ℚ) / price⌋ + amount := by omega
  have depth_pos' : (0 : ℚ) < ⌊(liquidity * q96 : ℚ) / price⌋ + amount := by exact_mod_cast depth_pos
  have ceil_eq : ceilDiv (liquidity * q96) (⌊(liquidity * q96 : ℚ) / price⌋ + amount) =
      ⌈(liquidity * q96 : ℚ) / (⌊(liquidity * q96 : ℚ) / price⌋ + amount)⌉ := by
    simpa [Rounding.round, Rounding.divide] using Rounding.up.divide_eq (liquidity * q96) depth_pos
  simp only [nextPrice0, some, inexact, if_false, if_true, divDown, pos.ne', ok_bind, floor_eq,
    divUp, depth_pos.ne', ceil_eq]
  exact checkPrice_eq_ok.mpr ⟨rfl, Int.ceil_nonneg (by positivity), le.trans small⟩

theorem nextPrice0_add (pos : 0 < price) (small : price ≤ priceWordMax) (liquid : 0 < liquidity)
    (nonneg : 0 ≤ amount) :
    nextPrice0 price liquidity amount true =
      .ok ⌈(liquidity * q96 : ℚ) / depthAfter price liquidity amount⌉ := by
  by_cases none : amount = 0
  · have scaled := scaled_pos liquid
    have pos' : (0 : ℚ) < price := by exact_mod_cast pos
    have same : (liquidity * q96 : ℚ) / depthAfter price liquidity amount = price := by
      rw [depthAfter, if_pos (.inl none), none, Int.cast_zero, add_zero, div_div_cancel₀ scaled.ne']
    rw [same, Int.ceil_intCast, nextPrice0, if_pos none]
  · by_cases exact : amount * price ≤ wordMax ∧ liquidity * q96 + amount * price ≤ wordMax
    · exact nextPrice0_exact pos small liquid nonneg none exact
    · exact nextPrice0_inexact pos small liquid nonneg none exact

/-! ## Buying token 0 -/

theorem quotient_after_purchase (pos : 0 < price) (lt : (amount : ℚ) < liquidity * q96 / price) :
    (liquidity * q96 : ℚ) * price / (liquidity * q96 - amount * price) =
      liquidity * q96 / (liquidity * q96 / price - amount) := by
  have pos' : (0 : ℚ) < price := by exact_mod_cast pos
  have rest_pos : (0 : ℚ) < liquidity * q96 - amount * price :=
    sub_pos.mpr ((lt_div_iff₀ pos').mp lt)
  have rest_eq : (liquidity * q96 : ℚ) / price - amount =
      (liquidity * q96 - amount * price) / price := by
    field_simp
  rw [rest_eq, div_div_eq_mul_div]

theorem nextPrice0_remove_ok (pos : 0 < price) (liquid : 0 < liquidity)
    (given : nextPrice0 price liquidity amount false = .ok next) :
    (amount : ℚ) < liquidity * q96 / price ∧
      next = ⌈(liquidity * q96 : ℚ) / (liquidity * q96 / price - amount)⌉ := by
  have pos' : (0 : ℚ) < price := by exact_mod_cast pos
  have scaled := scaled_pos liquid
  unfold nextPrice0 at given
  split at given
  · rename_i none
    subst none
    rw [Except.ok.injEq] at given
    subst given
    refine ⟨by simpa using div_pos scaled pos', ?_⟩
    rw [Int.cast_zero, sub_zero, div_div_cancel₀ scaled.ne', Int.ceil_intCast]
  · rw [if_neg Bool.false_ne_true] at given
    split at given
    · cases given
    · rename_i within
      have rest_pos : 0 < liquidity * q96 - amount * price := by omega
      have lt : (amount : ℚ) < liquidity * q96 / price :=
        (lt_div_iff₀ pos').mpr (by exact_mod_cast sub_pos.mp rest_pos)
      obtain ⟨value, quotient, checked⟩ := bind_eq_ok.mp given
      obtain ⟨rfl, -, -⟩ := (mulDiv_eq_ok rest_pos).mp quotient
      obtain ⟨rfl, -, -⟩ := checkPrice_eq_ok.mp checked
      push_cast
      rw [quotient_after_purchase pos lt]
      exact ⟨lt, rfl⟩

theorem nextPrice0_remove (pos : 0 < price) (liquid : 0 < liquidity) (nonneg : 0 ≤ amount)
    (small : liquidity < 2 ^ 128) (lt : (amount : ℚ) < liquidity * q96 / price)
    (fits : ⌈(liquidity * q96 : ℚ) / (liquidity * q96 / price - amount)⌉ ≤ priceWordMax) :
    nextPrice0 price liquidity amount false =
      .ok ⌈(liquidity * q96 : ℚ) / (liquidity * q96 / price - amount)⌉ := by
  have pos' : (0 : ℚ) < price := by exact_mod_cast pos
  have scaled := scaled_pos liquid
  by_cases none : amount = 0
  · subst none
    rw [Int.cast_zero, sub_zero, div_div_cancel₀ scaled.ne', Int.ceil_intCast]
    rfl
  · have product_lt : amount * price < liquidity * q96 := by
      exact_mod_cast (lt_div_iff₀ pos').mp lt
    have within : ¬ (wordMax < amount * price ∨ liquidity * q96 ≤ amount * price) := by
      have := scaled_le_wordMax small
      omega
    have ceil_nonneg : 0 ≤ ⌈(liquidity * q96 : ℚ) / (liquidity * q96 / price - amount)⌉ :=
      Int.ceil_nonneg (div_nonneg scaled.le (sub_pos.mpr lt).le)
    simp only [nextPrice0, none, within, if_false, Bool.false_eq_true]
    refine bind_eq_ok.mpr ⟨_, (mulDiv_eq_ok (sub_pos.mpr product_lt)).mpr
      ⟨?_, ceil_nonneg, fits.trans (by decide)⟩, checkPrice_eq_ok.mpr ⟨rfl, ceil_nonneg, fits⟩⟩
    push_cast
    rw [quotient_after_purchase pos lt, Rounding.round]

/-! ## Paying and buying token 1 -/

theorem priceMove1_nonneg (liquid : 0 < liquidity) (nonneg : 0 ≤ amount) :
    (0 : ℚ) ≤ amount * q96 / liquidity := by
  have liquid' : (0 : ℚ) < liquidity := by exact_mod_cast liquid
  have nonneg' : (0 : ℚ) ≤ amount := by exact_mod_cast nonneg
  exact div_nonneg (mul_nonneg nonneg' q96_pos.le) liquid'.le

theorem nextPrice1_add_eq_ok (pos : 0 < price) (liquid : 0 < liquidity) (nonneg : 0 ≤ amount) :
    nextPrice1 price liquidity amount true = .ok next ↔
      price + ⌊(amount * q96 : ℚ) / liquidity⌋ = next ∧ next ≤ priceWordMax := by
  have floor_nonneg : 0 ≤ ⌊(amount * q96 : ℚ) / liquidity⌋ :=
    Int.floor_nonneg.mpr (priceMove1_nonneg liquid nonneg)
  have below : priceWordMax ≤ wordMax := by decide
  simp only [nextPrice1, if_true, bind_eq_ok, mulDiv_eq_ok liquid, checkPrice_eq_ok, Rounding.round]
  constructor
  · rintro ⟨_, ⟨rfl, -, -⟩, rfl, -, fits⟩
    exact ⟨rfl, fits⟩
  · rintro ⟨rfl, fits⟩
    exact ⟨_, ⟨rfl, floor_nonneg, by omega⟩, rfl, by omega, fits⟩

theorem nextPrice1_remove_eq_ok (small : price ≤ priceWordMax) (liquid : 0 < liquidity)
    (nonneg : 0 ≤ amount) :
    nextPrice1 price liquidity amount false = .ok next ↔
      price - ⌈(amount * q96 : ℚ) / liquidity⌉ = next ∧ 0 < next := by
  have ceil_nonneg : 0 ≤ ⌈(amount * q96 : ℚ) / liquidity⌉ :=
    Int.ceil_nonneg (priceMove1_nonneg liquid nonneg)
  have below : priceWordMax ≤ wordMax := by decide
  simp only [nextPrice1, Bool.false_eq_true, if_false, bind_eq_ok, mulDiv_eq_ok liquid,
    Rounding.round]
  constructor
  · rintro ⟨_, ⟨rfl, -, -⟩, given⟩
    split at given
    · cases given
    · cases given
      exact ⟨rfl, by omega⟩
  · rintro ⟨rfl, next_pos⟩
    exact ⟨_, ⟨rfl, ceil_nonneg, by omega⟩, if_neg (by omega)⟩

/-! ## Either token -/

/-- What an input does to the price: it pays for the move, and would not for one to any price that
costs more. -/
structure PaidTo (zeroForOne : Bool) (price liquidity amount next : Int) : Prop where
  pos : 0 < next
  toward : Toward zeroForOne price next
  covered : exactIn zeroForOne price next liquidity ≤ amount
  short : ∀ target, 0 < target → Toward zeroForOne price target →
    (amount : ℚ) < exactIn zeroForOne price target liquidity →
    next ≠ target ∧ Toward zeroForOne next target

/-- What an output does to the price: the move releases it, and one to any price that releases it
goes as far. -/
structure BoughtTo (zeroForOne : Bool) (price liquidity amount next : Int) : Prop where
  pos : 0 < next
  toward : Toward zeroForOne price next
  released : (amount : ℚ) ≤ exactOut zeroForOne price next liquidity
  nearest : ∀ target, 0 < target → Toward zeroForOne price target →
    (amount : ℚ) ≤ exactOut zeroForOne price target liquidity → Toward zeroForOne next target

theorem paidTo_token0 (pos : 0 < price) (liquid : 0 < liquidity) (nonneg : 0 ≤ amount) :
    PaidTo true price liquidity amount
      ⌈(liquidity * q96 : ℚ) / depthAfter price liquidity amount⌉ := by
  have pos' : (0 : ℚ) < price := by exact_mod_cast pos
  have scaled := scaled_pos liquid
  have depth_ge : (liquidity * q96 : ℚ) / price ≤ depthAfter price liquidity amount :=
    le_depthAfter nonneg
  have depth_le : depthAfter price liquidity amount ≤ (liquidity * q96 : ℚ) / price + amount :=
    depthAfter_le
  have depth_pos := (div_pos scaled pos').trans_le depth_ge
  have next_pos : 0 < ⌈(liquidity * q96 : ℚ) / depthAfter price liquidity amount⌉ :=
    Int.ceil_pos.mpr (div_pos scaled depth_pos)
  have next_le := ceil_depthAfter_le pos liquid nonneg
  have le_next := Int.le_ceil ((liquidity * q96 : ℚ) / depthAfter price liquidity amount)
  refine ⟨next_pos, next_le, ?_, ?_⟩
  · have next_pos' : (0 : ℚ) < ⌈(liquidity * q96 : ℚ) / depthAfter price liquidity amount⌉ := by
      exact_mod_cast next_pos
    rw [div_le_iff₀ depth_pos, ← div_le_iff₀' next_pos'] at le_next
    rw [exactIn, if_pos rfl, exactAmount0_comm, exactAmount0_eq_sub liquidity next_pos next_le]
    linarith
  · intro target target_pos toward costly
    have target_pos' : (0 : ℚ) < target := by exact_mod_cast target_pos
    rw [exactIn, if_pos rfl, exactAmount0_comm,
      exactAmount0_eq_sub liquidity target_pos toward] at costly
    have deeper : depthAfter price liquidity amount < (liquidity * q96 : ℚ) / target := by linarith
    rw [lt_div_iff₀' target_pos', ← lt_div_iff₀ depth_pos] at deeper
    have lt := Int.lt_ceil.mpr deeper
    exact ⟨lt.ne', lt.le⟩

theorem paidTo_token1 (pos : 0 < price) (liquid : 0 < liquidity) (nonneg : 0 ≤ amount) :
    PaidTo false price liquidity amount (price + ⌊(amount * q96 : ℚ) / liquidity⌋) := by
  have liquid' : (0 : ℚ) < liquidity := by exact_mod_cast liquid
  have floor_nonneg : 0 ≤ ⌊(amount * q96 : ℚ) / liquidity⌋ :=
    Int.floor_nonneg.mpr (priceMove1_nonneg liquid nonneg)
  have floor_le := Int.floor_le ((amount * q96 : ℚ) / liquidity)
  have up : price ≤ price + ⌊(amount * q96 : ℚ) / liquidity⌋ := le_add_of_nonneg_right floor_nonneg
  refine ⟨pos.trans_le up, up, ?_, ?_⟩
  · rw [exactIn, if_neg Bool.false_ne_true, exactAmount1_of_le liquidity up, div_le_iff₀ q96_pos]
    rw [le_div_iff₀' liquid'] at floor_le
    push_cast
    linarith
  · intro target _ toward costly
    rw [exactIn, if_neg Bool.false_ne_true, exactAmount1_of_le liquidity toward,
      lt_div_iff₀ q96_pos, ← div_lt_iff₀' liquid'] at costly
    have lt : ⌊(amount * q96 : ℚ) / liquidity⌋ < target - price :=
      Int.floor_lt.mpr (by exact_mod_cast costly)
    exact ⟨by omega, show _ ≤ target by omega⟩

theorem boughtTo_token0 (pos : 0 < price) (nonneg : 0 ≤ amount)
    (lt : (amount : ℚ) < liquidity * q96 / price) :
    BoughtTo false price liquidity amount
      ⌈(liquidity * q96 : ℚ) / (liquidity * q96 / price - amount)⌉ := by
  have pos' : (0 : ℚ) < price := by exact_mod_cast pos
  have nonneg' : (0 : ℚ) ≤ amount := by exact_mod_cast nonneg
  have rest_pos : (0 : ℚ) < liquidity * q96 / price - amount := sub_pos.mpr lt
  have le_next := Int.le_ceil ((liquidity * q96 : ℚ) / (liquidity * q96 / price - amount))
  have up : price ≤ ⌈(liquidity * q96 : ℚ) / (liquidity * q96 / price - amount)⌉ := by
    have le : (price : ℚ) ≤ liquidity * q96 / (liquidity * q96 / price - amount) := by
      rw [le_div_iff₀' rest_pos, ← le_div_iff₀ pos']
      linarith
    exact_mod_cast le.trans le_next
  have next_pos := pos.trans_le up
  refine ⟨next_pos, up, ?_, ?_⟩
  · have next_pos' : (0 : ℚ) < ⌈(liquidity * q96 : ℚ) / (liquidity * q96 / price - amount)⌉ := by
      exact_mod_cast next_pos
    rw [div_le_iff₀ rest_pos, ← div_le_iff₀' next_pos'] at le_next
    rw [exactOut, if_neg Bool.false_ne_true, exactAmount0_eq_sub liquidity pos up]
    linarith
  · intro target target_pos toward enough
    have target_pos' : (0 : ℚ) < target := by exact_mod_cast target_pos
    rw [exactOut, if_neg Bool.false_ne_true, exactAmount0_eq_sub liquidity pos toward] at enough
    have le : (liquidity * q96 : ℚ) / target ≤ liquidity * q96 / price - amount := by linarith
    rw [div_le_iff₀' target_pos', ← div_le_iff₀ rest_pos] at le
    exact Int.ceil_le.mpr le

theorem ceil_purchase_le {target : Int} (liquid : 0 < liquidity) (down : target ≤ price)
    (enough : (amount : ℚ) ≤ exactOut true price target liquidity) :
    ⌈(amount * q96 : ℚ) / liquidity⌉ ≤ price - target := by
  have liquid' : (0 : ℚ) < liquidity := by exact_mod_cast liquid
  rw [exactOut, if_pos rfl, exactAmount1_comm, exactAmount1_of_le liquidity down,
    le_div_iff₀ q96_pos, ← div_le_iff₀' liquid'] at enough
  exact Int.ceil_le.mpr (by exact_mod_cast enough)

theorem boughtTo_token1 (liquid : 0 < liquidity) (nonneg : 0 ≤ amount)
    (rest : 0 < price - ⌈(amount * q96 : ℚ) / liquidity⌉) :
    BoughtTo true price liquidity amount (price - ⌈(amount * q96 : ℚ) / liquidity⌉) := by
  have liquid' : (0 : ℚ) < liquidity := by exact_mod_cast liquid
  have ceil_nonneg : 0 ≤ ⌈(amount * q96 : ℚ) / liquidity⌉ :=
    Int.ceil_nonneg (priceMove1_nonneg liquid nonneg)
  have le_ceil := Int.le_ceil ((amount * q96 : ℚ) / liquidity)
  have down : price - ⌈(amount * q96 : ℚ) / liquidity⌉ ≤ price := sub_le_self _ ceil_nonneg
  refine ⟨rest, down, ?_, ?_⟩
  · rw [exactOut, if_pos rfl, exactAmount1_comm, exactAmount1_of_le liquidity down,
      le_div_iff₀ q96_pos]
    rw [div_le_iff₀' liquid'] at le_ceil
    push_cast
    linarith
  · intro target _ toward enough
    have le := ceil_purchase_le liquid toward enough
    exact show target ≤ _ by omega

theorem priceAfterInput_ok {zeroForOne : Bool} (small : price ≤ priceWordMax)
    (nonneg : 0 ≤ amount) (given : priceAfterInput price liquidity amount zeroForOne = .ok next) :
    PaidTo zeroForOne price liquidity amount next := by
  unfold priceAfterInput at given
  split at given
  · cases given
  · rename_i positive
    have pos : 0 < price := by omega
    have liquid : 0 < liquidity := by omega
    cases zeroForOne with
    | true =>
      rw [if_pos rfl, nextPrice0_add pos small liquid nonneg, Except.ok.injEq] at given
      exact given ▸ paidTo_token0 pos liquid nonneg
    | false =>
      rw [if_neg Bool.false_ne_true, nextPrice1_add_eq_ok pos liquid nonneg] at given
      exact given.1 ▸ paidTo_token1 pos liquid nonneg

theorem priceAfterOutput_ok {zeroForOne : Bool} (small : price ≤ priceWordMax)
    (nonneg : 0 ≤ amount) (given : priceAfterOutput price liquidity amount zeroForOne = .ok next) :
    BoughtTo zeroForOne price liquidity amount next := by
  unfold priceAfterOutput at given
  split at given
  · cases given
  · rename_i positive
    have pos : 0 < price := by omega
    have liquid : 0 < liquidity := by omega
    cases zeroForOne with
    | true =>
      rw [if_pos rfl, nextPrice1_remove_eq_ok small liquid nonneg] at given
      obtain ⟨rfl, rest⟩ := given
      exact boughtTo_token1 liquid nonneg rest
    | false =>
      rw [if_neg Bool.false_ne_true] at given
      obtain ⟨lt, rfl⟩ := nextPrice0_remove_ok pos liquid given
      exact boughtTo_token0 pos nonneg lt

theorem priceAfterInput_total {zeroForOne : Bool} {target : Int} (pos : 0 < price)
    (small : price ≤ priceWordMax) (liquid : 0 < liquidity) (nonneg : 0 ≤ amount)
    (target_pos : 0 < target) (target_small : target ≤ priceWordMax)
    (toward : Toward zeroForOne price target)
    (costly : (amount : ℚ) < exactIn zeroForOne price target liquidity) :
    ∃ next, priceAfterInput price liquidity amount zeroForOne = .ok next := by
  have positive : ¬ (price ≤ 0 ∨ liquidity ≤ 0) := by omega
  rw [priceAfterInput, if_neg positive]
  cases zeroForOne with
  | true => exact ⟨_, nextPrice0_add pos small liquid nonneg⟩
  | false =>
    have short := (paidTo_token1 pos liquid nonneg).short target target_pos toward costly
    exact ⟨_, (nextPrice1_add_eq_ok pos liquid nonneg).mpr ⟨rfl, le_trans short.2 target_small⟩⟩

theorem priceAfterOutput_total {zeroForOne : Bool} {target : Int} (pos : 0 < price)
    (small : price ≤ priceWordMax) (liquid : 0 < liquidity) (liquid_small : liquidity < 2 ^ 128)
    (nonneg : 0 ≤ amount) (target_pos : 0 < target) (target_small : target ≤ priceWordMax)
    (toward : Toward zeroForOne price target)
    (enough : (amount : ℚ) ≤ exactOut zeroForOne price target liquidity) :
    ∃ next, priceAfterOutput price liquidity amount zeroForOne = .ok next := by
  have positive : ¬ (price ≤ 0 ∨ liquidity ≤ 0) := by omega
  rw [priceAfterOutput, if_neg positive]
  cases zeroForOne with
  | true =>
    have le := ceil_purchase_le liquid toward enough
    exact ⟨_, (nextPrice1_remove_eq_ok small liquid nonneg).mpr ⟨rfl, by omega⟩⟩
  | false =>
    have target_pos' : (0 : ℚ) < target := by exact_mod_cast target_pos
    have held := div_pos (scaled_pos liquid) target_pos'
    have lt : (amount : ℚ) < liquidity * q96 / price := by
      rw [exactOut, if_neg Bool.false_ne_true, exactAmount0_eq_sub liquidity pos toward] at enough
      linarith
    have near := (boughtTo_token0 pos nonneg lt).nearest target target_pos toward enough
    exact ⟨_, nextPrice0_remove pos liquid nonneg liquid_small lt (le_trans near target_small)⟩

end OrderDesk
