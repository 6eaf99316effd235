import OrderDesk.Client
import OrderDesk.Proofs.Reading.Block

/-!
# Snapshots

Pools, positions and fees are made of many reads, in loops whose length depends on what was read.

* `snapshots_readOneBlock`: all reads of one snapshot are at one block.
-/

namespace OrderDesk

variable {block : BlockName}

/-! ## Calls of contracts -/

open Desk (StaysAt)

theorem viewCall_stays (target : Address) (signature : String) (types : List Abi.WordType)
    (values : Abi.Values types) (results : List Abi.WordType) :
    StaysAt block (viewCall target signature types values results (some block)) :=
  .bind (.lift _) fun data => .bind (.call target data) fun _ => .lift _

theorem tokenBalance_stays (token owner : Address) :
    StaysAt block (tokenBalance token owner (some block)) :=
  .bind (viewCall_stays ..) fun _ => .pure _

/-! ## Ticks -/

namespace TickReader

variable (reader : TickReader) (deployment : Deployment) (poolId : Bytes) (spacing : Int)

theorem load_stays (tick : Int) (zeroForOne : Bool) (count : Setting Int) :
    StaysAt block (reader.load deployment ⟨poolId, spacing, some block⟩ tick zeroForOne count) :=
  .bind (.lift _) fun data => .bind (.deploy data) fun _ => .lift _

theorem loadBatches_stays (zeroForOne : Bool) (size : Quantity) (batch : Setting Quantity)
    (rounds : Nat) (tick loaded : Int) (found : List (List TickRow)) :
    StaysAt block (reader.loadBatches deployment ⟨poolId, spacing, some block⟩ zeroForOne size batch
      rounds tick loaded found) := by
  induction rounds generalizing tick loaded found with
  | zero => exact .ite (.fail _) (.pure _)
  | succ rounds ih =>
    refine .ite (.bind (.lift _) fun batch => ?_) (.pure _)
    refine .bind (load_stays ..) fun _ => ?_
    exact .bind (.lift _) fun count => ih ..

theorem loadDirection_stays (zeroForOne : Bool) (tick : Int) (band : Band) :
    StaysAt block (reader.loadDirection deployment ⟨poolId, spacing, some block⟩ zeroForOne tick
      band) :=
  .bind (.lift _) fun _ => loadBatches_stays ..

theorem loadBand_stays (tick : Int) (band : Band) :
    StaysAt block (reader.loadBand deployment ⟨poolId, spacing, some block⟩ tick band) :=
  .bind (loadDirection_stays ..) fun _ => .bind (loadDirection_stays ..) fun _ => .lift _

end TickReader

/-! ## Pools -/

namespace PoolReader

variable (reader : PoolReader)

theorem configOf_stays (token0 token1 : Address) :
    StaysAt block (reader.configOf token0 token1 (some block)) := by
  refine .bind ?_ fun store => ?_
  · refine .bind (.storage ..) fun pointer => .bind (.lift _) fun store => ?_
    exact .bind (.code store) fun code => .bind (.lift _) fun entries => .pure _
  · split
    · exact .pure _
    · exact .fail _

theorem key_stays (token0 token1 : String) :
    StaysAt block (reader.key token0 token1 (some block)) :=
  .bind (.lift _) fun _ => .bind (configOf_stays ..) fun _ => .pure _

theorem slot0_stays (poolId : Bytes) : StaysAt block (reader.slot0 poolId (some block)) :=
  .bind (.lift _) fun _ => .bind (.storage ..) fun _ => .pure _

theorem liquidity_stays (poolId : Bytes) : StaysAt block (reader.liquidity poolId (some block)) :=
  .bind (.lift _) fun _ => .bind (.storage ..) fun _ => .pure _

theorem ticks_stays (poolId : Bytes) (tick spacing : Int) :
    StaysAt block (reader.ticks poolId tick spacing block) := by
  unfold ticks
  split
  · exact TickReader.loadBand_stays ..
  · exact .pure _

theorem snapshot_readsOneBlock (token0 token1 : String) (withTicks : Bool) :
    ReadsOneBlock fun block => reader.snapshot token0 token1 block withTicks := by
  apply readsOneBlock_pinned
  intro block
  refine .bind (key_stays ..) fun key => .bind (.lift _) fun poolId => ?_
  refine .bind (slot0_stays ..) fun slot0 => .bind (liquidity_stays ..) fun liquidity => ?_
  refine .ite (.bind (ticks_stays ..) fun maps => ?_) (.bind (.pure _) fun maps => ?_)
  all_goals exact .bind (.lift _) fun complete => .pure _

end PoolReader

/-! ## Positions -/

namespace Positions

variable (deployment : Deployment)

theorem findAt_stays (tokenId : Int) : StaysAt block (findAt deployment tokenId block) := by
  have info : StaysAt block (info deployment tokenId (some block)) :=
    .bind (viewCall_stays ..) fun _ => .lift _
  refine .bind info fun info => ?_
  have poolKey : StaysAt block (poolKeyFor deployment info.poolMapKey (some block)) :=
    .bind (viewCall_stays ..) fun _ => .pure _
  refine .bind poolKey fun poolKey => .bind (.lift _) fun poolId => ?_
  refine .bind ?_ fun liquidity => .pure _
  exact .bind (.lift _) fun key => .bind (.lift _) fun slot => .bind (.storage ..) fun _ => .pure _

theorem managerWord_stays (slot : Bytes) (distance : Int) :
    StaysAt block (managerWord deployment slot distance (some block)) := .storage ..

theorem feeGrowth_stays (slots : RangeSlots) :
    StaysAt block (feeGrowth deployment slots (some block)) :=
  .bind (managerWord_stays ..) fun _ => .bind (managerWord_stays ..) fun _ =>
    .bind (managerWord_stays ..) fun _ => .bind (managerWord_stays ..) fun _ =>
    .bind (managerWord_stays ..) fun _ => .bind (managerWord_stays ..) fun _ => .pure _

theorem lastFeeGrowth_stays (poolId key : Bytes) :
    StaysAt block (lastFeeGrowth deployment poolId key (some block)) :=
  .bind (.lift _) fun _ => .bind (managerWord_stays ..) fun _ =>
    .bind (managerWord_stays ..) fun _ => .pure _

theorem rewardGrowth_stays (poolId : Bytes) (lower upper : Int) :
    StaysAt block (rewardGrowth deployment poolId lower upper (some block)) :=
  .bind (.lift _) fun _ => .bind (.storage ..) fun _ => .bind (.lift _) fun _ =>
    .bind (.storage ..) fun _ => .bind (.lift _) fun _ => .bind (.storage ..) fun _ => .pure _

theorem currentTick_stays (poolId : Bytes) :
    StaysAt block (currentTick deployment poolId (some block)) :=
  .bind (.lift _) fun _ => .bind (.storage ..) fun _ => .pure _

theorem feesAt_stays (position : LiquidityPosition) (tick : Option Int) :
    StaysAt block (feesAt deployment position tick block) := by
  refine .bind (.lift _) fun poolId => ?_
  cases tick
  on_goal 1 => refine .bind (currentTick_stays ..) fun tick => ?_
  on_goal 2 => refine .bind (.pure _) fun tick => ?_
  all_goals
    refine .bind (.lift _) fun key => .bind (.lift _) fun slots => ?_
    refine .bind (.lift _) fun rewardSlot => .bind (.storage ..) fun lastRewards => ?_
    refine .bind (feeGrowth_stays ..) fun _ => .bind (lastFeeGrowth_stays ..) fun _ => ?_
    refine .bind (rewardGrowth_stays ..) fun growth => ?_
    exact .bind (.lift _) fun _ => .bind (.lift _) fun _ => .bind (.lift _) fun _ => .pure _

theorem ownerOf_stays (tokenId : Int) : StaysAt block (ownerOf deployment tokenId (some block)) := by
  refine .bind (viewCall_stays ..).attempt fun result => ?_
  split
  · exact .pure _
  · exact .pure _
  · exact .fail _

theorem ownedAmong_stays (owner : Address) (tokenIds : List Int) :
    StaysAt block (ownedAmong deployment owner (some block) tokenIds) :=
  .bind (.mapM (ownerOf_stays deployment) tokenIds) fun _ => .pure _

theorem scan_stays (owner : Address) (batch : Nat) (balance : Int) (rounds : Nat) (top : Int)
    (found : List Int) :
    StaysAt block (scan deployment owner (some block) batch balance rounds top found) := by
  induction rounds generalizing top found with
  | zero => exact .pure _
  | succ rounds ih => exact .ite (.bind (ownedAmong_stays ..) fun more => ih ..) (.pure _)

theorem owned_stays (owner : Setting Address) (batch : Int) :
    StaysAt block (owned deployment owner (some block) batch) := by
  refine .ite (.fail _) (.bind (.lift _) fun owner => ?_)
  refine .bind (tokenBalance_stays ..) fun balance => .ite (.pure _) ?_
  refine .bind (.bind (viewCall_stays ..) fun _ => .pure _) fun next => ?_
  exact .bind (scan_stays ..) fun found => .pure _

theorem ofOwnerAt_stays (owner : Setting Address) (batch : Int) :
    StaysAt block (ofOwnerAt deployment owner block batch) :=
  .bind (owned_stays ..) fun tokenIds =>
    .bind (.mapM (findAt_stays deployment) tokenIds) fun _ => .pure _

end Positions

/-! ## One block for each snapshot -/

theorem snapshots_readOneBlock (reader : PoolReader) (token0 token1 : String) (withTicks : Bool)
    (deployment : Deployment) (tokenId : Int) (position : LiquidityPosition) (tick : Option Int)
    (owner : Setting Address) (batch : Int) (client : Client) :
    (ReadsOneBlock fun block => reader.snapshot token0 token1 block withTicks) ∧
    (ReadsOneBlock fun block => Positions.find deployment tokenId block) ∧
    (ReadsOneBlock fun block => Positions.fees deployment position tick block) ∧
    (ReadsOneBlock fun block => Positions.ofOwner deployment owner block batch) ∧
    (ReadsOneBlock fun block => client.positionFees tokenId block) := by
  refine ⟨?_, ?_, ?_, ?_, ?_⟩
  · exact reader.snapshot_readsOneBlock token0 token1 withTicks
  · exact readsOneBlock_pinned fun block => Positions.findAt_stays deployment tokenId
  · exact readsOneBlock_pinned fun block => Positions.feesAt_stays deployment position tick
  · exact readsOneBlock_pinned fun block => Positions.ofOwnerAt_stays deployment owner batch
  · exact readsOneBlock_pinned fun block =>
      .bind (Positions.findAt_stays client.deployment tokenId) fun position =>
        Positions.feesAt_stays client.deployment position none

end OrderDesk
