import OrderDesk.Proofs.Position.Scan

/-!
# Tokens of an owner

A scan ends once as many tokens are found as the owner is said to hold. What its last batch finds too
much is the oldest, and is left out, so that the batches play no part in what is found.

* `Positions.newest_spec`: the newest tokens that an owner holds, ascending.
* `Positions.owned_newest`: they are what is found, and their positions in pools of the settlement
  contract.
-/

namespace OrderDesk

variable {outside : Outside}

namespace Positions

variable {deployment : Deployment} {owner : Address} {block : Option BlockName} {balance next : Int}
  {holder : Int → Option Address}

/-! ## The newest tokens -/

/-- Whether tokens are the newest that an owner holds, ascending: as many as counted, or all. -/
structure Newest (owner : Address) (count next : Int) (holder : Int → Option Address)
    (tokenIds : List Int) : Prop where
  ascending : tokenIds.Pairwise (· < ·)
  held : ∀ tokenId ∈ tokenIds, 1 ≤ tokenId ∧ tokenId < next ∧ holder tokenId = some owner
  few : tokenIds.length ≤ count
  newest : ∀ tokenId, 1 ≤ tokenId → tokenId < next → holder tokenId = some owner →
    tokenId ∉ tokenIds → tokenIds.length = count ∧ ∀ other ∈ tokenIds, tokenId < other

/-- All tokens that an owner holds, the newest first. -/
def allHeld (holder : Int → Option Address) (owner : Address) (next : Int) : List Int :=
  heldAmong holder owner (countDown (next - 1) (next - 1).toNat)

theorem mem_allHeld {tokenId : Int} : tokenId ∈ allHeld holder owner next ↔
    1 ≤ tokenId ∧ tokenId < next ∧ holder tokenId = some owner := by
  rw [allHeld, mem_heldAmong, mem_countDown, ← and_assoc]
  exact and_congr_left fun _ => by omega

theorem allHeld_descending : (allHeld holder owner next).Pairwise (· > ·) :=
  (countDown_descending _ _).filter _

def newest (holder : Int → Option Address) (owner : Address) (count next : Int) : List Int :=
  ((allHeld holder owner next).take count.toNat).reverse

theorem newest_spec {count : Int} (nonneg : 0 ≤ count) :
    Newest owner count next holder (newest holder owner count next) where
  ascending := by
    rw [newest, List.pairwise_reverse]
    exact allHeld_descending.sublist (List.take_sublist _ _)
  held := by
    intro tokenId mem
    exact mem_allHeld.mp (List.mem_of_mem_take (List.mem_reverse.mp mem))
  few := by
    rw [newest, List.length_reverse, List.length_take]
    omega
  newest := by
    intro tokenId low high mine missing
    rw [newest, List.mem_reverse] at missing
    have mem : tokenId ∈ allHeld holder owner next := mem_allHeld.mpr ⟨low, high, mine⟩
    have descending : (allHeld holder owner next).Pairwise (· > ·) := allHeld_descending
    rw [← List.take_append_drop count.toNat (allHeld holder owner next)] at mem descending
    have left := (List.mem_append.mp mem).resolve_left missing
    have room := List.length_pos_of_mem left
    rw [List.length_drop] at room
    constructor
    · rw [newest, List.length_reverse, List.length_take]
      omega
    · intro other kept
      rw [newest, List.mem_reverse] at kept
      exact (List.pairwise_append.mp descending).2.2 other kept tokenId left

/-- Where a scan may end, the newest of what it has found are the newest of all. -/
theorem newest_eq {count : Nat} (within : count ≤ (next - 1).toNat)
    (ends : count = (next - 1).toNat ∨
      balance ≤ (heldAmong holder owner (countDown (next - 1) count)).length) :
    ((heldAmong holder owner (countDown (next - 1) count)).take balance.toNat).reverse =
      newest holder owner balance next := by
  rcases ends with rfl | enough
  · rfl
  · obtain ⟨rest, rest_eq⟩ := Nat.exists_eq_add_of_le within
    rw [newest, allHeld, rest_eq, countDown_add, heldAmong_append,
      List.take_append_of_le_length (by omega)]

/-- The tokens of an owner are all among the newest if they are counted right. -/
theorem Newest.mem_iff {count : Int} {tokenIds : List Int}
    (newest : Newest owner count next holder tokenIds)
    (right : count = ((Finset.Ico 1 next).filter fun tokenId => holder tokenId = some owner).card)
    (tokenId : Int) :
    tokenId ∈ tokenIds ↔ 1 ≤ tokenId ∧ tokenId < next ∧ holder tokenId = some owner := by
  refine ⟨newest.held tokenId, fun ⟨low, high, mine⟩ => ?_⟩
  by_contra missing
  have full := (newest.newest tokenId low high mine missing).1
  have all : insert tokenId tokenIds.toFinset ⊆
      (Finset.Ico 1 next).filter fun tokenId => holder tokenId = some owner := by
    intro other mem
    rw [Finset.mem_filter, Finset.mem_Ico, and_assoc]
    rcases Finset.mem_insert.mp mem with rfl | mem
    · exact ⟨low, high, mine⟩
    · exact newest.held other (List.mem_toFinset.mp mem)
  have size := Finset.card_le_card all
  rw [Finset.card_insert_of_notMem (List.mem_toFinset.not.mpr missing),
    List.toFinset_card_of_nodup (newest.ascending.imp ne_of_lt)] at size
  omega

/-- What is asked for the tokens of an owner, if the holders of some are asked for. -/
def ownedQuestions (manager owner : Address) (block : Option BlockName) (balance : Int)
    (tokenIds : List Int) : List NodeRead :=
  .call manager (balanceData owner) block ::
    if balance = 0 then []
    else .call manager nextData block :: holderQuestions manager block tokenIds

section Owned

variable (tokens : Tokens outside.node deployment.positionManager block owner balance next holder)
include tokens

theorem ownedBy_asks {batch : Nat} (positive : 0 < batch) :
    ∃ asked : List Int, asked.Nodup ∧ (∀ tokenId ∈ asked, 1 ≤ tokenId ∧ tokenId < next) ∧
      (ownedBy deployment owner block batch).Asks outside
        (ownedQuestions deployment.positionManager owner block balance asked)
        (.ok (newest holder owner balance next)) := by
  obtain ⟨count, count_le, scans, ends⟩ :=
    scan_asks tokens positive [] (by omega : next - 1 < next) le_rfl
  refine ⟨countDown (next - 1) count, (countDown_descending _ _).imp ne_of_gt, ?_, ?_⟩
  · intro tokenId mem
    have bounds := mem_countDown.mp mem
    omega
  · rw [ownedBy, ownedQuestions]
    by_cases none : balance = 0
    · rw [if_pos none, newest, none, Int.toNat_zero, List.take_zero]
      refine Desk.Asks.bind tokens.balance_asks ?_
      rw [if_pos none]
      exact .pure []
    · rw [if_neg none, ← newest_eq count_le ends]
      refine Desk.Asks.bind tokens.balance_asks ?_
      rw [if_neg none]
      exact Desk.Asks.bind tokens.nextTokenId_asks
        (scans.map fun found => (found.take balance.toNat).reverse)

theorem owned_asks {spelling : String} {batch : Int} (read : readAddress spelling = .ok owner)
    (positive : 1 ≤ batch) :
    ∃ asked : List Int, asked.Nodup ∧ (∀ tokenId ∈ asked, 1 ≤ tokenId ∧ tokenId < next) ∧
      (owned deployment (readAddress spelling) block batch).Asks outside
        (ownedQuestions deployment.positionManager owner block balance asked)
        (.ok (newest holder owner balance next)) := by
  obtain ⟨asked, once, within, asks⟩ := ownedBy_asks tokens (by omega : 0 < batch.toNat)
  refine ⟨asked, once, within, ?_⟩
  rw [owned, if_neg (by omega), read]
  exact Desk.Asks.bind (.lift _) asks

end Owned

/-! ## Positions of an owner -/

theorem findAt_tokenId {name : BlockName} {tokenId : Int} {position : LiquidityPosition}
    (given : (findAt deployment tokenId name).Yields outside position) :
    position.tokenId = tokenId := by
  obtain ⟨info, -, given⟩ := given.of_bind
  obtain ⟨poolKey, -, given⟩ := given.of_bind
  obtain ⟨poolId, -, given⟩ := given.of_bind
  obtain ⟨liquidity, -, given⟩ := given.of_bind
  cases given.of_pure
  rfl

theorem findAt_steady {name : BlockName} {tokenId : Int} :
    (findAt deployment tokenId name).Steady outside := by
  have view {target : Address} {signature : String} {types results : List Abi.WordType}
      {values : Abi.Values types} :
      (viewCall target signature types values results (some name)).Steady outside :=
    .bind ⟨_, .lift _⟩ fun _ => .bind ⟨_, .ask _ _⟩ fun _ => ⟨_, .lift _⟩
  refine .bind (.bind view fun _ => ⟨_, .lift _⟩) fun info => ?_
  refine .bind (.bind view fun _ => ⟨_, .pure _⟩) fun poolKey => .bind ⟨_, .lift _⟩ fun poolId => ?_
  refine .bind (.bind ⟨_, .lift _⟩ fun key => .bind ⟨_, .lift _⟩ fun slot => ?_) fun _ => ⟨_, .pure _⟩
  exact .bind ⟨_, .ask _ _⟩ fun _ => ⟨_, .pure _⟩

/-- Whether positions are those of the tokens that an owner holds, in the pools of a settlement
contract: one for each token, ascending. -/
structure Complete (angstrom owner : Address) (next : Int) (holder : Int → Option Address)
    (position : Int → LiquidityPosition) (positions : List LiquidityPosition) : Prop where
  ascending : (positions.map (·.tokenId)).Pairwise (· < ·)
  mem_iff : ∀ found, found ∈ positions ↔ found = position found.tokenId ∧
    1 ≤ found.tokenId ∧ found.tokenId < next ∧ holder found.tokenId = some owner ∧
      found.poolKey.hooks = angstrom

theorem Newest.complete {angstrom : Address} {tokenIds : List Int}
    {position : Int → LiquidityPosition} (newest : Newest owner balance next holder tokenIds)
    (right : balance = ((Finset.Ico 1 next).filter fun tokenId => holder tokenId = some owner).card)
    (named : ∀ tokenId ∈ tokenIds, (position tokenId).tokenId = tokenId) :
    Complete angstrom owner next holder position
      ((tokenIds.map position).filter fun found => found.poolKey.hooks = angstrom) := by
  constructor
  · rw [List.pairwise_map]
    refine List.Pairwise.filter _ (List.pairwise_map.mpr ?_)
    refine newest.ascending.imp_of_mem fun low_mem high_mem lt => ?_
    rwa [named _ low_mem, named _ high_mem]
  · intro found
    rw [List.mem_filter, List.mem_map, decide_eq_true_eq]
    constructor
    · rintro ⟨⟨tokenId, mem, rfl⟩, ours⟩
      rw [named tokenId mem]
      obtain ⟨low, high, mine⟩ := newest.held tokenId mem
      exact ⟨rfl, low, high, mine, ours⟩
    · rintro ⟨found_eq, low, high, mine, ours⟩
      exact ⟨⟨found.tokenId, (newest.mem_iff right _).mpr ⟨low, high, mine⟩, found_eq.symm⟩, ours⟩

/-- Whatever the batches, the newest tokens of an owner are found, as many as counted, and no token
is asked about twice. If they are counted right, each of their positions in the pools of the
settlement contract is found once. -/
theorem owned_newest
    (tokens : Tokens outside.node deployment.positionManager block owner balance next holder) :
    ∃ tokenIds, Newest owner balance next holder tokenIds ∧
      (∀ spelling batch, readAddress spelling = .ok owner → 1 ≤ batch →
        ∃ asked : List Int, asked.Nodup ∧ (∀ tokenId ∈ asked, 1 ≤ tokenId ∧ tokenId < next) ∧
          (owned deployment (readAddress spelling) block batch).Asks outside
            (ownedQuestions deployment.positionManager owner block balance asked)
            (.ok tokenIds)) ∧
      ∀ name place position, block = some name → (Desk.pinned place).Answers outside (.ok name) →
        balance = ((Finset.Ico 1 next).filter fun tokenId => holder tokenId = some owner).card →
        (∀ tokenId, 1 ≤ tokenId → tokenId < next → holder tokenId = some owner →
          (findAt deployment tokenId name).Answers outside (.ok (position tokenId))) →
        ∃ positions, Complete deployment.angstrom owner next holder position positions ∧
          ∀ spelling batch, readAddress spelling = .ok owner → 1 ≤ batch →
            (ofOwner deployment (readAddress spelling) place batch).Answers outside
              (.ok positions) := by
  have newest : Newest owner balance next holder (newest holder owner balance next) :=
    newest_spec tokens.balance_nonneg
  refine ⟨_, newest, fun spelling batch read positive => owned_asks tokens read positive, ?_⟩
  rintro name place position rfl chosen right found
  refine ⟨_, newest.complete right ?_, ?_⟩
  · intro tokenId mem
    obtain ⟨low, high, mine⟩ := newest.held tokenId mem
    exact findAt_tokenId ⟨.empty, found tokenId low high mine .empty⟩
  · intro spelling batch read positive
    obtain ⟨asked, -, -, asks⟩ := owned_asks tokens read positive
    refine chosen.ok_bind (asks.answers.ok_bind (Desk.Answers.ok_bind (.mapM ?_) (.pure _)))
    intro tokenId mem
    obtain ⟨low, high, mine⟩ := newest.held tokenId mem
    exact found tokenId low high mine

/-! ## A burned token -/

def collector : Address := .ofNat 0x4242424242424242424242424242424242424242

/-- Who holds the tokens up to the third; the second is burned. -/
def collection (tokenId : Int) : Option Address := if tokenId = 2 then none else some collector

/-- The positions of the tokens; only the first is in a pool of the settlement contract. -/
def collected (tokenId : Int) : LiquidityPosition where
  tokenId := tokenId
  tickLower := 0
  tickUpper := 60
  liquidity := 5
  poolKey := {
    currency0 := .zero
    currency1 := collector
    fee := 0x800000
    tickSpacing := 60
    hooks := if tokenId = 1 then Deployment.mainnet.angstrom else .zero }

/-- An outside with these tokens at every block. Their pools are named after them. -/
def collectionOutside : Outside :=
  { Outside.silent with
    node := {
      blockNumber := .ok 100
      storage := fun _ _ _ => .ok 5
      code := fun _ _ => .ok []
      call := fun _ data _ =>
        let value : Int := Bytes.toNat (data.drop 4)
        if data.take 4 = [0x70, 0xa0, 0x82, 0x31] then .ok (Abi.numberWord 2)
        else if data.take 4 = [0x75, 0x79, 0x4a, 0x3c] then .ok (Abi.numberWord 4)
        else if data.take 4 = [0x63, 0x52, 0x21, 0x1e] then
          match collection value with
          | some account => .ok (Abi.numberWord account.val)
          | none => .error (.reverted "" "")
        else if data.take 4 = [0x89, 0x09, 0x7a, 0x6a] then
          .ok (Abi.numberWord (value * 2 ^ 56 + 60 * 2 ^ 32))
        else
          let key := (collected (value / 2 ^ 56)).poolKey
          Abi.encode [.address, .address, .uint 24, .int 24, .address]
            (key.currency0, key.currency1, key.fee, key.tickSpacing, key.hooks, ())
      deploy := fun _ _ => .ok [] } }

theorem collection_tokens : Tokens collectionOutside.node Deployment.mainnet.positionManager
    (some (.number 100)) collector 2 4 collection where
  counted := by
    apply ok_of_toOption
    decide +kernel
  made := by
    apply ok_of_toOption
    decide +kernel
  held := by
    intro tokenId account low high holds
    have made : tokenId = 1 ∨ tokenId = 2 ∨ tokenId = 3 := by omega
    rcases made with rfl | rfl | rfl <;> cases holds <;> apply ok_of_toOption <;> decide +kernel
  burned := by
    intro tokenId low high none
    have made : tokenId = 1 ∨ tokenId = 2 ∨ tokenId = 3 := by omega
    rcases made with rfl | rfl | rfl <;> cases none
    have selector : Abi.selector "ownerOf(uint256)" = [0x63, 0x52, 0x21, 0x1e] := by decide +kernel
    refine ⟨"", "", ?_⟩
    rw [ownerData, selector]
    rfl

theorem collected_find {tokenId : Int} (low : 1 ≤ tokenId) (high : tokenId < 4)
    (holds : collection tokenId = some collector) :
    (findAt .mainnet tokenId (.number 100)).Answers collectionOutside (.ok (collected tokenId)) := by
  apply findAt_steady.answers
  refine ⟨.empty, ok_of_toOption ?_⟩
  have made : tokenId = 1 ∨ tokenId = 2 ∨ tokenId = 3 := by omega
  rcases made with rfl | rfl | rfl <;> cases holds <;> decide +kernel

/-- Both tokens that are left are found, whatever the batches, and the position of the first. -/
theorem owned_newest_burned :
    (∀ batch, 1 ≤ batch →
      (owned .mainnet (readAddress "0x4242424242424242424242424242424242424242") (some (.number 100))
        batch).Answers collectionOutside (.ok [1, 3])) ∧
    ∃ positions, Complete Deployment.mainnet.angstrom collector 4 collection collected positions ∧
      collected 1 ∈ positions ∧
      ∀ batch, 1 ≤ batch →
        (ofOwner .mainnet (readAddress "0x4242424242424242424242424242424242424242") none
          batch).Answers collectionOutside (.ok positions) := by
  have spelled : readAddress "0x4242424242424242424242424242424242424242" = .ok collector := by
    apply ok_of_toOption
    decide +kernel
  obtain ⟨tokenIds, newest, owned, ofOwner⟩ := owned_newest collection_tokens
  have right : (2 : Int) =
      ((Finset.Ico (1 : Int) 4).filter fun tokenId => collection tokenId = some collector).card := by
    decide
  obtain rfl : tokenIds = [1, 3] := by
    refine newest.ascending.eq_of_mem_iff (by decide) fun tokenId => ?_
    rw [newest.mem_iff right, collection]
    constructor
    · rintro ⟨low, high, mine⟩
      have made : tokenId = 1 ∨ tokenId = 2 ∨ tokenId = 3 := by omega
      rcases made with rfl | rfl | rfl <;> simp at mine ⊢
    · intro mem
      rcases List.mem_pair.mp mem with rfl | rfl <;> decide
  obtain ⟨positions, complete, answers⟩ := ofOwner (.number 100) none collected rfl
    (.bind (.ask _ _) fun _ => .pure _) right fun _ => collected_find
  refine ⟨?_, positions, complete, (complete.mem_iff _).mpr ⟨rfl, by decide⟩, ?_⟩
  · intro batch positive
    obtain ⟨_, -, -, asks⟩ := owned _ batch spelled positive
    exact asks.answers
  · intro batch positive
    exact answers _ batch spelled positive

end Positions

end OrderDesk
