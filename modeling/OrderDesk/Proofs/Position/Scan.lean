import OrderDesk.Position.Chain
import OrderDesk.Proofs.Abi
import OrderDesk.Proofs.Reading.Block

/-!
# Looking through tokens

Who holds a token is asked for one token after another, from the newest down, a batch at a time.

* `Positions.Tokens`: what a node says about the tokens of an owner.
* `Positions.scan_asks`: the tokens that a scan asks about, and those it finds among them.
-/

namespace OrderDesk

variable {outside : Outside}

/-! ## Questions -/

theorem viewCall_asks (outside : Outside) (target : Address) {signature : String}
    {types : List Abi.WordType} {values : Abi.Values types} (results : List Abi.WordType)
    (block : Option BlockName) {data : Bytes}
    (written : Abi.call signature types values = .ok data) :
    (viewCall target signature types values results block).Asks outside [.call target data block]
      (outside.node.call target data block >>= Abi.decode results) := by
  intro journal
  rw [viewCall, written, Desk.outcome_bind, Desk.outcome_lift]
  dsimp only
  rw [Desk.outcome_bind, Desk.call, Desk.outcome_ask]
  cases outside.node.call target data block <;> rfl

theorem Abi.call_word {signature : String} {type : Abi.WordType} {value : type.Value} {word : Bytes}
    (written : Abi.encodeWord type value = .ok word) :
    Abi.call signature [type] (value, ()) = .ok (Abi.selector signature ++ word) := by
  rw [Abi.call, Abi.encode_cons written rfl, List.append_nil]
  rfl

namespace Positions

variable {deployment : Deployment} {manager owner : Address} {block : Option BlockName}
  {balance next : Int} {holder : Int → Option Address}

def balanceData (owner : Address) : Bytes :=
  Abi.selector "balanceOf(address)" ++ Abi.numberWord owner.val

def nextData : Bytes := Abi.selector "nextTokenId()"

def ownerData (tokenId : Int) : Bytes :=
  Abi.selector "ownerOf(uint256)" ++ Abi.numberWord tokenId

theorem call_balance (owner : Address) :
    Abi.call "balanceOf(address)" [.address] (owner, ()) = .ok (balanceData owner) :=
  Abi.call_word rfl

theorem call_next : Abi.call "nextTokenId()" [] () = .ok nextData :=
  congrArg Except.ok (List.append_nil _)

theorem call_owner {tokenId : Int} (within : 0 ≤ tokenId ∧ tokenId < 2 ^ 256) :
    Abi.call "ownerOf(uint256)" [.uint 256] (tokenId, ()) = .ok (ownerData tokenId) :=
  Abi.call_word (if_pos within)

/-! ## Tokens on a chain -/

/-- What a node says about the tokens of an owner: how many there are, the first that is not made
yet, and for each that is made who holds it, or that it is burned. -/
structure Tokens (node : Node) (manager : Address) (block : Option BlockName) (owner : Address)
    (balance next : Int) (holder : Int → Option Address) : Prop where
  counted : node.call manager (balanceData owner) block >>= Abi.decode [.uint 256] =
    .ok (balance, ())
  made : node.call manager nextData block >>= Abi.decode [.uint 256] = .ok (next, ())
  held : ∀ tokenId account, 1 ≤ tokenId → tokenId < next → holder tokenId = some account →
    node.call manager (ownerData tokenId) block >>= Abi.decode [.address] = .ok (account, ())
  burned : ∀ tokenId, 1 ≤ tokenId → tokenId < next → holder tokenId = none →
    ∃ text detail, node.call manager (ownerData tokenId) block = .error (.reverted text detail)

namespace Tokens

variable (tokens : Tokens outside.node deployment.positionManager block owner balance next holder)
include tokens

theorem balance_nonneg : 0 ≤ balance := by
  obtain ⟨data, -, decoded⟩ := bind_eq_ok.mp tokens.counted
  exact (Abi.decode_uint_bounds decoded).1

theorem next_bounds : 0 ≤ next ∧ next < 2 ^ 256 := by
  obtain ⟨data, -, decoded⟩ := bind_eq_ok.mp tokens.made
  exact Abi.decode_uint_bounds decoded

theorem balance_asks : (Positions.balance deployment owner block).Asks outside
    [.call deployment.positionManager (balanceData owner) block] (.ok balance) := by
  have asks :=
    viewCall_asks outside deployment.positionManager [.uint 256] block (call_balance owner)
  rw [tokens.counted] at asks
  exact asks.map Prod.fst

theorem nextTokenId_asks : (nextTokenId deployment block).Asks outside
    [.call deployment.positionManager nextData block] (.ok next) := by
  have asks := viewCall_asks outside deployment.positionManager [.uint 256] block call_next
  rw [tokens.made] at asks
  exact asks.map Prod.fst

theorem ownerOf_asks {tokenId : Int} (low : 1 ≤ tokenId) (high : tokenId < next) :
    (ownerOf deployment tokenId block).Asks outside
      [.call deployment.positionManager (ownerData tokenId) block] (.ok (holder tokenId)) := by
  have within : 0 ≤ tokenId ∧ tokenId < 2 ^ 256 := by
    have bounds := tokens.next_bounds
    omega
  have asks :=
    viewCall_asks outside deployment.positionManager [.address] block (call_owner within)
  cases holder_eq : holder tokenId with
  | some account =>
    rw [tokens.held tokenId account low high holder_eq] at asks
    exact asks.attempt.bind (.pure _)
  | none =>
    obtain ⟨text, detail, reverted⟩ := tokens.burned tokenId low high holder_eq
    rw [reverted, error_bind] at asks
    exact asks.attempt.bind (.pure _)

end Tokens

/-! ## Looking through the tokens -/

/-- The tokens among some that an owner holds. -/
def heldAmong (holder : Int → Option Address) (owner : Address) (tokenIds : List Int) : List Int :=
  tokenIds.filter fun tokenId => holder tokenId = some owner

theorem mem_heldAmong {tokenIds : List Int} {tokenId : Int} :
    tokenId ∈ heldAmong holder owner tokenIds ↔
      tokenId ∈ tokenIds ∧ holder tokenId = some owner := by
  simp [heldAmong]

theorem heldAmong_append (first others : List Int) :
    heldAmong holder owner (first ++ others) =
      heldAmong holder owner first ++ heldAmong holder owner others := List.filter_append ..

theorem mem_countDown {top tokenId : Int} {count : Nat} :
    tokenId ∈ countDown top count ↔ top - count < tokenId ∧ tokenId ≤ top := by
  simp only [countDown, List.mem_map, List.mem_range]
  constructor
  · rintro ⟨i, lt, rfl⟩
    omega
  · rintro ⟨low, high⟩
    exact ⟨(top - tokenId).toNat, by omega, by omega⟩

theorem countDown_add (top : Int) (count others : Nat) :
    countDown top (count + others) = countDown top count ++ countDown (top - count) others := by
  simp only [countDown, List.range_add, List.map_append, List.map_map]
  congr 1
  apply List.map_congr_left
  intro i _
  simp only [Function.comp_apply]
  omega

theorem countDown_descending (top : Int) (count : Nat) :
    (countDown top count).Pairwise (· > ·) := by
  rw [countDown, List.pairwise_map]
  exact List.pairwise_lt_range.imp fun lt => by omega

theorem filterMap_zip (holder : Int → Option Address) (owner : Address) (tokenIds : List Int) :
    ((tokenIds.zip (tokenIds.map holder)).filterMap fun (tokenId, account) =>
      if account = some owner then some tokenId else none) = heldAmong holder owner tokenIds := by
  induction tokenIds with
  | nil => rfl
  | cons tokenId tokenIds ih =>
    rw [heldAmong] at ih ⊢
    by_cases mine : holder tokenId = some owner <;> simp [mine, ih]

/-- The questions for the holders of tokens. -/
def holderQuestions (manager : Address) (block : Option BlockName) (tokenIds : List Int) :
    List NodeRead :=
  tokenIds.map fun tokenId => .call manager (ownerData tokenId) block

section Scan

variable (tokens : Tokens outside.node deployment.positionManager block owner balance next holder)
include tokens

theorem ownedAmong_asks {tokenIds : List Int}
    (within : ∀ tokenId ∈ tokenIds, 1 ≤ tokenId ∧ tokenId < next) :
    (ownedAmong deployment owner block tokenIds).Asks outside
      (holderQuestions deployment.positionManager block tokenIds)
      (.ok (heldAmong holder owner tokenIds)) := by
  have owners : (tokenIds.mapM fun tokenId => ownerOf deployment tokenId block).Asks outside
      (holderQuestions deployment.positionManager block tokenIds) (.ok (tokenIds.map holder)) :=
    .mapM fun tokenId mem => tokens.ownerOf_asks (within tokenId mem).1 (within tokenId mem).2
  rw [← filterMap_zip]
  exact owners.map _

/-- A scan asks about a run of tokens from the top down, each once, and finds those that the owner
holds; the run ends at the last token, or where enough are found. -/
theorem scan_asks {batch : Nat} (positive : 0 < batch) {rounds : Nat} {top : Int} (found : List Int)
    (below : top < next) (enough : top.toNat ≤ rounds) :
    ∃ count ≤ top.toNat,
      (scan deployment owner block batch balance rounds top found).Asks outside
        (holderQuestions deployment.positionManager block (countDown top count))
        (.ok (found ++ heldAmong holder owner (countDown top count))) ∧
      (count = top.toNat ∨
        balance ≤ (found ++ heldAmong holder owner (countDown top count)).length) := by
  induction rounds generalizing top found with
  | zero =>
    refine ⟨0, Nat.zero_le _, ?_, .inl (by omega)⟩
    rw [scan, countDown]
    simpa [heldAmong, holderQuestions] using Desk.Asks.pure found
  | succ rounds ih =>
    by_cases more : 1 ≤ top ∧ (found.length : Int) < balance
    · have size : min batch top.toNat ≤ top.toNat := Nat.min_le_right _ _
      have within : ∀ tokenId ∈ countDown top (min batch top.toNat), 1 ≤ tokenId ∧ tokenId < next := by
        intro tokenId mem
        have bounds := mem_countDown.mp mem
        omega
      obtain ⟨count, count_le, asks, ends⟩ :=
        ih (found ++ heldAmong holder owner (countDown top (min batch top.toNat)))
          (by omega : top - batch < next) (by omega)
      -- Behind the last batch nothing is left to ask, whether or not it was a whole one.
      have run : countDown top (min batch top.toNat + count) =
          countDown top (min batch top.toNat) ++ countDown (top - batch) count := by
        rw [countDown_add]
        rcases le_or_gt batch top.toNat with whole | part
        · rw [Nat.min_eq_left whole]
        · obtain rfl : count = 0 := by omega
          rfl
      refine ⟨min batch top.toNat + count, by omega, ?_, ?_⟩
      · rw [scan, if_pos more, run, heldAmong_append, ← List.append_assoc, holderQuestions,
          List.map_append]
        exact (ownedAmong_asks tokens within).bind asks
      · rw [run, heldAmong_append, ← List.append_assoc]
        exact ends.imp_left fun all => by omega
    · refine ⟨0, Nat.zero_le _, ?_, ?_⟩
      · rw [scan, if_neg more, countDown]
        simpa [heldAmong, holderQuestions] using Desk.Asks.pure found
      · rcases not_and_or.mp more with none | enough
        · exact .inl (by omega)
        · exact .inr (by simpa [heldAmong, countDown] using enough)

end Scan

end Positions

end OrderDesk
