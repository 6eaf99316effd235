import OrderDesk.Nonce.Allocation
import OrderDesk.Proofs.Bytes
import OrderDesk.Proofs.Desk

/-!
# The bitmap of nonces is a set

A ledger is what the contract has stored, a word for each slot. Using a nonce sets its bit in the
word of its user.

* `Ledger.preimage_inj`: two nonces share a word if they have the same user and differ in the low
  byte only.
* `Ledger.has_markAll`: after some nonces were used, the bits that are set are theirs, unless two
  preimages share a digest.
* `Ledger.isUsed_answers`: whether a nonce is used is read off the ledger that the node shows.
-/

namespace OrderDesk.Nonce

/-- A nonce that an account has used. -/
abbrev Entry := Address × Int

def InRange (nonce : Int) : Prop := 0 ≤ nonce ∧ nonce < 2 ^ 64

instance (nonce : Int) : Decidable (InRange nonce) :=
  inferInstanceAs (Decidable (0 ≤ nonce ∧ nonce < 2 ^ 64))

/-- What the slot of the word of a nonce is the digest of. -/
def preimage (user : Address) (nonce : Int) : Bytes :=
  user.bytes ++ discriminator ++ (Bytes.ofNat 8 nonce.toNat).take 7

variable {user other : Address} {nonce used : Int}

theorem slot_of_inRange (within : InRange nonce) :
    slot user nonce = .ok (Keccak.hash (preimage user nonce)) := by
  have fits : 0 ≤ nonce ∧ nonce < 256 ^ 8 := within
  rw [slot, Bytes.ofInt?, if_pos fits]
  rfl

theorem slot_of_not_inRange (outside : ¬ InRange nonce) : slot user nonce = .error .tooWide := by
  have wide : ¬ (0 ≤ nonce ∧ nonce < 256 ^ 8) := outside
  rw [slot, Bytes.ofInt?, if_neg wide]

theorem preimage_inj (within : InRange nonce) (used_within : InRange used) :
    preimage user nonce = preimage other used ↔ user = other ∧ nonce / 256 = used / 256 := by
  obtain ⟨nonneg, lt⟩ := within
  obtain ⟨used_nonneg, used_lt⟩ := used_within
  have digits : (Bytes.ofNat 8 nonce.toNat).take 7 = (Bytes.ofNat 8 used.toNat).take 7 ↔
      nonce / 256 = used / 256 := by
    rw [Bytes.take_ofNat, Bytes.take_ofNat, Bytes.ofNat_inj (by omega) (by omega)]
    omega
  have users : (user.bytes ++ discriminator).length = (other.bytes ++ discriminator).length := by
    simp [Address.bytes_length]
  constructor
  · intro same
    obtain ⟨front, back⟩ := List.append_inj same users
    exact ⟨Address.bytes_inj.mp (List.append_cancel_right front), digits.mp back⟩
  · rintro ⟨rfl, high⟩
    rw [preimage, preimage, digits.mpr high]

theorem bit_eq (nonce : Int) : (bit nonce : Int) = nonce % 256 := by
  unfold bit bitField
  omega

/-- The word and the bit split a nonce at the same place. -/
theorem position_inj (within : InRange nonce) (used_within : InRange used) :
    preimage user nonce = preimage other used ∧ bit nonce = bit used ↔
      user = other ∧ nonce = used := by
  have low := bit_eq nonce
  have used_low := bit_eq used
  have split : nonce / 256 = used / 256 ∧ bit nonce = bit used ↔ nonce = used := by omega
  rw [preimage_inj within used_within, and_assoc, split]

theorem isUnused_word (word : Nat) (nonce : Int) :
    isUnused word nonce = !word.testBit (bit nonce) := by
  have field : bitField word (bit nonce) 1 = ((word / 2 ^ bit nonce % 2 : Nat) : Int) := by
    simp [bitField]
  rw [isUnused, field, Nat.testBit_eq_decide_div_mod_eq]
  rcases Nat.mod_two_eq_zero_or_one (word / 2 ^ bit nonce) with zero | one
  · simp [zero]
  · simp [one]

/-! ## Ledgers -/

/-- The words that the contract has stored. -/
abbrev Ledger := Bytes → Nat

namespace Ledger

variable {ledger : Ledger}

/-- Sets the bit of a nonce in the word of its user. -/
def mark (ledger : Ledger) (entry : Entry) : Ledger :=
  match slot entry.1 entry.2 with
  | .ok key => Function.update ledger key (ledger key ||| (flag entry.2).toNat)
  | .error _ => ledger

def markAll (ledger : Ledger) (entries : List Entry) : Ledger := entries.foldl mark ledger

def has (ledger : Ledger) (user : Address) (nonce : Int) : Bool :=
  (ledger (Keccak.hash (preimage user nonce))).testBit (bit nonce)

/-- Whether no nonce of any account was used. -/
def Fresh (ledger : Ledger) : Prop :=
  ∀ user nonce, ledger (Keccak.hash (preimage user nonce)) = 0

theorem testBit_mark (within : InRange used) (key : Bytes) (position : Nat) :
    ((ledger.mark (other, used)) key).testBit position = true ↔
      (Keccak.hash (preimage other used) = key ∧ bit used = position) ∨
        (ledger key).testBit position = true := by
  have power : (flag used).toNat = 2 ^ bit used := by
    rw [flag, show (2 : Int) ^ bit used = ((2 ^ bit used : Nat) : Int) by simp, Int.toNat_natCast]
  rw [mark, slot_of_inRange within]
  generalize Keccak.hash (preimage other used) = digest
  by_cases here : digest = key
  · subst here
    simp [power, Nat.testBit_two_pow, or_comm]
  · simp [here, Function.update_of_ne (Ne.symm here)]

theorem testBit_markAll {entries : List Entry} (within : ∀ entry ∈ entries, InRange entry.2)
    (key : Bytes) (position : Nat) :
    ((ledger.markAll entries) key).testBit position = true ↔
      (∃ entry ∈ entries, Keccak.hash (preimage entry.1 entry.2) = key ∧ bit entry.2 = position) ∨
        (ledger key).testBit position = true := by
  induction entries generalizing ledger with
  | nil => simp [markAll]
  | cons entry entries ih =>
    obtain ⟨here, rest⟩ := List.forall_mem_cons.mp within
    have later : (((ledger.mark entry).markAll entries) key).testBit position = true ↔ _ := ih rest
    rw [testBit_mark here] at later
    have step : ledger.markAll (entry :: entries) = (ledger.mark entry).markAll entries := rfl
    rw [step, later]
    simp only [List.mem_cons, exists_eq_or_imp]
    exact or_left_comm.trans or_assoc.symm

theorem has_mark (within : InRange used) (kept : ledger.has user nonce = true) :
    (ledger.mark (other, used)).has user nonce = true :=
  (testBit_mark within _ _).mpr (.inr kept)

theorem mark_has (within : InRange nonce) : (ledger.mark (user, nonce)).has user nonce = true :=
  (testBit_mark within _ _).mpr (.inl ⟨rfl, rfl⟩)

theorem markAll_has {entries : List Entry} (within : ∀ entry ∈ entries, InRange entry.2)
    (member : (user, nonce) ∈ entries) : (ledger.markAll entries).has user nonce = true :=
  (testBit_markAll within _ _).mpr (.inl ⟨_, member, rfl, rfl⟩)

/-- The preimages of nonces that were used, and of nonces of an account that are asked about. -/
def involved (entries : List Entry) (user : Address) (asked : Set Int) : Set Bytes :=
  { bytes | ∃ entry ∈ entries, preimage entry.1 entry.2 = bytes } ∪ preimage user '' asked

theorem has_markAll {entries : List Entry} {asked : Set Int} (fresh : ledger.Fresh)
    (within : ∀ entry ∈ entries, InRange entry.2)
    (apart : Set.InjOn Keccak.hash (involved entries user asked)) (asks : nonce ∈ asked)
    (nonce_within : InRange nonce) :
    (ledger.markAll entries).has user nonce = true ↔ (user, nonce) ∈ entries := by
  refine ⟨fun held => ?_, markAll_has within⟩
  rcases (testBit_markAll within _ _).mp held with ⟨⟨other, used⟩, member, digest, position⟩ | old
  · have same : preimage other used = preimage user nonce :=
      apart (.inl ⟨_, member, rfl⟩) (.inr ⟨_, asks, rfl⟩) digest
    obtain ⟨rfl, rfl⟩ := (position_inj (within _ member) nonce_within).mp ⟨same, position⟩
    exact member
  · simp [fresh user nonce] at old

end Ledger

/-! ## What the node shows -/

/-- Whether the node answers for the words of a contract from a ledger. -/
def Shows (outside : Outside) (settlement : Address) (block : Option BlockName) (ledger : Ledger) :
    Prop :=
  ∀ key, outside.node.storage settlement key block = .ok (ledger key)

variable {outside : Outside} {settlement : Address} {block : Option BlockName} {ledger : Ledger}

theorem isUsedBy_outcome (user : Address) (shows : Shows outside settlement block ledger)
    (within : InRange nonce) (journal : Journal) :
    ∃ reads, (isUsedBy settlement user nonce block).outcome outside journal =
      (.ok (ledger.has user nonce), { journal with reads := reads }) := by
  let key := Keccak.hash (preimage user nonce)
  have answered : (!isUnused (ledger key) nonce) = ledger.has user nonce := by
    rw [isUnused_word, Bool.not_not, Ledger.has]
  have shown : (Desk.storage settlement key block).outcome outside journal =
      (.ok (ledger key),
        { journal with reads := .storage settlement key block :: journal.reads }) := by
    rw [← shows key]
    rfl
  refine ⟨.storage settlement key block :: journal.reads, ?_⟩
  rw [isUsedBy, slot_of_inRange within, ← answered]
  change (Desk.storage settlement key block >>= fun word =>
    pure (!isUnused word nonce)).outcome outside journal = _
  rw [Desk.outcome_bind, shown]
  rfl

theorem isUsedBy_answers_has (user : Address) (shows : Shows outside settlement block ledger)
    (within : InRange nonce) :
    (isUsedBy settlement user nonce block).Answers outside (.ok (ledger.has user nonce)) := by
  intro journal
  obtain ⟨reads, given⟩ := isUsedBy_outcome user shows within journal
  rw [given]

theorem inRange_of_yields {answer : Bool}
    (given : (isUsedBy settlement user nonce block).Yields outside answer) : InRange nonce := by
  obtain ⟨key, found, -⟩ := given.of_bind
  by_contra beyond
  rw [slot_of_not_inRange beyond] at found
  cases found.of_lift

theorem isUsed_eq {deployment : Deployment} {spelling : String}
    (spelled : Address.parse? spelling = some user) :
    isUsed deployment spelling nonce block = isUsedBy deployment.angstrom user nonce block := by
  rw [isUsed, readAddress, spelled]
  rfl

end OrderDesk.Nonce
