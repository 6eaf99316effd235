import OrderDesk.Order.Draft
import OrderDesk.Proofs.Address
import OrderDesk.Proofs.Except

/-!
# Drafts

* `DraftParties.set_comm`, `TopOfBlockDraft.set_comm`, `UserDraft.set_comm`: settings of two slots
  can be made in either order.
* `TopOfBlockDraft.builds`, `UserDraft.builds`: the order that a draft is built into, and when it is
  refused.
-/

namespace OrderDesk

/-! ## What all drafts have -/

inductive PartySlot
  | assetIn
  | assetOut
  | recipient
  | useInternal
deriving DecidableEq, Repr

def PartySetting.slot : PartySetting → PartySlot
  | .assetIn _ => .assetIn
  | .assetOut _ => .assetOut
  | .recipient _ => .recipient
  | .useInternal _ => .useInternal

namespace DraftParties

variable {parties : DraftParties} {terms : OrderTerms} {order : Order}

theorem set_comm {one another : PartySetting} (differ : one.slot ≠ another.slot) :
    (parties.set one).set another = (parties.set another).set one := by
  cases one <;> cases another <;> first | rfl | exact absurd rfl differ

/-- Whether the addresses of a draft can be read. -/
def Valid (parties : DraftParties) : Prop :=
  (∃ assetIn : Address, assetIn.SpelledBy parties.assetIn) ∧
  (∃ assetOut : Address, assetOut.SpelledBy parties.assetOut) ∧
  ∃ recipient : Address, recipient.SpelledBy parties.recipient

/-- Whether an order has the assets and the recipient of a draft, and nobody has signed it. -/
structure Describes (parties : DraftParties) (order : Order) : Prop where
  assetIn : order.assetIn.SpelledBy parties.assetIn
  assetOut : order.assetOut.SpelledBy parties.assetOut
  recipient : order.recipient.SpelledBy parties.recipient
  useInternal : order.useInternal = parties.useInternal
  unsigned : order.authorization = .empty

theorem order_eq_ok :
    parties.order terms = .ok order ↔ parties.Describes order ∧ order.terms = terms := by
  simp only [DraftParties.order, bind_eq_ok, pure_eq_ok, Address.readAddress_eq_ok]
  constructor
  · rintro ⟨assetIn, assetIn_ok, assetOut, assetOut_ok, recipient, recipient_ok, rfl⟩
    exact ⟨⟨assetIn_ok, assetOut_ok, recipient_ok, rfl, rfl⟩, rfl⟩
  · rintro ⟨⟨assetIn_ok, assetOut_ok, recipient_ok, useInternal, unsigned⟩, rfl⟩
    refine ⟨_, assetIn_ok, _, assetOut_ok, _, recipient_ok, ?_⟩
    rw [← useInternal, ← unsigned]

theorem Valid.order_ok (valid : parties.Valid) : ∃ order, parties.order terms = .ok order := by
  obtain ⟨⟨assetIn, assetIn_ok⟩, ⟨assetOut, assetOut_ok⟩, recipient, recipient_ok⟩ := valid
  refine ⟨⟨assetIn, assetOut, recipient, parties.useInternal, .empty, terms⟩, ?_⟩
  exact order_eq_ok.mpr ⟨⟨assetIn_ok, assetOut_ok, recipient_ok, rfl, rfl⟩, rfl⟩

end DraftParties

/-! ## Top-of-block orders -/

inductive TopOfBlockSlot
  | party (slot : PartySlot)
  | quantityIn
  | quantityOut
  | maxGas
  | validBlock
deriving DecidableEq, Repr

def TopOfBlockSetting.slot : TopOfBlockSetting → TopOfBlockSlot
  | .party setting => .party setting.slot
  | .quantityIn _ => .quantityIn
  | .quantityOut _ => .quantityOut
  | .maxGas _ => .maxGas
  | .validBlock _ => .validBlock

namespace TopOfBlockDraft

variable {draft : TopOfBlockDraft}

theorem set_comm {one another : TopOfBlockSetting} (differ : one.slot ≠ another.slot) :
    (draft.set one).set another = (draft.set another).set one := by
  cases one with
  | party one =>
    cases another with
    | party another =>
      have slots : one.slot ≠ another.slot := fun same =>
        differ (congrArg TopOfBlockSlot.party same)
      simp only [TopOfBlockDraft.set, DraftParties.set_comm slots]
    | _ => rfl
  | _ => cases another <;> first | rfl | exact absurd rfl differ

/-- What building a draft has to come to: an order with its settings, and that for any addresses
that can be read. -/
structure Builds (draft : TopOfBlockDraft) (result : Except Fault Order) : Prop where
  describes : ∀ order, result = .ok order →
    order.kind = .topOfBlock ∧ draft.parties.Describes order ∧ order.terms = .topOfBlock draft.terms
  accepts : draft.parties.Valid → ∃ order, result = .ok order

theorem builds (draft : TopOfBlockDraft) : draft.Builds draft.build where
  describes order built := by
    obtain ⟨describes, terms_eq⟩ := DraftParties.order_eq_ok.mp built
    refine ⟨?_, describes, terms_eq⟩
    rw [Order.kind, terms_eq]
  accepts valid := valid.order_ok

end TopOfBlockDraft

/-! ## User orders -/

/-- Standing and flash are one setting, and so are exact and range. -/
inductive UserSlot
  | party (slot : PartySlot)
  | lifetime
  | size
  | amount
  | least
  | most
  | minPrice
  | maxExtraFee
  | hookData
  | refId
  | nonce
  | deadline
  | block
deriving DecidableEq, Repr

def UserSetting.slot : UserSetting → UserSlot
  | .party setting => .party setting.slot
  | .standing | .flash => .lifetime
  | .exact _ | .range => .size
  | .amount _ => .amount
  | .least _ => .least
  | .most _ => .most
  | .minPrice _ => .minPrice
  | .maxExtraFee _ => .maxExtraFee
  | .hookData _ => .hookData
  | .refId _ => .refId
  | .nonce _ => .nonce
  | .deadline _ => .deadline
  | .block _ => .block

namespace UserDraft

variable {draft : UserDraft} {fault : Fault}

theorem set_comm {one another : UserSetting} (differ : one.slot ≠ another.slot) :
    (draft.set one).set another = (draft.set another).set one := by
  cases one with
  | party one =>
    cases another with
    | party another =>
      have slots : one.slot ≠ another.slot := fun same => differ (congrArg UserSlot.party same)
      simp only [UserDraft.set, DraftParties.set_comm slots]
    | _ => rfl
  | _ => cases another <;> first | rfl | exact absurd rfl differ

/-- Whether a draft is of a flash order that has not been given its block. -/
def LacksBlock (draft : UserDraft) : Prop := draft.standing = false ∧ draft.block = none

/-- Whether a draft is of an order for a range that has no amounts in it. -/
def EmptyRange (draft : UserDraft) : Prop := draft.exact = false ∧ draft.most < draft.least

/-- Whether an order is of the variant that a draft has chosen, with the draft's settings. -/
structure Describes (draft : UserDraft) (order : Order) : Prop where
  kind : order.kind = .user draft.exact draft.standing
  parties : draft.parties.Describes order
  terms : ∃ size lifetime, order.terms = .user {
      refId := draft.refId
      maxExtraFee := draft.maxExtraFee
      minPrice := draft.minPrice
      hookData := draft.hookData
      size, lifetime } ∧
    size = (if draft.exact then .exact draft.exactIn draft.amount
      else .range draft.least draft.most) ∧
    some lifetime = (if draft.standing then some (.standing draft.nonce draft.deadline)
      else draft.block.map .flash)

theorem lifetime_eq_ok {lifetime : Lifetime} : draft.lifetime = .ok lifetime ↔
    some lifetime = (if draft.standing then some (.standing draft.nonce draft.deadline)
      else draft.block.map .flash) := by
  unfold UserDraft.lifetime
  cases draft.standing <;> cases draft.block <;> simp [eq_comm]

theorem lifetime_eq_error :
    draft.lifetime = .error fault ↔ draft.LacksBlock ∧ fault = .flashNeedsBlock := by
  unfold UserDraft.lifetime LacksBlock
  cases draft.standing <;> cases draft.block <;> simp [eq_comm]

theorem size_eq_ok {size : OrderSize} : draft.size = .ok size ↔
    ¬ draft.EmptyRange ∧ size = (if draft.exact then .exact draft.exactIn draft.amount
      else .range draft.least draft.most) := by
  unfold UserDraft.size EmptyRange
  cases draft.exact with
  | true => simp [eq_comm]
  | false => by_cases crossed : draft.most < draft.least <;> simp [crossed, eq_comm]

theorem size_eq_error : draft.size = .error fault ↔
    draft.EmptyRange ∧ fault = .minimumAboveMaximum draft.least draft.most := by
  unfold UserDraft.size EmptyRange
  cases draft.exact with
  | true => simp
  | false => by_cases crossed : draft.most < draft.least <;> simp [crossed, eq_comm]

/-- What building a draft has to come to: an order with its settings or, for addresses that can be
read, a refusal of a flash order without a block or of an empty range. -/
structure Builds (draft : UserDraft) (result : Except Fault Order) : Prop where
  describes : ∀ order, result = .ok order → draft.Describes order
  refuses : draft.parties.Valid →
    ((∃ fault, result = .error fault) ↔ draft.LacksBlock ∨ draft.EmptyRange)
  faults : draft.parties.Valid → ∀ fault, result = .error fault →
    draft.LacksBlock ∧ fault = .flashNeedsBlock ∨
      draft.EmptyRange ∧ fault = .minimumAboveMaximum draft.least draft.most

theorem describes_of_build {order : Order} (built : draft.build = .ok order) :
    draft.Describes order := by
  obtain ⟨lifetime, lifetime_ok, built⟩ := bind_eq_ok.mp built
  obtain ⟨size, size_ok, built⟩ := bind_eq_ok.mp built
  obtain ⟨parties, terms⟩ := DraftParties.order_eq_ok.mp built
  have lasts := lifetime_eq_ok.mp lifetime_ok
  have sized := (size_eq_ok.mp size_ok).2
  refine ⟨?_, parties, size, lifetime, terms, sized, lasts⟩
  rw [Order.kind, terms, sized]
  cases standing : draft.standing with
  | true =>
    simp only [standing, if_true, Option.some.injEq] at lasts
    cases draft.exact <;> simp [lasts]
  | false =>
    simp only [standing, Bool.false_eq_true, if_false] at lasts
    obtain ⟨block, -, rfl⟩ := Option.map_eq_some_iff.mp lasts.symm
    cases draft.exact <;> rfl

/-- The block is missed before the range is looked at. -/
theorem build_eq_error (valid : draft.parties.Valid) : draft.build = .error fault ↔
    draft.LacksBlock ∧ fault = .flashNeedsBlock ∨
      ¬ draft.LacksBlock ∧ draft.EmptyRange ∧
        fault = .minimumAboveMaximum draft.least draft.most := by
  unfold UserDraft.build
  cases lasting : draft.lifetime with
  | error other =>
    obtain ⟨lacks, rfl⟩ := lifetime_eq_error.mp lasting
    simp [error_bind, lacks, eq_comm]
  | ok lifetime =>
    have given : ¬ draft.LacksBlock := by
      intro lacks
      cases lasting.symm.trans (lifetime_eq_error.mpr ⟨lacks, rfl⟩)
    cases sizing : draft.size with
    | error other =>
      obtain ⟨empty, rfl⟩ := size_eq_error.mp sizing
      simp [ok_bind, error_bind, given, empty, eq_comm]
    | ok size =>
      have nonempty := (size_eq_ok.mp sizing).1
      obtain ⟨order, order_ok⟩ := valid.order_ok
      rw [ok_bind, ok_bind, order_ok]
      simp [given, nonempty]

theorem builds (draft : UserDraft) : draft.Builds draft.build where
  describes order built := describes_of_build built
  refuses valid := by
    simp only [build_eq_error valid]
    constructor
    · rintro ⟨fault, ⟨lacks, -⟩ | ⟨-, empty, -⟩⟩
      · exact .inl lacks
      · exact .inr empty
    · intro refused
      by_cases lacks : draft.LacksBlock
      · exact ⟨_, .inl ⟨lacks, rfl⟩⟩
      · exact ⟨_, .inr ⟨lacks, refused.resolve_left lacks, rfl⟩⟩
  faults valid fault failed := by
    rcases (build_eq_error valid).mp failed with ⟨lacks, same⟩ | ⟨-, empty, same⟩
    · exact .inl ⟨lacks, same⟩
    · exact .inr ⟨empty, same⟩

end UserDraft

end OrderDesk
