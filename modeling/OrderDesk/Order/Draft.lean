import OrderDesk.Order.Wire

/-!
# Drafting orders

A draft collects settings; the last setting of each kind counts. Building it yields an order that
nobody has signed, and the draft can be built again.

* `UserDraft.build` chooses the variant by two switches: standing or flash, exact or range.
-/

namespace OrderDesk

/-- The settings that all drafts have. Addresses are read when the order is built. -/
structure DraftParties where
  assetIn : String
  assetOut : String
  recipient : String
  useInternal : Bool
deriving DecidableEq, Repr

def DraftParties.initial : DraftParties := ⟨Address.zero.text, Address.zero.text, Address.zero.text, false⟩

inductive PartySetting
  | assetIn (spelling : String)
  | assetOut (spelling : String)
  | recipient (spelling : String)
  | useInternal (value : Bool)
deriving DecidableEq, Repr

namespace DraftParties

def set (parties : DraftParties) : PartySetting → DraftParties
  | .assetIn assetIn => { parties with assetIn }
  | .assetOut assetOut => { parties with assetOut }
  | .recipient recipient => { parties with recipient }
  | .useInternal useInternal => { parties with useInternal }

def order (parties : DraftParties) (terms : OrderTerms) : Except Fault Order := do
  let assetIn ← readAddress parties.assetIn
  let assetOut ← readAddress parties.assetOut
  let recipient ← readAddress parties.recipient
  return {
    assetIn, assetOut, recipient, terms
    useInternal := parties.useInternal
    authorization := .empty }

end DraftParties

/-! ## Top-of-block orders -/

structure TopOfBlockDraft where
  parties : DraftParties
  terms : TopOfBlockTerms
deriving DecidableEq, Repr

inductive TopOfBlockSetting
  | party (setting : PartySetting)
  | quantityIn (amount : Int)
  | quantityOut (amount : Int)
  | maxGas (amount : Int)
  | validBlock (block : Int)
deriving DecidableEq, Repr

namespace TopOfBlockDraft

def initial : TopOfBlockDraft := ⟨.initial, ⟨0, 0, 0, 0⟩⟩

def set (draft : TopOfBlockDraft) : TopOfBlockSetting → TopOfBlockDraft
  | .party setting => { draft with parties := draft.parties.set setting }
  | .quantityIn quantityIn => { draft with terms := { draft.terms with quantityIn } }
  | .quantityOut quantityOut => { draft with terms := { draft.terms with quantityOut } }
  | .maxGas maxGas => { draft with terms := { draft.terms with maxGas } }
  | .validBlock validForBlock => { draft with terms := { draft.terms with validForBlock } }

def build (draft : TopOfBlockDraft) : Except Fault Order :=
  draft.parties.order (.topOfBlock draft.terms)

end TopOfBlockDraft

/-! ## User orders -/

structure UserDraft where
  parties : DraftParties
  standing : Bool
  exact : Bool
  exactIn : Bool
  amount : Int
  least : Int
  most : Int
  minPrice : Int
  maxExtraFee : Int
  hookData : Bytes
  refId : Int
  nonce : Int
  deadline : Int
  block : Option Int
deriving DecidableEq, Repr

inductive UserSetting
  | party (setting : PartySetting)
  | standing
  | flash
  | exact (exactIn : Bool)
  | range
  | amount (value : Int)
  | least (value : Int)
  | most (value : Int)
  | minPrice (value : Int)
  | maxExtraFee (value : Int)
  | hookData (data : Bytes)
  | refId (value : Int)
  | nonce (value : Int)
  | deadline (time : Int)
  | block (number : Int)
deriving DecidableEq, Repr

namespace UserDraft

def initial : UserDraft where
  parties := .initial
  standing := true
  exact := true
  exactIn := true
  amount := 0
  least := 0
  most := 0
  minPrice := 0
  maxExtraFee := 0
  hookData := []
  refId := 0
  nonce := 0
  deadline := 0
  block := none

def set (draft : UserDraft) : UserSetting → UserDraft
  | .party setting => { draft with parties := draft.parties.set setting }
  | .standing => { draft with standing := true }
  | .flash => { draft with standing := false }
  | .exact exactIn => { draft with exact := true, exactIn }
  | .range => { draft with exact := false }
  | .amount amount => { draft with amount }
  | .least least => { draft with least }
  | .most most => { draft with most }
  | .minPrice minPrice => { draft with minPrice }
  | .maxExtraFee maxExtraFee => { draft with maxExtraFee }
  | .hookData hookData => { draft with hookData }
  | .refId refId => { draft with refId }
  | .nonce nonce => { draft with nonce }
  | .deadline deadline => { draft with deadline }
  | .block block => { draft with block := some block }

def lifetime (draft : UserDraft) : Except Fault Lifetime :=
  if draft.standing then .ok (.standing draft.nonce draft.deadline)
  else match draft.block with
    | some block => .ok (.flash block)
    | none => .error .flashNeedsBlock

def size (draft : UserDraft) : Except Fault OrderSize :=
  if draft.exact then .ok (.exact draft.exactIn draft.amount)
  else if draft.most < draft.least then .error (.minimumAboveMaximum draft.least draft.most)
  else .ok (.range draft.least draft.most)

def build (draft : UserDraft) : Except Fault Order := do
  let lifetime ← draft.lifetime
  let size ← draft.size
  draft.parties.order (.user {
    refId := draft.refId
    maxExtraFee := draft.maxExtraFee
    minPrice := draft.minPrice
    hookData := draft.hookData
    size, lifetime })

end UserDraft

end OrderDesk
