import OrderDesk.Proofs.Builder.Calls
import OrderDesk.Proofs.Order.Draft

/-!
# The last call of each setter

* `TopOfBlockDraft.written`, `UserDraft.written`: a draft has of each setting what was set last.
* `builders_last_calls`: what a builder builds depends on the last call of each setter, and on
  nothing else.
-/

namespace OrderDesk

variable {δ σ β κ : Type}

/-! ## The last setting -/

/-- What a call gives, if it is of a setter that is asked about. -/
def BuilderCall.gives (given : σ → Option β) : BuilderCall σ → Option β
  | .set setting => given setting
  | .build => none

/-- What calls have given last, or something else if they have given nothing. -/
def lastOr (given : σ → Option β) (other : β) (calls : List (BuilderCall σ)) : β :=
  (calls.reverse.findSome? (·.gives given)).getD other

theorem lastOr_concat (given : σ → Option β) (other : β) (calls : List (BuilderCall σ))
    (call : BuilderCall σ) : lastOr given other (calls ++ [call]) =
      (call.gives given).getD (lastOr given other calls) := by
  rw [lastOr, List.reverse_append, List.reverse_singleton, List.singleton_append,
    List.findSome?_cons]
  cases call.gives given <;> rfl

/-- A description of drafts by the calls that wrote them is right if it follows each call. -/
theorem foldl_write (kind : BuilderKind δ σ) (last : List (BuilderCall σ) → δ)
    (initial : last [] = kind.initial)
    (follows : ∀ calls call, last (calls ++ [call]) = kind.write (last calls) call)
    (calls : List (BuilderCall σ)) : calls.foldl kind.write kind.initial = last calls := by
  induction calls using List.reverseRecOn with
  | nil => exact initial.symm
  | append_singleton calls call ih =>
    rw [List.foldl_append, ih]
    exact (follows calls call).symm

def DraftParties.last (party : σ → Option PartySetting) (calls : List (BuilderCall σ)) :
    DraftParties where
  assetIn := lastOr (fun setting =>
    match party setting with | some (.assetIn spelling) => some spelling | _ => none)
    Address.zero.text calls
  assetOut := lastOr (fun setting =>
    match party setting with | some (.assetOut spelling) => some spelling | _ => none)
    Address.zero.text calls
  recipient := lastOr (fun setting =>
    match party setting with | some (.recipient spelling) => some spelling | _ => none)
    Address.zero.text calls
  useInternal := lastOr (fun setting =>
    match party setting with | some (.useInternal value) => some value | _ => none) false calls

theorem DraftParties.last_concat (party : σ → Option PartySetting) (calls : List (BuilderCall σ))
    (call : BuilderCall σ) : last party (calls ++ [call]) =
      ((call.gives party).map (last party calls).set).getD (last party calls) := by
  simp only [last, lastOr_concat]
  cases call with
  | build => rfl
  | set setting =>
    simp only [BuilderCall.gives]
    rcases party setting with _ | (_ | _ | _ | _) <;> rfl

/-! ## Top-of-block orders -/

namespace TopOfBlockDraft

/-- The draft that has of each setting what calls have given last, and its default otherwise. -/
def last (calls : List (BuilderCall TopOfBlockSetting)) : TopOfBlockDraft where
  parties := .last (fun | .party setting => some setting | _ => none) calls
  terms := {
    quantityIn := lastOr (fun | .quantityIn amount => some amount | _ => none) 0 calls
    quantityOut := lastOr (fun | .quantityOut amount => some amount | _ => none) 0 calls
    maxGas := lastOr (fun | .maxGas amount => some amount | _ => none) 0 calls
    validForBlock := lastOr (fun | .validBlock block => some block | _ => none) 0 calls }

theorem written (calls : List (BuilderCall TopOfBlockSetting)) :
    calls.foldl builder.write builder.initial = last calls := by
  refine foldl_write builder last rfl (fun calls call => ?_) calls
  simp only [last, DraftParties.last_concat, lastOr_concat]
  cases call with
  | build => rfl
  | set setting => cases setting <;> rfl

end TopOfBlockDraft

/-! ## User orders -/

namespace UserDraft

/-- The draft that has of each setting what calls have given last, and its default otherwise. -/
def last (calls : List (BuilderCall UserSetting)) : UserDraft where
  parties := .last (fun | .party setting => some setting | _ => none) calls
  standing := lastOr (fun | .standing => some true | .flash => some false | _ => none) true calls
  exact := lastOr (fun | .exact _ => some true | .range => some false | _ => none) true calls
  exactIn := lastOr (fun | .exact exactIn => some exactIn | _ => none) true calls
  amount := lastOr (fun | .amount value => some value | _ => none) 0 calls
  least := lastOr (fun | .least value => some value | _ => none) 0 calls
  most := lastOr (fun | .most value => some value | _ => none) 0 calls
  minPrice := lastOr (fun | .minPrice value => some value | _ => none) 0 calls
  maxExtraFee := lastOr (fun | .maxExtraFee value => some value | _ => none) 0 calls
  hookData := lastOr (fun | .hookData data => some data | _ => none) [] calls
  refId := lastOr (fun | .refId value => some value | _ => none) 0 calls
  nonce := lastOr (fun | .nonce value => some value | _ => none) 0 calls
  deadline := lastOr (fun | .deadline time => some time | _ => none) 0 calls
  block := lastOr (fun | .block number => some (some number) | _ => none) none calls

theorem written (calls : List (BuilderCall UserSetting)) :
    calls.foldl builder.write builder.initial = last calls := by
  refine foldl_write builder last rfl (fun calls call => ?_) calls
  simp only [last, DraftParties.last_concat, lastOr_concat]
  cases call with
  | build => rfl
  | set setting => cases setting <;> rfl

end UserDraft

/-! ## Builds -/

/-- Whether each build of a builder is one of the last settings, and an order once built stays as it
is, whatever calls there are beside. -/
structure LastCallsCount (kind : BuilderKind δ σ) (slot : σ → κ)
    (last : List (BuilderCall σ) → δ) (Builds : δ → Except Fault Order → Prop) : Prop where
  build : ∀ (store : OrderStore) calls later, ∃ result,
    (kind.after store (calls ++ .build :: later)).orders[calls.length]? = some (some result) ∧
      Builds (last calls) result
  keeps : ∀ (store : OrderStore) calls later,
    (kind.after store calls).orders <+: (kind.after store (calls ++ later)).orders
  without_build : ∀ (store : OrderStore) calls later,
    (kind.after store (calls ++ later)).orders =
      (kind.after store (calls ++ .build :: later)).orders.eraseIdx calls.length
  exchanges : ∀ (store : OrderStore) calls one another later, slot one ≠ slot another →
    (kind.after store (calls ++ .set one :: .set another :: later)).orders =
      (kind.after store (calls ++ .set another :: .set one :: later)).orders
  extended : ∀ (store : OrderStore) calls, store.Extends (kind.after store calls).store

theorem BuilderKind.lastCallsCount {kind : BuilderKind δ σ} {slot : σ → κ}
    {last : List (BuilderCall σ) → δ} {Builds : δ → Except Fault Order → Prop}
    (written : ∀ calls, calls.foldl kind.write kind.initial = last calls)
    (builds : ∀ draft, Builds draft (kind.build draft))
    (commute : ∀ draft one another, slot one ≠ slot another →
      kind.set (kind.set draft one) another = kind.set (kind.set draft another) one) :
    LastCallsCount kind slot last Builds where
  build store calls later := by
    refine ⟨kind.build (last calls), ?_, builds _⟩
    rw [(kind.after_orders _ _).1, answers_build, written]
  keeps store calls later := by
    rw [(kind.after_orders _ _).1, (kind.after_orders _ _).1, answers_append]
    exact List.prefix_append _ _
  without_build store calls later := by
    rw [(kind.after_orders _ _).1, (kind.after_orders _ _).1]
    exact answers_without_build _ _ _
  exchanges store calls one another later differ := by
    rw [(kind.after_orders _ _).1, (kind.after_orders _ _).1]
    exact answers_exchange _ _ _ fun draft => commute draft one another differ
  extended store calls := (kind.after_orders store calls).2

theorem builders_last_calls :
    LastCallsCount TopOfBlockDraft.builder TopOfBlockSetting.slot TopOfBlockDraft.last
      TopOfBlockDraft.Builds ∧
    LastCallsCount UserDraft.builder UserSetting.slot UserDraft.last UserDraft.Builds :=
  ⟨BuilderKind.lastCallsCount TopOfBlockDraft.written TopOfBlockDraft.builds
      fun _ _ _ differ => TopOfBlockDraft.set_comm differ,
    BuilderKind.lastCallsCount UserDraft.written UserDraft.builds
      fun _ _ _ differ => UserDraft.set_comm differ⟩

def OrderStore.empty : OrderStore where
  orders _ := ⟨.zero, .zero, .zero, false, .topOfBlock ⟨0, 0, 0, 0⟩, 0⟩
  authorizations _ := .empty
  nextOrder := 0
  nextAuthorization := 0
  authorization_lt := nofun

/-- A flash order that is built without a block, given one, and built again. With no build between,
the block could have been given first. -/
theorem builders_last_calls_flash :
    (UserDraft.builder.after .empty [.set .flash, .build, .set (.block 7), .build]).orders[1]? =
      some (some (.error .flashNeedsBlock)) ∧
    (∃ order, (UserDraft.builder.after .empty
        [.set .flash, .build, .set (.block 7), .build]).orders[3]? = some (some (.ok order)) ∧
      order.kind = .user true false) ∧
    UserSetting.slot .flash ≠ UserSetting.slot (.block 7) ∧
    (UserDraft.builder.after .empty [.set .flash, .set (.block 7), .build]).orders =
      (UserDraft.builder.after .empty [.set (.block 7), .set .flash, .build]).orders := by
  have spelled : ∃ address : Address, address.SpelledBy Address.zero.text :=
    ⟨_, Address.spelledBy_text _⟩
  have valid : DraftParties.initial.Valid := ⟨spelled, spelled, spelled⟩
  have differ : UserSetting.slot .flash ≠ UserSetting.slot (.block 7) := by decide
  refine ⟨?_, ?_, differ, builders_last_calls.2.exchanges _ [] _ _ [.build] differ⟩
  · obtain ⟨result, answered, built⟩ :=
      builders_last_calls.2.build .empty [.set .flash] [.set (.block 7), .build]
    obtain ⟨fault, rfl⟩ := (built.refuses valid).mpr (.inl ⟨rfl, rfl⟩)
    rcases built.faults valid fault rfl with ⟨-, rfl⟩ | ⟨⟨partly, -⟩, -⟩
    · exact answered
    · cases partly
  · obtain ⟨result, answered, built⟩ :=
      builders_last_calls.2.build .empty [.set .flash, .build, .set (.block 7)] []
    cases result with
    | ok order => exact ⟨order, answered, (built.describes order rfl).kind⟩
    | error fault =>
      rcases (built.refuses valid).mp ⟨fault, rfl⟩ with ⟨-, missing⟩ | ⟨partly, -⟩
      · cases missing
      · cases partly

end OrderDesk
