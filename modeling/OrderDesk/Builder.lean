import OrderDesk.Order.Draft

/-!
# Builders

A builder keeps a draft. Its setters write into the draft; a build makes an order from it and leaves
the draft as it is, so that a builder can be used again.

* `BuilderKind.answers` are the answers to calls, one after another.
-/

namespace OrderDesk

structure BuilderKind (δ σ : Type) where
  initial : δ
  set : δ → σ → δ
  build : δ → Except Fault Order

inductive BuilderCall (σ : Type)
  | set (setting : σ)
  | build
deriving DecidableEq, Repr

/-- What calls answer from a draft on: nothing for a setter, an order or a fault for a build. -/
def BuilderKind.answers {δ σ : Type} (kind : BuilderKind δ σ) :
    δ → List (BuilderCall σ) → List (Option (Except Fault Order))
  | _, [] => []
  | draft, .set setting :: calls => none :: kind.answers (kind.set draft setting) calls
  | draft, .build :: calls => some (kind.build draft) :: kind.answers draft calls

def TopOfBlockDraft.builder : BuilderKind TopOfBlockDraft TopOfBlockSetting where
  initial := .initial
  set := TopOfBlockDraft.set
  build := TopOfBlockDraft.build

def UserDraft.builder : BuilderKind UserDraft UserSetting where
  initial := .initial
  set := UserDraft.set
  build := UserDraft.build

end OrderDesk
