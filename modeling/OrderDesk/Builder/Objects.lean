import OrderDesk.Builder
import OrderDesk.Pipeline.Objects

/-!
# Builders as objects

A builder is an object that its calls change, and a build adds a new order to a store, with an
authorization of its own.

* `BuilderKind.after` is a builder after some calls.
* `Builder.orders` are the answers to its calls, with the orders as they have become since.
-/

namespace OrderDesk

structure Builder (δ : Type) where
  draft : δ
  store : OrderStore
  /-- What each call has answered: nothing for a setter, for a build a reference or a fault. -/
  answers : List (Option (Except Fault Nat))

def Builder.orders {δ : Type} (builder : Builder δ) : List (Option (Except Fault Order)) :=
  builder.answers.map (·.map (·.map builder.store.load))

namespace BuilderKind

variable {δ σ : Type} (kind : BuilderKind δ σ)

def call (builder : Builder δ) : BuilderCall σ → Builder δ
  | .set setting =>
    { builder with
      draft := kind.set builder.draft setting
      answers := builder.answers ++ [none] }
  | .build =>
    match kind.build builder.draft with
    | .ok order =>
      { builder with
        store := builder.store.insert order
        answers := builder.answers ++ [some (.ok builder.store.nextOrder)] }
    | .error fault => { builder with answers := builder.answers ++ [some (.error fault)] }

def after (store : OrderStore) (calls : List (BuilderCall σ)) : Builder δ :=
  calls.foldl kind.call ⟨kind.initial, store, []⟩

end BuilderKind

end OrderDesk
