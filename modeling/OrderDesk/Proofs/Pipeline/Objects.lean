import OrderDesk.Pipeline.Objects
import OrderDesk.Proofs.Pipeline.Outcome

/-!
# Filling orders of a store

* `OrderStore.Extends`: what existed in a store is as it was.
* `OrderStore.Owns`: an order that is new with its authorization, so that writing into it extends a
  store.
* `OrderStore.fill_spec`, `OrderStore.fillMany_spec`: a store is filled from as values are, and only
  extended, whether or not there is a fault.
-/

namespace OrderDesk

namespace OrderStore

variable {venue : Venue} {outside : Outside} {journal : Journal} {draft value : Order}
  {old store next : OrderStore} {order working : Nat} {pipeline : Pipeline}

/-! ## Old and new objects -/

/-- Whether all that existed in a store is unchanged in a later one. -/
structure Extends (old store : OrderStore) : Prop where
  orders_eq : ∀ order < old.nextOrder, store.orders order = old.orders order
  authorizations_eq : ∀ reference < old.nextAuthorization,
    store.authorizations reference = old.authorizations reference
  orders_le : old.nextOrder ≤ store.nextOrder
  authorizations_le : old.nextAuthorization ≤ store.nextAuthorization

theorem Extends.refl (store : OrderStore) : store.Extends store :=
  ⟨fun _ _ => rfl, fun _ _ => rfl, le_rfl, le_rfl⟩

theorem Extends.trans (first : old.Extends store) (second : store.Extends next) :
    old.Extends next where
  orders_eq order given := by
    rw [second.orders_eq order (given.trans_le first.orders_le), first.orders_eq order given]
  authorizations_eq reference given := by
    rw [second.authorizations_eq reference (given.trans_le first.authorizations_le),
      first.authorizations_eq reference given]
  orders_le := first.orders_le.trans second.orders_le
  authorizations_le := first.authorizations_le.trans second.authorizations_le

theorem Extends.load_eq (extension : old.Extends store) (given : order < old.nextOrder) :
    store.load order = old.load order := by
  rw [load, load, extension.orders_eq order given,
    extension.authorizations_eq _ (old.authorization_lt order given)]

/-- Whether an order and its authorization have been made since a store was as it is. -/
structure Owns (old store : OrderStore) (working : Nat) : Prop where
  extended : old.Extends store
  order_ge : old.nextOrder ≤ working
  order_lt : working < store.nextOrder
  authorization_ge : old.nextAuthorization ≤ (store.orders working).authorization

theorem owns_insert (store : OrderStore) (value : Order) :
    store.Owns (store.insert value) store.nextOrder where
  extended := {
    orders_eq := fun order given => Function.update_of_ne given.ne _ _
    authorizations_eq := fun reference given => Function.update_of_ne given.ne _ _
    orders_le := Nat.le_succ _
    authorizations_le := Nat.le_succ _ }
  order_ge := le_rfl
  order_lt := Nat.lt_succ_self _
  authorization_ge := by simp [insert, OrderObject.ofOrder]

theorem load_insert (store : OrderStore) (value : Order) :
    (store.insert value).load store.nextOrder = value := by
  simp [load, insert, OrderObject.ofOrder, OrderObject.order]

theorem Owns.write (owns : old.Owns store working) (value : Order) :
    old.Owns (store.write working value) working where
  extended := {
    orders_eq := fun order given =>
      (Function.update_of_ne (given.trans_le owns.order_ge).ne _ _).trans
        (owns.extended.orders_eq order given)
    authorizations_eq := owns.extended.authorizations_eq
    orders_le := owns.extended.orders_le
    authorizations_le := owns.extended.authorizations_le }
  order_ge := owns.order_ge
  order_lt := owns.order_lt
  authorization_ge := by simpa [OrderStore.write, OrderObject.ofOrder] using owns.authorization_ge

theorem load_write (same : value.authorization = (store.load working).authorization) :
    (store.write working value).load working = value := by
  cases value
  subst same
  simp [load, OrderStore.write, OrderObject.ofOrder, OrderObject.order]

theorem Owns.writeSender (owns : old.Owns store working) (sender : Address) :
    old.Owns (store.writeSender working sender) working where
  extended := {
    orders_eq := owns.extended.orders_eq
    authorizations_eq := fun reference given =>
      (Function.update_of_ne (given.trans_le owns.authorization_ge).ne _ _).trans
        (owns.extended.authorizations_eq reference given)
    orders_le := owns.extended.orders_le
    authorizations_le := owns.extended.authorizations_le }
  order_ge := owns.order_ge
  order_lt := owns.order_lt
  authorization_ge := owns.authorization_ge

theorem load_writeSender (store : OrderStore) (working : Nat) (sender : Address) :
    (store.writeSender working sender).load working = (store.load working).withSender sender := by
  simp [load, writeSender, OrderObject.order, Order.withSender]

theorem Owns.renew (owns : old.Owns store working) (authorization : Authorization) :
    old.Owns (store.renew working authorization) working where
  extended := {
    orders_eq := fun order given =>
      (Function.update_of_ne (given.trans_le owns.order_ge).ne _ _).trans
        (owns.extended.orders_eq order given)
    authorizations_eq := fun reference given =>
      (Function.update_of_ne (given.trans_le owns.extended.authorizations_le).ne _ _).trans
        (owns.extended.authorizations_eq reference given)
    orders_le := owns.extended.orders_le
    authorizations_le := owns.extended.authorizations_le.trans (Nat.le_succ _) }
  order_ge := owns.order_ge
  order_lt := owns.order_lt
  authorization_ge := by
    simpa [OrderStore.renew] using owns.extended.authorizations_le

theorem load_renew (store : OrderStore) (working : Nat) (authorization : Authorization) :
    (store.renew working authorization).load working =
      { store.load working with authorization } := by
  simp [load, renew, OrderObject.order]

/-! ## Filling one order -/

theorem Owns.adopt (owns : old.Owns store working) (pipeline : Pipeline) :
    old.Owns (store.adopt pipeline working) working := by
  unfold OrderStore.adopt
  split
  · split
    · exact owns.writeSender _
    · exact owns
  · exact owns

theorem load_adopt (store : OrderStore) (pipeline : Pipeline) (working : Nat) :
    (store.adopt pipeline working).load working = pipeline.adopt (store.load working) := by
  unfold OrderStore.adopt Pipeline.adopt
  cases pipeline.signer? with
  | none => rfl
  | some signer =>
    dsimp only
    split
    · exact load_writeSender store working _
    · rfl

/-- What has been written to an order, or why writing to it has ended. -/
def written (working : Nat) (applied : Except Fault Unit × OrderStore) : Except Fault Order :=
  applied.1.map fun _ => applied.2.load working

theorem Owns.apply {stage : Stage} {output : StageOutput} (owns : old.Owns store working)
    (prepares : stage.Prepares venue outside draft output) (builtIn : stage.isBuiltIn) :
    old.Owns (store.apply working stage output).2 working ∧
    (stage.apply (store.load working) output).Answers outside
      (written working (store.apply working stage output)) := by
  cases prepares with
  | nonce =>
    refine ⟨owns.write _, fun journal => ?_⟩
    change _ = Except.ok ((store.write _ _).load working)
    rw [load_write (Order.authorization_withNonce _ _)]
    rfl
  | noNonce => exact ⟨owns, fun _ => rfl⟩
  | gas =>
    refine ⟨owns.write _, fun journal => ?_⟩
    change _ = Except.ok ((store.write _ _).load working)
    rw [load_write (Order.authorization_withFee _ _)]
    rfl
  | balance => exact ⟨owns, fun _ => rfl⟩
  | @signer account =>
    let order := { store.load working with recipient := account.address }
    have received : (store.write working order).load working = order := load_write rfl
    rw [OrderStore.apply]
    dsimp only
    rw [received]
    cases signed : account.sign order with
    | ok authorization =>
      refine ⟨(owns.write _).renew _, fun journal => ?_⟩
      rw [Stage.outcome_apply_signer, signed]
      change _ = Except.ok ((OrderStore.renew _ _ _).load working)
      rw [load_renew, received]
      rfl
    | error fault =>
      refine ⟨owns.write _, fun journal => ?_⟩
      rw [Stage.outcome_apply_signer, signed]
      rfl
  | record => cases builtIn

theorem Owns.applyAll {prepared : List (Stage × StageOutput)} (owns : old.Owns store working)
    (prepares : ∀ pair ∈ prepared, pair.1.Prepares venue outside draft pair.2)
    (builtIn : ∀ pair ∈ prepared, pair.1.isBuiltIn) :
    old.Owns (applyAll working prepared store).2 working ∧
    (Pipeline.applyAll (store.load working) prepared).Answers outside
      (written working (applyAll working prepared store)) := by
  induction prepared generalizing store with
  | nil => exact ⟨owns, fun _ => rfl⟩
  | cons pair prepared ih =>
    obtain ⟨stage, output⟩ := pair
    rw [List.forall_mem_cons] at prepares builtIn
    obtain ⟨owns_next, answers⟩ := owns.apply prepares.1 builtIn.1
    unfold OrderStore.applyAll
    change _ ∧ (Stage.apply _ _ _ >>= fun between => Pipeline.applyAll between prepared).Answers _ _
    cases applied : store.apply working stage output with
    | mk result next =>
      rw [applied] at owns_next answers
      cases result with
      | error fault => exact ⟨owns_next, answers.error_bind⟩
      | ok _ =>
        obtain ⟨owns_last, others⟩ := ih owns_next prepares.2 builtIn.2
        exact ⟨owns_last, answers.ok_bind others⟩

section Fill

variable (last : pipeline.SignsLast) (builtIn : ∀ stage ∈ pipeline.stages, stage.isBuiltIn)
include last builtIn

/-- A fill of a stored order is a fill of its value. The store is extended, and the filled order is
new in it. -/
theorem fill_spec (store : OrderStore) (venue : Venue) (outside : Outside) (journal : Journal)
    (order : Nat) :
    let filling := store.fill pipeline venue outside journal order
    (filling.result.map filling.store.load, filling.journal) =
        (pipeline.fill venue (store.load order)).outcome outside journal ∧
      store.Extends filling.store ∧
      ∀ working, filling.result = .ok working → working < filling.store.nextOrder := by
  have owns := (owns_insert store (store.load order)).adopt pipeline
  have loaded : ((store.insert (store.load order)).adopt pipeline store.nextOrder).load
      store.nextOrder = pipeline.adopt (store.load order) := by
    rw [load_adopt, load_insert]
  have journal_eq : ((pipeline.fill venue (store.load order)).outcome outside journal).2 =
      ((Desk.all (pipeline.stages.map (Stage.prepare venue
        (pipeline.adopt (store.load order))))).outcome outside journal).2 := by
    rw [Pipeline.fill_outcome last builtIn, Desk.outcome_all]
    rfl
  unfold OrderStore.fill
  dsimp only
  rw [loaded]
  generalize (store.insert (store.load order)).adopt pipeline store.nextOrder = copied
    at owns loaded
  unfold Pipeline.fill at journal_eq ⊢
  dsimp only at journal_eq ⊢
  rw [Desk.outcome_bind] at journal_eq ⊢
  cases prepared : (Desk.all (pipeline.stages.map (Stage.prepare venue
      (pipeline.adopt (store.load order))))).outcome outside journal with
  | mk result between =>
    rw [prepared] at journal_eq
    cases result with
    | error fault => exact ⟨rfl, owns.extended, nofun⟩
    | ok outputs =>
      obtain ⟨same_length, prepares⟩ := Pipeline.prepares_all ⟨journal, congrArg Prod.fst prepared⟩
      obtain ⟨owns_last, answers⟩ := owns.applyAll prepares
        fun pair mem => builtIn _ (List.of_mem_zip mem).1
      rw [loaded] at answers
      refine ⟨Prod.ext (.trans ?_ (answers between).symm) journal_eq.symm, owns_last.extended, ?_⟩
      all_goals
        dsimp only
        generalize applyAll store.nextOrder (pipeline.stages.zip outputs) copied = applied
          at owns_last
        obtain ⟨_ | _, final⟩ := applied
      · rfl
      · rfl
      · exact nofun
      · intro working filled
        cases filled
        exact owns_last.order_lt

/-- Filling stored orders fills their values. All that existed before is unchanged, also after a
fault. -/
theorem fillMany_spec (store : OrderStore) (venue : Venue) (outside : Outside) (journal : Journal)
    (orders : List Nat) (exist : ∀ order ∈ orders, order < store.nextOrder) :
    let filling := store.fillMany pipeline venue outside journal orders
    (filling.result.map (·.map filling.store.load), filling.journal) =
        (pipeline.fillMany venue (orders.map store.load)).outcome outside journal ∧
      store.Extends filling.store ∧
      ∀ filled, filling.result = .ok filled →
        ∀ working ∈ filled, working < filling.store.nextOrder := by
  induction orders generalizing store journal with
  | nil =>
    refine ⟨rfl, .refl store, ?_⟩
    intro filled given
    cases given
    exact nofun
  | cons order orders ih =>
    obtain ⟨first_eq, first_extension, first_lt⟩ :=
      fill_spec last builtIn store venue outside journal order
    unfold OrderStore.fillMany
    dsimp only
    generalize store.fill pipeline venue outside journal order = first
      at first_eq first_extension first_lt
    rw [List.forall_mem_cons] at exist
    obtain ⟨others_eq, others_extension, others_lt⟩ := ih first.store first.journal
      fun other mem => (exist.2 other mem).trans_le first_extension.orders_le
    have same : orders.map first.store.load = orders.map store.load :=
      List.map_congr_left fun other mem => first_extension.load_eq (exist.2 other mem)
    rw [same] at others_eq
    generalize first.store.fillMany pipeline venue outside first.journal orders = others
      at others_eq others_extension others_lt
    refine ⟨?_, first_extension.trans others_extension, ?_⟩
    · rw [Pipeline.fillMany, List.map_cons, List.map_cons, Desk.outcome_all_cons, ← first_eq]
      dsimp only
      rw [← Pipeline.fillMany, ← others_eq]
      cases result : first.result with
      | error fault => rfl
      | ok working =>
        have kept := others_extension.load_eq (first_lt working result)
        simp only [Except.map, ok_bind, ← kept]
        cases others.result <;> rfl
    · intro filled given
      obtain ⟨working, working_ok, given⟩ := bind_eq_ok.mp given
      obtain ⟨rest, rest_ok, given⟩ := bind_eq_ok.mp given
      cases pure_eq_ok.mp given
      rw [List.forall_mem_cons]
      exact ⟨(first_lt working working_ok).trans_le others_extension.orders_le,
        others_lt rest rest_ok⟩

end Fill

end OrderStore

end OrderDesk
