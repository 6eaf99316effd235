import OrderDesk.Proofs.Pipeline.Account
import OrderDesk.Proofs.Pipeline.Outcome

/-!
# The order of stages

Before the signer the stages of a pipeline may stand in any order. What one of them prepares does
not depend on what the others did, since only one draws candidates; and what they write goes to
different fields of the order.

* `Stage.prepare_quiet`, `Stage.prepare_followsDraws`: what the preparation of a stage depends on.
* `Stage.outcomes_prepare`: each stage of a pipeline prepares what it would prepare alone.
* `StageOutput.writeTo_comm`: the outputs are written in any order.
* `Pipeline.fill_perm`: pipelines with the same stages fill orders alike.
-/

namespace OrderDesk

namespace Desk

variable {α β : Type} {outside : Outside}

/-! ## What an action depends on -/

/-- Whether an action has one result, whatever was done before, and draws no candidate. -/
structure Quiet (action : Desk α) (outside : Outside) : Prop where
  steady : action.Steady outside
  drawn_eq : ∀ journal, (action.outcome outside journal).2.drawn = journal.drawn

namespace Quiet

variable {action : Desk α} {next : α → Desk β}

theorem pure (value : α) : (Pure.pure value : Desk α).Quiet outside := ⟨⟨_, .pure value⟩, fun _ => rfl⟩

theorem fail (fault : Fault) : (Desk.fail fault : Desk α).Quiet outside :=
  ⟨⟨_, .fail fault⟩, fun _ => rfl⟩

theorem lift (result : Except Fault α) : (liftM result : Desk α).Quiet outside :=
  ⟨⟨_, .lift result⟩, fun _ => rfl⟩

theorem ask (question : NodeRead) (answer : Node → Except Fault α) :
    (Desk.ask question answer).Quiet outside :=
  ⟨⟨_, .ask question answer⟩, fun _ => rfl⟩

theorem bind (first : action.Quiet outside) (rest : ∀ value, (next value).Quiet outside) :
    (action >>= next).Quiet outside := by
  refine ⟨first.steady.bind fun value => (rest value).steady, fun journal => ?_⟩
  have drawn_eq := first.drawn_eq journal
  rw [outcome_bind]
  cases outcome : action.outcome outside journal with
  | mk result between =>
    rw [outcome] at drawn_eq
    cases result with
    | error fault => exact drawn_eq
    | ok value => exact ((rest value).drawn_eq between).trans drawn_eq

theorem ite {condition : Prop} [Decidable condition] {yes no : Desk α} (first : yes.Quiet outside)
    (second : no.Quiet outside) : (if condition then yes else no).Quiet outside := by
  split
  · exact first
  · exact second

end Quiet

/-- Whether an action comes to the same wherever the same candidates were drawn before. -/
def FollowsDraws (action : Desk α) (outside : Outside) : Prop :=
  ∀ journal other : Journal, journal.drawn = other.drawn →
    (action.outcome outside journal).1 = (action.outcome outside other).1 ∧
    (action.outcome outside journal).2.drawn = (action.outcome outside other).2.drawn

theorem Steady.result_eq {action : Desk α} (steady : action.Steady outside)
    (journal other : Journal) :
    (action.outcome outside journal).1 = (action.outcome outside other).1 := by
  obtain ⟨result, answers⟩ := steady
  exact (answers journal).trans (answers other).symm

theorem Quiet.followsDraws {action : Desk α} (quiet : action.Quiet outside) :
    action.FollowsDraws outside := by
  intro journal other same
  refine ⟨quiet.steady.result_eq journal other, ?_⟩
  rw [quiet.drawn_eq, quiet.drawn_eq, same]

namespace FollowsDraws

variable {action : Desk α} {next : α → Desk β}

theorem draw (source : Nat) : (Desk.draw source).FollowsDraws outside := by
  intro journal other same
  change (Except.ok (outside.candidate source ((Table.get? journal.drawn source).getD 0)) = _) ∧
    Table.set journal.drawn source ((Table.get? journal.drawn source).getD 0 + 1) = _
  rw [same]
  exact ⟨rfl, rfl⟩

theorem bind (first : action.FollowsDraws outside)
    (rest : ∀ value, (next value).FollowsDraws outside) :
    (action >>= next).FollowsDraws outside := by
  intro journal other same
  obtain ⟨result_eq, drawn_eq⟩ := first journal other same
  rw [outcome_bind, outcome_bind]
  cases outcome : action.outcome outside journal with
  | mk result between =>
    cases outcome_other : action.outcome outside other with
    | mk result_other between_other =>
      rw [outcome, outcome_other] at result_eq drawn_eq
      subst result_eq
      cases result with
      | error fault => exact ⟨rfl, drawn_eq⟩
      | ok value => exact rest value between between_other drawn_eq

theorem ite {condition : Prop} [Decidable condition] {yes no : Desk α}
    (first : yes.FollowsDraws outside) (second : no.FollowsDraws outside) :
    (if condition then yes else no).FollowsDraws outside := by
  split
  · exact first
  · exact second

end FollowsDraws

end Desk

variable {venue : Venue} {outside : Outside} {journal : Journal} {draft order : Order}
  {stages others : List Stage} {signing : Option Signer}

/-! ## Estimates and nonces -/

/-- Whether the estimate of gas depends on what is asked only. -/
def Outside.EstimatesSteadily (outside : Outside) : Prop :=
  ∀ isBook isInternal token0 token1,
    (OrderApi.estimateGas isBook isInternal token0 token1).Steady outside

/-- So it is where each reply depends on the method and its values only. -/
theorem Outside.EstimatesSteadily.of_reply
    (same : ∀ earlier request later other, request.method = other.method →
      request.params = other.params → outside.reply earlier request = outside.reply later other) :
    outside.EstimatesSteadily := by
  intro isBook isInternal token0 token1
  have sends : ∀ method params, (Desk.send method params).Steady outside := by
    intro method params
    refine ⟨(Desk.checkParams params).map fun _ => outside.reply [] ⟨0, method, params⟩, ?_⟩
    intro journal
    rw [Desk.outcome_send]
    cases Desk.checkParams params with
    | error fault => rfl
    | ok _ => exact congrArg Except.ok (same _ _ _ _ rfl rfl)
  exact ((sends _ _).bind fun _ => ⟨_, .within _⟩).bind fun _ => ⟨_, .lift _⟩

theorem OrderApi.estimateGas_quiet {isBook isInternal : Bool} {token0 token1 : Text}
    (steady : outside.EstimatesSteadily) :
    (OrderApi.estimateGas isBook isInternal token0 token1).Quiet outside := by
  refine ⟨steady _ _ _ _, fun journal => ?_⟩
  rw [estimateGas, journal_call_read, Desk.outcome_send]
  cases Desk.checkParams _ <;> rfl

theorem viewCall_quiet {target : Address} {signature : String} {types results : List Abi.WordType}
    {values : Abi.Values types} {block : Option BlockName} :
    (viewCall target signature types values results block).Quiet outside :=
  .bind (.lift _) fun _ => .bind (.ask _ _) fun _ => .lift _

theorem Nonce.isUsedBy_quiet {settlement user : Address} {nonce : Int} {block : Option BlockName} :
    (Nonce.isUsedBy settlement user nonce block).Quiet outside :=
  .bind (.lift _) fun _ => .bind (.ask _ _) fun _ => .pure _

theorem Nonce.Search.firstUnused_followsDraws {search : Nonce.Search} {settlement user : Address}
    {block : Option BlockName} {exhausted : Fault} (attempts : Nat) :
    (search.firstUnused settlement user block exhausted attempts).FollowsDraws outside := by
  induction attempts with
  | zero => exact (Desk.Quiet.fail exhausted).followsDraws
  | succ attempts ih =>
    have candidate : search.candidate.FollowsDraws outside :=
      .bind (.draw _) fun _ => (Desk.Quiet.pure _).followsDraws
    refine candidate.bind fun nonce => ?_
    refine isUsedBy_quiet.followsDraws.bind fun used => ?_
    exact .ite ih (Desk.Quiet.pure nonce).followsDraws

theorem Nonce.Search.allocateFor_followsDraws {search : Nonce.Search} {deployment : Deployment}
    {user : Address} {name : String} {block : Option BlockName} :
    (search.allocateFor deployment user name block).FollowsDraws outside := by
  refine (Desk.Quiet.lift search.check).followsDraws.bind fun _ => ?_
  split
  · exact firstUnused_followsDraws _
  · have reads : (read : Desk Outside).Quiet outside := ⟨⟨.ok outside, fun _ => rfl⟩, fun _ => rfl⟩
    exact reads.followsDraws.bind fun _ => firstUnused_followsDraws _

/-! ## Preparing -/

namespace Stage

def isNonce : Stage → Bool
  | nonce _ => true
  | _ => false

/-- Whether a stage is one of those that stand before a signer. -/
def isEarly : Stage → Bool
  | nonce _ | gas | balance => true
  | signer _ | refuse _ | record => false

theorem estimate_quiet (steady : outside.EstimatesSteadily) :
    (estimate venue order).Quiet outside := by
  have asked : ∀ isBook isInternal token0 token1,
      (venue.estimateGas isBook isInternal token0 token1).Quiet outside := by
    intro isBook isInternal token0 token1
    unfold Venue.estimateGas
    split
    · exact .fail _
    · exact OrderApi.estimateGas_quiet steady
    · exact .fail _
  exact (asked _ _ _ _).bind fun _ => .ite (.pure _) (.fail _)

theorem checkBalance_quiet : (checkBalance order).Quiet outside := by
  have balance : (tokenBalance order.assetIn order.sender none).Quiet outside :=
    viewCall_quiet.bind fun _ => .pure _
  exact balance.bind fun _ => .ite (.ite (.fail _) (.fail _)) (.pure _)

/-- Only a nonce stage draws. The others prepare the same whatever was done before. -/
theorem prepare_quiet (steady : outside.EstimatesSteadily) {stage : Stage}
    (drawsNothing : stage.isNonce = false) : (stage.prepare venue order).Quiet outside := by
  cases stage with
  | nonce search => cases drawsNothing
  | gas => exact (estimate_quiet steady).bind fun _ => .pure _
  | balance => exact checkBalance_quiet.bind fun _ => .pure _
  | signer account => exact .pure _
  | refuse reason => exact .fail _
  | record => exact .pure _

theorem prepare_followsDraws (steady : outside.EstimatesSteadily) (stage : Stage) :
    (stage.prepare venue order).FollowsDraws outside := by
  cases stage with
  | nonce search =>
    exact .ite (Nonce.Search.allocateFor_followsDraws.bind fun _ => (Desk.Quiet.pure _).followsDraws)
      (Desk.Quiet.pure _).followsDraws
  | _ => exact (prepare_quiet steady rfl).followsDraws

/-- What a stage prepares for an order if it is the only one. -/
def preparesAlone (venue : Venue) (outside : Outside) (journal : Journal) (order : Order)
    (stage : Stage) : Except Fault StageOutput :=
  ((stage.prepare venue order).outcome outside journal).1

/-- At most one stage draws: what it draws shows in none of the others, whether they come before it
or after it. -/
theorem outcomes_prepare (steady : outside.EstimatesSteadily) (once : stages.countP isNonce ≤ 1)
    (journal : Journal) :
    (Desk.outcomes outside (stages.map (prepare venue order)) journal).1 =
      stages.map (preparesAlone venue outside journal order) := by
  induction stages generalizing journal with
  | nil => rfl
  | cons stage stages ih =>
    rw [List.countP_cons] at once
    rw [List.map_cons, List.map_cons, Desk.outcomes]
    dsimp only
    rw [ih (by omega)]
    refine congrArg (_ :: ·) (List.map_congr_left fun later mem => ?_)
    by_cases draws : stage.isNonce = true
    · rw [if_pos draws] at once
      have others_quiet := List.countP_eq_zero.mp (Nat.le_zero.mp (Nat.le_of_add_le_add_right once))
      have quiet : (later.prepare venue order).Quiet outside :=
        prepare_quiet steady (Bool.not_eq_true _ ▸ others_quiet later mem)
      exact quiet.steady.result_eq _ _
    · have quiet : (stage.prepare venue order).Quiet outside :=
        prepare_quiet steady (Bool.not_eq_true _ ▸ draws)
      exact (prepare_followsDraws steady later _ _ (quiet.drawn_eq journal)).1

end Stage

/-! ## Writing -/

namespace StageOutput

/-- Whether two outputs are written to one field. -/
def SharesField : StageOutput → StageOutput → Prop
  | nonce _, nonce _ | gas _, gas _ | signer _, signer _ => True
  | _, _ => False

theorem writeTo_comm {first second : StageOutput}
    (agree : first.SharesField second → first = second) (order : Order) :
    second.writeTo (first.writeTo order) = first.writeTo (second.writeTo order) := by
  by_cases shares : first.SharesField second
  · rw [agree shares]
  · cases first <;> cases second
    case nonce.nonce | gas.gas | signer.signer => exact absurd (by trivial) shares
    case nonce.gas => exact order.withFee_withNonce _ _
    case gas.nonce => exact (order.withFee_withNonce _ _).symm
    case nonce.signer => exact (order.withNonce_recipient _ _).symm
    case signer.nonce => exact order.withNonce_recipient _ _
    case gas.signer => exact (order.withFee_recipient _ _).symm
    case signer.gas => exact order.withFee_recipient _ _
    all_goals rfl

theorem foldl_writeTo_perm {outputs others : List StageOutput} (perm : outputs.Perm others)
    (agree : ∀ first ∈ outputs, ∀ second ∈ outputs, first.SharesField second → first = second)
    (order : Order) : outputs.foldl writeTo order = others.foldl writeTo order :=
  perm.foldl_eq' (fun first mem second mem_second order =>
    writeTo_comm (agree first mem second mem_second) order) order

end StageOutput

/-! ## Pipelines with the same stages -/

theorem eq_of_countP_le_one {α : Type} {p : α → Bool} {items : List α} {first second : α}
    (once : items.countP p ≤ 1) (first_mem : first ∈ items) (second_mem : second ∈ items)
    (first_holds : p first) (second_holds : p second) : first = second := by
  have first_mem := List.mem_filter.mpr ⟨first_mem, first_holds⟩
  have second_mem := List.mem_filter.mpr ⟨second_mem, second_holds⟩
  rw [List.countP_eq_length_filter] at once
  obtain ⟨only, kept⟩ := List.length_eq_one_iff.mp
    (le_antisymm once (List.length_pos_of_mem first_mem))
  rw [kept, List.mem_singleton] at first_mem second_mem
  rw [first_mem, second_mem]

namespace Pipeline

/-- Stages, and at their end the signer, if there is one. -/
def signedBy (signing : Option Signer) (stages : List Stage) : Pipeline :=
  ⟨stages ++ (signing.map .signer).toList⟩

section SignedBy

variable (early : ∀ stage ∈ stages, stage.isEarly)
include early

theorem addAll_early {earlier : List Stage} (before : ∀ stage ∈ earlier, stage.isEarly) :
    stages.foldlM add ⟨earlier⟩ = .ok ⟨earlier ++ stages⟩ := by
  induction stages generalizing earlier with
  | nil => exact congrArg (Except.ok ∘ Pipeline.mk) (List.append_nil earlier).symm
  | cons stage stages ih =>
    obtain ⟨here, early⟩ := List.forall_mem_cons.mp early
    have added : add ⟨earlier⟩ stage = .ok ⟨earlier ++ [stage]⟩ := by
      refine if_neg fun signed => ?_
      obtain ⟨front, account, split⟩ := endsSigned_iff.mp signed
      cases before (.signer account) (by rw [show earlier = _ from split]; simp)
    rw [List.foldlM_cons, added, ok_bind, ih early, List.append_assoc, List.singleton_append]
    exact List.forall_mem_append.mpr ⟨before, List.forall_mem_singleton.mpr here⟩

theorem signedBy_built (signing : Option Signer) :
    ofStages (signedBy signing stages).stages = .ok (signedBy signing stages) := by
  have front : stages.foldlM add empty = .ok ⟨stages⟩ := addAll_early early nofun
  have unsigned : (⟨stages⟩ : Pipeline).endsSigned ≠ true := by
    intro signed
    obtain ⟨front, account, split⟩ := endsSigned_iff.mp signed
    cases early (.signer account) (by rw [show stages = _ from split]; simp)
  rw [ofStages, signedBy, List.foldlM_append, front, ok_bind]
  cases signing with
  | none => exact congrArg (Except.ok ∘ Pipeline.mk) (List.append_nil stages).symm
  | some account =>
    change (add ⟨stages⟩ (.signer account) >>= pure) = _
    rw [add, if_neg unsigned]
    rfl

theorem signedBy_signer? (signing : Option Signer) :
    (signedBy signing stages).signer? = signing := by
  have unsigned : stages.findSome? Stage.signer? = none := by
    refine List.findSome?_eq_none_iff.mpr fun stage mem => ?_
    have here := early stage mem
    cases stage with
    | signer account => cases here
    | _ => rfl
  rw [Pipeline.signer?, signedBy, List.findSome?_append, unsigned]
  cases signing <;> rfl

theorem signedBy_builtIn : ∀ stage ∈ (signedBy signing stages).stages, stage.isBuiltIn := by
  refine List.forall_mem_append.mpr ⟨fun stage mem => ?_, fun stage mem => ?_⟩
  · have here := early stage mem
    cases stage with
    | refuse | record => cases here
    | _ => rfl
  · cases signing with
    | none => cases mem
    | some account =>
      obtain rfl := List.mem_singleton.mp mem
      rfl

end SignedBy

theorem signedBy_once (once : stages.countP Stage.isNonce ≤ 1) :
    (signedBy signing stages).stages.countP Stage.isNonce ≤ 1 := by
  rw [signedBy, List.countP_append]
  cases signing <;> exact once

/-- Two stages whose outputs go to one field are the same stage. -/
theorem stage_eq_of_sharesField {pipeline : Pipeline} {first second : Stage}
    {output other : StageOutput} (last : pipeline.SignsLast)
    (once : pipeline.stages.countP Stage.isNonce ≤ 1) (first_mem : first ∈ pipeline.stages)
    (second_mem : second ∈ pipeline.stages) (prepares : first.Prepares venue outside order output)
    (prepares_other : second.Prepares venue outside order other)
    (shares : output.SharesField other) : first = second := by
  cases prepares <;> cases prepares_other
  case nonce.nonce => exact eq_of_countP_le_one once first_mem second_mem rfl rfl
  case gas.gas => rfl
  case signer.signer =>
    have same := (last.signer_last first_mem).2.symm.trans (last.signer_last second_mem).2
    rw [Option.some.inj same]
  all_goals cases shares

theorem prepared_agree {pipeline : Pipeline} {outputs : List StageOutput}
    (last : pipeline.SignsLast) (once : pipeline.stages.countP Stage.isNonce ≤ 1)
    (prepared : (pipeline.stages.map (Stage.preparesAlone venue outside journal order)).mapM id =
      .ok outputs) :
    ∀ first ∈ outputs, ∀ second ∈ outputs, first.SharesField second → first = second := by
  have results_eq := mapM_id_eq_ok.mp prepared
  have source : ∀ output ∈ outputs, ∃ stage ∈ pipeline.stages,
      stage.preparesAlone venue outside journal order = .ok output := by
    intro output mem
    have mem := List.mem_map_of_mem (f := (Except.ok : StageOutput → Except Fault StageOutput)) mem
    rw [← results_eq] at mem
    exact List.mem_map.mp mem
  intro first first_mem second second_mem shares
  obtain ⟨stage, stage_mem, alone⟩ := source first first_mem
  obtain ⟨other, other_mem, other_alone⟩ := source second second_mem
  obtain rfl := stage_eq_of_sharesField last once stage_mem other_mem
    (Stage.prepares_of_yields ⟨journal, alone⟩) (Stage.prepares_of_yields ⟨journal, other_alone⟩)
    shares
  exact Except.ok.inj (alone.symm.trans other_alone)

section Permuted

variable (steady : outside.EstimatesSteadily) (early : ∀ stage ∈ stages, stage.isEarly)
  (once : stages.countP Stage.isNonce ≤ 1) (perm : stages.Perm others)
include steady early once perm

/-- An order that is filled through some stages is filled alike through the same stages in another
order. -/
theorem fill_ok_of_perm {later : Journal} {filled : Order} (same : journal.drawn = later.drawn)
    (given : (((signedBy signing stages).fill venue draft).outcome outside journal).1 =
      .ok filled) :
    (((signedBy signing others).fill venue draft).outcome outside later).1 = .ok filled := by
  have early_others : ∀ stage ∈ others, stage.isEarly :=
    fun stage mem => early stage (perm.mem_iff.mpr mem)
  have once_others : others.countP Stage.isNonce ≤ 1 := perm.countP_eq _ ▸ once
  have last := (ofStages_ok (signedBy_built early signing)).2
  have last_others := (ofStages_ok (signedBy_built early_others signing)).2
  have signs := signedBy_signer? early signing
  have signs_others := signedBy_signer? early_others signing
  have adopted : (signedBy signing others).adopt draft = (signedBy signing stages).adopt draft := by
    rw [adopt, adopt, signs, signs_others]
  rw [fill_outcome last (signedBy_builtIn early), preparations,
    Stage.outcomes_prepare steady (signedBy_once once)] at given
  rw [fill_outcome last_others (signedBy_builtIn early_others), preparations,
    Stage.outcomes_prepare steady (signedBy_once once_others), adopted]
  have alike : Stage.preparesAlone venue outside later ((signedBy signing stages).adopt draft) =
      Stage.preparesAlone venue outside journal ((signedBy signing stages).adopt draft) := by
    funext stage
    exact (Stage.prepare_followsDraws steady stage _ _ same.symm).1
  rw [alike]
  obtain ⟨outputs, prepared, finished⟩ := bind_eq_ok.mp given
  have whole : (signedBy signing others).stages.Perm (signedBy signing stages).stages :=
    perm.symm.append_right _
  -- the outputs of the other pipeline are these in its order
  obtain ⟨reordered, each, outputs_perm⟩ := List.perm_comp_forall₂ whole
    (List.forall₂_map_left_iff.mp (mapM_eq_ok.mp prepared))
  have prepared_others := mapM_eq_ok.mpr (List.forall₂_map_left_iff.mpr each)
  have agree := prepared_agree last (signedBy_once once) prepared
  rw [prepared_others, ok_bind, finish, signs_others]
  rw [finish, signs] at finished
  have enriched : (signedBy signing others).enrich draft reordered =
      (signedBy signing stages).enrich draft outputs := by
    rw [enrich, enrich, adopted, StageOutput.foldl_writeTo_perm outputs_perm.symm agree]
  rw [enriched, finished]

end Permuted

/-- The stages before the signer may stand in any order: both pipelines can be built, and they fill
each draft alike or fail both, wherever the same candidates were drawn before. -/
theorem fill_perm (signing : Option Signer) (early : ∀ stage ∈ stages, stage.isEarly)
    (once : stages.countP Stage.isNonce ≤ 1) (perm : stages.Perm others) :
    ofStages (signedBy signing stages).stages = .ok (signedBy signing stages) ∧
    ofStages (signedBy signing others).stages = .ok (signedBy signing others) ∧
    ∀ (venue : Venue) (outside : Outside) (draft : Order) (journal later : Journal),
      outside.EstimatesSteadily → journal.drawn = later.drawn →
      (((signedBy signing stages).fill venue draft).outcome outside journal).1.toOption =
        (((signedBy signing others).fill venue draft).outcome outside later).1.toOption := by
  have early_others : ∀ stage ∈ others, stage.isEarly :=
    fun stage mem => early stage (perm.mem_iff.mpr mem)
  have once_others : others.countP Stage.isNonce ≤ 1 := perm.countP_eq _ ▸ once
  refine ⟨signedBy_built early signing, signedBy_built early_others signing, ?_⟩
  intro venue outside draft journal later steady same
  apply Option.ext
  intro filled
  constructor
  · intro given
    have filled_ok := fill_ok_of_perm steady early once perm same (ok_of_toOption given)
    exact congrArg Except.toOption filled_ok
  · intro given
    have filled_ok := fill_ok_of_perm steady early_others once_others perm.symm same.symm
      (ok_of_toOption given)
    exact congrArg Except.toOption filled_ok

/-- The trade of a thousand, with the stages of the usual pipeline the other way round. -/
theorem fill_perm_trade :
    ofStages [.balance, .gas, .nonce ⟨none, 0⟩, .signer usualSigner] =
      .ok (signedBy (some usualSigner) [.balance, .gas, .nonce ⟨none, 0⟩]) ∧
    (((signedBy (some usualSigner) [.balance, .gas, .nonce ⟨none, 0⟩]).fill usualVenue
      (tradeFrom .zero)).outcome (outsideBut [] []) .empty).1 = .ok filledTrade := by
  have steady : (outsideBut [] []).EstimatesSteadily := .of_reply fun _ _ _ _ _ _ => rfl
  have reversed : List.Perm [Stage.nonce ⟨none, 0⟩, .gas, .balance]
      [.balance, .gas, .nonce ⟨none, 0⟩] := (List.reverse_perm _).symm
  obtain ⟨-, built, same⟩ := fill_perm (some usualSigner) (by decide) (by decide) reversed
  refine ⟨built, ok_of_toOption ?_⟩
  rw [← same usualVenue (outsideBut [] []) (tradeFrom .zero) .empty .empty steady rfl]
  exact congrArg Except.toOption ownTrade_fill

end Pipeline

end OrderDesk
