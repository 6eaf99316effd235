import OrderDesk.Proofs.Pipeline.Stage

/-!
# Filled orders

* `Pipeline.ofStages_error_iff`: stages are refused exactly if one of them follows a signer.
* `Pipeline.SignsLast.signer_last`: an accepted pipeline with a signer ends with it, and has no other.
* `Pipeline.fill_ok`: a filled order comes from the draft by applying what every stage prepared.
* `Pipeline.Fills`: what that says about the sender, the balance, the nonce and the fee.
-/

namespace OrderDesk

variable {venue : Venue} {outside : Outside} {journal : Journal} {draft order after filled : Order}
  {stages : List Stage} {pipeline : Pipeline} {signer : Signer}

/-! ## The signer comes last -/

namespace Pipeline

/-- Whether only the last stage may sign. -/
def SignsLast (pipeline : Pipeline) : Prop :=
  ∀ stage ∈ pipeline.stages.dropLast, stage.signer? = none

theorem add_ok {next : Pipeline} {stage : Stage} (last : pipeline.SignsLast)
    (given : pipeline.add stage = .ok next) :
    next.stages = pipeline.stages ++ [stage] ∧ next.SignsLast := by
  unfold add at given
  split at given
  · cases given
  · rename_i unsigned
    cases given
    refine ⟨rfl, ?_⟩
    intro other mem
    rw [List.dropLast_concat] at mem
    rcases List.eq_nil_or_concat pipeline.stages with none | ⟨init, final, split⟩
    · rw [none] at mem
      cases mem
    · rw [List.concat_eq_append] at split
      rw [split, List.mem_append, List.mem_singleton] at mem
      rcases mem with earlier | rfl
      · apply last other
        rwa [split, List.dropLast_concat]
      · simpa [endsSigned, split] using unsigned

theorem endsSigned_iff : pipeline.endsSigned = true ↔
    ∃ earlier account, pipeline.stages = earlier ++ [.signer account] := by
  unfold endsSigned
  rcases List.eq_nil_or_concat pipeline.stages with none | ⟨earlier, last, split⟩
  · simp [none]
  · rw [List.concat_eq_append] at split
    rw [split, List.getLast?_concat]
    cases last <;> simp [Stage.signer?]

theorem add_error {fault : Fault} {stage : Stage} (given : pipeline.add stage = .error fault) :
    fault = .signerNotLast ∧ ∃ earlier account, pipeline.stages = earlier ++ [.signer account] := by
  unfold add at given
  split at given
  · rename_i signed
    cases given
    exact ⟨rfl, endsSigned_iff.mp signed⟩
  · cases given

theorem addAll_ok {next : Pipeline} (last : pipeline.SignsLast)
    (given : stages.foldlM add pipeline = .ok next) :
    next.stages = pipeline.stages ++ stages ∧ next.SignsLast := by
  induction stages generalizing pipeline with
  | nil =>
    cases given
    exact ⟨(List.append_nil _).symm, last⟩
  | cons stage stages ih =>
    rw [List.foldlM_cons] at given
    obtain ⟨between, between_ok, given⟩ := bind_eq_ok.mp given
    obtain ⟨between_eq, between_last⟩ := add_ok last between_ok
    obtain ⟨next_eq, next_last⟩ := ih between_last given
    refine ⟨?_, next_last⟩
    rw [next_eq, between_eq, List.append_assoc, List.singleton_append]

theorem addAll_error {fault : Fault} (given : stages.foldlM add pipeline = .error fault)
    (last : pipeline.SignsLast) : fault = .signerNotLast ∧
      ∃ earlier account rest, pipeline.stages ++ stages = earlier ++ .signer account :: rest ∧
        rest ≠ [] := by
  induction stages generalizing pipeline with
  | nil => cases given
  | cons stage stages ih =>
    rw [List.foldlM_cons] at given
    cases added : pipeline.add stage with
    | ok next =>
      obtain ⟨next_eq, next_last⟩ := add_ok last added
      rw [added, ok_bind] at given
      obtain ⟨fault_eq, signed⟩ := ih given next_last
      rw [next_eq, List.append_assoc, List.singleton_append] at signed
      exact ⟨fault_eq, signed⟩
    | error fault =>
      obtain ⟨rfl, earlier, account, split⟩ := add_error added
      rw [added, error_bind] at given
      cases given
      refine ⟨rfl, earlier, account, stage :: stages, ?_, List.cons_ne_nil _ _⟩
      rw [split, List.append_assoc, List.singleton_append]

theorem SignsLast.empty : Pipeline.empty.SignsLast := by
  intro stage mem
  cases mem

theorem ofStages_ok (given : ofStages stages = .ok pipeline) :
    pipeline.stages = stages ∧ pipeline.SignsLast := by
  obtain ⟨stages_eq, last⟩ := addAll_ok .empty given
  exact ⟨stages_eq, last⟩

/-- Stages make a pipeline unless one of them follows a signer. -/
theorem ofStages_error_iff : ofStages stages = .error .signerNotLast ↔
    ∃ earlier account rest, stages = earlier ++ .signer account :: rest ∧ rest ≠ [] := by
  constructor
  · intro given
    exact (addAll_error given .empty).2
  · rintro ⟨earlier, account, rest, rfl, more⟩
    cases given : ofStages (earlier ++ .signer account :: rest) with
    | ok pipeline =>
      obtain ⟨stages_eq, last⟩ := ofStages_ok given
      have early : .signer account ∈ pipeline.stages.dropLast := by
        rw [stages_eq, List.dropLast_append_of_ne_nil (List.cons_ne_nil _ _),
          List.dropLast_cons_of_ne_nil more]
        exact List.mem_append_right _ List.mem_cons_self
      cases last _ early
    | error fault => rw [(addAll_error given .empty).1]

theorem SignsLast.signer_last (last : pipeline.SignsLast) (mem : .signer signer ∈ pipeline.stages) :
    pipeline.stages = pipeline.stages.dropLast ++ [.signer signer] ∧
      pipeline.signer? = some signer := by
  have split := List.dropLast_append_getLast (List.ne_nil_of_mem mem)
  have final : pipeline.stages.getLast (List.ne_nil_of_mem mem) = .signer signer := by
    rw [← split, List.mem_append, List.mem_singleton] at mem
    rcases mem with earlier | here
    · cases last _ earlier
    · exact here.symm
  rw [final] at split
  refine ⟨split.symm, ?_⟩
  rw [signer?, ← split, List.findSome?_append, List.findSome?_eq_none_iff.mpr last]
  rfl

end Pipeline

/-! ## All stages apply -/

/-- What applying prepared outputs one after the other changes. -/
inductive AppliesAll : Order → List (Stage × StageOutput) → Order → Prop
  | nil {order : Order} : AppliesAll order [] order
  | cons {order between after : Order} {stage : Stage} {output : StageOutput}
      {rest : List (Stage × StageOutput)} (first : stage.Applies order output between)
      (others : AppliesAll between rest after) : AppliesAll order ((stage, output) :: rest) after

variable {prepared : List (Stage × StageOutput)}

theorem AppliesAll.preserves {q : Order → Prop} (applies : AppliesAll order prepared after)
    (step : ∀ pair ∈ prepared, ∀ before next, pair.1.Applies before pair.2 next →
      q before → q next) (start : q order) : q after := by
  induction applies with
  | nil => exact start
  | cons first _ ih =>
    apply ih
    · intro pair mem
      exact step pair (List.mem_cons_of_mem _ mem)
    · exact step _ List.mem_cons_self _ _ first start

theorem AppliesAll.establishes {q : Order → Prop} {pair : Stage × StageOutput}
    (applies : AppliesAll order prepared after) (mem : pair ∈ prepared)
    (sets : ∀ before next, pair.1.Applies before pair.2 next → q next)
    (step : ∀ pair ∈ prepared, ∀ before next, pair.1.Applies before pair.2 next →
      q before → q next) : q after := by
  induction applies with
  | nil => cases mem
  | cons first others ih =>
    have later := fun pair mem => step pair (List.mem_cons_of_mem _ mem)
    rcases List.mem_cons.mp mem with here | there
    · subst here
      exact others.preserves later (sets _ _ first)
    · exact ih there later

theorem AppliesAll.assetIn_eq (applies : AppliesAll order prepared after) :
    after.assetIn = order.assetIn := by
  apply applies.preserves (q := (·.assetIn = order.assetIn)) _ rfl
  intro pair _ before next step same
  rw [step.assetIn_eq, same]

theorem AppliesAll.amount_eq (applies : AppliesAll order prepared after) :
    after.requiredInput - after.fee = order.requiredInput - order.fee := by
  apply applies.preserves
    (q := fun now => now.requiredInput - now.fee = order.requiredInput - order.fee) _ rfl
  intro pair _ before next step same
  rw [step.amount_eq, same]

theorem applyAll_ok (prepares : ∀ pair ∈ prepared, pair.1.Prepares venue outside draft pair.2)
    (given : (Pipeline.applyAll order prepared).Yields outside after) :
    AppliesAll order prepared after := by
  induction prepared generalizing order with
  | nil =>
    cases given.of_pure
    exact .nil
  | cons pair prepared ih =>
    obtain ⟨stage, output⟩ := pair
    rw [Pipeline.applyAll, List.foldlM_cons] at given
    obtain ⟨between, first, given⟩ := given.of_bind
    refine .cons ((prepares _ List.mem_cons_self).applies first) (ih ?_ given)
    intro pair mem
    exact prepares pair (List.mem_cons_of_mem _ mem)

/-! ## Filling -/

namespace Pipeline

theorem adopt_sender (signs : pipeline.signer? = some signer) :
    (pipeline.adopt draft).sender =
      if draft.sender = .zero then signer.address else draft.sender := by
  unfold adopt
  rw [signs]
  simp only
  split <;> rfl

theorem adopt_of_sender (somebody : draft.sender ≠ .zero) : pipeline.adopt draft = draft := by
  unfold adopt
  cases pipeline.signer? with
  | none => rfl
  | some signer => exact if_neg somebody

theorem adopt_eq (pipeline : Pipeline) (draft : Order) :
    ∃ authorization, pipeline.adopt draft = { draft with authorization } := by
  unfold adopt
  split
  · split
    · exact ⟨_, rfl⟩
    · exact ⟨draft.authorization, rfl⟩
  · exact ⟨draft.authorization, rfl⟩

/-- How a pipeline has filled a draft: what each stage prepared, and that it was applied. -/
structure Fills (pipeline : Pipeline) (venue : Venue) (outside : Outside) (draft filled : Order)
    (prepared : List (Stage × StageOutput)) : Prop where
  stages_eq : prepared.map (·.1) = pipeline.stages
  prepares : ∀ pair ∈ prepared, pair.1.Prepares venue outside (pipeline.adopt draft) pair.2
  applies : AppliesAll (pipeline.adopt draft) prepared filled

theorem prepares_all {outputs : List StageOutput}
    (given : (Desk.all (stages.map (Stage.prepare venue draft))).Yields outside outputs) :
    stages.length = outputs.length ∧
      ∀ pair ∈ stages.zip outputs, pair.1.Prepares venue outside draft pair.2 := by
  have each := given.of_all
  rw [List.forall₂_map_left_iff, List.forall₂_iff_zip] at each
  obtain ⟨same_length, each⟩ := each
  exact ⟨same_length, fun pair mem => Stage.prepares_of_yields (each mem)⟩

theorem fill_ok (given : (pipeline.fill venue draft).Yields outside filled) :
    ∃ prepared, Fills pipeline venue outside draft filled prepared := by
  obtain ⟨outputs, outputs_ok, given⟩ := given.of_bind
  obtain ⟨same_length, prepares⟩ := prepares_all outputs_ok
  exact ⟨_, List.map_fst_zip same_length.le, prepares, applyAll_ok prepares given⟩

theorem fill_of {outputs : List StageOutput}
    (prepared : ((Desk.all (pipeline.stages.map (Stage.prepare venue
      (pipeline.adopt draft)))).outcome outside journal).1 = .ok outputs)
    (applied : (applyAll (pipeline.adopt draft) (pipeline.stages.zip outputs)).Answers outside
      (.ok filled)) :
    ((pipeline.fill venue draft).outcome outside journal).1 = .ok filled := by
  rw [fill, Desk.outcome_bind]
  cases outcome : (Desk.all (pipeline.stages.map (Stage.prepare venue
      (pipeline.adopt draft)))).outcome outside journal with
  | mk result between =>
    rw [outcome] at prepared
    subst prepared
    exact applied between

namespace Fills

variable (fills : Fills pipeline venue outside draft filled prepared)
include fills

theorem output_of {stage : Stage} (mem : stage ∈ pipeline.stages) :
    ∃ output, (stage, output) ∈ prepared := by
  rw [← fills.stages_eq] at mem
  obtain ⟨⟨_, output⟩, pair_mem, rfl⟩ := List.mem_map.mp mem
  exact ⟨output, pair_mem⟩

theorem stage_mem {pair : Stage × StageOutput} (mem : pair ∈ prepared) :
    pair.1 ∈ pipeline.stages := by
  rw [← fills.stages_eq]
  exact List.mem_map_of_mem mem

theorem sender_eq (last : pipeline.SignsLast) (signs : .signer signer ∈ pipeline.stages) :
    filled.sender = signer.address := by
  have only : ∀ pair ∈ prepared, ∀ account, pair.1 = .signer account → account = signer := by
    intro pair mem account here
    have among := fills.stage_mem mem
    rw [here] at among
    have same := (last.signer_last among).2.symm.trans (last.signer_last signs).2
    exact Option.some.inj same
  obtain ⟨output, mem⟩ := fills.output_of signs
  apply fills.applies.establishes (q := (·.sender = signer.address)) mem
  · intro before next step
    cases fills.prepares _ mem
    cases step with
    | signer signed => exact Signer.sign_sender signed
  · intro pair pair_mem before next step
    apply step.sender_of (p := (· = signer.address))
    intro account here
    rw [only pair pair_mem account here]

theorem covers_draft (balances : .balance ∈ pipeline.stages) :
    ∃ available, Holds outside filled.assetIn (pipeline.adopt draft).sender available ∧
      draft.requiredInput ≤ available := by
  obtain ⟨output, mem⟩ := fills.output_of balances
  obtain ⟨authorization, adopted⟩ := pipeline.adopt_eq draft
  have same : (pipeline.adopt draft).requiredInput = draft.requiredInput := by
    rw [adopted]
    rfl
  cases fills.prepares _ mem with
  | @balance available held enough =>
    rw [fills.applies.assetIn_eq]
    exact ⟨available, held, same ▸ enough⟩

theorem nonce_unused {search : Nonce.Search} (nonces : .nonce search ∈ pipeline.stages)
    (somebody : (pipeline.adopt draft).sender ≠ .zero) {nonce : Int}
    (now : filled.nonce? = some nonce) :
    Nonce.Unused outside venue.deployment.angstrom (pipeline.adopt draft).sender nonce none := by
  have written : ∀ pair ∈ prepared, ∀ value, pair.2 = .nonce value →
      Nonce.Unused outside venue.deployment.angstrom (pipeline.adopt draft).sender value none := by
    rintro ⟨stage, output⟩ mem value rfl
    cases fills.prepares _ mem with
    | nonce due unused => exact unused
  have step : ∀ pair ∈ prepared, ∀ before next, pair.1.Applies before pair.2 next → _ → _ :=
    fun pair mem before next step => step.nonce_of (written pair mem)
  obtain ⟨output, mem⟩ := fills.output_of nonces
  cases fills.prepares _ mem with
  | nonce due unused =>
    refine fills.applies.establishes mem ?_ step nonce now
    intro before next applies nonce now
    cases applies with
    | nonce =>
      rw [Order.nonce?_withNonce, Option.map_eq_some_iff] at now
      obtain ⟨_, -, rfl⟩ := now
      exact unused
  | noNonce undue =>
    refine fills.applies.preserves step ?_ nonce now
    intro nonce standing
    refine absurd ⟨?_, somebody⟩ undue
    rw [Order.isStanding_eq, standing]
    rfl

theorem fee_estimated (gas : .gas ∈ pipeline.stages) :
    (Stage.estimate venue draft).Yields outside filled.fee := by
  have written : ∀ pair ∈ prepared, ∀ cost, pair.2 = .gas cost →
      (Stage.estimate venue (pipeline.adopt draft)).Yields outside cost := by
    rintro ⟨stage, output⟩ mem cost rfl
    cases fills.prepares _ mem with
    | gas estimated => exact estimated
  have same : Stage.estimate venue (pipeline.adopt draft) = Stage.estimate venue draft := by
    obtain ⟨authorization, adopted⟩ := pipeline.adopt_eq draft
    rw [adopted]
    rfl
  obtain ⟨output, mem⟩ := fills.output_of gas
  rw [← same]
  apply fills.applies.establishes
    (q := fun order => (Stage.estimate venue (pipeline.adopt draft)).Yields outside order.fee) mem
  · intro before next step
    cases fills.prepares _ mem with
    | gas estimated =>
      cases step
      rwa [Order.fee_withFee]
  · intro pair pair_mem before next step
    exact step.fee_of (written pair pair_mem)

theorem requiredInput_eq : filled.requiredInput = draft.requiredInput - draft.fee + filled.fee := by
  obtain ⟨authorization, adopted⟩ := pipeline.adopt_eq draft
  have same := fills.applies.amount_eq
  rw [adopted] at same
  change _ = draft.requiredInput - draft.fee at same
  omega

end Fills

end Pipeline

end OrderDesk
