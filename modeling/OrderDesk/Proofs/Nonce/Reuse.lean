import OrderDesk.Proofs.Nonce
import OrderDesk.Proofs.Nonce.Ledger

/-!
# No nonce is allocated twice

A search tries the candidates of its source in order against the ledger that the node shows.

* `Search.firstUnused_finds`, `Search.firstUnused_exhausts`: it ends with the first candidate that
  is not in the ledger, or with its fault.
* `Run.unused`: the nonces found in rounds of searching and marking were not in the ledger before.
* `allocation_never_reuses`: the bitmap is a set, searches find the first candidate outside it, and
  no round finds what an earlier one found.
-/

namespace OrderDesk.Nonce

variable {outside : Outside} {settlement user : Address} {nonce : Int} {block : Option BlockName}
  {ledger : Ledger} {deployment : Deployment} {spelling : String}

/-! ## Searching a ledger -/

namespace Search

variable {search : Search} {exhausted : Fault} {attempts index : Nat} {journal : Journal}

/-- The candidates that the source of a search has still to yield. -/
def candidates (search : Search) (outside : Outside) (journal : Journal) (index : Nat) : Int :=
  let start := (Table.get? journal.drawn search.source).getD 0
  bitField (outside.candidate search.source (start + index)) 0 64

theorem candidates_inRange (search : Search) (outside : Outside) (journal : Journal) (index : Nat) :
    InRange (search.candidates outside journal index) :=
  ⟨Int.emod_nonneg _ (by decide), Int.emod_lt_of_pos _ (by decide)⟩

/-- How many candidates a search tries at most. -/
def bound (search : Search) (outside : Outside) : Nat :=
  match search.maxAttempts with
  | some attempts => attempts.toNat
  | none => outside.patience

/-- How a search ends that has tried all its candidates. -/
def exhaustion (search : Search) (name : String) : Fault :=
  match search.maxAttempts with
  | some attempts => .noncesExhausted name attempts.toNat
  | none => .unfinished

theorem firstUnused_succ (search : Search) (user : Address) (exhausted : Fault)
    (shows : Shows outside settlement block ledger) (attempts : Nat) (journal : Journal) :
    ∃ after : Journal,
      (∀ index, search.candidates outside after index =
        search.candidates outside journal (index + 1)) ∧
      (search.firstUnused settlement user block exhausted (attempts + 1)).outcome outside journal =
        if ledger.has user (search.candidates outside journal 0) = true then
          (search.firstUnused settlement user block exhausted attempts).outcome outside after
        else (.ok (search.candidates outside journal 0), after) := by
  let start := (Table.get? journal.drawn search.source).getD 0
  let drawn : Journal :=
    { journal with drawn := Table.set journal.drawn search.source (start + 1) }
  have draws : search.candidate.outcome outside journal =
      (.ok (search.candidates outside journal 0), drawn) := rfl
  obtain ⟨reads, answered⟩ := isUsedBy_outcome user shows
    (search.candidates_inRange outside journal 0) drawn
  refine ⟨{ drawn with reads := reads }, fun index => ?_, ?_⟩
  · have next : (Table.get? drawn.drawn search.source).getD 0 = start + 1 := by
      simp [drawn, Table.get?_set]
    simp only [candidates, next, start, Nat.add_assoc, Nat.add_comm 1]
  · rw [firstUnused, Desk.outcome_bind, draws]
    simp only [Desk.outcome_bind, answered]
    split <;> rfl

/-- A search ends with the first candidate that is not in the ledger. -/
theorem firstUnused_finds (shows : Shows outside settlement block ledger) (lt : index < attempts)
    (before : ∀ earlier < index,
      ledger.has user (search.candidates outside journal earlier) = true)
    (unused : ledger.has user (search.candidates outside journal index) = false) :
    ((search.firstUnused settlement user block exhausted attempts).outcome outside journal).1 =
      .ok (search.candidates outside journal index) := by
  induction attempts generalizing journal index with
  | zero => exact absurd lt (Nat.not_lt_zero index)
  | succ attempts ih =>
    obtain ⟨after, follows, outcome⟩ :=
      search.firstUnused_succ user exhausted shows attempts journal
    rw [outcome]
    cases index with
    | zero => rw [if_neg (by simp [unused])]
    | succ index =>
      rw [if_pos (before 0 (Nat.succ_pos index)), ← follows index]
      refine ih (Nat.lt_of_succ_lt_succ lt) (fun earlier le => ?_) ?_
      · rw [follows]
        exact before (earlier + 1) (Nat.succ_lt_succ le)
      · rw [follows]
        exact unused

/-- A search that finds all its candidates in the ledger ends with its fault. -/
theorem firstUnused_exhausts (shows : Shows outside settlement block ledger)
    (used : ∀ index < attempts,
      ledger.has user (search.candidates outside journal index) = true) :
    ((search.firstUnused settlement user block exhausted attempts).outcome outside journal).1 =
      .error exhausted := by
  induction attempts generalizing journal with
  | zero => rfl
  | succ attempts ih =>
    obtain ⟨after, follows, outcome⟩ :=
      search.firstUnused_succ user exhausted shows attempts journal
    rw [outcome, if_pos (used 0 (Nat.succ_pos attempts))]
    apply ih
    intro index lt
    rw [follows]
    exact used (index + 1) (Nat.succ_lt_succ lt)

theorem allocate_of_spelling (spelled : Address.parse? spelling = some user) :
    search.allocate deployment spelling block =
      search.allocateFor deployment user spelling block := by
  rw [allocate, spelled]

theorem allocate_eq (spelled : Address.parse? spelling = some user)
    (positive : ∀ attempts, search.maxAttempts = some attempts → 1 ≤ attempts) :
    (search.allocate deployment spelling block).outcome outside journal =
      (search.firstUnused deployment.angstrom user block (search.exhaustion spelling)
        (search.bound outside)).outcome outside journal := by
  rw [allocate_of_spelling spelled]
  cases limited : search.maxAttempts with
  | none =>
    have checked : search.check = .ok () := by rw [check, limited]
    rw [allocateFor, checked, exhaustion, bound, limited]
    rfl
  | some attempts =>
    have checked : search.check = .ok () := by
      simp only [check, limited, if_neg (Int.not_lt.mpr (positive attempts limited))]
    rw [allocateFor, checked, exhaustion, bound, limited]
    rfl

theorem allocate_finds (shows : Shows outside deployment.angstrom block ledger)
    (spelled : Address.parse? spelling = some user) (lt : index < search.bound outside)
    (before : ∀ earlier < index,
      ledger.has user (search.candidates outside journal earlier) = true)
    (unused : ledger.has user (search.candidates outside journal index) = false) :
    ((search.allocate deployment spelling block).outcome outside journal).1 =
      .ok (search.candidates outside journal index) := by
  have positive : ∀ attempts, search.maxAttempts = some attempts → 1 ≤ attempts := by
    intro attempts limited
    rw [bound, limited] at lt
    have room : index < attempts.toNat := lt
    omega
  rw [allocate_eq spelled positive]
  exact firstUnused_finds shows lt before unused

theorem allocate_exhausts_iff (shows : Shows outside deployment.angstrom block ledger)
    (spelled : Address.parse? spelling = some user) (positive : 1 ≤ attempts)
    (limited : search.maxAttempts = some (attempts : Int)) :
    ((search.allocate deployment spelling block).outcome outside journal).1 =
        .error (.noncesExhausted spelling attempts) ↔
      ∀ index < attempts, ledger.has user (search.candidates outside journal index) = true := by
  have bound_eq : search.bound outside = attempts := by
    rw [bound, limited]
    exact Int.toNat_natCast attempts
  have exhaustion_eq : search.exhaustion spelling = .noncesExhausted spelling attempts := by
    simp only [exhaustion, limited, Int.toNat_natCast]
  constructor
  · intro exhausted index
    -- A candidate outside the ledger would have been found once those before it were passed.
    induction index using Nat.strong_induction_on with
    | _ index ih =>
      intro lt
      by_contra unused
      have found := allocate_finds shows spelled (bound_eq.symm ▸ lt)
        (fun earlier le => ih earlier le (le.trans lt)) (Bool.eq_false_of_not_eq_true unused)
      cases found.symm.trans exhausted
  · intro used
    rw [allocate_eq spelled fun _ other => ?_, exhaustion_eq, bound_eq]
    · exact firstUnused_exhausts shows used
    · cases limited.symm.trans other
      exact_mod_cast positive

end Search

/-! ## Rounds of searching and marking -/

/-- Rounds of finding a nonce in what the node shows and marking it. The searches, the accounts, and
what was done in between may differ from round to round. -/
inductive Run (deployment : Deployment) : Ledger → List Entry → Prop
  | done {ledger : Ledger} : Run deployment ledger []
  | round {ledger : Ledger} {search : Search} {outside : Outside} {block : Option BlockName}
      {spelling : String} {user : Address} {nonce : Int} {given : List Entry}
      (shows : Shows outside deployment.angstrom block ledger)
      (spelled : Address.parse? spelling = some user)
      (found : (search.allocate deployment spelling block).Yields outside nonce)
      (rest : Run deployment (ledger.mark (user, nonce)) given) :
      Run deployment ledger ((user, nonce) :: given)

theorem allocate_unused {search : Search} (shows : Shows outside deployment.angstrom block ledger)
    (spelled : Address.parse? spelling = some user)
    (found : (search.allocate deployment spelling block).Yields outside nonce) :
    InRange nonce ∧ ledger.has user nonce = false := by
  rw [Search.allocate_of_spelling spelled] at found
  have unused := Search.allocateFor_unused found
  have within : InRange nonce := inRange_of_yields ⟨.empty, unused .empty⟩
  have answers := isUsedBy_answers_has user shows within
  exact ⟨within, Except.ok.inj ((answers .empty).symm.trans (unused .empty))⟩

/-- Marking only adds to the ledger, so what a later round finds was not there before. -/
theorem Run.unused {given : List Entry} (run : Run deployment ledger given) :
    ∀ entry ∈ given, ledger.has entry.1 entry.2 = false := by
  induction run with
  | done => simp
  | @round ledger search outside block spelling user nonce given shows spelled found rest ih =>
    obtain ⟨within, unused⟩ := allocate_unused shows spelled found
    refine List.forall_mem_cons.mpr ⟨unused, fun entry member => ?_⟩
    by_contra held
    have kept : (ledger.mark (user, nonce)).has entry.1 entry.2 = true :=
      Ledger.has_mark within (Bool.eq_true_of_not_eq_false held)
    cases kept.symm.trans (ih entry member)

theorem Run.nodup {given : List Entry} (run : Run deployment ledger given) : given.Nodup := by
  induction run with
  | done => exact List.nodup_nil
  | @round ledger search outside block spelling user nonce given shows spelled found rest ih =>
    obtain ⟨within, -⟩ := allocate_unused shows spelled found
    refine List.nodup_cons.mpr ⟨fun again => ?_, ih⟩
    have marked : (ledger.mark (user, nonce)).has user nonce = true := Ledger.mark_has within
    have unmarked : (ledger.mark (user, nonce)).has user nonce = false :=
      rest.unused (user, nonce) again
    cases marked.symm.trans unmarked

/-! ## The bitmap as a set -/

/-- After nonces were marked, a nonce is used exactly if it is one of them, and a search finds the
first of its candidates that is none of them; with a bound, it gives up exactly if the first
candidates are all among them. Nonces found one after another are all different and new. -/
theorem allocation_never_reuses {stored : Ledger} {entries : List Entry} {asked : Set Int}
    (fresh : stored.Fresh) (within : ∀ entry ∈ entries, InRange entry.2)
    (shows : Shows outside deployment.angstrom block (stored.markAll entries))
    (spelled : Address.parse? spelling = some user)
    (apart : Set.InjOn Keccak.hash (Ledger.involved entries user asked)) :
    (∀ nonce ∈ asked,
      ((isUsed deployment spelling nonce block).Answers outside (.ok true) ↔
        (user, nonce) ∈ entries) ∧
      (InRange nonce →
        ∃ used, (isUsed deployment spelling nonce block).Answers outside (.ok used))) ∧
    (∀ (search : Search) (journal : Journal),
      let candidate := search.candidates outside journal
      let result := ((search.allocate deployment spelling block).outcome outside journal).1
      (∀ index < search.bound outside, (∀ earlier ≤ index, candidate earlier ∈ asked) →
        (∀ earlier < index, (user, candidate earlier) ∈ entries) →
        (user, candidate index) ∉ entries → result = .ok (candidate index)) ∧
      (∀ attempts : Nat, 1 ≤ attempts → search.maxAttempts = some (attempts : Int) →
        (∀ index < attempts, candidate index ∈ asked) →
        (result = .error (.noncesExhausted spelling attempts) ↔
          ∀ index < attempts, (user, candidate index) ∈ entries))) ∧
    ∀ given, Run deployment (stored.markAll entries) given →
      given.Nodup ∧ ∀ entry ∈ given, entry ∉ entries := by
  have exact {nonce : Int} (asks : nonce ∈ asked) (nonce_within : InRange nonce) :
      (stored.markAll entries).has user nonce = true ↔ (user, nonce) ∈ entries :=
    Ledger.has_markAll fresh within apart asks nonce_within
  refine ⟨fun nonce asks => ?_, fun search journal => ?_, fun given run => ⟨run.nodup, ?_⟩⟩
  · rw [isUsed_eq spelled]
    by_cases nonce_within : InRange nonce
    · have answers := isUsedBy_answers_has user shows nonce_within
      rw [← exact asks nonce_within]
      refine ⟨⟨fun used => ?_, fun held => held ▸ answers⟩, fun _ => ⟨_, answers⟩⟩
      exact Except.ok.inj ((answers .empty).symm.trans (used .empty))
    · refine ⟨⟨fun used => ?_, fun member => ?_⟩, fun again => absurd again nonce_within⟩
      · exact absurd (inRange_of_yields ⟨.empty, used .empty⟩) nonce_within
      · exact absurd (within _ member) nonce_within
  · intro candidate result
    have marked {index : Nat} (asks : candidate index ∈ asked) :
        (stored.markAll entries).has user (candidate index) = true ↔
          (user, candidate index) ∈ entries :=
      exact asks (search.candidates_inRange outside journal index)
    refine ⟨fun index lt asks before new => ?_, fun attempts positive limited asks => ?_⟩
    · refine Search.allocate_finds shows spelled lt (fun earlier le => ?_) ?_
      · exact (marked (asks earlier le.le)).mpr (before earlier le)
      · exact Bool.eq_false_of_not_eq_true fun held => new ((marked (asks index le_rfl)).mp held)
    · rw [Search.allocate_exhausts_iff shows spelled positive limited]
      exact forall₂_congr fun index lt => marked (asks index lt)
  · intro entry member old
    have held : (stored.markAll entries).has entry.1 entry.2 = true :=
      Ledger.markAll_has within old
    cases held.symm.trans (run.unused entry member)

/-- A node that shows a ledger, and a source that yields 0x500 first and then 0x501. -/
def showing (ledger : Ledger) : Outside where
  node := {
    blockNumber := .ok 100
    storage := fun _ key _ => .ok (ledger key)
    code := fun _ _ => .ok []
    call := fun _ _ _ => .ok []
    deploy := fun _ _ => .ok [] }
  reply := fun _ _ => .dropped ""
  candidate := fun _ index => if index = 0 then 0x500 else 2 ^ 64 + 0x501
  choose := fun low _ => low
  patience := 2

def maker : Address := .ofNat 0x4242424242424242424242424242424242424242

def taker : Address := .ofNat 0x4343434343434343434343434343434343434343

def usedNonces : List Entry := [(maker, 0x500), (taker, 0x501), (maker, 7)]

theorem usedNonces_apart :
    Set.InjOn Keccak.hash (Ledger.involved usedNonces maker {0x500, 0x501}) := by
  let preimages := [preimage maker 0x500, preimage taker 0x501, preimage maker 7]
  have digests : (preimages.map Keccak.hash).Nodup := by decide +kernel
  have shared : preimage maker 0x501 = preimage maker 0x500 := by decide
  have listed : ∀ bytes ∈ Ledger.involved usedNonces maker {0x500, 0x501}, bytes ∈ preimages := by
    rintro bytes (⟨entry, member, rfl⟩ | ⟨nonce, rfl | rfl, rfl⟩)
    · simp only [usedNonces, List.mem_cons, List.not_mem_nil, or_false] at member
      rcases member with rfl | rfl | rfl <;> simp [preimages]
    · simp [preimages]
    · simp [preimages, shared]
  exact fun first first_mem second second_mem same =>
    List.inj_on_of_nodup_map digests (listed first first_mem) (listed second second_mem) same

/-- The other account's use of 0x501 and the maker's use of 0x500 leave the maker's 0x501 unused. -/
theorem allocation_never_reuses_maker :
    let spelling := "0x4242424242424242424242424242424242424242"
    let ledger := Ledger.markAll (fun _ => 0) usedNonces
    (isUsed .mainnet spelling 0x500 none).Answers (showing ledger) (.ok true) ∧
    ¬ (isUsed .mainnet spelling 0x501 none).Answers (showing ledger) (.ok true) ∧
    ((Search.allocate ⟨none, 0⟩ .mainnet spelling none).outcome (showing ledger) .empty).1 =
      .ok 0x501 ∧
    ((Search.allocate ⟨some 1, 0⟩ .mainnet spelling none).outcome (showing ledger) .empty).1 =
      .error (.noncesExhausted spelling 1) ∧
    Run .mainnet ledger [(maker, 0x501)] ∧ (maker, 0x501) ∉ usedNonces := by
  intro spelling ledger
  have fresh : Ledger.Fresh fun _ => 0 := fun _ _ => rfl
  have within : ∀ entry ∈ usedNonces, InRange entry.2 := by decide
  have shows : Shows (showing ledger) Deployment.mainnet.angstrom none ledger := fun _ => rfl
  have spelled : Address.parse? spelling = some maker := by decide +kernel
  obtain ⟨set, searches, runs⟩ :=
    allocation_never_reuses fresh within shows spelled usedNonces_apart
  obtain ⟨finds, -⟩ := searches ⟨none, 0⟩ .empty
  obtain ⟨-, exhausts⟩ := searches ⟨some 1, 0⟩ .empty
  have found : ((Search.allocate ⟨none, 0⟩ .mainnet spelling none).outcome (showing ledger)
      .empty).1 = .ok 0x501 := by
    refine finds 1 (by decide) (fun index le => ?_) (fun index lt => ?_) (by decide)
    · interval_cases index
      · exact .inl rfl
      · exact .inr rfl
    · interval_cases index
      decide
  have run : Run .mainnet ledger [(maker, 0x501)] :=
    .round shows spelled ⟨.empty, found⟩ .done
  refine ⟨(set 0x500 (.inl rfl)).1.mpr (by decide), fun used => ?_, found, ?_, run,
    (runs _ run).2 _ (List.mem_singleton_self _)⟩
  · exact absurd ((set 0x501 (.inr rfl)).1.mp used) (by decide)
  · refine (exhausts 1 le_rfl rfl fun index lt => ?_).mpr fun index lt => ?_
    · interval_cases index
      exact .inl rfl
    · interval_cases index
      decide

end OrderDesk.Nonce
