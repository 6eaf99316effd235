import OrderDesk.Proofs.TickReader.Prefix

/-!
# Requests for a band

* `bandRequests`: the requests that a band takes, whole batches and what is left.
* `loadBatches_asks`: if each of them is answered, loading makes them and no others.
* `loadDirection_asks_band`: loading succeeds if they are answered, and unless a batch is of nothing.
* `loadDirection_stalls`: with batches of nothing, it never does.
* `loadBatches_repeats`: if there is no spacing either, it asks the same again and again.
-/

namespace OrderDesk

structure TickRequest where
  start : Int
  count : Int

/-- How many batches it takes to ask for what is left. -/
def batchCount (left batch : Int) : Nat := if left ≤ 0 then 0 else ((left - 1) / batch + 1).toNat

def bandRequest (zeroForOne : Bool) (spacing batch start left : Int) (index : Nat) : TickRequest where
  start := if zeroForOne then start - index * (batch + spacing) else start + index * (batch + spacing)
  count := min batch (left - index * batch)

/-- The requests that ask for what is left of a band. -/
def bandRequests (zeroForOne : Bool) (spacing batch start left : Int) : List TickRequest :=
  (List.range (batchCount left batch)).map (bandRequest zeroForOne spacing batch start left)

variable {zeroForOne : Bool} {spacing size batch start loaded left : Int}

theorem bandRequests_done (done : left ≤ 0) : bandRequests zeroForOne spacing batch start left = [] := by
  rw [bandRequests, batchCount, if_pos done]
  rfl

theorem batchCount_more (more : 0 < left) (pos : 1 ≤ batch) :
    batchCount left batch = batchCount (left - min batch left) batch + 1 := by
  have batch_pos : 0 < batch := pos
  simp only [batchCount, if_neg (not_le.mpr more)]
  split
  · have small : (left - 1) / batch = 0 := Int.ediv_eq_zero_of_lt (by omega) (by omega)
    rw [small]
    rfl
  · rename_i unfinished
    have whole : min batch left = batch := min_eq_left (by omega)
    have shift : (left - 1) / batch = (left - batch - 1) / batch + 1 := by
      rw [← Int.add_mul_ediv_right _ 1 batch_pos.ne']
      congr 1
      ring
    have nonneg : 0 ≤ (left - batch - 1) / batch := Int.ediv_nonneg (by omega) batch_pos.le
    rw [whole, shift]
    omega

theorem bandRequests_more (more : 0 < left) (pos : 1 ≤ batch) :
    bandRequests zeroForOne spacing batch start left = ⟨start, min batch left⟩ ::
      bandRequests zeroForOne spacing batch
        (TickReader.nextStart zeroForOne start (min batch left) spacing) (left - min batch left) := by
  rw [bandRequests, batchCount_more more pos, List.range_succ_eq_map, List.map_cons, List.map_map]
  refine congrArg₂ _ ?_ ?_
  · simp [bandRequest]
  · -- behind a whole batch every index moves by one, and behind the last there is none
    rcases le_or_gt left batch with last | further
    · rw [min_eq_right last, sub_self, bandRequests_done le_rfl]
      rfl
    · rw [min_eq_left further.le]
      refine List.map_congr_left fun index _ => ?_
      have left_eq : left - (index + 1) * batch = left - batch - index * batch := by ring
      have down_eq : start - (index + 1) * (batch + spacing) =
          start - batch - spacing - index * (batch + spacing) := by ring
      have up_eq : start + (index + 1) * (batch + spacing) =
          start + batch + spacing + index * (batch + spacing) := by ring
      simp only [Function.comp, bandRequest, TickReader.nextStart, Nat.cast_succ, left_eq, down_eq,
        up_eq]
      cases zeroForOne <;> rfl

/-! ## What is asked for -/

theorem request_count (pos : 1 ≤ batch) {request : TickRequest}
    (mem : request ∈ bandRequests zeroForOne spacing batch start left) :
    1 ≤ request.count ∧ request.count ≤ batch := by
  obtain ⟨index, index_mem, rfl⟩ := List.mem_map.mp mem
  have lt := List.mem_range.mp index_mem
  rw [batchCount] at lt
  split at lt
  · cases lt
  · have le : (index : Int) ≤ (left - 1) / batch := by omega
    have unfinished : index * batch ≤ left - 1 := (Int.le_ediv_iff_mul_le pos).mp le
    simp only [bandRequest]
    omega

theorem bandRequests_sum {start left : Int} (progress : left ≤ 0 ∨ 1 ≤ batch) :
    ((bandRequests zeroForOne spacing batch start left).map (·.count)).sum = max left 0 := by
  rcases le_or_gt left 0 with done | more
  · rw [bandRequests_done done, max_eq_right done]
    rfl
  · have pos : 1 ≤ batch := by omega
    rw [bandRequests_more more pos, List.map_cons, List.sum_cons, bandRequests_sum (.inr pos)]
    dsimp only
    omega
termination_by left.toNat
decreasing_by omega

theorem Batches.requests_eq {batches : List TickBatch} (pos : 1 ≤ batch)
    (given : Batches zeroForOne spacing size batch start loaded batches) :
    batches.map (fun fetched => ⟨fetched.start, fetched.count⟩) =
      bandRequests zeroForOne spacing batch start (size - loaded) := by
  induction given with
  | done enough => rw [bandRequests_done (by omega), List.map_nil]
  | more rows short count_eq rest ih =>
    subst count_eq
    rw [bandRequests_more (by omega) pos, List.map_cons, ih, sub_add_eq_sub_sub]

/-- Batches of nothing ask for nothing that is left. -/
theorem Batches.finished {batches : List TickBatch} (none : batch ≤ 0)
    (given : Batches zeroForOne spacing size batch start loaded batches) : size ≤ loaded := by
  induction given with
  | done enough => exact enough
  | more rows short count_eq rest ih => omega

namespace TickReader

variable {reader : TickReader} {deployment : Deployment} {query : TickQuery} {outside : Outside}
  {rows : List TickRow} {liquidity : Int}

/-- Whether a request has an answer with rows. -/
def Answered (reader : TickReader) (deployment : Deployment) (query : TickQuery)
    (outside : Outside) (zeroForOne : Bool) (request : TickRequest) : Prop :=
  ∃ rows, Fetched reader deployment query outside zeroForOne ⟨request.start, request.count, rows⟩

/-- The question that a request is put to the node as. -/
def Puts (reader : TickReader) (deployment : Deployment) (query : TickQuery)
    (zeroForOne : Bool) (request : TickRequest) (question : NodeRead) : Prop :=
  ∃ data, reader.deployData deployment query.poolId request.start zeroForOne (.ok request.count)
    query.spacing = .ok data ∧ question = .deploy data query.block

theorem load_asks_of_yields {tick count : Int}
    (given : (reader.load deployment query tick zeroForOne (.ok count)).Yields outside
      (rows, liquidity)) :
    ∃ data, reader.deployData deployment query.poolId tick zeroForOne (.ok count) query.spacing =
        .ok data ∧
      (reader.load deployment query tick zeroForOne (.ok count)).Asks outside
        [.deploy data query.block] (.ok (rows, liquidity)) := by
  obtain ⟨data, request, given⟩ := given.of_bind
  obtain ⟨answer, answered, given⟩ := given.of_bind
  obtain ⟨response, read, valid⟩ := bind_eq_ok.mp given.of_lift
  refine ⟨data, request.of_lift, ?_⟩
  rw [← valid]
  exact load_asks request.of_lift answered.of_ask read

/-! ## Loading -/

theorem less_of_lt (short : loaded < size) : (Quantity.whole loaded).less (.whole size) = true := by
  rw [Quantity.less_whole]
  exact decide_eq_true short

theorem loadBatches_of_done {rounds : Nat} {found : List (List TickRow)} (done : size ≤ loaded) :
    reader.loadBatches deployment query zeroForOne (.whole size) (.ok (.whole batch)) rounds
      start loaded found = pure found.reverse.flatten := by
  have stops : (Quantity.whole loaded).less (.whole size) = false := by
    rw [Quantity.less_whole]
    exact decide_eq_false (by omega)
  cases rounds <;> simp [loadBatches, stops]

theorem loadBatches_more {rounds : Nat} {found : List (List TickRow)} {questions others : List NodeRead}
    {result : Except Fault (List TickRow)} (short : loaded < size)
    (first : (reader.load deployment query start zeroForOne
      (.ok (min batch (size - loaded)))).Asks outside questions (.ok (rows, liquidity)))
    (rest : (reader.loadBatches deployment query zeroForOne (.whole size) (.ok (.whole batch)) rounds
      (nextStart zeroForOne start (min batch (size - loaded)) query.spacing)
      (loaded + min batch (size - loaded)) (rows :: found)).Asks outside others result) :
    (reader.loadBatches deployment query zeroForOne (.whole size) (.ok (.whole batch)) (rounds + 1)
      start loaded found).Asks outside (questions ++ others) result := by
  rw [loadBatches, if_pos (less_of_lt short)]
  refine .lift_bind ?_
  rw [nextBatch_whole]
  exact first.bind (.lift_bind rest)

theorem loadBatches_asks {rounds : Nat} {start loaded : Int} {found : List (List TickRow)}
    (progress : size - loaded ≤ 0 ∨ 1 ≤ batch) (enough : size - loaded ≤ rounds)
    (answered : ∀ request ∈ bandRequests zeroForOne query.spacing batch start (size - loaded),
      Answered reader deployment query outside zeroForOne request) :
    ∃ rows questions,
      (reader.loadBatches deployment query zeroForOne (.whole size) (.ok (.whole batch)) rounds
        start loaded found).Asks outside questions (.ok rows) ∧
      List.Forall₂ (Puts reader deployment query zeroForOne)
        (bandRequests zeroForOne query.spacing batch start (size - loaded)) questions := by
  induction rounds generalizing start loaded found with
  | zero =>
    have done : size ≤ loaded := sub_nonpos.mp enough
    rw [loadBatches_of_done done, bandRequests_done (by omega)]
    exact ⟨_, [], .pure _, .nil⟩
  | succ rounds ih =>
    rcases le_or_gt size loaded with done | short
    · rw [loadBatches_of_done done, bandRequests_done (by omega)]
      exact ⟨_, [], .pure _, .nil⟩
    · have pos : 1 ≤ batch := by omega
      rw [bandRequests_more (by omega) pos, ← sub_add_eq_sub_sub] at answered ⊢
      obtain ⟨⟨rows, liquidity, first⟩, answered⟩ := List.forall_mem_cons.mp answered
      obtain ⟨data, data_eq, asks⟩ := load_asks_of_yields first
      obtain ⟨all, questions, rest, each⟩ := ih (.inr pos) (by omega) answered
      exact ⟨all, _, loadBatches_more short asks rest, .cons ⟨data, data_eq, rfl⟩ each⟩

theorem loadDirection_asks (progress : size ≤ 0 ∨ 1 ≤ batch)
    (answered : ∀ request ∈ bandRequests zeroForOne query.spacing batch start size,
      Answered reader deployment query outside zeroForOne request) :
    ∃ rows questions,
      (reader.loadDirection deployment query zeroForOne start (.ofInts size batch)).Asks outside
        questions (.ok rows) ∧
      List.Forall₂ (Puts reader deployment query zeroForOne)
        (bandRequests zeroForOne query.spacing batch start size) questions := by
  have enough : size - 0 ≤ (roundLimit (.whole size) : Nat) := by
    simp only [roundLimit, Quantity.floor]
    omega
  rw [← sub_zero size] at progress answered
  obtain ⟨rows, questions, asks, each⟩ := loadBatches_asks progress enough answered
  rw [sub_zero] at each
  exact ⟨rows, questions, .lift_bind asks, each⟩

theorem loadDirection_stalls (some : 0 < size) (none : batch ≤ 0) :
    ¬ (reader.loadDirection deployment query zeroForOne start (.ofInts size batch)).Yields outside
      rows := by
  intro given
  obtain ⟨batches, planned, -⟩ := loadDirection_ok given
  exact absurd (planned.finished none) (not_le.mpr some)

theorem loadBatches_repeats {data : Bytes} (short : loaded < size) (still : query.spacing = 0)
    (first : (reader.load deployment query start zeroForOne (.ok 0)).Asks outside
      [.deploy data query.block] (.ok (rows, liquidity)))
    (rounds : Nat) (found : List (List TickRow)) :
    (reader.loadBatches deployment query zeroForOne (.whole size) (.ok (.whole 0)) rounds
      start loaded found).Asks outside (List.replicate rounds (.deploy data query.block))
      (.error .unfinished) := by
  induction rounds generalizing found with
  | zero =>
    rw [loadBatches, if_pos (less_of_lt short)]
    exact .lift _
  | succ rounds ih =>
    have nothing : min 0 (size - loaded) = 0 := min_eq_left (by omega)
    have stays : nextStart zeroForOne start 0 query.spacing = start := by
      simp [nextStart, still]
    rw [List.replicate_succ]
    refine loadBatches_more short (nothing ▸ first) ?_
    rw [nothing, stays, add_zero]
    exact ih _

theorem loadDirection_ok_iff :
    (∃ rows, (reader.loadDirection deployment query zeroForOne start (.ofInts size batch)).Yields
        outside rows) ↔
      (size ≤ 0 ∨ 1 ≤ batch) ∧
        ∀ request ∈ bandRequests zeroForOne query.spacing batch start size,
          Answered reader deployment query outside zeroForOne request := by
  constructor
  · rintro ⟨rows, given⟩
    have progress : size ≤ 0 ∨ 1 ≤ batch := by
      by_contra stuck
      exact loadDirection_stalls (by omega) (by omega) given
    refine ⟨progress, fun request mem => ?_⟩
    obtain ⟨batches, planned, fetched, -⟩ := loadDirection_ok given
    rcases progress with done | pos
    · rw [bandRequests_done done] at mem
      cases mem
    · rw [← sub_zero size, ← planned.requests_eq pos] at mem
      obtain ⟨batch, batch_mem, rfl⟩ := List.mem_map.mp mem
      exact ⟨batch.rows, fetched batch batch_mem⟩
  · rintro ⟨progress, answered⟩
    obtain ⟨rows, questions, asks, -⟩ := loadDirection_asks progress answered
    exact ⟨rows, .empty, asks.answers _⟩

end TickReader

theorem loadDirection_asks_band (reader : TickReader) (deployment : Deployment) (query : TickQuery)
    (outside : Outside) (zeroForOne : Bool) (start size batch : Int) :
    ((∃ rows, (reader.loadDirection deployment query zeroForOne start (.ofInts size batch)).Yields
        outside rows) ↔
      (size ≤ 0 ∨ 1 ≤ batch) ∧
        ∀ request ∈ bandRequests zeroForOne query.spacing batch start size,
          reader.Answered deployment query outside zeroForOne request) ∧
    ∀ rows, (reader.loadDirection deployment query zeroForOne start (.ofInts size batch)).Yields
        outside rows →
      (∀ request ∈ bandRequests zeroForOne query.spacing batch start size,
        1 ≤ request.count ∧ request.count ≤ batch) ∧
      ((bandRequests zeroForOne query.spacing batch start size).map (·.count)).sum = max size 0 ∧
      ∃ questions,
        (reader.loadDirection deployment query zeroForOne start (.ofInts size batch)).Asks outside
          questions (.ok rows) ∧
        List.Forall₂ (reader.Puts deployment query zeroForOne)
          (bandRequests zeroForOne query.spacing batch start size) questions := by
  refine ⟨TickReader.loadDirection_ok_iff, fun rows given => ?_⟩
  obtain ⟨progress, answered⟩ := TickReader.loadDirection_ok_iff.mp ⟨rows, given⟩
  refine ⟨fun request mem => ?_, bandRequests_sum progress, ?_⟩
  · rcases progress with done | pos
    · rw [bandRequests_done done] at mem
      cases mem
    · exact request_count pos mem
  · obtain ⟨found, questions, asks, each⟩ := TickReader.loadDirection_asks progress answered
    obtain ⟨journal, given⟩ := given
    cases (asks.answers journal).symm.trans given
    exact ⟨questions, asks, each⟩

theorem loadDirection_asks_band_sparse :
    (usualReader.loadDirection .mainnet (queryAt 60) true 0 (.ofInts 4 2)).Yields
        (walkingOutside sparseTicks) sparseAsks ∧
      bandRequests true 60 2 0 4 = [⟨0, 2⟩, ⟨-62, 2⟩] ∧
      ∃ questions, (usualReader.loadDirection .mainnet (queryAt 60) true 0 (.ofInts 4 2)).Asks
          (walkingOutside sparseTicks) questions (.ok sparseAsks) ∧
        List.Forall₂ (usualReader.Puts .mainnet (queryAt 60) true) [⟨0, 2⟩, ⟨-62, 2⟩] questions := by
  have requests : bandRequests true 60 2 0 4 = [⟨0, 2⟩, ⟨-62, 2⟩] := rfl
  obtain ⟨-, -, asks⟩ := (loadDirection_asks_band usualReader .mainnet (queryAt 60)
    (walkingOutside sparseTicks) true 0 4 2).2 sparseAsks sparse_asks
  exact ⟨sparse_asks, requests, asks⟩

/-! ## Batches of nothing -/

/-- An outside whose node answers every request with an empty buffer. -/
def idleOutside : Outside := .answering (TickResponse.encode ⟨[], 0, 0⟩)

theorem idle_answers (spacing start count : Int) {data : Bytes}
    (written : usualReader.deployData .mainnet (queryAt spacing).poolId start true (.ok count)
      spacing = .ok data) :
    usualReader.Answered .mainnet (queryAt spacing) idleOutside true ⟨start, count⟩ := by
  have fits : TickResponse.Fits ⟨[], 0, 0⟩ := ⟨by simp, by decide, by decide, by decide⟩
  obtain ⟨answer, answer_eq⟩ := TickResponse.encode_ok_iff.mpr fits
  have read := TickResponse.decode_encode answer_eq []
  rw [List.append_nil] at read
  have received : usualReader.Receives .mainnet (queryAt spacing) idleOutside start true
      (.ok count) answer := ⟨data, written, answer_eq⟩
  exact ⟨[], 0, .empty, TickReader.load_answers received read _⟩

theorem loadDirection_stalled :
    ((∀ start count data, usualReader.deployData .mainnet (queryAt 32767).poolId start true
        (.ok count) 32767 = .ok data →
      usualReader.Answered .mainnet (queryAt 32767) idleOutside true ⟨start, count⟩) ∧
    ∀ rows, ¬ (usualReader.loadDirection .mainnet (queryAt 32767) true 0 (.ofInts 5 0)).Yields
      idleOutside rows) ∧
    ∃ question, ∀ rounds,
      (usualReader.loadBatches .mainnet (queryAt 0) true (.whole 5) (.ok (.whole 0)) rounds 0 0
        []).Asks idleOutside (List.replicate rounds question) (.error .unfinished) := by
  refine ⟨⟨fun _ _ _ => idle_answers _ _ _, fun _ => TickReader.loadDirection_stalls (by decide) le_rfl⟩,
    ?_⟩
  obtain ⟨rows, liquidity, first⟩ := idle_answers 0 0 0 rfl
  obtain ⟨data, -, asks⟩ := TickReader.load_asks_of_yields first
  exact ⟨_, fun rounds => TickReader.loadBatches_repeats (by decide) rfl asks rounds []⟩

end OrderDesk
