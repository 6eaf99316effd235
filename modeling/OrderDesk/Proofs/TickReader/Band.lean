import OrderDesk.Proofs.TickReader.Maps
import OrderDesk.Proofs.TickReader.Walk

/-!
# Bands of ticks

* `TickReader.Walks`: how the reader answers, as it walks the initialized ticks of a pool.
* `loadBand_gapFree`: no initialized tick is missing between the current tick and a loaded one.
* `loadBand_skips`: a tick that the first batch leaves before the start of the second is not loaded.
* `loadBand_gap`: so ticks are lost between batches with a spacing of one.
-/

namespace OrderDesk

namespace TickReader

variable {reader : TickReader} {deployment : Deployment} {query : TickQuery} {outside : Outside}
variable {ticks : InitializedTicks query.spacing} {zeroForOne : Bool} {fetched : TickBatch}

/-- Whether a node answers a reader's requests with the initialized ticks that it asks for, before
whatever else is in the buffer. -/
def Walks (reader : TickReader) (deployment : Deployment) (query : TickQuery) (node : Node)
    (ticks : InitializedTicks query.spacing) : Prop :=
  ∀ zeroForOne start count data answer,
    reader.deployData deployment query.poolId start zeroForOne (.ok count) query.spacing =
      .ok data →
    node.deploy data query.block = .ok answer →
    ∃ rest liquidity, TickResponse.encode
      ⟨ticks.walk zeroForOne start count ++ rest, (ticks.walk zeroForOne start count).length,
        liquidity⟩ = .ok answer

theorem Walks.rows_eq (walks : reader.Walks deployment query outside.node ticks)
    (given : reader.Fetched deployment query outside zeroForOne fetched) :
    fetched.rows = ticks.walk zeroForOne fetched.start fetched.count := by
  obtain ⟨liquidity, given⟩ := given
  obtain ⟨data, data_ok, given⟩ := given.of_bind
  obtain ⟨answer, answered, given⟩ := given.of_bind
  obtain ⟨rest, depth, written⟩ := walks _ _ _ _ _ data_ok.of_lift answered.of_ask
  have read := TickResponse.decode_encode written []
  rw [List.append_nil] at read
  have valid := given.of_lift
  rw [read, ok_bind, TickResponse.valid_append] at valid
  exact (Prod.mk.inj (Except.ok.inj valid)).1.symm

section Direction

variable {current size batch : Int} {rows : List TickRow} {row : TickRow}
  (walks : reader.Walks deployment query outside.node ticks)
  (given : (reader.loadDirection deployment query zeroForOne current (.ofInts size batch)).Yields
    outside rows)
include walks given

theorem Walks.batches :
    ∃ batches, Batches zeroForOne query.spacing size batch current 0 batches ∧
      (∀ fetched ∈ batches, fetched.rows = ticks.walk zeroForOne fetched.start fetched.count) ∧
      rows = batches.flatMap (·.rows) := by
  obtain ⟨batches, planned, answered, rfl⟩ := loadDirection_ok given
  exact ⟨batches, planned, fun fetched mem => walks.rows_eq (answered fetched mem), rfl⟩

variable (pos : 0 < query.spacing) (batch_nonneg : 0 ≤ batch)
include pos batch_nonneg

theorem Walks.covers (sparse : (2 ≤ query.spacing ∧ 2 ≤ batch) ∨ size ≤ batch) :
    ticks.Covers zeroForOne current rows := by
  obtain ⟨batches, planned, walked, rfl⟩ := walks.batches given
  exact planned.covers pos batch_nonneg (by omega) walked

theorem Walks.found_ahead : ∀ row ∈ rows, row ∈ ticks.ahead zeroForOne current := by
  obtain ⟨batches, planned, walked, rfl⟩ := walks.batches given
  exact planned.found_ahead pos batch_nonneg walked

theorem Walks.skips (missed : row ∉ ticks.walk zeroForOne current (min batch size))
    (near : lead zeroForOne current row.tick < min batch size + query.spacing) : row ∉ rows := by
  obtain ⟨batches, planned, walked, rfl⟩ := walks.batches given
  exact planned.skips pos batch_nonneg walked (by rwa [sub_zero]) (by rwa [sub_zero])

end Direction

end TickReader

variable {reader : TickReader} {deployment : Deployment} {query : TickQuery} {outside : Outside}
  {ticks : InitializedTicks query.spacing} {zeroForOne : Bool} {current size batch found : Int}
  {maps : TickMaps} {row : TickRow}

theorem loadBand_gapFree (pos : 1 ≤ query.spacing) (batch_pos : 1 ≤ batch)
    (walks : reader.Walks deployment query outside.node ticks)
    (sparse : (2 ≤ query.spacing ∧ 2 ≤ batch) ∨ size ≤ batch)
    (given : (reader.loadBand deployment query current (.ofInts size batch)).Yields outside maps)
    (loaded : (maps.ticks.get? found).isSome = true) (mem : row ∈ ticks.rows)
    (between : found ≤ row.tick ∧ row.tick ≤ current ∨ current < row.tick ∧ row.tick ≤ found) :
    maps.Has query.spacing row.tick row.liquidityNet := by
  obtain ⟨asks, asks_ok, given⟩ := given.of_bind
  obtain ⟨bids, bids_ok, given⟩ := given.of_bind
  have below := walks.covers asks_ok pos (by omega) sparse
  have above := walks.covers bids_ok pos (by omega) sparse
  have built : TickMaps.ofRows (asks ++ bids) query.spacing = .ok maps := price_ok given.of_lift
  obtain ⟨last, last_mem, -, rfl⟩ := TickMaps.mem_of_ofRows pos built loaded
  have fetched := InitializedTicks.between_mem below above last_mem mem between
  refine TickMaps.ofRows_has pos built ?_ fetched (ticks.initialized row mem)
  intro other other_mem same
  have among := (List.mem_append.mp other_mem).elim below.mem_rows above.mem_rows
  exact ticks.row_eq among mem same

theorem loadBand_skips (pos : 1 ≤ query.spacing) (batch_nonneg : 0 ≤ batch)
    (walks : reader.Walks deployment query outside.node ticks) (mem : row ∈ ticks.rows)
    (ahead : 0 ≤ lead zeroForOne current row.tick)
    (missed : row ∉ ticks.walk zeroForOne current (min batch size))
    (near : lead zeroForOne current row.tick < min batch size + query.spacing)
    (given : (reader.loadBand deployment query current (.ofInts size batch)).Yields outside maps) :
    maps.ticks.get? row.tick = none := by
  obtain ⟨asks, asks_ok, given⟩ := given.of_bind
  obtain ⟨bids, bids_ok, given⟩ := given.of_bind
  have built : TickMaps.ofRows (asks ++ bids) query.spacing = .ok maps := price_ok given.of_lift
  refine Option.not_isSome_iff_eq_none.mp fun present => ?_
  obtain ⟨other, other_mem, -, same⟩ := TickMaps.mem_of_ofRows pos built present
  have below := walks.found_ahead asks_ok pos batch_nonneg other
  have above := walks.found_ahead bids_ok pos batch_nonneg other
  simp only [InitializedTicks.mem_ahead, same, lead_down, lead_up] at below above
  have among : other ∈ ticks.rows :=
    (List.mem_append.mp other_mem).elim (fun here => (below here).1) fun there => (above there).1
  obtain rfl : other = row := ticks.row_eq among mem same
  -- the other direction finds nothing on this side
  cases zeroForOne with
  | true =>
    rw [lead_down] at ahead
    have here := (List.mem_append.mp other_mem).resolve_right fun there => by
      have nonneg := (above there).2
      omega
    exact walks.skips asks_ok pos batch_nonneg missed near here
  | false =>
    rw [lead_up] at ahead
    have here := (List.mem_append.mp other_mem).resolve_left fun there => by
      have nonneg := (below there).2
      omega
    exact walks.skips bids_ok pos batch_nonneg missed near here

/-! ## Two pools -/

/-- A node on which the reader walks initialized ticks. Its buffer has room for one row more. -/
def walkingNode {spacing : Int} (reader : TickReader) (ticks : InitializedTicks spacing) :
    Node where
  blockNumber := .ok 100
  storage := fun _ _ _ => .ok 0
  code := fun _ _ => .ok []
  call := fun _ _ _ => .ok []
  deploy := fun data _ =>
    -- the pool and its manager stand before the direction
    match Abi.decodeHead? [.bool, .int 24, .uint 16, .int 24]
      (data.drop (reader.code.length + 64)) with
    | some (zeroForOne, start, count, _) =>
      let rows := ticks.walk zeroForOne start count
      TickResponse.encode ⟨rows ++ [⟨true, 887000, 999, -999⟩], rows.length, 12345⟩
    | none => .error (.undecodable [] data.length)

/-- What a request consists of: the code, two words for the pool and its manager, and where and how
far the reader walks. -/
theorem deployData_ok {poolId data : Bytes} {start count spacing : Int} {zeroForOne : Bool}
    (given : reader.deployData deployment poolId start zeroForOne (.ok count) spacing = .ok data) :
    ∃ front request, front.length = reader.code.length + 64 ∧ data = front ++ request ∧
      Abi.encode [.bool, .int 24, .uint 16, .int 24] (zeroForOne, start, count, spacing, ()) =
        .ok request := by
  obtain ⟨head, head_ok, given⟩ := bind_eq_ok.mp given
  obtain ⟨asked, asked_ok, given⟩ := bind_eq_ok.mp given
  cases asked_ok
  obtain ⟨tail, tail_ok, given⟩ := bind_eq_ok.mp given
  cases given
  obtain ⟨pool, afterPool, pool_ok, afterPool_ok, rfl⟩ := Abi.encode_cons_ok head_ok
  obtain ⟨manager, afterManager, manager_ok, walk_ok, rfl⟩ := Abi.encode_cons_ok afterPool_ok
  obtain ⟨flag, afterFlag, flag_ok, last_ok, rfl⟩ := Abi.encode_cons_ok walk_ok
  obtain ⟨tick, nothing, tick_ok, nothing_ok, rfl⟩ := Abi.encode_cons_ok last_ok
  cases nothing_ok
  refine ⟨reader.code ++ (pool ++ manager), flag ++ (tick ++ tail), ?_, ?_, ?_⟩
  · have pool_length : pool.length = 32 := Abi.encodeWord_length (by simp) pool_ok
    have manager_length : manager.length = 32 := Abi.encodeWord_length (by simp) manager_ok
    simp only [List.length_append, pool_length, manager_length]
  · simp only [List.append_assoc, List.append_nil]
  · exact Abi.encode_cons flag_ok (Abi.encode_cons tick_ok tail_ok)

theorem walkingNode_walks (reader : TickReader) (deployment : Deployment) (query : TickQuery)
    (ticks : InitializedTicks query.spacing) :
    reader.Walks deployment query (walkingNode reader ticks) ticks := by
  intro zeroForOne start count data answer given answered
  obtain ⟨front, request, front_length, rfl, written⟩ := deployData_ok given
  have read := Abi.decodeHead?_encode (by simp [Abi.WordType.Numeric]) written []
  rw [List.append_nil] at read
  refine ⟨[⟨true, 887000, 999, -999⟩], 12345, ?_⟩
  simpa only [walkingNode, List.drop_left' front_length, read] using answered

theorem loadBand_answers {asks bids : List TickRow} {band : Band}
    (asks_ok : (reader.loadDirection deployment query true current band).Yields outside asks)
    (bids_ok : (reader.loadDirection deployment query false current band).Yields outside bids)
    (built : TickMaps.ofRows (asks ++ bids) query.spacing = .ok maps) :
    (reader.loadBand deployment query current band).Answers outside (.ok maps) := by
  have down := (TickReader.loadDirection_steady band).answers asks_ok
  have up := (TickReader.loadDirection_steady band).answers bids_ok
  refine down.ok_bind (up.ok_bind ?_)
  rw [built]
  exact .lift _

def usualReader : TickReader := ⟨[0x60, 0x80, 0x60, 0x40, 0x52], by decide⟩

def queryAt (spacing : Int) : TickQuery := ⟨List.replicate 32 7, spacing, none⟩

def tickRow (tick net : Int) : TickRow := ⟨true, tick, |net|, net⟩

def walkingOutside {spacing : Int} (ticks : InitializedTicks spacing) : Outside where
  node := walkingNode usualReader ticks
  reply := fun _ _ => .response 200 []
  candidate := fun _ _ => 0
  choose := fun low _ => low
  patience := 0

/-- Ticks as far apart as the default spacing. -/
def sparseTicks : InitializedTicks (queryAt 60).spacing where
  rows := [tickRow (-180) 7, tickRow (-120) 5, tickRow (-60) 3, tickRow 0 2, tickRow 60 (-8),
    tickRow 120 (-9)]
  initialized := by decide
  aligned := by decide
  ascending := by decide

def sparseAsks : List TickRow := [tickRow 0 2, tickRow (-60) 3, tickRow (-120) 5, tickRow (-180) 7]

def sparseBids : List TickRow := [tickRow 60 (-8), tickRow 120 (-9), tickRow 120 (-9)]

theorem sparse_asks : (usualReader.loadDirection .mainnet (queryAt 60) true 0 (.ofInts 4 2)).Yields
    (walkingOutside sparseTicks) sparseAsks := by
  refine ⟨.empty, ok_of_toOption ?_⟩
  decide +kernel

theorem sparse_bids : (usualReader.loadDirection .mainnet (queryAt 60) false 0 (.ofInts 4 2)).Yields
    (walkingOutside sparseTicks) sparseBids := by
  refine ⟨.empty, ok_of_toOption ?_⟩
  decide +kernel

theorem sparse_maps : ∃ maps, TickMaps.ofRows (sparseAsks ++ sparseBids) 60 = .ok maps ∧
    (maps.ticks.get? (-180)).isSome = true := by
  have pos : (0 : Int) < 60 := by decide
  obtain ⟨maps, built, -⟩ := TickMaps.ofRows_ok pos (sparseAsks ++ sparseBids)
  have single : ∀ other ∈ sparseAsks ++ sparseBids, other.tick = (tickRow (-180) 7).tick →
      other = tickRow (-180) 7 := by decide
  have last := TickMaps.ofRows_has pos built single (by decide) rfl
  exact ⟨maps, built, Option.isSome_of_eq_some last.1⟩

theorem loadBand_gapFree_sparse :
    ∃ maps, (usualReader.loadBand .mainnet (queryAt 60) 0 (.ofInts 4 2)).Yields
        (walkingOutside sparseTicks) maps ∧
      (maps.ticks.get? (-180)).isSome = true ∧ maps.Has 60 (-120) 5 := by
  obtain ⟨maps, built, present⟩ := sparse_maps
  have given : (usualReader.loadBand .mainnet (queryAt 60) 0 (.ofInts 4 2)).Yields
      (walkingOutside sparseTicks) maps :=
    ⟨.empty, loadBand_answers sparse_asks sparse_bids built _⟩
  have mem : tickRow (-120) 5 ∈ sparseTicks.rows := by decide
  exact ⟨maps, given, present, loadBand_gapFree (by decide) (by decide)
    (walkingNode_walks _ _ _ sparseTicks) (.inl (by decide)) given present mem (.inl (by decide))⟩

/-- Ticks next to each other: the first batch of two ends at -1, and the second starts at -3. -/
def denseTicks : InitializedTicks (queryAt 1).spacing where
  rows := [tickRow (-4) 1, tickRow (-3) 2, tickRow (-2) 3, tickRow (-1) 4, tickRow 0 (-10)]
  initialized := by decide
  aligned := by decide
  ascending := by decide

def denseAsks : List TickRow := [tickRow 0 (-10), tickRow (-1) 4, tickRow (-3) 2, tickRow (-4) 1]

theorem dense_asks : (usualReader.loadDirection .mainnet (queryAt 1) true 0 (.ofInts 4 2)).Yields
    (walkingOutside denseTicks) denseAsks := by
  refine ⟨.empty, ok_of_toOption ?_⟩
  decide +kernel

theorem dense_bids : (usualReader.loadDirection .mainnet (queryAt 1) false 0 (.ofInts 4 2)).Yields
    (walkingOutside denseTicks) [] := by
  refine ⟨.empty, ok_of_toOption ?_⟩
  decide +kernel

theorem dense_maps : ∃ maps, TickMaps.ofRows (denseAsks ++ []) 1 = .ok maps ∧
    (maps.ticks.get? (-3)).isSome = true := by
  have pos : (0 : Int) < 1 := by decide
  obtain ⟨maps, built, -⟩ := TickMaps.ofRows_ok pos (denseAsks ++ [])
  have single : ∀ other ∈ denseAsks ++ [], other.tick = (tickRow (-3) 2).tick →
      other = tickRow (-3) 2 := by decide
  have last := TickMaps.ofRows_has pos built single (by decide) rfl
  exact ⟨maps, built, Option.isSome_of_eq_some last.1⟩

theorem loadBand_gap :
    usualReader.Walks .mainnet (queryAt 1) (walkingOutside denseTicks).node denseTicks ∧
      tickRow (-2) 3 ∈ denseTicks.rows ∧
      ∃ maps, (usualReader.loadBand .mainnet (queryAt 1) 0 (.ofInts 4 2)).Yields
          (walkingOutside denseTicks) maps ∧
        (maps.ticks.get? (-3)).isSome = true ∧ maps.ticks.get? (-2) = none := by
  obtain ⟨maps, built, present⟩ := dense_maps
  have walks := walkingNode_walks usualReader .mainnet (queryAt 1) denseTicks
  have given : (usualReader.loadBand .mainnet (queryAt 1) 0 (.ofInts 4 2)).Yields
      (walkingOutside denseTicks) maps :=
    ⟨.empty, loadBand_answers dense_asks dense_bids built _⟩
  have mem : tickRow (-2) 3 ∈ denseTicks.rows := by decide
  have ahead : 0 ≤ lead true 0 (tickRow (-2) 3).tick := by decide
  have missed : tickRow (-2) 3 ∉ denseTicks.walk true 0 (min 2 4) := by decide
  have near : lead true 0 (tickRow (-2) 3).tick < min 2 4 + (queryAt 1).spacing := by decide
  have absent := loadBand_skips (by decide) (by decide) walks mem ahead missed near given
  exact ⟨walks, mem, maps, given, present, absent⟩

end OrderDesk
