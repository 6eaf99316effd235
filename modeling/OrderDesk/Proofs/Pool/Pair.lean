import OrderDesk.Proofs.Address
import OrderDesk.Proofs.Generator.Amount

/-!
# Pairs of tokens in any order and spelling

A pair of tokens is put in order before anything is read, so that all that follows is told the same
two addresses.

* `readPair_of_writes`: the pair that is read from two texts that write it.
* `PoolReader.snapshot_tokens`: the tokens of a pool that was read are the pair, in order.
* `pair_as_written`: pools and generated orders do not depend on how a pair is written.
-/

namespace OrderDesk

variable {a b : Address} {first second other another : String}

theorem sortTokens_comm (a b : Address) : sortTokens a b = sortTokens b a := by
  unfold sortTokens
  rcases lt_trichotomy a.val b.val with less | same | more
  · rw [if_pos less, if_neg less.not_gt]
  · rw [Address.ext_val same]
  · rw [if_neg more.not_gt, if_pos more]

theorem sortTokens_cases (a b : Address) :
    sortTokens a b = (a, b) ∧ a.val < b.val ∨ sortTokens a b = (b, a) ∧ b.val ≤ a.val := by
  unfold sortTokens
  split
  · exact .inl ⟨rfl, ‹_›⟩
  · exact .inr ⟨rfl, le_of_not_gt ‹_›⟩

/-- Whether two texts write two tokens, in either order. -/
def WritesPair (a b : Address) (first second : String) : Prop :=
  a.SpelledBy first ∧ b.SpelledBy second ∨ b.SpelledBy first ∧ a.SpelledBy second

theorem readPair_of_writes (writes : WritesPair a b first second) :
    readPair first second = .ok (sortTokens a b) := by
  rcases writes with ⟨first_writes, second_writes⟩ | ⟨first_writes, second_writes⟩
  · rw [readPair, Address.readAddress_eq_ok.mpr first_writes,
      Address.readAddress_eq_ok.mpr second_writes]
    rfl
  · rw [readPair, Address.readAddress_eq_ok.mpr first_writes,
      Address.readAddress_eq_ok.mpr second_writes, sortTokens_comm]
    rfl

/-! ## Reading a pool -/

theorem Pool.complete_tokens {pool completed : Pool} (given : pool.complete = .ok completed) :
    completed.token0 = pool.token0 ∧ completed.token1 = pool.token1 := by
  unfold Pool.complete at given
  split at given
  · cases given
    exact ⟨rfl, rfl⟩
  · obtain ⟨bitmap, -, given⟩ := bind_eq_ok.mp given
    cases pure_eq_ok.mp given
    exact ⟨rfl, rfl⟩

namespace PoolReader

variable {reader : PoolReader} {outside : Outside} {block : Option BlockName} {key : PoolKey}
  {entry : ConfigEntry} {name : BlockName} {pool : Pool} {withTicks : Bool}

theorem key_congr (same : readPair first second = readPair other another) :
    reader.key first second = reader.key other another := by
  funext block
  rw [PoolReader.key, PoolReader.key, same]

theorem snapshot_congr (same : readPair first second = readPair other another) :
    reader.snapshot first second = reader.snapshot other another := by
  funext block withTicks
  rw [PoolReader.snapshot, PoolReader.snapshot, key_congr same]

theorem key_tokens (given : (reader.key first second block).Yields outside (key, entry)) :
    readPair first second = .ok (key.currency0, key.currency1) := by
  obtain ⟨⟨low, high⟩, pair_ok, given⟩ := given.of_bind
  obtain ⟨_, -, given⟩ := given.of_bind
  cases given.of_pure
  exact pair_ok.of_lift

theorem snapshot_tokens
    (given : (reader.snapshot first second block withTicks).Yields outside (name, pool)) :
    readPair first second = .ok (pool.token0, pool.token1) := by
  obtain ⟨_, -, given⟩ := given.of_bind
  obtain ⟨⟨key, entry⟩, key_ok, given⟩ := given.of_bind
  obtain ⟨_, -, given⟩ := given.of_bind
  obtain ⟨_, -, given⟩ := given.of_bind
  obtain ⟨_, -, given⟩ := given.of_bind
  dsimp only at given
  split at given
  all_goals
    obtain ⟨_, -, given⟩ := given.of_bind
    obtain ⟨completed, completed_ok, given⟩ := given.of_bind
    cases given.of_pure
    obtain ⟨low, high⟩ := Pool.complete_tokens (price_ok completed_ok.of_lift)
    rw [low, high]
    exact key_tokens key_ok

end PoolReader

/-- Of two tokens, the smaller is the first token of their pool, and the larger is not. -/
theorem Pool.isToken0_sorted {pool : Pool} (sorted : sortTokens a b = (pool.token0, pool.token1))
    (distinct : a ≠ b) :
    pool.isToken0 a = .ok (decide (a.val < b.val)) ∧
      pool.isToken0 b = .ok (!decide (a.val < b.val)) := by
  rcases sortTokens_cases a b with ⟨same, less⟩ | ⟨same, le⟩
  · obtain ⟨low, high⟩ := Prod.mk.inj (same.symm.trans sorted)
    rw [Pool.isToken0, Pool.isToken0, ← low, ← high, if_pos rfl, if_neg distinct.symm, if_pos rfl,
      decide_eq_true less]
    exact ⟨rfl, rfl⟩
  · obtain ⟨low, high⟩ := Prod.mk.inj (same.symm.trans sorted)
    rw [Pool.isToken0, Pool.isToken0, ← low, ← high, if_pos rfl, if_neg distinct, if_pos rfl,
      decide_eq_false le.not_gt]
    exact ⟨rfl, rfl⟩

/-! ## Both ways of writing -/

/-- Whether two ways of writing a pair come to the same: the pair in order, the configuration, the
key and the identity of its pool, its state, and an order that is generated for it. Each is one
action, with one result or one fault and the same reads and choices. -/
structure ActsAlike (reader : PoolReader) (generator : Generator)
    (first second other another : String) : Prop where
  pair : readPair first second = readPair other another
  config : ∀ block, reader.config first second block = reader.config other another block
  key : ∀ block, reader.key first second block = reader.key other another block
  id : ∀ block, reader.id first second block = reader.id other another block
  snapshot : ∀ block withTicks,
    reader.snapshot first second block withTicks = reader.snapshot other another block withTicks
  generate : generator.generate first second = generator.generate other another

theorem ActsAlike.of_pair {reader : PoolReader} {generator : Generator}
    (same : readPair first second = readPair other another) :
    ActsAlike reader generator first second other another where
  pair := same
  config block := by rw [PoolReader.config, PoolReader.config, same]
  key block := by rw [PoolReader.key_congr same]
  id block := by rw [PoolReader.id, PoolReader.id, PoolReader.key_congr same]
  snapshot block withTicks := by rw [PoolReader.snapshot_congr same]
  generate := by rw [Generator.generate, Generator.generate, PoolReader.snapshot_congr same]

/-- However two tokens are written, their pool is read in the same way and has the smaller of them
first, and the same order is generated for it. -/
theorem pair_as_written (written : WritesPair a b first second)
    (rewritten : WritesPair a b other another) (reader : PoolReader) (generator : Generator) :
    ActsAlike reader generator first second other another ∧
    (∃ low high, readPair first second = .ok (low, high) ∧ low.val ≤ high.val ∧
      ((low, high) = (a, b) ∨ (low, high) = (b, a))) ∧
    (∀ outside block key entry,
      (reader.key first second block).Yields outside (key, entry) →
      key.currency0.val ≤ key.currency1.val) ∧
    ∀ outside block withTicks name pool,
      (reader.snapshot first second block withTicks).Yields outside (name, pool) →
      pool.token0.val ≤ pool.token1.val ∧
      (a ≠ b → ∀ forA forB : String, a.SpelledBy forA → b.SpelledBy forB →
        ∃ side : Bool, (do pool.isToken0 (← readAddress forA) : Except Fault Bool) = .ok side ∧
          (do pool.isToken0 (← readAddress forB) : Except Fault Bool) = .ok (!side)) := by
  have pair := readPair_of_writes written
  refine ⟨.of_pair (pair.trans (readPair_of_writes rewritten).symm), ?_, ?_, ?_⟩
  · rcases sortTokens_cases a b with ⟨same, less⟩ | ⟨same, le⟩
    · exact ⟨a, b, same ▸ pair, less.le, .inl rfl⟩
    · exact ⟨b, a, same ▸ pair, le, .inr rfl⟩
  · exact fun outside block key entry given => PoolReader.key_sorted given
  · intro outside block withTicks name pool given
    refine ⟨(PoolReader.snapshot_fromChain given).sorted, ?_⟩
    intro distinct forA forB a_spelled b_spelled
    have sorted := Except.ok.inj (pair.symm.trans (PoolReader.snapshot_tokens given))
    obtain ⟨a_side, b_side⟩ := Pool.isToken0_sorted sorted distinct
    refine ⟨decide (a.val < b.val), ?_, ?_⟩
    · rw [Address.readAddress_eq_ok.mpr a_spelled, ok_bind, a_side]
      rfl
    · rw [Address.readAddress_eq_ok.mpr b_spelled, ok_bind, b_side]
      rfl

/-- The order that a rich wallet is given, for its tokens in the other order, one in capitals without
a mark and one in small letters with a capital mark. -/
theorem pair_as_written_capitals :
    WritesPair Generator.lowToken Generator.highToken
      "BBBBBBBBBBBBBBBBBBBBBBBBBBBBBBBBBBBBBBBB" "0Xaaaaaaaaaaaaaaaaaaaaaaaaaaaaaaaaaaaaaaaa" ∧
    WritesPair Generator.lowToken Generator.highToken
      Generator.lowToken.text Generator.highToken.text ∧
    (((Generator.usualGenerator usualPipeline).generate
      "BBBBBBBBBBBBBBBBBBBBBBBBBBBBBBBBBBBBBBBB"
      "0Xaaaaaaaaaaaaaaaaaaaaaaaaaaaaaaaaaaaaaaaa").outcome
      (Generator.walletOutside (10 ^ 20) (10 ^ 18)) .empty).1 = .ok Generator.richOrder := by
  have capitals : Generator.highToken.SpelledBy "BBBBBBBBBBBBBBBBBBBBBBBBBBBBBBBBBBBBBBBB" :=
    Address.parse?_eq_some_iff.mp (by decide +kernel)
  have smalls : Generator.lowToken.SpelledBy "0Xaaaaaaaaaaaaaaaaaaaaaaaaaaaaaaaaaaaaaaaa" :=
    Address.parse?_eq_some_iff.mp (by decide +kernel)
  have written : WritesPair Generator.lowToken Generator.highToken
      "BBBBBBBBBBBBBBBBBBBBBBBBBBBBBBBBBBBBBBBB" "0Xaaaaaaaaaaaaaaaaaaaaaaaaaaaaaaaaaaaaaaaa" :=
    .inr ⟨capitals, smalls⟩
  have rewritten : WritesPair Generator.lowToken Generator.highToken
      Generator.lowToken.text Generator.highToken.text :=
    .inl ⟨Address.spelledBy_text _, Address.spelledBy_text _⟩
  refine ⟨written, rewritten, ?_⟩
  rw [(pair_as_written written rewritten (Generator.usualGenerator usualPipeline).pools
    (Generator.usualGenerator usualPipeline)).1.generate]
  exact Generator.richOrder_generated

end OrderDesk
