import OrderDesk.Fault
import OrderDesk.Proofs.Spelling

/-!
# What writes an address

* `Address.SpelledBy`: the texts that write an address, said apart from how they are read.
* `Hex.decode?_eq_some_iff`: what is read from digits of any letter case.
* `Address.parse?_eq_some_iff`: an address is read from the texts that write it, and from no others.
-/

namespace OrderDesk

/-! ## Digits -/

namespace Hex

theorem digit?_toLower (c : Char) : digit? c.toLower = digit? c := by
  by_cases upper : 65 ≤ c.toNat ∧ c.toNat ≤ 90
  · obtain ⟨low, high⟩ := upper
    rw [← Char.ofNat_toNat c]
    interval_cases c.toNat <;> rfl
  · have same : c.toLower = c := dif_neg upper
    rw [same]

theorem digit?_eq_some_iff {c : Char} {value : Nat} :
    digit? c = some value ↔ value < 16 ∧ c.toLower = digit value := by
  constructor
  · intro given
    have legible : 48 ≤ c.toNat ∧ c.toNat ≤ 57 ∨ 97 ≤ c.toNat ∧ c.toNat ≤ 102 ∨
        65 ≤ c.toNat ∧ c.toNat ≤ 70 := by
      unfold digit? at given
      split at given
      · exact .inl ‹_›
      · split at given
        · exact .inr (.inl ‹_›)
        · split at given
          · exact .inr (.inr ‹_›)
          · cases given
    rw [← Char.ofNat_toNat c] at given ⊢
    rcases legible with ⟨low, high⟩ | ⟨low, high⟩ | ⟨low, high⟩
    all_goals
      interval_cases c.toNat
      all_goals
        cases given
        decide
  · rintro ⟨lt, lowered⟩
    rw [← digit?_toLower, lowered, digit?_digit value lt]

theorem mem_encode {bytes : Bytes} {c : Char} (mem : c ∈ encode bytes) :
    ∃ value < 16, c = digit value := by
  obtain ⟨byte, -, mem⟩ := List.mem_flatMap.mp mem
  have bound := byte.toNat_lt
  rcases List.mem_pair.mp mem with same | same
  · exact ⟨_, by omega, same⟩
  · exact ⟨_, by omega, same⟩

theorem decode?_eq_some_iff {chars : List Char} {bytes : Bytes} :
    decode? chars = some bytes ↔ chars.map Char.toLower = encode bytes := by
  constructor
  · intro given
    induction chars using decode?.induct generalizing bytes with
    | case1 =>
      cases given
      rfl
    | case2 high low rest ih =>
      simp only [decode?, Option.bind_eq_bind, Option.bind_eq_some_iff, Option.pure_def,
        Option.some.injEq] at given
      obtain ⟨first, first_ok, second, second_ok, later, later_ok, rfl⟩ := given
      obtain ⟨first_lt, first_eq⟩ := digit?_eq_some_iff.mp first_ok
      obtain ⟨second_lt, second_eq⟩ := digit?_eq_some_iff.mp second_ok
      have joined : (UInt8.ofNat (16 * first + second)).toNat = 16 * first + second := by
        rw [UInt8.toNat_ofNat']
        omega
      rw [encode_cons, joined, List.map_cons, List.map_cons, ih later_ok, first_eq, second_eq]
      congr 2
      · omega
      · congr 1
        omega
    | case3 c => cases given
  · intro lowered
    have same : (chars.map Char.toLower).map digit? = chars.map digit? := by
      rw [List.map_map]
      exact List.map_congr_left fun c _ => digit?_toLower c
    rw [← decode?_congr same, lowered, decode_encode]

end Hex

/-! ## Addresses -/

namespace Address

variable {address : Address} {spelling : String}

/-- Whether a text writes an address: its digits in any letter case, with or without a mark. -/
def SpelledBy (address : Address) (spelling : String) : Prop :=
  ∃ digits : List Char, digits.map Char.toLower = address.digits ∧
    (spelling.toList = digits ∨ spelling.toList = '0' :: 'x' :: digits ∨
      spelling.toList = '0' :: 'X' :: digits)

theorem bytes_ofBytes {bytes : Bytes} (length_eq : bytes.length = 20) :
    (ofBytes bytes).bytes = bytes := by
  have small : Bytes.toNat bytes < 2 ^ 160 := Bytes.toNat_lt length_eq
  calc (ofBytes bytes).bytes
    _ = Bytes.ofNat 20 (Bytes.toNat bytes % 2 ^ 160) := rfl
    _ = bytes := by rw [Nat.mod_eq_of_lt small, Bytes.ofNat_toNat length_eq]

theorem dropMark_cases (chars : List Char) :
    chars = dropMark chars ∨ chars = '0' :: 'x' :: dropMark chars ∨
      chars = '0' :: 'X' :: dropMark chars := by
  unfold dropMark
  split
  · exact .inr (.inl rfl)
  · exact .inr (.inr rfl)
  · exact .inl rfl

/-- A mark is no pair of digits, so that digits without a mark are left as they are. -/
theorem dropMark_of_digits {chars : List Char} (lowered : chars.map Char.toLower = address.digits) :
    dropMark chars = chars := by
  have unmarked : 'x' ∉ chars.map Char.toLower := by
    intro mem
    rw [lowered] at mem
    obtain ⟨value, lt, same⟩ := Hex.mem_encode mem
    revert same
    exact (by decide : ∀ value < 16, 'x' ≠ Hex.digit value) value lt
  unfold dropMark
  split
  · exact absurd (.tail _ (.head _)) unmarked
  · exact absurd (.tail _ (.head _)) unmarked
  · rfl

theorem dropMark_spelled :
    (dropMark spelling.toList).map Char.toLower = address.digits ↔ address.SpelledBy spelling := by
  constructor
  · exact fun lowered => ⟨_, lowered, dropMark_cases spelling.toList⟩
  · rintro ⟨digits, lowered, written | written | written⟩
    · rw [written, dropMark_of_digits lowered, lowered]
    · rw [written, dropMark, lowered]
    · rw [written, dropMark, lowered]

theorem parse?_eq_some_iff : parse? spelling = some address ↔ address.SpelledBy spelling := by
  rw [← dropMark_spelled, parse?]
  generalize dropMark spelling.toList = chars
  constructor
  · intro given
    split at given
    · rename_i length_eq
      obtain ⟨bytes, decoded, rfl⟩ := Option.map_eq_some_iff.mp given
      have lowered := Hex.decode?_eq_some_iff.mp decoded
      have size : bytes.length = 20 := by
        have lengths := congrArg List.length lowered
        rw [List.length_map, Hex.encode_length, length_eq] at lengths
        omega
      rw [lowered, digits, bytes_ofBytes size]
    · cases given
  · intro lowered
    have length_eq : chars.length = 40 := by
      rw [← List.length_map Char.toLower, lowered, digits_length]
    rw [if_pos length_eq, Hex.decode?_eq_some_iff.mpr lowered, Option.map_some, ofBytes_bytes]

theorem spelledBy_text (address : Address) : address.SpelledBy address.text :=
  parse?_eq_some_iff.mp (parse?_text address)

theorem readAddress_eq_ok : readAddress spelling = .ok address ↔ address.SpelledBy spelling := by
  rw [← parse?_eq_some_iff, readAddress]
  cases parse? spelling <;> simp

end Address

end OrderDesk
