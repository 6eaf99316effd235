import Mathlib.Tactic
import OrderDesk.Abi
import OrderDesk.Proofs.Except

/-!
# Call data reads back

* `Abi.decodeWord_encodeWord`: the value of a written word is the value that was written.
* `Abi.decodeHead?_encode`: so for a sequence of words, whatever follows it.
* `Abi.encode_ok_iff`: what is in the range of its type can be written, and nothing else.
* `Abi.decode_uint_bounds`: an unsigned number that is read is in the range of its type.
-/

namespace OrderDesk.Abi

/-- The types whose words are numbers. -/
def WordType.Numeric : WordType → Prop
  | uint bits | int bits => bits ≤ 256
  | bool | address => True
  | bytes _ => False

theorem toNat_numberWord_of_lt {value : Nat} (lt : value < 2 ^ 256) :
    Bytes.toNat (numberWord value) = value := by
  have whole := toNat_numberWord value
  omega

theorem decodeWord_uint {bits : Nat} {value : Int} (le : bits ≤ 256) (nonneg : 0 ≤ value)
    (lt : value < 2 ^ bits) : decodeWord (.uint bits) (numberWord value) = some value := by
  obtain ⟨number, rfl⟩ := Int.eq_ofNat_of_zero_le nonneg
  have small : number < 2 ^ bits := by exact_mod_cast lt
  have wide : 2 ^ bits ≤ 2 ^ 256 := Nat.pow_le_pow_right (by decide) le
  simp only [decodeWord, toNat_numberWord_of_lt (small.trans_le wide), if_pos small]

theorem decodeWord_int {bits : Nat} {value : Int} (le : bits ≤ 256)
    (within : -2 ^ (bits - 1) ≤ value ∧ value < 2 ^ (bits - 1)) :
    decodeWord (.int bits) (numberWord value) = some value := by
  have wide : (2 : Int) ^ (bits - 1) ≤ 2 ^ 255 :=
    pow_le_pow_right₀ (by decide) (Nat.sub_le_sub_right le 1)
  have reads : signedValue (numberWord value) = value :=
    signedValue_numberWord (by omega) (by omega)
  simp only [decodeWord, reads, if_pos within]

theorem decodeWord_bool (value : Bool) :
    decodeWord .bool (numberWord (if value then 1 else 0)) = some value := by
  cases value with
  | false =>
    have reads : Bytes.toNat (numberWord 0) = 0 := toNat_numberWord_of_lt (by decide)
    simp [decodeWord, reads]
  | true =>
    have reads : Bytes.toNat (numberWord 1) = 1 := toNat_numberWord_of_lt (by decide)
    simp [decodeWord, reads]

theorem decodeWord_encodeWord {type : WordType} {value : type.Value} {word : Bytes}
    (numeric : type.Numeric) (written : encodeWord type value = .ok word) :
    decodeWord type word = some value := by
  cases type with
  | uint bits =>
    simp only [encodeWord] at written
    split at written <;> cases written
    rename_i within
    exact decodeWord_uint numeric within.1 within.2
  | int bits =>
    simp only [encodeWord] at written
    split at written <;> cases written
    rename_i within
    exact decodeWord_int numeric within
  | bool =>
    cases written
    exact decodeWord_bool value
  | address =>
    cases written
    have reads : Bytes.toNat (numberWord value.val) = value.val :=
      toNat_numberWord_of_lt (value.lt_two_pow.trans (by decide))
    simp only [decodeWord, reads, dif_pos value.lt_two_pow]
  | bytes size => exact numeric.elim

theorem encode_cons_ok {type : WordType} {types : List WordType} {value : type.Value}
    {values : Values types} {data : Bytes}
    (written : encode (type :: types) (value, values) = .ok data) :
    ∃ word rest, encodeWord type value = .ok word ∧ encode types values = .ok rest ∧
      data = word ++ rest := by
  obtain ⟨word, word_ok, written⟩ := bind_eq_ok.mp written
  obtain ⟨rest, rest_ok, written⟩ := bind_eq_ok.mp written
  cases written
  exact ⟨word, rest, word_ok, rest_ok, rfl⟩

theorem encode_cons {type : WordType} {types : List WordType} {value : type.Value}
    {values : Values types} {word rest : Bytes} (word_ok : encodeWord type value = .ok word)
    (rest_ok : encode types values = .ok rest) :
    encode (type :: types) (value, values) = .ok (word ++ rest) := by
  rw [encode, word_ok, ok_bind, rest_ok, ok_bind]
  rfl

/-- Whether a value is in the range of its type. -/
def WordType.Fits : (type : WordType) → type.Value → Prop
  | uint bits, value => 0 ≤ value ∧ value < 2 ^ bits
  | int bits, value => -2 ^ (bits - 1) ≤ value ∧ value < 2 ^ (bits - 1)
  | bool, _ | address, _ => True
  | bytes size, value => value.length ≤ size

def Fit : (types : List WordType) → Values types → Prop
  | [], _ => True
  | type :: types, (value, values) => type.Fits value ∧ Fit types values

theorem encodeWord_ok_iff {type : WordType} {value : type.Value} :
    (∃ word, encodeWord type value = .ok word) ↔ type.Fits value := by
  cases type with
  | uint bits | int bits | bytes size =>
    simp only [encodeWord, WordType.Fits]
    split <;> simp_all
  | bool | address => simp [encodeWord, WordType.Fits]

theorem encode_ok_iff {types : List WordType} {values : Values types} :
    (∃ data, encode types values = .ok data) ↔ Fit types values := by
  induction types with
  | nil => exact ⟨fun _ => trivial, fun _ => ⟨[], rfl⟩⟩
  | cons type types ih =>
    obtain ⟨value, values⟩ := values
    rw [Fit, ← encodeWord_ok_iff, ← ih]
    constructor
    · rintro ⟨data, written⟩
      obtain ⟨word, rest, word_ok, rest_ok, -⟩ := encode_cons_ok written
      exact ⟨⟨word, word_ok⟩, rest, rest_ok⟩
    · rintro ⟨⟨word, word_ok⟩, rest, rest_ok⟩
      exact ⟨word ++ rest, encode_cons word_ok rest_ok⟩

theorem WordType.Numeric.word_length {type : WordType} {value : type.Value} {word : Bytes}
    (numeric : type.Numeric) (written : encodeWord type value = .ok word) : word.length = 32 := by
  refine encodeWord_length ?_ written
  rintro size rfl
  exact numeric.elim

theorem encode_length {types : List WordType} {values : Values types} {data : Bytes}
    (numeric : ∀ type ∈ types, type.Numeric) (written : encode types values = .ok data) :
    data.length = 32 * types.length := by
  induction types generalizing data with
  | nil =>
    cases written
    rfl
  | cons type types ih =>
    obtain ⟨value, values⟩ := values
    obtain ⟨word, rest, word_ok, rest_ok, rfl⟩ := encode_cons_ok written
    have word_length := (numeric type List.mem_cons_self).word_length word_ok
    have rest_length := ih (fun other mem => numeric other (List.mem_cons_of_mem _ mem)) rest_ok
    rw [List.length_append, List.length_cons, word_length, rest_length]
    omega

theorem decodeHead?_encode {types : List WordType} {values : Values types} {data : Bytes}
    (numeric : ∀ type ∈ types, type.Numeric) (written : encode types values = .ok data)
    (behind : Bytes) : decodeHead? types (data ++ behind) = some values := by
  induction types generalizing data with
  | nil => rfl
  | cons type types ih =>
    obtain ⟨value, values⟩ := values
    obtain ⟨word, rest, word_ok, rest_ok, rfl⟩ := encode_cons_ok written
    have word_numeric := numeric type List.mem_cons_self
    have size := word_numeric.word_length word_ok
    have enough : ¬ (word ++ (rest ++ behind)).length < 32 := by
      rw [List.length_append, size]
      omega
    have others := ih (fun other mem => numeric other (List.mem_cons_of_mem _ mem)) rest_ok
    rw [List.append_assoc, decodeHead?, if_neg enough, List.take_left' size, List.drop_left' size,
      decodeWord_encodeWord word_numeric word_ok, others]
    rfl

/-! ## Results -/

theorem decode_uint_bounds {bits : Nat} {types : List WordType} {data : Bytes} {value : Int}
    {values : Values types} (given : decode (.uint bits :: types) data = .ok (value, values)) :
    0 ≤ value ∧ value < 2 ^ bits := by
  unfold decode at given
  split at given
  · rename_i found
    cases given
    unfold decodeHead? at found
    split at found
    · cases found
    · obtain ⟨word, word_some, found⟩ := Option.bind_eq_some_iff.mp found
      obtain ⟨rest, -, found⟩ := Option.bind_eq_some_iff.mp found
      cases found
      rw [decodeWord] at word_some
      split at word_some
      · rename_i small
        cases word_some
        exact ⟨Int.natCast_nonneg _, by exact_mod_cast small⟩
      · cases word_some
  · cases given

end OrderDesk.Abi
