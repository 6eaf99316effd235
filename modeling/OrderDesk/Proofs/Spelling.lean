import OrderDesk.Proofs.Bytes

/-!
# Bytes and addresses as text

* `Hex.read?_text`: hexadecimal text reads back, with its mark.
* `Address.parse?_text`: so does an address with its checksum, since letter case does not matter.
-/

namespace OrderDesk

/-! ## Bytes -/

namespace Hex

theorem isBlank_digit : ∀ value < 16, isBlank (digit value) = false := by decide

theorem encode_cons (byte : UInt8) (rest : Bytes) : encode (byte :: rest) =
    digit (byte.toNat / 16) :: digit (byte.toNat % 16) :: encode rest := by
  simp [encode]

theorem encode_length (bytes : Bytes) : (encode bytes).length = 2 * bytes.length := by
  induction bytes with
  | nil => rfl
  | cons byte rest ih =>
    rw [encode_cons, List.length_cons, List.length_cons, ih, List.length_cons]
    omega

theorem decodeSpaced?_encode (bytes : Bytes) : decodeSpaced? (encode bytes) = some bytes := by
  induction bytes with
  | nil => rfl
  | cons byte rest ih =>
    have bound := byte.toNat_lt
    have visible := isBlank_digit (byte.toNat / 16) (by omega)
    have high := digit?_digit (byte.toNat / 16) (by omega)
    have low := digit?_digit (byte.toNat % 16) (by omega)
    have joined : 16 * (byte.toNat / 16) + byte.toNat % 16 = byte.toNat := by omega
    rw [encode_cons, decodeSpaced?, visible]
    simp only [Bool.false_eq_true, if_false, high, low, ih, joined, Option.bind_eq_bind,
      Option.bind_some, UInt8.ofNat_toNat, Option.pure_def]

theorem read?_text (bytes : Bytes) : read? (text bytes) = some bytes := by
  have marked : (text bytes).toList = '0' :: 'x' :: encode bytes := by
    simp only [text, String.toList_append, String.toList_ofList]
    rfl
  rw [read?, marked]
  exact decodeSpaced?_encode bytes

theorem decode?_congr {first second : List Char} (same : first.map digit? = second.map digit?) :
    decode? first = decode? second := by
  have lengths := congrArg List.length same
  simp only [List.length_map] at lengths
  induction first using decode?.induct generalizing second with
  | case1 => rw [List.eq_nil_of_length_eq_zero lengths.symm]
  | case2 high low rest ih =>
    obtain ⟨c, d, others, rfl⟩ : ∃ c d others, second = c :: d :: others := by
      rcases second with _ | ⟨c, _ | ⟨d, others⟩⟩
      · simp at lengths
      · simp at lengths
      · exact ⟨c, d, others, rfl⟩
    obtain ⟨high_eq, later⟩ := List.cons.inj same
    obtain ⟨low_eq, rest_eq⟩ := List.cons.inj later
    rw [decode?, decode?, high_eq, low_eq, ih rest_eq (by simpa using lengths)]
  | case3 c =>
    obtain ⟨d, rfl⟩ := List.length_eq_one_iff.mp lengths.symm
    rfl

end Hex

/-! ## Addresses -/

namespace Address

theorem digit?_raise (c : Char) : Hex.digit? (raise c) = Hex.digit? c := by
  rw [raise]
  split
  · rename_i letter
    obtain ⟨low, high⟩ := letter
    have le : 97 ≤ c.toNat := low
    have ge : c.toNat ≤ 102 := high
    rw [← Char.ofNat_toNat c]
    interval_cases c.toNat <;> rfl
  · rfl

theorem digits_length (address : Address) : address.digits.length = 40 := by
  rw [digits, Hex.encode_length, bytes_length]

theorem zipWith_raise {chars : List Char} {marks : List Nat}
    (enough : chars.length ≤ marks.length) :
    (List.zipWith (fun c mark => if 8 ≤ mark then raise c else c) chars marks).map Hex.digit? =
      chars.map Hex.digit? := by
  induction chars generalizing marks with
  | nil => rfl
  | cons c chars ih =>
    cases marks with
    | nil => cases enough
    | cons mark marks =>
      have same : Hex.digit? (if 8 ≤ mark then raise c else c) = Hex.digit? c := by
        split
        · exact digit?_raise c
        · rfl
      rw [List.zipWith_cons_cons, List.map_cons, List.map_cons, same,
        ih (Nat.le_of_succ_le_succ enough)]

/-- Letter case is all that the checksum of up to 64 digits changes. -/
theorem checksummed_digits {chars : List Char} (short : chars.length ≤ 64) :
    (checksummed chars).map Hex.digit? = chars.map Hex.digit? := by
  refine zipWith_raise (short.trans_eq ?_)
  simp [List.length_flatMap, Keccak.hash_length]

theorem parse?_text (address : Address) : parse? address.text = some address := by
  have marked : address.text.toList = '0' :: 'x' :: checksummed address.digits := by
    simp only [text, String.toList_append, String.toList_ofList]
    rfl
  have same := checksummed_digits (address.digits_length.trans_le (by decide))
  have length : (checksummed address.digits).length = 40 := by
    rw [← address.digits_length, ← List.length_map Hex.digit?, same, List.length_map]
  rw [parse?, marked]
  simp only [dropMark]
  rw [if_pos length, Hex.decode?_congr same, digits, Hex.decode_encode, Option.map_some,
    ofBytes_bytes]

end Address

end OrderDesk
