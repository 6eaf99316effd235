import OrderDesk.Proofs.Abi
import OrderDesk.TickReader.Response

/-!
# Answers of the tick reader read back

The reader writes its answer as one value: where it starts, then where its rows start, how many of
them are valid and the liquidity, then how many rows there are, and the rows.

* `TickResponse.encode_ok_iff`: which answers can be written.
* `TickResponse.decode_encode`: an answer reads back, whatever follows it.
* `TickResponse.valid_append`: only the valid rows count.
-/

namespace OrderDesk

def TickRow.encode (row : TickRow) : Except Fault Bytes :=
  Abi.encode TickResponse.rowTypes
    (row.initialized, row.tick, row.liquidityGross, row.liquidityNet, ())

/-- Whether the numbers of a row are in the ranges of their types. -/
structure TickRow.Fits (row : TickRow) : Prop where
  tick : -2 ^ 23 ≤ row.tick ∧ row.tick < 2 ^ 23
  gross : 0 ≤ row.liquidityGross ∧ row.liquidityGross < 2 ^ 128
  net : -2 ^ 127 ≤ row.liquidityNet ∧ row.liquidityNet < 2 ^ 127

namespace TickResponse

/-- Whether the numbers of an answer are in the ranges of their types, the number of its rows
included. -/
structure Fits (response : TickResponse) : Prop where
  rows : ∀ row ∈ response.rows, row.Fits
  length : response.rows.length < 2 ^ 256
  validTo : 0 ≤ response.validTo ∧ response.validTo < 2 ^ 256
  liquidity : 0 ≤ response.liquidity ∧ response.liquidity < 2 ^ 256

def encodeRows : List TickRow → Except Fault Bytes
  | [] => .ok []
  | row :: rows => do
    let first ← row.encode
    let rest ← encodeRows rows
    return first ++ rest

def encode (response : TickResponse) : Except Fault Bytes := do
  let start ← Abi.encode [.uint 256] (32, ())
  let head ← Abi.encode [.uint 256, .uint 256, .uint 256]
    (96, response.validTo, response.liquidity, ())
  let count ← Abi.encode [.uint 256] ((response.rows.length : Int), ())
  let body ← encodeRows response.rows
  return start ++ head ++ count ++ body

variable {response : TickResponse} {row : TickRow} {rows rest : List TickRow} {data body : Bytes}

/-! ## What can be written -/

theorem encode_row_ok_iff : (∃ data, row.encode = .ok data) ↔ row.Fits := by
  rw [TickRow.encode, Abi.encode_ok_iff]
  constructor
  · rintro ⟨-, tick, gross, net, -⟩
    exact ⟨tick, gross, net⟩
  · rintro ⟨tick, gross, net⟩
    exact ⟨trivial, tick, gross, net, trivial⟩

theorem encodeRows_ok_iff : (∃ body, encodeRows rows = .ok body) ↔ ∀ row ∈ rows, row.Fits := by
  induction rows with
  | nil => exact iff_of_true ⟨[], rfl⟩ (by simp)
  | cons row rows ih =>
    rw [List.forall_mem_cons, ← encode_row_ok_iff, ← ih]
    constructor
    · rintro ⟨body, written⟩
      obtain ⟨first, first_ok, written⟩ := bind_eq_ok.mp written
      obtain ⟨others, others_ok, -⟩ := bind_eq_ok.mp written
      exact ⟨⟨first, first_ok⟩, others, others_ok⟩
    · rintro ⟨⟨first, first_ok⟩, others, others_ok⟩
      refine ⟨first ++ others, ?_⟩
      rw [encodeRows, first_ok, ok_bind, others_ok]
      rfl

theorem encode_ok_iff : (∃ data, response.encode = .ok data) ↔ response.Fits := by
  constructor
  · rintro ⟨data, written⟩
    obtain ⟨start, start_ok, written⟩ := bind_eq_ok.mp written
    obtain ⟨head, head_ok, written⟩ := bind_eq_ok.mp written
    obtain ⟨count, count_ok, written⟩ := bind_eq_ok.mp written
    obtain ⟨body, body_ok, -⟩ := bind_eq_ok.mp written
    obtain ⟨-, validTo, liquidity, -⟩ := Abi.encode_ok_iff.mp ⟨head, head_ok⟩
    obtain ⟨⟨-, length⟩, -⟩ := Abi.encode_ok_iff.mp ⟨count, count_ok⟩
    have length_lt : (response.rows.length : Int) < (2 ^ 256 : Nat) := length
    exact ⟨encodeRows_ok_iff.mp ⟨body, body_ok⟩, Int.ofNat_lt.mp length_lt, validTo, liquidity⟩
  · rintro ⟨rows, length, validTo, liquidity⟩
    obtain ⟨start, start_ok⟩ : ∃ data, Abi.encode [.uint 256] (32, ()) = .ok data :=
      Abi.encode_ok_iff.mpr ⟨⟨by decide, by decide⟩, trivial⟩
    obtain ⟨head, head_ok⟩ : ∃ data, Abi.encode [.uint 256, .uint 256, .uint 256]
        (96, response.validTo, response.liquidity, ()) = .ok data :=
      Abi.encode_ok_iff.mpr ⟨⟨by decide, by decide⟩, validTo, liquidity, trivial⟩
    obtain ⟨count, count_ok⟩ :
        ∃ data, Abi.encode [.uint 256] ((response.rows.length : Int), ()) = .ok data :=
      Abi.encode_ok_iff.mpr ⟨⟨Int.natCast_nonneg _, Int.ofNat_lt.mpr length⟩, trivial⟩
    obtain ⟨body, body_ok⟩ := encodeRows_ok_iff.mpr rows
    refine ⟨start ++ head ++ count ++ body, ?_⟩
    rw [encode, start_ok, ok_bind, head_ok, ok_bind, count_ok, ok_bind, body_ok]
    rfl

/-! ## Rows -/

theorem rowTypes_numeric : ∀ type ∈ rowTypes, type.Numeric := by
  simp [Abi.WordType.Numeric]

theorem row_length (written : row.encode = .ok data) : data.length = rowSize :=
  Abi.encode_length rowTypes_numeric written

theorem decodeRow?_encode (written : row.encode = .ok data) (behind : Bytes) :
    decodeRow? (data ++ behind) = some row := by
  rw [decodeRow?, Abi.decodeHead?_encode rowTypes_numeric written behind]
  rfl

theorem decodeRows?_encode (written : encodeRows rows = .ok body) (behind : Bytes) :
    rows.length * rowSize ≤ (body ++ behind).length ∧
      decodeRows? rows.length (body ++ behind) = some rows := by
  induction rows generalizing body with
  | nil => exact ⟨by simp, rfl⟩
  | cons row rows ih =>
    obtain ⟨first, first_ok, written⟩ := bind_eq_ok.mp written
    obtain ⟨others, others_ok, written⟩ := bind_eq_ok.mp written
    cases written
    obtain ⟨enough, reads⟩ := ih others_ok
    have size := row_length first_ok
    constructor
    · rw [List.append_assoc, List.length_append, List.length_cons, size, Nat.succ_mul]
      omega
    · rw [List.length_cons, decodeRows?, List.append_assoc, decodeRow?_encode first_ok,
        List.drop_left' size, reads]
      rfl

/-! ## Answers -/

theorem word_numeric : ∀ type ∈ ([.uint 256] : List Abi.WordType), type.Numeric := by
  simp [Abi.WordType.Numeric]

theorem head_numeric :
    ∀ type ∈ ([.uint 256, .uint 256, .uint 256] : List Abi.WordType), type.Numeric := by
  simp [Abi.WordType.Numeric]

theorem follow?_append {front back : Bytes} {offset : Nat} {head : Nat} (le : head ≤ offset)
    (size : front.length = offset) (some_back : back ≠ []) :
    follow? offset head (front ++ back) = some back := by
  have more := List.length_pos_iff.mpr some_back
  have within : (head : Int) ≤ offset ∧ (offset : Int) < (front ++ back).length := by
    rw [List.length_append]
    omega
  rw [follow?, if_pos within, Int.toNat_natCast, List.drop_left' size]

theorem decode?_encode (written : response.encode = .ok data) (behind : Bytes) :
    decode? (data ++ behind) = some response := by
  obtain ⟨start, start_ok, written⟩ := bind_eq_ok.mp written
  obtain ⟨head, head_ok, written⟩ := bind_eq_ok.mp written
  obtain ⟨count, count_ok, written⟩ := bind_eq_ok.mp written
  obtain ⟨body, body_ok, written⟩ := bind_eq_ok.mp written
  cases written
  have start_length := Abi.encode_length word_numeric start_ok
  have head_length := Abi.encode_length head_numeric head_ok
  have count_length := Abi.encode_length word_numeric count_ok
  set buffer := count ++ (body ++ behind) with buffer_eq
  have buffer_some : buffer ≠ [] := by
    refine List.append_ne_nil_of_left_ne_nil ?_ _
    exact List.ne_nil_of_length_pos (by rw [count_length]; decide)
  have part_some : head ++ buffer ≠ [] := List.append_ne_nil_of_right_ne_nil _ buffer_some
  have at_start := Abi.decodeHead?_encode word_numeric start_ok (head ++ buffer)
  have at_part : follow? 32 32 (start ++ (head ++ buffer)) = some (head ++ buffer) :=
    follow?_append le_rfl start_length part_some
  have in_part := Abi.decodeHead?_encode head_numeric head_ok buffer
  have at_buffer : follow? 96 96 (head ++ buffer) = some buffer :=
    follow?_append le_rfl head_length buffer_some
  have in_buffer : Abi.decodeHead? [.uint 256] buffer = some ((response.rows.length : Int), ()) :=
    Abi.decodeHead?_encode word_numeric count_ok (body ++ behind)
  have at_body : buffer.drop 32 = body ++ behind := List.drop_left' count_length
  obtain ⟨enough, rows_ok⟩ := decodeRows?_encode body_ok behind
  have fits : (response.rows.length : Int) * rowSize ≤ (body ++ behind).length := by
    exact_mod_cast enough
  have joined : start ++ head ++ count ++ body ++ behind = start ++ (head ++ buffer) := by
    simp only [buffer_eq, List.append_assoc]
  simp only [joined, decode?, at_start, Option.bind_eq_bind, Option.bind_some, at_part, in_part,
    at_buffer, in_buffer, at_body, if_pos fits, Int.toNat_natCast, rows_ok]
  rfl

theorem decode_encode (written : response.encode = .ok data) (behind : Bytes) :
    decode (data ++ behind) = .ok response := by
  rw [decode, decode?_encode written behind]

theorem valid_append (rows rest : List TickRow) (liquidity : Int) :
    valid ⟨rows ++ rest, rows.length, liquidity⟩ = .ok (rows, liquidity) := by
  have enough : ¬ ((rows ++ rest).length : Int) < rows.length := by
    rw [List.length_append]
    omega
  rw [valid, if_neg enough, Int.toNat_natCast, List.take_left]

end TickResponse

end OrderDesk
