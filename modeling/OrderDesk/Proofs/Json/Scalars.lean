import Mathlib.Tactic
import OrderDesk.Json.Printer
import OrderDesk.Json.Reader
import OrderDesk.Proofs.Except

/-!
# Texts and numbers of JSON read back

* `readText_write`: a text of characters reads back from its escapes.
* `readPlain_write`: a whole number of few enough digits reads back from its digits.
-/

namespace OrderDesk.Json

/-- Characters as they stand in a text. -/
def points (chars : List Char) : List CodePoint := chars.map .char

@[simp]
theorem points_nil : points [] = [] := rfl

@[simp]
theorem points_cons (c : Char) (rest : List Char) : points (c :: rest) = .char c :: points rest :=
  rfl

@[simp]
theorem points_append (first second : List Char) :
    points (first ++ second) = points first ++ points second :=
  List.map_append

@[simp]
theorem points_length (chars : List Char) : (points chars).length = chars.length :=
  List.length_map _

/-! ## Texts -/

theorem hexFour?_hexDigits {unit : Nat} (lt : unit < 0x10000) :
    ∃ a b c d, Quoted.hexDigits 4 unit = [a, b, c, d] ∧
      hexFour? (.char a) (.char b) (.char c) (.char d) = some unit := by
  refine ⟨_, _, _, _, rfl, ?_⟩
  have digit (place : Nat) :
      Hex.digit? (Hex.digit (unit / place % 16)) = some (unit / place % 16) :=
    Hex.digit?_digit _ (Nat.mod_lt _ (by decide))
  simp only [hexFour?, CodePoint.toChar, digit, Option.bind_eq_bind, Option.bind_some,
    Option.pure_def, Option.some.injEq]
  omega

theorem readPieces_unit {unit : Nat} (lt : unit < 0x10000) (start : Nat) (done : List Piece)
    (next : CodePoint) (rest : List CodePoint) :
    readPieces start done (points (escapeUnit unit) ++ next :: rest) =
      readPieces start (.unit unit :: done) (next :: rest) := by
  obtain ⟨a, b, c, d, digits, reads⟩ := hexFour?_hexDigits lt
  simp only [escapeUnit, digits, points_cons, points_nil, List.cons_append, List.nil_append,
    readPieces, reads]

theorem toNat_valid (c : Char) : c.toNat < 0xd800 ∨ 0xdfff < c.toNat ∧ c.toNat < 0x110000 :=
  c.valid

theorem ofNat_toNat (c : Char) : CodePoint.ofNat c.toNat = .char c := by
  have valid := toNat_valid c
  rw [CodePoint.ofNat, dif_neg (by omega), Char.ofNat_toNat]

/-- A character is read as some pieces, which join to it again. -/
def ReadsAs (c : Char) (found : List Piece) : Prop :=
  (∀ start done next rest, readPieces start done (points (escapeChar c) ++ next :: rest) =
    readPieces start (found.reverse ++ done) (next :: rest)) ∧
  ∀ more, joinPieces (found ++ more) = .char c :: joinPieces more

theorem readsAs_plain {c : Char} (quote : c ≠ '"') (slash : c ≠ '\\')
    (printable : 32 ≤ c.toNat) (same : escapeChar c = [c]) : ReadsAs c [.point (.char c)] := by
  refine ⟨fun start done next rest => ?_, fun more => rfl⟩
  rw [same]
  simp only [points_cons, points_nil, List.cons_append, List.nil_append, List.reverse_singleton]
  rw [readPieces.eq_7 _ _ _ _ (by simp [quote]) (by simp [slash]) (by simp [slash])
    (by simp [slash]) (by simp [slash])]
  exact if_neg (Nat.not_lt.mpr printable)

theorem readsAs_short {c mark : Char} (escaped : escapeChar c = ['\\', mark])
    (reads : unescape? (.char mark) = some c.toNat) (no_unit : mark ≠ 'u') :
    ReadsAs c [.point (.char c)] := by
  refine ⟨fun start done next rest => ?_, fun more => rfl⟩
  rw [escaped]
  simp only [points_cons, points_nil, List.cons_append, List.nil_append, List.reverse_singleton]
  rw [readPieces.eq_6, reads]
  · simp only [ofNat_toNat]
  · simp [no_unit]
  · simp [no_unit]

theorem joinPieces_unit {value : Nat} (alone : value < 0xd800 ∨ 0xdbff < value)
    (more : List Piece) : joinPieces (.unit value :: more) = .ofNat value :: joinPieces more := by
  cases more with
  | nil => rfl
  | cons piece more =>
    cases piece with
    | point point => rfl
    | unit low =>
      have no_pair : CodePoint.ofPair? value low = none := if_neg (by omega)
      rw [joinPieces.eq_3, no_pair]

theorem readsAs_unit {c : Char} (lt : c.toNat < 0x10000)
    (escaped : escapeChar c = escapeUnit c.toNat) : ReadsAs c [.unit c.toNat] := by
  have valid := toNat_valid c
  refine ⟨fun start done next rest => ?_, fun more => ?_⟩
  · rw [escaped, readPieces_unit lt]
    rfl
  · rw [List.singleton_append, joinPieces_unit (by omega), ofNat_toNat]

theorem readsAs_pair {c : Char} (le : 0x10000 ≤ c.toNat)
    (escaped : escapeChar c = escapeUnit (0xd800 + (c.toNat - 0x10000) / 0x400) ++
      escapeUnit (0xdc00 + (c.toNat - 0x10000) % 0x400)) :
    ReadsAs c [.unit (0xd800 + (c.toNat - 0x10000) / 0x400),
      .unit (0xdc00 + (c.toNat - 0x10000) % 0x400)] := by
  have valid := toNat_valid c
  refine ⟨fun start done next rest => ?_, fun more => ?_⟩
  · rw [escaped, points_append, List.append_assoc]
    obtain ⟨head, tail, starts⟩ : ∃ head tail,
        points (escapeUnit (0xdc00 + (c.toNat - 0x10000) % 0x400)) ++ next :: rest = head :: tail :=
      ⟨_, _, rfl⟩
    rw [starts, readPieces_unit (by omega), ← starts, readPieces_unit (by omega)]
    rfl
  · have joined : CodePoint.ofPair? (0xd800 + (c.toNat - 0x10000) / 0x400)
        (0xdc00 + (c.toNat - 0x10000) % 0x400) = some (.char c) := by
      have halves : 0xd800 ≤ 0xd800 + (c.toNat - 0x10000) / 0x400 ∧
          0xd800 + (c.toNat - 0x10000) / 0x400 < 0xdc00 ∧
          0xdc00 ≤ 0xdc00 + (c.toNat - 0x10000) % 0x400 ∧
          0xdc00 + (c.toNat - 0x10000) % 0x400 < 0xe000 := by omega
      have number : 0x10000 + (0xd800 + (c.toNat - 0x10000) / 0x400 - 0xd800) * 0x400 +
          (0xdc00 + (c.toNat - 0x10000) % 0x400 - 0xdc00) = c.toNat := by omega
      rw [CodePoint.ofPair?, if_pos halves, number, ofNat_toNat]
    rw [List.cons_append, List.singleton_append, joinPieces.eq_3, joined]

theorem readsAs (c : Char) : ∃ found, ReadsAs c found := by
  by_cases short : c = '"' ∨ c = '\\' ∨ c = '\n' ∨ c = '\r' ∨ c = '\t' ∨ c = '\x08' ∨ c = '\x0c'
  · refine ⟨[.point (.char c)], ?_⟩
    rcases short with rfl | rfl | rfl | rfl | rfl | rfl | rfl <;>
      exact readsAs_short rfl rfl (by decide)
  · simp only [not_or] at short
    obtain ⟨quote, slash, line, home, tab, back, feed⟩ := short
    have not_back : c.toNat ≠ 8 := fun same => back (by rw [← Char.ofNat_toNat c, same])
    have not_feed : c.toNat ≠ 12 := fun same => feed (by rw [← Char.ofNat_toNat c, same])
    have escaped : escapeChar c = if 32 ≤ c.toNat ∧ c.toNat < 127 then [c]
        else if c.toNat < 0x10000 then escapeUnit c.toNat
        else escapeUnit (0xd800 + (c.toNat - 0x10000) / 0x400) ++
          escapeUnit (0xdc00 + (c.toNat - 0x10000) % 0x400) := by
      rw [escapeChar, if_neg quote, if_neg slash, if_neg line, if_neg home, if_neg tab,
        if_neg not_back, if_neg not_feed]
    by_cases plain : 32 ≤ c.toNat ∧ c.toNat < 127
    · exact ⟨_, readsAs_plain quote slash plain.1 (escaped.trans (if_pos plain))⟩
    · rw [if_neg plain] at escaped
      by_cases lt : c.toNat < 0x10000
      · exact ⟨_, readsAs_unit lt (escaped.trans (if_pos lt))⟩
      · exact ⟨_, readsAs_pair (Nat.le_of_not_lt lt) (escaped.trans (if_neg lt))⟩

theorem readPieces_write {source : List CodePoint} (whole : source.any (·.isHalf) = false) :
    ∃ found, (∀ start done rest,
      readPieces start done (points (source.flatMap escapePoint) ++ .char '"' :: rest) =
        .ok (done.reverse ++ found, rest)) ∧ joinPieces found = source := by
  induction source with
  | nil => exact ⟨[], fun start done rest => by simp [readPieces], rfl⟩
  | cons point source ih =>
    obtain ⟨whole_here, whole⟩ := Bool.or_eq_false_iff.mp whole
    obtain ⟨later, reads_later, joins_later⟩ := ih whole
    cases point with
    | half place => cases whole_here
    | char c =>
      obtain ⟨found, reads, joins⟩ := readsAs c
      refine ⟨found ++ later, fun start done rest => ?_, by rw [joins, joins_later]⟩
      obtain ⟨next, tail, starts⟩ : ∃ next tail,
          points (source.flatMap escapePoint) ++ .char '"' :: rest = next :: tail := by
        cases points (source.flatMap escapePoint) <;> exact ⟨_, _, rfl⟩
      rw [List.flatMap_cons, points_append, List.append_assoc, starts]
      simp only [escapePoint]
      rw [reads, ← starts, reads_later, List.reverse_append, List.reverse_reverse,
        List.append_assoc]

/-- A text of characters reads back from its escapes up to the closing quote. -/
theorem readText_write {text : Text} (whole : text.isWhole = true) (rest : List CodePoint) :
    readText (points (text.points.flatMap escapePoint) ++ .char '"' :: rest) =
      .ok (text, rest) := by
  have no_half : text.points.any (·.isHalf) = false := by
    rwa [Text.isWhole, Bool.not_eq_true'] at whole
  obtain ⟨found, reads, joins⟩ := readPieces_write no_half
  rw [readText, reads, ok_bind, List.reverse_nil, List.nil_append]
  simp only [joins]
  rfl

/-! ## Numbers -/

def IsDigit (c : Char) : Prop := '0' ≤ c ∧ c ≤ '9'

instance (c : Char) : Decidable (IsDigit c) := inferInstanceAs (Decidable ('0' ≤ c ∧ c ≤ '9'))

/-- Whether a number ends where a text goes on. -/
def EndsNumber (rest : List CodePoint) : Prop :=
  ∀ c tail, rest = .char c :: tail → ¬ IsDigit c ∧ c ≠ '.' ∧ c ≠ 'e' ∧ c ≠ 'E'

theorem toString_toList (value : Int) : (toString value).toList =
    (if value < 0 then ['-'] else []) ++ Nat.toDigits 10 value.natAbs := by
  rw [Int.toString_eq_repr, Int.repr_eq_if]
  split
  · rename_i nonneg
    have size : value.natAbs = value.toNat := by omega
    rw [if_neg (by omega), size, Nat.toList_repr, List.nil_append]
  · rename_i negative
    have size : value.natAbs = (-value).toNat := by omega
    rw [if_pos (by omega), size, String.toList_append, Nat.toList_repr]
    rfl

theorem isDigit_of_mem {number : Nat} {c : Char} (member : c ∈ Nat.toDigits 10 number) :
    IsDigit c := by
  have digit := Nat.isDigit_of_mem_toDigits (by decide) (by decide) member
  simpa [Char.isDigit, IsDigit, Char.le_def] using digit

theorem toDigits_head {number : Nat} (pos : 0 < number) :
    ∃ c tail, Nat.toDigits 10 number = c :: tail ∧ c ≠ '0' := by
  induction number using Nat.strong_induction_on with
  | _ number ih =>
    by_cases small : number < 10
    · refine ⟨_, [], Nat.toDigits_of_lt_base small, ?_⟩
      rw [ne_eq, Nat.digitChar_eq_zero]
      omega
    · obtain ⟨c, tail, starts, ne⟩ := ih (number / 10) (by omega) (by omega)
      refine ⟨c, tail ++ [(number % 10).digitChar], ?_, ne⟩
      rw [Nat.toDigits_of_base_le (by decide) (Nat.le_of_not_lt small), starts, List.cons_append]

theorem digits_points {found : List Char} {rest : List CodePoint}
    (all : ∀ c ∈ found, IsDigit c) (ends : EndsNumber rest) :
    digits (points found ++ rest) = found := by
  induction found with
  | nil =>
    cases rest with
    | nil => rfl
    | cons point tail =>
      cases point with
      | half place => rfl
      | char c => exact if_neg (ends c tail rfl).1
  | cons c found ih =>
    obtain ⟨here, later⟩ := List.forall_mem_cons.mp all
    have digit : '0' ≤ c ∧ c ≤ '9' := here
    rw [points_cons, List.cons_append, digits, if_pos digit, ih later]

theorem readWhole_toDigits {number : Nat} {rest : List CodePoint} (ends : EndsNumber rest) :
    readWhole (points (Nat.toDigits 10 number) ++ rest) =
      some (Nat.toDigits 10 number, rest) := by
  have all : ∀ c ∈ Nat.toDigits 10 number, IsDigit c := fun c => isDigit_of_mem
  have found := digits_points all ends
  rcases Nat.eq_zero_or_pos number with rfl | pos
  · rfl
  · obtain ⟨c, tail, starts, ne⟩ := toDigits_head pos
    rw [starts] at found ⊢
    rw [points_cons, List.cons_append] at found ⊢
    rw [readWhole.eq_2 _ (by simp [ne])]
    simp [found]

theorem valueOf_toDigits (number : Nat) : valueOf (Nat.toDigits 10 number) = number := by
  have same : valueOf (Nat.toDigits 10 number) =
      Nat.ofDigitChars 10 (Nat.toDigits 10 number) 0 := by
    rw [valueOf, Nat.ofDigitChars_eq_foldl]
    congr
    funext value c
    rw [Nat.mul_comm]
    rfl
  rw [same, Nat.ofDigitChars_ten_toDigits]

theorem readUnsigned_toDigits {number : Nat} {rest start : List CodePoint} {negative : Bool}
    (fits : number < 10 ^ Digit.maxCount) (ends : EndsNumber rest) :
    readUnsigned start negative (points (Nat.toDigits 10 number) ++ rest) =
      .ok (.int (if negative then -number else number), rest) := by
  have no_fraction : readFraction rest = none := by
    rcases rest with _ | ⟨c | place, tail⟩
    · rfl
    · exact readFraction.eq_2 _ (by simp [(ends c tail rfl).2.1])
    · rfl
  have no_exponent : readExponent rest = none := by
    rcases rest with _ | ⟨c | place, tail⟩
    · rfl
    · exact if_neg (not_or.mpr (ends c tail rfl).2.2)
    · rfl
  have short : ¬ Digit.maxCount < (Nat.toDigits 10 number).length := by
    rw [Nat.not_lt, Nat.length_toDigits_le_iff (by decide) (by decide)]
    exact fits
  rw [readUnsigned, readWhole_toDigits ends]
  simp [no_fraction, no_exponent, short, valueOf_toDigits]

theorem IsDigit.ne {c : Char} (digit : IsDigit c) :
    'n' ≠ c ∧ 't' ≠ c ∧ 'f' ≠ c ∧ 'N' ≠ c ∧ 'I' ≠ c ∧ '-' ≠ c := by
  refine ⟨?_, ?_, ?_, ?_, ?_, ?_⟩ <;> rintro rfl <;> exact absurd digit (by decide)

theorem readPlain_of_no_word {source : List CodePoint}
    (no_word : ∀ entry ∈ words, dropWord? entry.1 source = none) :
    readPlain source = readNumber source := by
  rw [readPlain, List.findSome?_eq_none_iff.mpr]
  intro entry member
  exact Option.map_eq_none_iff.mpr (no_word entry member)

theorem readPlain_of_digit {c : Char} (digit : IsDigit c) (source : List CodePoint) :
    readPlain (.char c :: source) = readUnsigned (.char c :: source) false (.char c :: source) := by
  have no_word : ∀ entry ∈ words, dropWord? entry.1 (.char c :: source) = none := by
    simp [words, dropWord?, digit.ne]
  have unsigned : ∀ rest, CodePoint.char c :: source = .char '-' :: rest → False := by
    simp [digit.ne.2.2.2.2.2.symm]
  rw [readPlain_of_no_word no_word]
  exact readNumber.eq_2 _ unsigned

theorem readPlain_of_sign {c : Char} (digit : IsDigit c) (source : List CodePoint) :
    readPlain (.char '-' :: .char c :: source) =
      readUnsigned (.char '-' :: .char c :: source) true (.char c :: source) := by
  have no_word : ∀ entry ∈ words, dropWord? entry.1 (.char '-' :: .char c :: source) = none := by
    simp [words, dropWord?, digit.ne]
  rw [readPlain_of_no_word no_word]
  rfl

theorem toDigits_cons (number : Nat) :
    ∃ c tail, Nat.toDigits 10 number = c :: tail ∧ IsDigit c := by
  cases digits : Nat.toDigits 10 number with
  | nil => exact absurd digits Nat.toDigits_ne_nil
  | cons c tail => exact ⟨c, tail, rfl, isDigit_of_mem (digits ▸ List.mem_cons_self)⟩

theorem toString_head (value : Int) :
    ∃ c tail, (toString value).toList = c :: tail ∧ (c = '-' ∨ IsDigit c) := by
  obtain ⟨c, tail, starts, digit⟩ := toDigits_cons value.natAbs
  rw [toString_toList, starts]
  split
  · exact ⟨_, _, rfl, .inl rfl⟩
  · exact ⟨_, _, rfl, .inr digit⟩

/-- A whole number of few enough digits reads back, if it ends where its digits do. -/
theorem readPlain_write {value : Int} {rest : List CodePoint} (fits : Digit.fits value = true)
    (ends : EndsNumber rest) :
    readPlain (points (toString value).toList ++ rest) = .ok (.int value, rest) := by
  have below_eq (below : value < 0) : -(value.natAbs : Int) = value := by omega
  have above_eq (above : ¬ value < 0) : (value.natAbs : Int) = value := by omega
  have size : value.natAbs < 10 ^ Digit.maxCount := of_decide_eq_true fits
  obtain ⟨c, tail, starts, digit⟩ := toDigits_cons value.natAbs
  have reads (start : List CodePoint) (negative : Bool) :
      readUnsigned start negative (points (Nat.toDigits 10 value.natAbs) ++ rest) = _ :=
    readUnsigned_toDigits size ends
  simp only [starts, points_cons, List.cons_append] at reads
  rw [toString_toList, starts]
  split
  · rename_i below
    simp only [List.cons_append, List.nil_append, points_cons]
    rw [readPlain_of_sign digit, reads, if_pos rfl, below_eq below]
  · rename_i above
    simp only [List.nil_append, points_cons, List.cons_append]
    rw [readPlain_of_digit digit, reads, if_neg Bool.false_ne_true, above_eq above]

end OrderDesk.Json
