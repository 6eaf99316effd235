import OrderDesk.Proofs.Json.Scalars
import OrderDesk.Proofs.Table

/-!
# Written JSON reads back

A value without fractions, whose texts are made of characters and whose objects name each member
once, reads back from any layout whose lines and gaps are blank, if its lists and objects can be
open at a time.

* `readsBack`: a value reads back with anything behind it that ends a number.
* `read_pretty`, `read_line`: so for whole documents in both layouts.
-/

namespace OrderDesk

namespace Json

/-! ## Blanks -/

structure Layout.Spaced (layout : Layout) : Prop where
  line : ∀ level, ∀ c ∈ layout.line level, isBlank (.char c) = true
  colon : ∃ gap, layout.colon = ':' :: gap ∧ ∀ c ∈ gap, isBlank (.char c) = true

theorem indented_spaced : indented.Spaced where
  line level c member := by
    rcases List.mem_cons.mp member with rfl | member
    · rfl
    · rw [List.eq_of_mem_replicate member]
      rfl
  colon := ⟨[' '], rfl, by simp [isBlank]⟩

theorem compact_spaced : compact.Spaced where
  line := by simp [compact]
  colon := ⟨[], rfl, by simp⟩

theorem skipBlanks_append {gap : List Char} (blank : ∀ c ∈ gap, isBlank (.char c) = true)
    (rest : List CodePoint) : skipBlanks (points gap ++ rest) = skipBlanks rest := by
  induction gap with
  | nil => rfl
  | cons c gap ih =>
    obtain ⟨here, later⟩ := List.forall_mem_cons.mp blank
    rw [points_cons, List.cons_append, skipBlanks, List.dropWhile_cons_of_pos here]
    exact ih later

theorem skipBlanks_cons {c : Char} (visible : isBlank (.char c) = false) (rest : List CodePoint) :
    skipBlanks (.char c :: rest) = .char c :: rest :=
  List.dropWhile_cons_of_neg (by simp [visible])

theorem blank_cases {c : Char} (blank : isBlank (.char c) = true) :
    c = ' ' ∨ c = '\t' ∨ c = '\n' ∨ c = '\r' := by
  simpa [isBlank, or_assoc] using blank

theorem number_start {c : Char} (starts : c = '-' ∨ IsDigit c) :
    isBlank (.char c) = false ∧ c ≠ ']' ∧ c ≠ '\x7d' ∧ c ≠ '"' ∧ c ≠ '[' ∧ c ≠ '\x7b' := by
  refine ⟨?_, ?_⟩
  · by_contra blank
    rcases blank_cases (Bool.eq_true_of_not_eq_false blank) with rfl | rfl | rfl | rfl <;>
      exact absurd starts (by decide)
  · refine ⟨?_, ?_, ?_, ?_, ?_⟩ <;> rintro rfl <;> exact absurd starts (by decide)

theorem skipBlanks_to {gap : List Char} (blank : ∀ c ∈ gap, isBlank (.char c) = true) {c : Char}
    (visible : isBlank (.char c) = false) (rest : List CodePoint) :
    skipBlanks (points gap ++ .char c :: rest) = .char c :: rest := by
  rw [skipBlanks_append blank, skipBlanks_cons visible]

/-! ## Values -/

mutual

/-- Whether a value has no fractions, only texts of characters, only whole numbers of few enough
digits, and objects that name each member once. -/
def Legible : Json → Prop
  | .null | .bool _ => True
  | .int value => Digit.fits value = true
  | .real _ => False
  | .text value => value.isWhole = true
  | .array items => LegibleItems items
  | .object members => (members.map (·.1)).Nodup ∧ LegibleMembers members

def LegibleItems : List Json → Prop
  | [] => True
  | item :: rest => item.Legible ∧ LegibleItems rest

def LegibleMembers : List (Text × Json) → Prop
  | [] => True
  | (key, value) :: rest => key.isWhole = true ∧ value.Legible ∧ LegibleMembers rest

end

mutual

/-- How many lists and objects a value is made of in one another. -/
def nesting : Json → Nat
  | .null | .bool _ | .int _ | .real _ | .text _ => 0
  | .array items => nestingItems items + 1
  | .object members => nestingMembers members + 1

def nestingItems : List Json → Nat
  | [] => 0
  | item :: rest => max item.nesting (nestingItems rest)

def nestingMembers : List (Text × Json) → Nat
  | [] => 0
  | (_, value) :: rest => max value.nesting (nestingMembers rest)

end

theorem legibleItems_iff {items : List Json} :
    LegibleItems items ↔ ∀ item ∈ items, item.Legible := by
  induction items with
  | nil => simp [LegibleItems]
  | cons item items ih => rw [LegibleItems, ih, List.forall_mem_cons]

theorem legibleMembers_iff {members : List (Text × Json)} :
    LegibleMembers members ↔
      ∀ member ∈ members, member.1.isWhole = true ∧ member.2.Legible := by
  induction members with
  | nil => simp [LegibleMembers]
  | cons member members ih =>
    rw [LegibleMembers, ih, List.forall_mem_cons, and_assoc]

theorem nestingMembers_le_iff {members : List (Text × Json)} {most : Nat} :
    nestingMembers members ≤ most ↔ ∀ member ∈ members, member.2.nesting ≤ most := by
  induction members with
  | nil => simp [nestingMembers]
  | cons member members ih => rw [nestingMembers, max_le_iff, ih, List.forall_mem_cons]

mutual

theorem allParts_of_legible {holds : Json → Bool}
    (sound : ∀ part : Json, part.Legible → holds part = true) :
    ∀ value : Json, value.Legible → value.allParts holds = true
  | .null, legible | .bool _, legible | .int _, legible | .text _, legible => sound _ legible
  | .array items, legible => allItems_of_legible sound items legible
  | .object members, legible => allMembers_of_legible sound members legible.2

theorem allItems_of_legible {holds : Json → Bool}
    (sound : ∀ part : Json, part.Legible → holds part = true) :
    ∀ items : List Json, LegibleItems items → allItems holds items = true
  | [], _ => rfl
  | item :: rest, ⟨here, later⟩ => by
    rw [allItems, allParts_of_legible sound item here, allItems_of_legible sound rest later,
      Bool.and_self]

theorem allMembers_of_legible {holds : Json → Bool}
    (sound : ∀ part : Json, part.Legible → holds part = true) :
    ∀ members : List (Text × Json), LegibleMembers members → allMembers holds members = true
  | [], _ => rfl
  | (key, value) :: rest, ⟨whole, here, later⟩ => by
    rw [allMembers, sound (.text key) whole, allParts_of_legible sound value here,
      allMembers_of_legible sound rest later, Bool.and_self, Bool.and_self]

end

theorem isWritable_of_legible {value : Json} (legible : value.Legible) :
    value.isWritable = true := by
  apply allParts_of_legible _ value legible
  intro part legible
  cases part with
  | int number => exact legible
  | _ => rfl

/-! ## One step of reading -/

section Steps

variable {steps room : Nat} {source tail after more rest : List CodePoint} {c : Char} {key : Text}
  {value item : Json} {items : List Json} {members : List (Text × Json)}

theorem readValue_text {text : Text} (reads : readText source = .ok (text, rest)) :
    readValue (steps + 1) room (.char '"' :: source) = .ok (.text text, rest) := by
  rw [readValue, reads]
  rfl

theorem readValue_array (starts : skipBlanks source = .char c :: tail) (ne : c ≠ ']')
    (reads : readItems steps room (.char c :: tail) = .ok (items, rest)) :
    readValue (steps + 1) (room + 1) (.char '[' :: source) = .ok (.array items, rest) := by
  simp only [readValue, enter, ok_bind, starts]
  split
  · simp_all
  · rw [reads]
    rfl

theorem readValue_object (starts : skipBlanks source = .char c :: tail) (ne : c ≠ '\x7d')
    (reads : readMembers steps room (.char c :: tail) = .ok (members, rest)) :
    readValue (steps + 1) (room + 1) (.char '\x7b' :: source) =
      .ok (.object (Table.ofList members), rest) := by
  simp only [readValue, enter, ok_bind, starts]
  split
  · simp_all
  · rw [reads]
    rfl

theorem readValue_plain (ne : c ≠ '"' ∧ c ≠ '[' ∧ c ≠ '\x7b') :
    readValue (steps + 1) room (.char c :: tail) = readPlain (.char c :: tail) :=
  readValue.eq_5 _ _ _ (by simp [ne]) (by simp [ne]) (by simp [ne])

theorem readItems_last (reads : readValue steps room source = .ok (item, after))
    (ends : skipBlanks after = .char ']' :: rest) :
    readItems (steps + 1) room source = .ok ([item], rest) := by
  rw [readItems, reads, ok_bind]
  simp only [ends]
  rfl

theorem readItems_more (reads : readValue steps room source = .ok (item, after))
    (goes_on : skipBlanks after = .char ',' :: more)
    (others : readItems steps room (skipBlanks more) = .ok (items, rest)) :
    readItems (steps + 1) room source = .ok (item :: items, rest) := by
  rw [readItems, reads, ok_bind]
  simp only [goes_on, others, ok_bind]
  rfl

variable {afterKey afterColon : List CodePoint}

theorem readMembers_last (reads_key : readText source = .ok (key, afterKey))
    (colon : skipBlanks afterKey = .char ':' :: afterColon)
    (reads : readValue steps room (skipBlanks afterColon) = .ok (value, after))
    (ends : skipBlanks after = .char '\x7d' :: rest) :
    readMembers (steps + 1) room (.char '"' :: source) = .ok ([(key, value)], rest) := by
  rw [readMembers, reads_key, ok_bind]
  simp only [colon, reads, ends, ok_bind]
  rfl

theorem readMembers_more (reads_key : readText source = .ok (key, afterKey))
    (colon : skipBlanks afterKey = .char ':' :: afterColon)
    (reads : readValue steps room (skipBlanks afterColon) = .ok (value, after))
    (goes_on : skipBlanks after = .char ',' :: more)
    (others : readMembers steps room (skipBlanks more) = .ok (members, rest)) :
    readMembers (steps + 1) room (.char '"' :: source) = .ok ((key, value) :: members, rest) := by
  rw [readMembers, reads_key, ok_bind]
  simp only [colon, reads, goes_on, others, ok_bind]
  rfl

end Steps

/-! ## What written values start with and are followed by -/

variable {layout : Layout}

theorem endsNumber_cons {c : Char} (ends : ¬ IsDigit c ∧ c ≠ '.' ∧ c ≠ 'e' ∧ c ≠ 'E')
    (rest : List CodePoint) : EndsNumber (.char c :: rest) := by
  intro other tail same
  cases same
  exact ends

theorem endsNumber_gap {gap : List Char} (blank : ∀ c ∈ gap, isBlank (.char c) = true) {c : Char}
    (ends : ¬ IsDigit c ∧ c ≠ '.' ∧ c ≠ 'e' ∧ c ≠ 'E') (rest : List CodePoint) :
    EndsNumber (points gap ++ .char c :: rest) := by
  cases gap with
  | nil => exact endsNumber_cons ends rest
  | cons first gap =>
    apply endsNumber_cons
    rcases blank_cases (blank first List.mem_cons_self) with rfl | rfl | rfl | rfl <;> decide

/-- A written value starts with a character that closes nothing and is no blank. -/
theorem write_head (layout : Layout) {value : Json} (legible : value.Legible) (level : Nat) :
    ∃ c tail, write layout level value = c :: tail ∧
      isBlank (.char c) = false ∧ c ≠ ']' ∧ c ≠ '\x7d' := by
  cases value with
  | null => exact ⟨_, _, rfl, by decide⟩
  | bool value => cases value <;> exact ⟨_, _, rfl, by decide⟩
  | int value =>
    obtain ⟨c, tail, starts, start⟩ := toString_head value
    obtain ⟨visible, item, member, -⟩ := number_start start
    exact ⟨c, tail, starts, visible, item, member⟩
  | real value => cases legible
  | text value => exact ⟨_, _, rfl, by decide⟩
  | array items => cases items <;> exact ⟨_, _, rfl, by decide⟩
  | object members => cases members <;> exact ⟨_, _, rfl, by decide⟩

theorem writeItems_head (layout : Layout) {items : List Json} (some_item : items ≠ [])
    (legible : LegibleItems items) (level : Nat) :
    ∃ c tail, writeItems layout level items = c :: tail ∧
      isBlank (.char c) = false ∧ c ≠ ']' := by
  cases items with
  | nil => exact absurd rfl some_item
  | cons item items =>
    obtain ⟨c, tail, starts, visible, ne, -⟩ := write_head layout legible.1 level
    cases items with
    | nil => exact ⟨c, tail, starts, visible, ne⟩
    | cons next items =>
      rw [writeItems, starts]
      · exact ⟨c, _, rfl, visible, ne⟩
      · exact List.cons_ne_nil _ _

theorem writeMembers_head (layout : Layout) {members : List (Text × Json)}
    (some_member : members ≠ []) (level : Nat) :
    ∃ tail, writeMembers layout level members = '"' :: tail := by
  cases members with
  | nil => exact absurd rfl some_member
  | cons member members =>
    cases members with
    | nil => exact ⟨_, rfl⟩
    | cons next members =>
      rw [writeMembers]
      · exact ⟨_, rfl⟩
      · exact List.cons_ne_nil _ _

/-! ## Values -/

/-- What is written reads back in so many steps, with room for its lists and objects: values up to
what ends a number, items and members up to what closes them. -/
structure ReadsBack (layout : Layout) (steps : Nat) : Prop where
  value {value : Json} (legible : value.Legible) (level : Nat) (rest : List CodePoint) {room : Nat}
    (fits : value.nesting ≤ room) (enough : (write layout level value).length < steps)
    (ends : EndsNumber rest) :
    readValue steps room (points (write layout level value) ++ rest) = .ok (value, rest)
  items {items : List Json} (some_item : items ≠ []) (legible : LegibleItems items) (level : Nat)
    {gap : List Char} (blank : ∀ c ∈ gap, isBlank (.char c) = true) (rest : List CodePoint)
    {room : Nat} (fits : nestingItems items ≤ room)
    (enough : (writeItems layout level items).length + 1 < steps) :
    readItems steps room (points (writeItems layout level items) ++ points gap ++
      .char ']' :: rest) = .ok (items, rest)
  members {members : List (Text × Json)} (some_member : members ≠ [])
    (legible : LegibleMembers members) (level : Nat) {gap : List Char}
    (blank : ∀ c ∈ gap, isBlank (.char c) = true) (rest : List CodePoint)
    {room : Nat} (fits : nestingMembers members ≤ room)
    (enough : (writeMembers layout level members).length + 1 < steps) :
    readMembers steps room (points (writeMembers layout level members) ++ points gap ++
      .char '\x7d' :: rest) = .ok (members, rest)

namespace ReadsBack

variable {steps room level : Nat} {gap : List Char} {rest : List CodePoint}

theorem next_value (back : ReadsBack layout steps) (spaced : layout.Spaced) {value : Json}
    (legible : value.Legible) (fits : value.nesting ≤ room)
    (enough : (write layout level value).length < steps + 1) (ends : EndsNumber rest) :
    readValue (steps + 1) room (points (write layout level value) ++ rest) = .ok (value, rest) := by
  cases value with
  | null => rfl
  | bool value => cases value <;> rfl
  | int value =>
    obtain ⟨c, tail, starts, start⟩ := toString_head value
    have reads := readPlain_write legible ends
    rw [starts] at reads
    rw [write, starts]
    exact (readValue_plain (number_start start).2.2.2).trans reads
  | real value => cases legible
  | text value =>
    have reads : readValue (steps + 1) room _ = _ := readValue_text (readText_write legible rest)
    simpa [write, writeText] using reads
  | array items =>
    -- one room is taken by the list itself
    obtain ⟨room, rfl⟩ := Nat.exists_eq_add_of_le' (Nat.le_of_add_left_le fits)
    replace fits := Nat.le_of_add_le_add_right fits
    cases items with
    | nil => rfl
    | cons item items =>
      have some_item : item :: items ≠ [] := List.cons_ne_nil item items
      obtain ⟨c, tail, starts, visible, ne⟩ := writeItems_head layout some_item legible (level + 1)
      simp only [write, List.cons_append, List.length_cons, List.length_append] at enough
      have reads := back.items some_item legible (level + 1) (spaced.line level) rest fits
        (by omega)
      simp only [starts, points_cons, List.cons_append] at reads
      have whole := readValue_array (skipBlanks_to (spaced.line (level + 1)) visible _) ne reads
      simpa [write, starts] using whole
  | object members =>
    obtain ⟨room, rfl⟩ := Nat.exists_eq_add_of_le' (Nat.le_of_add_left_le fits)
    replace fits := Nat.le_of_add_le_add_right fits
    cases members with
    | nil => rfl
    | cons member members =>
      have some_member : member :: members ≠ [] := List.cons_ne_nil member members
      obtain ⟨tail, starts⟩ := writeMembers_head layout some_member (level + 1)
      simp only [write, List.cons_append, List.length_cons, List.length_append] at enough
      have reads := back.members some_member legible.2 (level + 1) (spaced.line level) rest fits
        (by omega)
      simp only [starts, points_cons, List.cons_append] at reads
      have whole := readValue_object (skipBlanks_to (spaced.line (level + 1)) rfl _) (by decide)
        reads
      rw [Table.ofList_of_nodup legible.1] at whole
      simpa [write, starts] using whole

theorem next_items (back : ReadsBack layout steps) (spaced : layout.Spaced) {items : List Json}
    (some_item : items ≠ []) (legible : LegibleItems items)
    (blank : ∀ c ∈ gap, isBlank (.char c) = true) (fits : nestingItems items ≤ room)
    (enough : (writeItems layout level items).length + 1 < steps + 1) :
    readItems (steps + 1) room (points (writeItems layout level items) ++ points gap ++
      .char ']' :: rest) = .ok (items, rest) := by
  cases items with
  | nil => exact absurd rfl some_item
  | cons item items =>
    obtain ⟨item_fits, items_fit⟩ := max_le_iff.mp fits
    cases items with
    | nil =>
      simp only [writeItems] at enough ⊢
      rw [List.append_assoc]
      have ends : EndsNumber (points gap ++ .char ']' :: rest) :=
        endsNumber_gap blank (by decide) rest
      exact readItems_last (back.value legible.1 level _ item_fits (by omega) ends)
        (skipBlanks_to blank rfl rest)
    | cons next items =>
      have more : next :: items ≠ [] := List.cons_ne_nil next items
      rw [writeItems.eq_3 _ _ _ _ more] at enough ⊢
      simp only [List.length_append, List.length_cons] at enough
      obtain ⟨c, tail, starts, visible, -⟩ := writeItems_head layout more legible.2 level
      have others := back.items more legible.2 level blank rest items_fit (by omega)
      simp only [starts, points_cons, List.cons_append] at others
      rw [← skipBlanks_to (spaced.line level) visible] at others
      have whole := readItems_more
        (back.value legible.1 level _ item_fits (by omega) (endsNumber_cons (by decide) _))
        (skipBlanks_cons rfl _) others
      simpa [starts] using whole

theorem next_members (back : ReadsBack layout steps) (spaced : layout.Spaced)
    {members : List (Text × Json)} (some_member : members ≠ []) (legible : LegibleMembers members)
    (blank : ∀ c ∈ gap, isBlank (.char c) = true) (fits : nestingMembers members ≤ room)
    (enough : (writeMembers layout level members).length + 1 < steps + 1) :
    readMembers (steps + 1) room (points (writeMembers layout level members) ++ points gap ++
      .char '\x7d' :: rest) = .ok (members, rest) := by
  obtain ⟨lead, colon, lead_blank⟩ := spaced.colon
  cases members with
  | nil => exact absurd rfl some_member
  | cons member members =>
    obtain ⟨key, value⟩ := member
    obtain ⟨whole_key, legible_value, legible⟩ := legible
    obtain ⟨value_fits, members_fit⟩ := max_le_iff.mp fits
    obtain ⟨first, valueTail, value_starts, value_visible, -⟩ :=
      write_head layout legible_value level
    cases members with
    | nil =>
      simp only [writeMembers, writeText, List.length_append, List.length_cons] at enough
      have ends : EndsNumber (points gap ++ .char '\x7d' :: rest) :=
        endsNumber_gap blank (by decide) rest
      have reads := back.value legible_value level _ value_fits (by omega) ends
      simp only [value_starts, points_cons, List.cons_append] at reads
      rw [← skipBlanks_to lead_blank value_visible] at reads
      have whole := readMembers_last (readText_write whole_key _) (skipBlanks_cons rfl _) reads
        (skipBlanks_to blank rfl rest)
      simpa [writeMembers, writeText, colon, value_starts] using whole
    | cons next members =>
      have more : next :: members ≠ [] := List.cons_ne_nil next members
      rw [writeMembers.eq_3 _ _ _ _ _ more] at enough ⊢
      simp only [writeText, List.length_append, List.length_cons] at enough
      obtain ⟨tail, starts⟩ := writeMembers_head layout more level
      have others := back.members more legible level blank rest members_fit (by omega)
      simp only [starts, points_cons, List.cons_append] at others
      rw [← skipBlanks_to (spaced.line level) rfl] at others
      have ends (more : List CodePoint) : EndsNumber (.char ',' :: more) :=
        endsNumber_cons (by decide) more
      have reads (more : List CodePoint) :=
        back.value legible_value level (.char ',' :: more) value_fits (by omega) (ends more)
      simp only [value_starts, points_cons, List.cons_append] at reads
      have whole := readMembers_more (readText_write whole_key _) (skipBlanks_cons rfl _)
        ((congrArg (readValue steps room) (skipBlanks_to lead_blank value_visible _)).trans (reads _))
        (skipBlanks_cons rfl _) others
      simpa [writeText, colon, value_starts, starts] using whole

end ReadsBack

theorem readsBack (spaced : layout.Spaced) (steps : Nat) : ReadsBack layout steps := by
  induction steps with
  | zero =>
    constructor
    · intro value legible level rest room fits enough ends
      exact absurd enough (Nat.not_lt_zero _)
    · intro items some_item legible level gap blank rest room fits enough
      exact absurd enough (Nat.not_lt_zero _)
    · intro members some_member legible level gap blank rest room fits enough
      exact absurd enough (Nat.not_lt_zero _)
  | succ steps back =>
    constructor
    · intro value legible level rest room fits enough ends
      exact back.next_value spaced legible fits enough ends
    · intro items some_item legible level gap blank rest room fits enough
      exact back.next_items spaced some_item legible blank fits enough
    · intro members some_member legible level gap blank rest room fits enough
      exact back.next_members spaced some_member legible blank fits enough

/-! ## Documents -/

theorem read_write (spaced : layout.Spaced) {capacity : Capacity} {value : Json}
    (legible : value.Legible) (fits : value.nesting ≤ capacity.nesting) :
    read capacity (String.ofList (write layout 0 value)) = .ok value := by
  have nothing : EndsNumber [] := fun c tail same => nomatch same
  have enough : (write layout 0 value).length < stepsFor (points (write layout 0 value)) := by
    rw [stepsFor, points_length]
    omega
  have reads := (readsBack spaced _).value legible 0 [] fits enough nothing
  obtain ⟨c, tail, starts, visible, -⟩ := write_head layout legible 0
  have source : (Text.ofString (String.ofList (write layout 0 value))).points =
      points (write layout 0 value) := by
    rw [Text.ofString, String.toList_ofList, points]
  have whole : readWholeText capacity.nesting (points (write layout 0 value)) = .ok value := by
    have skips : skipBlanks (points (write layout 0 value)) = points (write layout 0 value) := by
      rw [starts, points_cons, skipBlanks_cons visible]
    rw [List.append_nil] at reads
    rw [readWholeText, skips, reads]
    rfl
  rw [read, source, whole]

theorem read_pretty {capacity : Capacity} {value : Json} (legible : value.Legible)
    (fits : value.nesting ≤ capacity.nesting) : read capacity value.pretty = .ok value :=
  read_write indented_spaced legible fits

theorem read_line {capacity : Capacity} {value : Json} (legible : value.Legible)
    (fits : value.nesting ≤ capacity.nesting) : read capacity value.line = .ok value :=
  read_write compact_spaced legible fits

end Json

end OrderDesk
