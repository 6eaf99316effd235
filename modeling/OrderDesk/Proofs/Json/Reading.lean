import Mathlib.Tactic
import OrderDesk.Json.Reader
import OrderDesk.Proofs.Except

/-!
# What reading takes

A text is read in a number of steps, with room for some lists and objects in one another. The steps
that are allowed do not show in what is read, and the room shows only where it gives out.

* `readValue_stepsFor`: steps beyond those for a text change nothing.
* `roomy`: with more room, what is read stays the same, until the room gives out.
* `read_tooDeep_iff`: a text is too deep for a capacity exactly if a larger one reads it in another
  way, and never if it has no more brackets than can be open (`Capacity.suffices_of_openings`).
-/

namespace OrderDesk.Json

variable {α β : Type}

/-! ## What is left of a text -/

/-- Whether something of a text is left, and not all of it. -/
def Behind (rest source : List CodePoint) : Prop :=
  rest <:+ source ∧ rest.length < source.length

theorem Behind.of_cons {rest source : List CodePoint} (point : CodePoint)
    (suffix : rest <:+ source) : Behind rest (point :: source) :=
  ⟨suffix.trans (List.suffix_cons _ _), Nat.lt_succ_of_le suffix.length_le⟩

theorem Behind.trans_suffix {rest between source : List CodePoint} (first : Behind rest between)
    (suffix : between <:+ source) : Behind rest source :=
  ⟨first.1.trans suffix, first.2.trans_le suffix.length_le⟩

theorem Behind.of_suffix {rest between source : List CodePoint} (suffix : rest <:+ between)
    (first : Behind between source) : Behind rest source :=
  ⟨suffix.trans first.1, suffix.length_le.trans_lt first.2⟩

/-- Whether what is read leaves something behind the front of a text. -/
def Leaves (source : List CodePoint) (result : Except Flaw (Step α)) : Prop :=
  ∀ found, result = .ok found → Behind found.2 source

namespace Leaves

variable {source between : List CodePoint}

theorem ok {found : Step α} (behind : Behind found.2 source) :
    Leaves source (.ok found : Except Flaw (Step α)) := by
  rintro _ ⟨⟩
  exact behind

theorem error (flaw : Flaw) : Leaves source (.error flaw : Except Flaw (Step α)) := nofun

theorem stop (reason : String) (left : List CodePoint) :
    Leaves source (stop reason left : Except Flaw (Step α)) := nofun

theorem of_suffix {first : Except Flaw (Step α)} (leaves : Leaves between first)
    (suffix : between <:+ source) : Leaves source first :=
  fun found given => (leaves found given).trans_suffix suffix

theorem bind {first : Except Flaw α} {next : α → Except Flaw (Step β)}
    (rest : ∀ found, first = .ok found → Leaves source (next found)) :
    Leaves source (first >>= next) := by
  intro result given
  obtain ⟨found, found_ok, given⟩ := bind_eq_ok.mp given
  exact rest found found_ok result given

end Leaves

theorem skipBlanks_suffix (source : List CodePoint) : skipBlanks source <:+ source :=
  List.dropWhile_suffix isBlank

theorem behind_of_skipBlanks {source after : List CodePoint} {point : CodePoint}
    (skipped : skipBlanks source = point :: after) : Behind after source :=
  (Behind.of_cons point (List.suffix_refl after)).trans_suffix
    (skipped ▸ skipBlanks_suffix source)

/-- Reading goes on past a mark and the blanks on both sides of it. -/
theorem Behind.past {rest source after : List CodePoint} {mark : CodePoint}
    (behind : Behind rest source) (marked : skipBlanks rest = mark :: after) :
    Behind (skipBlanks after) source :=
  .of_suffix ((skipBlanks_suffix after).trans (behind_of_skipBlanks marked).1) behind

theorem readPieces_leaves (start : Nat) (done : List Piece) (source : List CodePoint) :
    Leaves source (readPieces start done source) := by
  fun_induction readPieces start done source with
  | case2 done rest => exact .ok (.of_cons _ (List.suffix_refl rest))
  | case3 done a b c d next rest unit unit_eq ih =>
    exact ih.of_suffix (List.suffix_append [_, _, a, b, c, d] (next :: rest))
  | case7 done mark rest _ _ point point_eq ih =>
    exact ih.of_suffix (List.suffix_append [_, mark] rest)
  | case10 done point rest _ _ _ _ _ _ ih => exact ih.of_suffix (List.suffix_cons point rest)
  | _ => exact .error _

theorem readText_leaves (source : List CodePoint) : Leaves source (readText source) :=
  .bind fun found given => .ok (readPieces_leaves _ _ _ found given)

theorem drop_behind {found : List Char} {source : List CodePoint} (some_found : ¬ found.isEmpty)
    (le : found.length ≤ source.length) : Behind (source.drop found.length) source := by
  refine ⟨List.drop_suffix _ _, ?_⟩
  have positive : 0 < found.length := List.length_pos_iff.mpr (by simpa using some_found)
  rw [List.length_drop]
  omega

theorem digits_length_le (source : List CodePoint) : (digits source).length ≤ source.length := by
  fun_induction digits source with
  | case1 c rest digit ih => exact Nat.succ_le_succ ih
  | case2 | case3 => exact Nat.zero_le _

theorem readWhole_behind {source : List CodePoint} {found : List Char × List CodePoint}
    (given : readWhole source = some found) : Behind found.2 source := by
  unfold readWhole at given
  split at given
  · cases given
    exact .of_cons _ (List.suffix_refl _)
  · dsimp only at given
    split at given
    · cases given
    · rename_i some_found
      cases given
      exact drop_behind some_found (digits_length_le source)

theorem readFraction_suffix (source : List CodePoint) :
    ((readFraction source).map (·.2)).getD source <:+ source := by
  unfold readFraction
  split
  · dsimp only
    split
    · exact List.suffix_refl _
    · exact (List.drop_suffix _ _).trans (List.suffix_cons _ _)
  · exact List.suffix_refl _

theorem readSign_suffix (source : List CodePoint) : (readSign source).2 <:+ source := by
  unfold readSign
  split
  · exact List.suffix_cons _ _
  · exact List.suffix_cons _ _
  · exact List.suffix_refl _

theorem readExponent_suffix (source : List CodePoint) :
    ((readExponent source).map (·.2)).getD source <:+ source := by
  unfold readExponent
  split
  · dsimp only
    split
    · split
      · exact List.suffix_refl _
      · exact (List.drop_suffix _ _).trans ((readSign_suffix _).trans (List.suffix_cons _ _))
    · exact List.suffix_refl _
  · exact List.suffix_refl _

theorem readUnsigned_leaves (start : List CodePoint) (negative : Bool) (source : List CodePoint) :
    Leaves source (readUnsigned start negative source) := by
  unfold readUnsigned
  split
  · exact .stop _ _
  · rename_i whole rest whole_eq
    have behind : Behind rest source := readWhole_behind whole_eq
    have suffix := (readExponent_suffix (((readFraction rest).map (·.2)).getD rest)).trans
      (readFraction_suffix rest)
    dsimp only
    split
    · split
      · exact .error _
      · exact .ok (.of_suffix suffix behind)
    · exact .ok (.of_suffix suffix behind)

theorem readNumber_leaves (source : List CodePoint) : Leaves source (readNumber source) := by
  unfold readNumber
  split
  · exact (readUnsigned_leaves _ _ _).of_suffix (List.suffix_cons _ _)
  · exact readUnsigned_leaves _ _ _

theorem dropWord?_suffix {word : List Char} {source rest : List CodePoint}
    (given : dropWord? word source = some rest) : rest <:+ source := by
  fun_induction dropWord? word source with
  | case1 source =>
    cases given
    exact List.suffix_refl _
  | case2 c word source ih => exact (ih given).trans (List.suffix_cons _ _)
  | case3 | case4 => cases given

theorem dropWord?_behind {word : List Char} {source rest : List CodePoint} (some_word : word ≠ [])
    (given : dropWord? word source = some rest) : Behind rest source := by
  fun_cases dropWord? word source with
  | case1 => exact absurd rfl some_word
  | case2 c word source => exact .of_cons _ (dropWord?_suffix (by simpa [dropWord?] using given))
  | case3 | case4 => simp_all [dropWord?]

theorem readPlain_leaves (source : List CodePoint) : Leaves source (readPlain source) := by
  unfold readPlain
  split
  · rename_i found found_eq
    obtain ⟨⟨word, value⟩, member, dropped⟩ := List.exists_of_findSome?_eq_some found_eq
    obtain ⟨rest, rest_eq, rfl⟩ := Option.map_eq_some_iff.mp dropped
    have some_word : ∀ entry ∈ words, entry.1 ≠ [] := by decide
    exact .ok (dropWord?_behind (some_word _ member) rest_eq)
  · exact readNumber_leaves source

/-- Whether reading in so many steps leaves something behind. -/
structure Leaving (steps : Nat) : Prop where
  value (room : Nat) (source : List CodePoint) : Leaves source (readValue steps room source)
  items (room : Nat) (source : List CodePoint) : Leaves source (readItems steps room source)
  members (room : Nat) (source : List CodePoint) : Leaves source (readMembers steps room source)

theorem leaving (steps : Nat) : Leaving steps := by
  -- the three readers call one another with one step less
  induction steps with
  | zero => exact ⟨fun _ _ => .stop _ _, fun _ _ => .stop _ _, fun _ _ => .stop _ _⟩
  | succ steps leaving =>
    constructor
    · intro room source
      unfold readValue
      split
      · rename_i rest
        exact .bind fun found given =>
          .ok ((readText_leaves rest found given).trans_suffix (List.suffix_cons _ _))
      · rename_i rest
        refine .bind fun room _ => ?_
        split
        · rename_i after after_eq
          exact .ok ((behind_of_skipBlanks after_eq).trans_suffix (List.suffix_cons _ _))
        · exact .bind fun found given => .ok ((leaving.items room _ found given).trans_suffix
            ((skipBlanks_suffix rest).trans (List.suffix_cons _ _)))
      · rename_i rest
        refine .bind fun room _ => ?_
        split
        · rename_i after after_eq
          exact .ok ((behind_of_skipBlanks after_eq).trans_suffix (List.suffix_cons _ _))
        · exact .bind fun found given => .ok ((leaving.members room _ found given).trans_suffix
            ((skipBlanks_suffix rest).trans (List.suffix_cons _ _)))
      · exact readPlain_leaves _
    · intro room source
      rw [readItems]
      refine .bind fun ⟨item, rest⟩ given => ?_
      have behind : Behind rest source := leaving.value room source _ given
      dsimp only
      split
      · rename_i after after_eq
        exact .bind fun found given => .ok ((leaving.items room _ found given).trans_suffix
          (behind.past after_eq).1)
      · rename_i after after_eq
        exact .ok (.of_suffix (behind_of_skipBlanks after_eq).1 behind)
      · exact .stop _ _
    · intro room source
      unfold readMembers
      split
      · rename_i rest
        refine .bind fun ⟨key, keyed⟩ given => ?_
        have key_behind : Behind keyed (.char '"' :: rest) :=
          (readText_leaves rest _ given).trans_suffix (List.suffix_cons _ rest)
        dsimp only
        split
        · rename_i valued valued_eq
          refine .bind fun ⟨value, left⟩ given => ?_
          have behind := (leaving.value room _ _ given).trans_suffix (key_behind.past valued_eq).1
          dsimp only
          split
          · rename_i after after_eq
            exact .bind fun found given => .ok ((leaving.members room _ found given).trans_suffix
              (behind.past after_eq).1)
          · rename_i after after_eq
            exact .ok (.of_suffix (behind_of_skipBlanks after_eq).1 behind)
          · exact .stop _ _
        · exact .stop _ _
      · exact .stop _ _

/-! ## Steps -/

/-- Whether one step more than so many changes nothing that is read of a text short enough. -/
structure Enough (steps : Nat) : Prop where
  value (room : Nat) {source : List CodePoint} (few : 2 * source.length < steps) :
    readValue (steps + 1) room source = readValue steps room source
  items (room : Nat) {source : List CodePoint} (few : 2 * source.length + 1 < steps) :
    readItems (steps + 1) room source = readItems steps room source
  members (room : Nat) {source : List CodePoint} (few : 2 * source.length + 1 < steps) :
    readMembers (steps + 1) room source = readMembers steps room source

theorem enough (steps : Nat) : Enough steps := by
  induction steps with
  | zero => exact ⟨nofun, nofun, nofun⟩
  | succ steps enough =>
    constructor
    · intro room source few
      rw [readValue.eq_def (steps + 1 + 1), readValue.eq_def (steps + 1)]
      dsimp only
      split
      · rfl
      · rename_i rest
        have left := (skipBlanks_suffix rest).length_le
        rw [List.length_cons] at few
        refine bind_congr_ok fun room _ => ?_
        split
        · rfl
        · rw [enough.items room (by omega)]
      · rename_i rest
        have left := (skipBlanks_suffix rest).length_le
        rw [List.length_cons] at few
        refine bind_congr_ok fun room _ => ?_
        split
        · rfl
        · rw [enough.members room (by omega)]
      · rfl
    · intro room source few
      rw [readItems.eq_def (steps + 1 + 1), readItems.eq_def (steps + 1)]
      dsimp only
      rw [enough.value room (by omega)]
      refine bind_congr_ok fun ⟨item, rest⟩ given => ?_
      have behind : Behind rest source := (leaving steps).value room source _ given
      dsimp only
      split
      · rename_i after after_eq
        have less := (behind.past after_eq).2
        rw [enough.items room (by omega)]
      · rfl
      · rfl
    · intro room source few
      rw [readMembers.eq_def (steps + 1 + 1), readMembers.eq_def (steps + 1)]
      dsimp only
      split
      · rename_i rest
        rw [List.length_cons] at few
        refine bind_congr_ok fun ⟨key, keyed⟩ given => ?_
        have key_behind : Behind keyed rest := readText_leaves rest _ given
        dsimp only
        split
        · rename_i valued valued_eq
          have valued_less := (key_behind.past valued_eq).2
          rw [enough.value room (by omega)]
          refine bind_congr_ok fun ⟨value, left⟩ given => ?_
          have behind : Behind left (skipBlanks valued) := (leaving steps).value room _ _ given
          dsimp only
          split
          · rename_i after after_eq
            have less := (behind.past after_eq).2
            rw [enough.members room (by omega)]
          · rfl
          · rfl
        · rfl
      · rfl

theorem readValue_stepsFor (room : Nat) {source : List CodePoint} {steps : Nat}
    (many : stepsFor source ≤ steps) :
    readValue steps room source = readValue (stepsFor source) room source := by
  induction steps, many using Nat.le_induction with
  | base => rfl
  | succ steps many ih => rw [(enough steps).value room many, ih]

/-! ## Room -/

/-- Whether what is read with more room is the same, unless the room gives out. -/
def Agrees (narrow wide : Except Flaw α) : Prop := narrow ≠ .error .nesting → wide = narrow

theorem Agrees.refl (result : Except Flaw α) : Agrees result result := fun _ => rfl

theorem Agrees.bind {narrow wide : Except Flaw α} {next further : α → Except Flaw β}
    (first : Agrees narrow wide) (rest : ∀ value, Agrees (next value) (further value)) :
    Agrees (narrow >>= next) (wide >>= further) := by
  intro held
  cases narrow with
  | error flaw =>
    rw [first fun same => held (congrArg (· >>= next) same)]
    rfl
  | ok value =>
    rw [first nofun]
    exact rest value held

theorem Agrees.enter {room more : Nat} (le : room ≤ more) {next further : Nat → Except Flaw β}
    (rest : ∀ room more, room ≤ more → Agrees (next room) (further more)) :
    Agrees (enter room >>= next) (enter more >>= further) := by
  cases room with
  | zero => exact fun held => absurd rfl held
  | succ room =>
    obtain ⟨more, rfl⟩ := Nat.exists_eq_add_of_le' (Nat.le_of_add_left_le le)
    exact rest room more (Nat.le_of_add_le_add_right le)

/-- Whether reading in so many steps goes on with more room as it does, until the room gives
out. -/
structure Roomy (steps : Nat) : Prop where
  value {room more : Nat} (le : room ≤ more) (source : List CodePoint) :
    Agrees (readValue steps room source) (readValue steps more source)
  items {room more : Nat} (le : room ≤ more) (source : List CodePoint) :
    Agrees (readItems steps room source) (readItems steps more source)
  members {room more : Nat} (le : room ≤ more) (source : List CodePoint) :
    Agrees (readMembers steps room source) (readMembers steps more source)

theorem roomy (steps : Nat) : Roomy steps := by
  induction steps with
  | zero => exact ⟨fun _ _ => .refl _, fun _ _ => .refl _, fun _ _ => .refl _⟩
  | succ steps roomy =>
    constructor
    · intro room more le source
      unfold readValue
      split
      · exact .refl _
      · refine .enter le fun room more le => ?_
        split
        · exact .refl _
        · exact (roomy.items le _).bind fun _ => .refl _
      · refine .enter le fun room more le => ?_
        split
        · exact .refl _
        · exact (roomy.members le _).bind fun _ => .refl _
      · exact .refl _
    · intro room more le source
      rw [readItems, readItems]
      refine (roomy.value le source).bind fun ⟨item, rest⟩ => ?_
      dsimp only
      split
      · exact (roomy.items le _).bind fun _ => .refl _
      · exact .refl _
      · exact .refl _
    · intro room more le source
      unfold readMembers
      split
      · refine Agrees.bind (.refl _) fun ⟨key, rest⟩ => ?_
        dsimp only
        split
        · refine (roomy.value le _).bind fun ⟨value, rest⟩ => ?_
          dsimp only
          split
          · exact (roomy.members le _).bind fun _ => .refl _
          · exact .refl _
          · exact .refl _
        · exact .refl _
      · exact .refl _

def opens (point : CodePoint) : Bool := point = .char '[' || point = .char '\x7b'

/-- How many lists and objects can be opened at most: brackets inside of texts are counted too. -/
def openings (source : List CodePoint) : Nat := source.countP opens

theorem openings_le_of_suffix {rest source : List CodePoint} (suffix : rest <:+ source) :
    openings rest ≤ openings source :=
  suffix.sublist.countP_le

theorem openings_cons {point : CodePoint} (opening : opens point) (rest : List CodePoint) :
    openings (point :: rest) = openings rest + 1 :=
  List.countP_cons_of_pos opening

theorem readPieces_not_nesting (start : Nat) (done : List Piece) (source : List CodePoint) :
    FailsWith (· ≠ .nesting) (readPieces start done source) := by
  fun_induction readPieces start done source with
  | case2 => exact .ok _
  | case3 _ _ _ _ _ _ _ _ _ ih => exact ih
  | case7 _ _ _ _ _ _ _ ih => exact ih
  | case10 _ _ _ _ _ _ _ _ _ ih => exact ih
  | _ => exact .error nofun

theorem readText_not_nesting (source : List CodePoint) :
    FailsWith (· ≠ .nesting) (readText source) :=
  (readPieces_not_nesting _ _ _).bind fun _ => .ok _

theorem stop_not_nesting (reason : String) (left : List CodePoint) :
    FailsWith (· ≠ .nesting) (stop reason left : Except Flaw α) :=
  .error nofun

theorem readUnsigned_not_nesting (start : List CodePoint) (negative : Bool)
    (source : List CodePoint) :
    FailsWith (· ≠ .nesting) (readUnsigned start negative source) := by
  unfold readUnsigned
  split
  · exact stop_not_nesting _ _
  · dsimp only
    split
    · exact .ite (.error nofun) (.ok _)
    · exact .ok _

theorem readPlain_not_nesting (source : List CodePoint) :
    FailsWith (· ≠ .nesting) (readPlain source) := by
  unfold readPlain
  split
  · exact .ok _
  · unfold readNumber
    split
    · exact readUnsigned_not_nesting _ _ _
    · exact readUnsigned_not_nesting _ _ _

theorem enter_not_nesting {next : Nat → Except Flaw β} {room : Nat} {point : CodePoint}
    {source : List CodePoint} (opening : opens point) (few : openings (point :: source) ≤ room)
    (rest : ∀ room, openings source ≤ room → FailsWith (· ≠ .nesting) (next room)) :
    FailsWith (· ≠ .nesting) (enter room >>= next) := by
  rw [openings_cons opening] at few
  obtain ⟨room, rfl⟩ := Nat.exists_eq_add_of_le' (Nat.le_of_add_left_le few)
  exact rest room (Nat.le_of_add_le_add_right few)

/-- Whether the room does not give out in so many steps, if there is enough for each bracket. -/
structure Fitting (steps : Nat) : Prop where
  value {room : Nat} {source : List CodePoint} (few : openings source ≤ room) :
    FailsWith (· ≠ .nesting) (readValue steps room source)
  items {room : Nat} {source : List CodePoint} (few : openings source ≤ room) :
    FailsWith (· ≠ .nesting) (readItems steps room source)
  members {room : Nat} {source : List CodePoint} (few : openings source ≤ room) :
    FailsWith (· ≠ .nesting) (readMembers steps room source)

theorem fitting (steps : Nat) : Fitting steps := by
  induction steps with
  | zero =>
    exact ⟨fun _ => stop_not_nesting _ _, fun _ => stop_not_nesting _ _,
      fun _ => stop_not_nesting _ _⟩
  | succ steps fitting =>
    constructor
    · intro room source few
      unfold readValue
      split
      · exact (readText_not_nesting _).bind fun _ => .ok _
      · rename_i rest
        -- the room that the list takes is that of its bracket
        refine enter_not_nesting (by decide) few fun room few => ?_
        have still_few := (openings_le_of_suffix (skipBlanks_suffix rest)).trans few
        split
        · exact .ok _
        · exact (fitting.items still_few).bind fun _ => .ok _
      · rename_i rest
        refine enter_not_nesting (by decide) few fun room few => ?_
        have still_few := (openings_le_of_suffix (skipBlanks_suffix rest)).trans few
        split
        · exact .ok _
        · exact (fitting.members still_few).bind fun _ => .ok _
      · exact readPlain_not_nesting _
    · intro room source few
      rw [readItems]
      refine (fitting.value few).bind_ok fun ⟨item, rest⟩ given => ?_
      have behind : Behind rest source := (leaving steps).value room source _ given
      dsimp only
      split
      · rename_i after after_eq
        have still_few := (openings_le_of_suffix (behind.past after_eq).1).trans few
        exact (fitting.items still_few).bind fun _ => .ok _
      · exact .ok _
      · exact stop_not_nesting _ _
    · intro room source few
      unfold readMembers
      split
      · rename_i rest
        refine (readText_not_nesting rest).bind_ok fun ⟨key, keyed⟩ given => ?_
        have key_behind : Behind keyed (.char '"' :: rest) :=
          (readText_leaves rest _ given).trans_suffix (List.suffix_cons _ rest)
        dsimp only
        split
        · rename_i valued valued_eq
          have value_few := (openings_le_of_suffix (key_behind.past valued_eq).1).trans few
          refine (fitting.value value_few).bind_ok fun ⟨value, left⟩ given => ?_
          have behind : Behind left (skipBlanks valued) := (leaving steps).value room _ _ given
          dsimp only
          split
          · rename_i after after_eq
            have still_few := (openings_le_of_suffix (behind.past after_eq).1).trans value_few
            exact (fitting.members still_few).bind fun _ => .ok _
          · exact .ok _
          · exact stop_not_nesting _ _
        · exact stop_not_nesting _ _
      · exact stop_not_nesting _ _

/-! ## Documents -/

theorem readWholeText_agrees {room more : Nat} (le : room ≤ more) (source : List CodePoint) :
    Agrees (readWholeText room source) (readWholeText more source) :=
  ((roomy _).value le _).bind fun _ => .refl _

theorem readWholeText_not_nesting {room : Nat} {source : List CodePoint}
    (few : openings source ≤ room) : FailsWith (· ≠ .nesting) (readWholeText room source) := by
  have still_few := (openings_le_of_suffix (skipBlanks_suffix source)).trans few
  refine ((fitting _).value still_few).bind fun ⟨value, rest⟩ => ?_
  dsimp only
  split
  · exact .ok _
  · exact stop_not_nesting _ _

theorem read_tooDeep_iff_nesting {capacity : Capacity} {text : Text} :
    read capacity text = .error .tooDeep ↔
      readWholeText capacity.nesting text.points = .error .nesting := by
  unfold read
  cases readWholeText capacity.nesting text.points with
  | ok value => simp
  | error flaw => cases flaw <;> simp [Flaw.fault]

theorem read_congr {capacity more : Capacity} {text : Text}
    (same : readWholeText more.nesting text.points = readWholeText capacity.nesting text.points) :
    read more text = read capacity text := by
  rw [read, read, same]

/-- Whether a text opens no more than can be held: with a larger capacity it is read as it is. -/
def Capacity.Suffices (capacity : Capacity) (text : Text) : Prop :=
  ∀ more : Capacity, capacity.nesting ≤ more.nesting → read more text = read capacity text

theorem read_tooDeep_iff {capacity : Capacity} {text : Text} :
    read capacity text = .error .tooDeep ↔ ¬ capacity.Suffices text := by
  rw [read_tooDeep_iff_nesting]
  constructor
  · intro out_of_room suffices_text
    -- room for every bracket of the text does not give out
    let more : Capacity :=
      ⟨max capacity.nesting (openings text.points), capacity.zeros,
        le_max_of_le_left capacity.nesting_ge⟩
    have same : read more text = read capacity text := suffices_text more (le_max_left _ _)
    have out_of_more : readWholeText more.nesting text.points = .error .nesting :=
      read_tooDeep_iff_nesting.mp (same.trans (read_tooDeep_iff_nesting.mpr out_of_room))
    exact readWholeText_not_nesting (le_max_right _ _) _ out_of_more rfl
  · intro not_suffices
    by_contra in_room
    exact not_suffices fun more le => read_congr (readWholeText_agrees le text.points in_room)

theorem Capacity.suffices_of_openings {capacity : Capacity} {text : Text}
    (few : openings text.points ≤ capacity.nesting) : capacity.Suffices text := by
  intro more le
  refine read_congr (readWholeText_agrees le text.points fun out_of_room => ?_)
  exact readWholeText_not_nesting few _ out_of_room rfl

end OrderDesk.Json
