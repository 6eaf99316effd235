import OrderDesk.Proofs.Reading.Block
import OrderDesk.Proofs.TickReader.Band

/-!
# The valid part of an answer

* `TickReader.Receives`: what the node answers to a request.
* `TickReader.load_asks`: what loading asks, and what it makes of the answer.
* `load_validPrefix`: an answer reads back, and loading takes its first rows, however its buffer goes
  on.
-/

namespace OrderDesk

namespace TickResponse

variable {response first second : TickResponse}

/-- Whether two answers have the same valid rows, all of them within their buffers. -/
structure AgreesOnValid (first second : TickResponse) : Prop where
  validTo : first.validTo = second.validTo
  within_first : first.validTo ≤ first.rows.length
  within_second : first.validTo ≤ second.rows.length
  rows : first.rows.take first.validTo.toNat = second.rows.take first.validTo.toNat
  liquidity : first.liquidity = second.liquidity

theorem valid_of_within (within : response.validTo ≤ response.rows.length) :
    response.valid = .ok (response.rows.take response.validTo.toNat, response.liquidity) := by
  rw [valid, if_neg (not_lt.mpr within)]

theorem valid_of_beyond (beyond : response.rows.length < response.validTo) :
    response.valid =
      .error (.validBeyondBuffer response.validTo.toNat response.rows.length) := by
  rw [valid, if_pos beyond]

theorem AgreesOnValid.valid_eq (agree : first.AgreesOnValid second) :
    second.valid = .ok (first.rows.take first.validTo.toNat, first.liquidity) := by
  have within : second.validTo ≤ second.rows.length := agree.validTo ▸ agree.within_second
  rw [valid_of_within within, ← agree.validTo, ← agree.rows, ← agree.liquidity]

end TickResponse

namespace TickReader

variable {reader : TickReader} {deployment : Deployment} {query : TickQuery} {outside : Outside}
  {tick : Int} {zeroForOne : Bool} {count : Setting Int} {answer : Bytes} {response : TickResponse}

/-- Whether a request can be put to the node, and what the node answers. -/
def Receives (reader : TickReader) (deployment : Deployment) (query : TickQuery) (outside : Outside)
    (tick : Int) (zeroForOne : Bool) (count : Setting Int) (answer : Bytes) : Prop :=
  ∃ data, reader.deployData deployment query.poolId tick zeroForOne count query.spacing = .ok data ∧
    outside.node.deploy data query.block = .ok answer

theorem load_asks {data : Bytes}
    (request : reader.deployData deployment query.poolId tick zeroForOne count query.spacing =
      .ok data)
    (answered : outside.node.deploy data query.block = .ok answer)
    (read : TickResponse.decode answer = .ok response) :
    (reader.load deployment query tick zeroForOne count).Asks outside [.deploy data query.block]
      response.valid := by
  have asked : (Desk.deploy data query.block).Asks outside [.deploy data query.block]
      (.ok answer) := by
    intro journal
    rw [Desk.deploy, Desk.outcome_ask, answered]
  rw [load, request]
  refine .lift_bind (asked.bind ?_)
  rw [read]
  exact .lift _

theorem load_answers
    (received : reader.Receives deployment query outside tick zeroForOne count answer)
    (read : TickResponse.decode answer = .ok response) :
    (reader.load deployment query tick zeroForOne count).Answers outside response.valid := by
  obtain ⟨data, request, answered⟩ := received
  exact (load_asks request answered read).answers

end TickReader

theorem load_validPrefix (reader : TickReader) (deployment : Deployment) (query : TickQuery)
    (tick : Int) (zeroForOne : Bool) (count : Setting Int) :
    (∀ response : TickResponse,
      ((∃ data, response.encode = .ok data) ↔ response.Fits) ∧
      ∀ data behind, response.encode = .ok data →
        TickResponse.decode (data ++ behind) = .ok response ∧
        ∀ outside,
          reader.Receives deployment query outside tick zeroForOne count (data ++ behind) →
          (response.validTo ≤ response.rows.length →
            (reader.load deployment query tick zeroForOne count).Answers outside
              (.ok (response.rows.take response.validTo.toNat, response.liquidity))) ∧
          (response.rows.length < response.validTo →
            ∃ fault, (reader.load deployment query tick zeroForOne count).Answers outside
                (.error fault) ∧ fault.label? = some "AbiDecodeError")) ∧
    ∀ (first second : TickResponse) (answer another : Bytes) (outside other : Outside),
      first.AgreesOnValid second →
      TickResponse.decode answer = .ok first → TickResponse.decode another = .ok second →
      reader.Receives deployment query outside tick zeroForOne count answer →
      reader.Receives deployment query other tick zeroForOne count another →
      ∃ found, (reader.load deployment query tick zeroForOne count).Answers outside (.ok found) ∧
        (reader.load deployment query tick zeroForOne count).Answers other (.ok found) := by
  constructor
  · intro response
    refine ⟨TickResponse.encode_ok_iff, fun data behind written => ?_⟩
    have read := TickResponse.decode_encode written behind
    refine ⟨read, fun outside received => ⟨fun within => ?_, fun beyond => ?_⟩⟩
    · rw [← TickResponse.valid_of_within within]
      exact TickReader.load_answers received read
    · have refused := TickReader.load_answers received read
      rw [TickResponse.valid_of_beyond beyond] at refused
      exact ⟨_, refused, rfl⟩
  · intro first second answer another outside other agree read read_other received received_other
    have loaded := TickReader.load_answers received read
    have loaded_other := TickReader.load_answers received_other read_other
    rw [TickResponse.valid_of_within agree.within_first] at loaded
    rw [agree.valid_eq] at loaded_other
    exact ⟨_, loaded, loaded_other⟩

/-! ## One request -/

/-- An outside whose node answers every request of a reader alike. -/
def Outside.answering (answer : Except Fault Bytes) : Outside :=
  { silent with node := { silent.node with deploy := fun _ _ => answer } }

def negativeRow : TickRow := tickRow (-60) (-3)

def unusedRow : TickRow := tickRow 887000 (-999)

theorem answer_fits {rows : List TickRow} {validTo : Int} (among : rows ⊆ [negativeRow, unusedRow])
    (few : rows.length < 2 ^ 256) (within : 0 ≤ validTo ∧ validTo < 2 ^ 256) :
    TickResponse.Fits ⟨rows, validTo, 12345⟩ where
  rows := by
    intro row mem
    obtain rfl | rfl : row = negativeRow ∨ row = unusedRow := by simpa using among mem
    all_goals exact ⟨by decide, by decide, by decide⟩
  length := few
  validTo := within
  liquidity := (by decide : (0 : Int) ≤ 12345 ∧ (12345 : Int) < 2 ^ 256)

theorem usualReader_receives {answer : Bytes} : usualReader.Receives .mainnet (queryAt 60)
    (.answering (.ok answer)) 0 true (.ok 2) answer := ⟨_, rfl, rfl⟩

theorem load_validPrefix_negative :
    ∃ truncated whole overrun,
      TickResponse.encode ⟨[negativeRow, unusedRow], 1, 12345⟩ = .ok truncated ∧
      TickResponse.encode ⟨[negativeRow], 1, 12345⟩ = .ok whole ∧
      TickResponse.encode ⟨[negativeRow], 2, 12345⟩ = .ok overrun ∧
      (usualReader.load .mainnet (queryAt 60) 0 true (.ok 2)).Answers
        (.answering (.ok (truncated ++ [7]))) (.ok ([negativeRow], 12345)) ∧
      (∃ fault, (usualReader.load .mainnet (queryAt 60) 0 true (.ok 2)).Answers
        (.answering (.ok (overrun ++ [7]))) (.error fault) ∧
          fault.label? = some "AbiDecodeError") ∧
      ∃ found, (usualReader.load .mainnet (queryAt 60) 0 true (.ok 2)).Answers
          (.answering (.ok (truncated ++ [7]))) (.ok found) ∧
        (usualReader.load .mainnet (queryAt 60) 0 true (.ok 2)).Answers
          (.answering (.ok (whole ++ [8]))) (.ok found) := by
  have agree : TickResponse.AgreesOnValid ⟨[negativeRow, unusedRow], 1, 12345⟩
      ⟨[negativeRow], 1, 12345⟩ := ⟨rfl, by decide, by decide, rfl, rfl⟩
  obtain ⟨each, alike⟩ := load_validPrefix usualReader .mainnet (queryAt 60) 0 true (.ok 2)
  obtain ⟨truncated, truncated_eq⟩ := (each ⟨[negativeRow, unusedRow], 1, 12345⟩).1.mpr
    (answer_fits (by simp) (by decide) (by decide))
  obtain ⟨whole, whole_eq⟩ := (each ⟨[negativeRow], 1, 12345⟩).1.mpr
    (answer_fits (by simp) (by decide) (by decide))
  obtain ⟨overrun, overrun_eq⟩ := (each ⟨[negativeRow], 2, 12345⟩).1.mpr
    (answer_fits (by simp) (by decide) (by decide))
  obtain ⟨read, loaded⟩ := (each _).2 truncated [7] truncated_eq
  obtain ⟨read_whole, -⟩ := (each _).2 whole [8] whole_eq
  obtain ⟨-, refused⟩ := (each _).2 overrun [7] overrun_eq
  refine ⟨truncated, whole, overrun, truncated_eq, whole_eq, overrun_eq, ?_, ?_, ?_⟩
  · exact (loaded _ usualReader_receives).1 (by decide)
  · exact (refused _ usualReader_receives).2 (by decide)
  · exact alike _ _ _ _ _ _ agree read read_whole usualReader_receives usualReader_receives

end OrderDesk
