import OrderDesk.Nonce.Allocation
import OrderDesk.Proofs.Desk

/-!
# Allocated nonces are unused

* `Nonce.isUsedBy_answers`: whether a nonce is used is a question to the node alone.
* `Nonce.Search.allocateFor_unused`: a search that ends has found an unused nonce.
-/

namespace OrderDesk.Nonce

variable {outside : Outside} {settlement user : Address} {nonce : Int} {block : Option BlockName}

theorem isUsedBy_answers : (isUsedBy settlement user nonce block).Answers outside (do
    let slot ← slot user nonce
    let word ← outside.node.storage settlement slot block
    return !isUnused word nonce) := by
  apply Desk.Answers.bind (.lift _)
  intro slot
  apply Desk.Answers.bind (.ask _ _)
  intro word
  exact .pure _

/-- Whether the bitmap of a user has a nonce as unused. -/
def Unused (outside : Outside) (settlement user : Address) (nonce : Int) (block : Option BlockName) :
    Prop :=
  (isUsedBy settlement user nonce block).Answers outside (.ok false)

namespace Search

variable {search : Search} {exhausted : Fault}

theorem firstUnused_unused {attempts : Nat}
    (given : (search.firstUnused settlement user block exhausted attempts).Yields outside nonce) :
    Unused outside settlement user nonce block := by
  induction attempts with
  | zero => exact absurd given Desk.not_yields_fail
  | succ attempts ih =>
    obtain ⟨drawn, -, given⟩ := given.of_bind
    obtain ⟨used, used_ok, given⟩ := given.of_bind
    cases used with
    | true => exact ih given
    | false =>
      cases given.of_pure
      exact isUsedBy_answers.of_yields used_ok

theorem allocateFor_unused {deployment : Deployment} {name : String}
    (given : (search.allocateFor deployment user name block).Yields outside nonce) :
    Unused outside deployment.angstrom user nonce block := by
  obtain ⟨_, -, given⟩ := given.of_bind
  cases bound : search.maxAttempts with
  | some attempts =>
    rw [bound] at given
    exact firstUnused_unused given
  | none =>
    rw [bound] at given
    obtain ⟨outside', -, given⟩ := given.of_bind
    exact firstUnused_unused given

end Search

end OrderDesk.Nonce
