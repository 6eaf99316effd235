import OrderDesk.Deployment
import OrderDesk.Desk
import OrderDesk.Nonce.Bitmap

/-!
# Allocating nonces

Candidates are drawn until one is unused on chain. The search ends after a number of attempts, if
one is given.
-/

namespace OrderDesk.Nonce

def isUsedBy (settlement user : Address) (nonce : Int) (block : Option BlockName) : Desk Bool := do
  let slot ← slot user nonce
  let word ← Desk.storage settlement slot block
  return !isUnused word nonce

def isUsed (deployment : Deployment) (user : String) (nonce : Int) (block : Option BlockName) :
    Desk Bool := do
  let user ← readAddress user
  isUsedBy deployment.angstrom user nonce block

structure Search where
  maxAttempts : Option Int
  source : Nat
deriving DecidableEq, Repr

namespace Search

def check (search : Search) : Except Fault Unit :=
  match search.maxAttempts with
  | some attempts => if attempts < 1 then .error (.attemptsNotPositive attempts) else .ok ()
  | none => .ok ()

/-- The low 64 digits of the next candidate. -/
def candidate (search : Search) : Desk Int := do
  return bitField (← Desk.draw search.source) 0 64

def firstUnused (search : Search) (settlement user : Address) (block : Option BlockName)
    (exhausted : Fault) : (attempts : Nat) → Desk Int
  | 0 => Desk.fail exhausted
  | attempts + 1 => do
    let nonce ← search.candidate
    let used ← isUsedBy settlement user nonce block
    if used then search.firstUnused settlement user block exhausted attempts else return nonce

def allocateFor (search : Search) (deployment : Deployment) (user : Address) (name : String)
    (block : Option BlockName) : Desk Int := do
  search.check
  match search.maxAttempts with
  | some attempts =>
    search.firstUnused deployment.angstrom user block (.noncesExhausted name attempts.toNat)
      attempts.toNat
  | none => search.firstUnused deployment.angstrom user block .unfinished (← read).patience

/-- An unused nonce of a spelled user. A bad spelling shows when the first candidate is tried. -/
def allocate (search : Search) (deployment : Deployment) (user : String) (block : Option BlockName) :
    Desk Int := do
  match Address.parse? user with
  | some address => search.allocateFor deployment address user block
  | none =>
    search.check
    let _ ← search.candidate
    Desk.fail .badAddress

end Search

end OrderDesk.Nonce
