import OrderDesk.Abi
import OrderDesk.Deployment
import OrderDesk.Desk
import OrderDesk.Json.Quantity
import OrderDesk.TickReader.Response

/-!
# Loading ticks

The tick reader is creation code that is run without being deployed: it walks the ticks of a pool in
one direction and returns those it finds. A band of ticks is loaded in batches.
-/

namespace OrderDesk

structure TickReader where
  code : Bytes
  ne_nil : code ≠ []

/-- How many ticks are loaded on each side of the current one, and how many at once. Both may be given
as numbers of any kind, but only whole ones can be asked for. -/
structure Band where
  size : Setting Quantity
  batch : Setting Quantity

namespace Band

def ofInts (size batch : Int) : Band := ⟨.ok (.whole size), .ok (.whole batch)⟩

end Band

def Quantity.toCount : Quantity → Setting Int
  | whole value => .ok value
  | truth _ | real _ => .error .argumentMistyped

structure TickQuery where
  poolId : Bytes
  spacing : Int
  block : Option BlockName

namespace TickReader

def ofCode (code : Bytes) : Except Fault TickReader :=
  if given : code ≠ [] then .ok ⟨code, given⟩ else .error .noReader

def deployData (reader : TickReader) (deployment : Deployment) (poolId : Bytes) (tick : Int)
    (zeroForOne : Bool) (count : Setting Int) (spacing : Int) : Except Fault Bytes := do
  let head ← Abi.encode [.bytes 32, .address, .bool, .int 24]
    (poolId, deployment.poolManager, zeroForOne, tick, ())
  let tail ← Abi.encode [.uint 16, .int 24] (← count, spacing, ())
  return reader.code ++ head ++ tail

def load (reader : TickReader) (deployment : Deployment) (query : TickQuery) (tick : Int)
    (zeroForOne : Bool) (count : Setting Int) : Desk (List TickRow × Int) := do
  let data ← reader.deployData deployment query.poolId tick zeroForOne count query.spacing
  let response ← Desk.deploy data query.block
  (TickResponse.decode response >>= TickResponse.valid : Except Fault _)

/-- Where the batch behind one of `count` ticks starts. -/
def nextStart (zeroForOne : Bool) (tick count spacing : Int) : Int :=
  if zeroForOne then tick - count - spacing else tick + count + spacing

/-- The next batch when `loaded` ticks of a band have been asked for: a whole one, or what is left. -/
def nextBatch (size batch : Quantity) (loaded : Int) : Quantity :=
  let left := size.minus loaded
  if left.less batch then left else batch

/-- Batches from a tick on until a whole band has been asked for, at most `rounds` batches; their rows
behind those already found, the last batch first. -/
def loadBatches (reader : TickReader) (deployment : Deployment) (query : TickQuery)
    (zeroForOne : Bool) (size : Quantity) (batch : Setting Quantity) :
    (rounds : Nat) → (tick loaded : Int) → (found : List (List TickRow)) → Desk (List TickRow)
  | 0, _, loaded, found =>
    if (Quantity.whole loaded).less size then Desk.fail .unfinished
    else pure found.reverse.flatten
  | rounds + 1, tick, loaded, found =>
    if (Quantity.whole loaded).less size then do
      let setting := (nextBatch size (← batch) loaded).toCount
      let (rows, _) ← reader.load deployment query tick zeroForOne setting
      let count ← setting
      reader.loadBatches deployment query zeroForOne size batch rounds
        (nextStart zeroForOne tick count query.spacing) (loaded + count) (rows :: found)
    else pure found.reverse.flatten

/-- A bound on the batches of a band: a batch of at least one tick makes progress, and one of none
moves its start, which leaves the range of ticks in time, as endless progress does. -/
def roundLimit (size : Quantity) : Nat := size.floor + 2 ^ 24 + 2

def loadDirection (reader : TickReader) (deployment : Deployment) (query : TickQuery)
    (zeroForOne : Bool) (tick : Int) (band : Band) : Desk (List TickRow) := do
  let size ← band.size
  reader.loadBatches deployment query zeroForOne size band.batch (roundLimit size) tick 0 []

def loadBand (reader : TickReader) (deployment : Deployment) (query : TickQuery) (tick : Int)
    (band : Band) : Desk TickMaps := do
  let asks ← reader.loadDirection deployment query true tick band
  let bids ← reader.loadDirection deployment query false tick band
  (liftM (TickMaps.ofRows (asks ++ bids) query.spacing) : Except Fault TickMaps)

end TickReader

end OrderDesk
