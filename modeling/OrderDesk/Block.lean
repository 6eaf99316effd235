import OrderDesk.Json.Basic

/-!
# Blocks by name

What is read from the chain is read at a block. A block is named by its number; a name that was left
blank is passed on as it is.
-/

namespace OrderDesk

inductive BlockName
  | number (value : Int)
  | blank
deriving DecidableEq, Repr

instance : Coe Int BlockName := ⟨.number⟩

namespace BlockName

/-- A blank name is an empty array. -/
def toJson : BlockName → Json
  | number value => .int value
  | blank => .array []

end BlockName

end OrderDesk
