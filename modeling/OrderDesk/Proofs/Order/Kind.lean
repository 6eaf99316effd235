import Mathlib.Tactic
import OrderDesk.Order.Basic

/-!
# What the variant of an order fixes

The names and types of the fields of an order, and with them the signed structure, are those of its
variant.

* `Order.fields_blank`, `Order.typeText_blank`: they are those of an order of nothing.
* `Order.fields_ext`: names, types and values make up the fields.
* `Order.names_nodup`: no variant names a field twice.
-/

namespace OrderDesk

/-- The type of a value, as a value without content. -/
def FieldValue.blank : FieldValue → FieldValue
  | uint bits _ => .uint bits 0
  | flag _ => .flag false
  | account _ => .account .zero
  | bytes _ => .bytes []

def Field.blank (field : Field) : Field := { field with value := field.value.blank }

/-! ## Variants -/

namespace OrderKind

/-- The order of a variant whose terms are all nothing. -/
def blank (kind : OrderKind) : Order where
  assetIn := .zero
  assetOut := .zero
  recipient := .zero
  useInternal := false
  authorization := .empty
  terms :=
    match kind with
    | topOfBlock => .topOfBlock ⟨0, 0, 0, 0⟩
    | user exact standing => .user {
      refId := 0
      maxExtraFee := 0
      minPrice := 0
      hookData := []
      size := if exact then .exact false 0 else .range 0 0
      lifetime := if standing then .standing 0 0 else .flash 0 }

theorem mem_all (kind : OrderKind) : kind ∈ all := by
  rcases kind with _ | ⟨_ | _, _ | _⟩ <;> decide

/-- Different variants have different tags. -/
theorem ofTag?_tag (kind : OrderKind) : ofTag? kind.tag = some kind := by
  have each : ∀ kind ∈ all, ofTag? kind.tag = some kind := by decide
  exact each kind kind.mem_all

end OrderKind

/-! ## Fields -/

namespace Order

variable (order : Order)

theorem fields_blank : order.fields.map Field.blank = order.kind.blank.fields := by
  rcases order with ⟨_, _, _, _, _, _ | ⟨_, _, _, _, _ | _, _ | _⟩⟩ <;> rfl

theorem typeText_blank : order.typeText = order.kind.blank.typeText := by
  rcases order with ⟨_, _, _, _, _, _ | ⟨_, _, _, _, _ | _, _ | _⟩⟩ <;> rfl

/-- Fields are the same if their names and types are, and their values. -/
theorem fields_ext {fields others : List Field}
    (blanks : fields.map Field.blank = others.map Field.blank)
    (values : fields.map (·.value) = others.map (·.value)) : fields = others := by
  induction fields generalizing others with
  | nil =>
    cases others with
    | nil => rfl
    | cons other others => cases blanks
  | cons field fields ih =>
    cases others with
    | nil => cases blanks
    | cons other others =>
      obtain ⟨blank, rest_blanks⟩ := List.cons.inj blanks
      obtain ⟨value, rest_values⟩ := List.cons.inj values
      have name : field.blank.name = other.blank.name := by rw [blank]
      have same : field = other := by
        cases field
        cases other
        exact congrArg₂ Field.mk name value
      rw [same, ih rest_blanks rest_values]

theorem names_blank : order.fields.map (·.name) = order.kind.blank.fields.map (·.name) := by
  rw [← fields_blank, List.map_map]
  rfl

/-- No variant names two of its fields alike, or one of them like the authorization. -/
theorem names_nodup : (order.fields.map (·.name) ++ ["meta"]).Nodup := by
  have each : ∀ kind ∈ OrderKind.all, (kind.blank.fields.map (·.name) ++ ["meta"]).Nodup := by
    decide
  rw [names_blank]
  exact each _ order.kind.mem_all

end Order

end OrderDesk
