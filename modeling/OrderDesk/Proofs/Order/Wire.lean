import OrderDesk.Order.Wire
import OrderDesk.Proofs.Json.RoundTrip
import OrderDesk.Proofs.Order.Kind
import OrderDesk.Proofs.Spelling

/-!
# Orders on the wire

Each field of an order is a member under its name, and is read by that name as what it is.

* `Order.get?_member`: every field is found under its name.
* `Order.toJson_legible`: an order whose numbers have few enough digits is a value that reads back.
* `Order.ofJson_toJson`: the order is read from its value.
* `Order.ofText_document`: the order is read from its document.
-/

namespace OrderDesk

theorem Text.isWhole_ofString (string : String) : (Text.ofString string).isWhole = true := by
  simp [Text.isWhole, Text.ofString, CodePoint.isHalf]

theorem Text.ofString_injective : Function.Injective Text.ofString := by
  intro first second same
  rw [← Text.string_ofString first, same, Text.string_ofString]

theorem Digit.fits_of_lt {value : Int} (bounded : -2 ^ 256 < value ∧ value < 2 ^ 256) :
    fits value = true := by
  have size : value.natAbs < 2 ^ 256 := by omega
  have digits : 2 ^ 256 ≤ 10 ^ 256 := Nat.pow_le_pow_left (by decide) 256
  have room : 10 ^ 256 ≤ 10 ^ maxCount := Nat.pow_le_pow_right (by decide) (by decide)
  exact decide_eq_true (size.trans_le (digits.trans room))

/-! ## Reading members -/

namespace Members

variable {members : Members} {name : Text} {capacity : Json.Capacity}

theorem readInt_of_mem {value : Int} (nodup : (members.map (·.1)).Nodup)
    (member : (name, .int value) ∈ members) : members.readInt name = .ok value := by
  rw [readInt, read, Table.get?_of_mem nodup member]
  rfl

theorem readFlag_of_mem {value : Bool} (nodup : (members.map (·.1)).Nodup)
    (member : (name, .bool value) ∈ members) (default : Bool) :
    members.readFlag name default = value := by
  rw [readFlag, Table.get?_of_mem nodup member]
  rfl

theorem readAddress_of_mem {address : Address} (nodup : (members.map (·.1)).Nodup)
    (member : (name, .text address.text) ∈ members) : members.readAddress name = .ok address := by
  rw [readAddress, read, Table.get?_of_mem nodup member]
  simp only [Json.toAddress, Text.string_ofString, OrderDesk.readAddress, Address.parse?_text]

theorem readBytes_of_mem {bytes : Bytes} (nodup : (members.map (·.1)).Nodup)
    (member : (name, .text (Hex.text bytes)) ∈ members) :
    members.read name (Json.toBytes capacity) [] = .ok bytes := by
  rw [read, Table.get?_of_mem nodup member]
  simp only [Json.toBytes, Text.string_ofString, Hex.read?_text]

end Members

/-! ## Authorizations -/

namespace Authorization

variable (authorization : Authorization) {capacity : Json.Capacity}

def members : Members :=
  [("isEcdsa", .bool authorization.isEcdsa), ("from", .text authorization.sender.text),
    ("signature", .text (Hex.text authorization.signature))]

theorem toJson_eq : authorization.toJson = .object authorization.members := rfl

theorem members_nodup : (authorization.members.map (·.1)).Nodup := by
  change [("isEcdsa" : Text), "from", "signature"].Nodup
  decide

theorem ofJson_toJson : ofJson capacity authorization.toJson = .ok authorization := by
  have nodup := authorization.members_nodup
  have flag : authorization.members.readFlag "isEcdsa" false = authorization.isEcdsa :=
    Members.readFlag_of_mem nodup (by simp [members]) false
  have sender : authorization.members.readAddress "from" = .ok authorization.sender :=
    Members.readAddress_of_mem nodup (by simp [members])
  have signature : authorization.members.read "signature" (Json.toBytes capacity) [] =
      .ok authorization.signature :=
    Members.readBytes_of_mem nodup (by simp [members])
  rw [toJson_eq, ofJson, sender, ok_bind, signature, ok_bind, flag]
  rfl

end Authorization

/-! ## Orders -/

namespace Order

variable (order : Order)

/-- The members of the body of an order. -/
def members : Members :=
  let fields : Members := order.fields.map fun field => (field.name, field.value.toJson)
  let authorization : Members := [("meta", order.authorization.toJson)]
  fields ++ authorization

theorem toJson_eq : order.toJson = .object [(order.kind.tag, .object order.members)] := rfl

theorem members_nodup : (order.members.map (·.1)).Nodup := by
  have keys : order.members.map (·.1) =
      (order.fields.map (·.name) ++ ["meta"]).map Text.ofString := by
    simp [members, Function.comp_def]
  rw [keys]
  exact order.names_nodup.map Text.ofString_injective

variable {order} {name : String} {capacity : Json.Capacity}

theorem mem_members {value : FieldValue} (member : ⟨name, value⟩ ∈ order.fields) :
    ((name : Text), value.toJson) ∈ order.members :=
  List.mem_append_left _ (List.mem_map_of_mem member)

theorem readInt_field {bits : Nat} {value : Int}
    (member : ⟨name, .uint bits value⟩ ∈ order.fields) :
    order.members.readInt name = .ok value :=
  Members.readInt_of_mem order.members_nodup (mem_members member)

theorem readFlag_field {value : Bool} (member : ⟨name, .flag value⟩ ∈ order.fields)
    (default : Bool) : order.members.readFlag name default = value :=
  Members.readFlag_of_mem order.members_nodup (mem_members member) default

theorem readAddress_field {value : Address} (member : ⟨name, .account value⟩ ∈ order.fields) :
    order.members.readAddress name = .ok value :=
  Members.readAddress_of_mem order.members_nodup (mem_members member)

theorem readBytes_field {value : Bytes} (member : ⟨name, .bytes value⟩ ∈ order.fields) :
    order.members.read name (Json.toBytes capacity) [] = .ok value :=
  Members.readBytes_of_mem order.members_nodup (mem_members member)

theorem readAuthorization_field :
    order.members.read "meta" (Authorization.ofJson capacity) .empty =
      .ok order.authorization := by
  have member : (("meta" : Text), order.authorization.toJson) ∈ order.members :=
    List.mem_append_right _ (List.mem_singleton_self _)
  rw [Members.read, Table.get?_of_mem order.members_nodup member]
  exact order.authorization.ofJson_toJson

/-! ## Terms -/

section Terms

variable {user : UserTerms} {exact standing : Bool}

theorem readSize_members (terms : order.terms = .user user)
    (kind : order.kind = .user exact standing) :
    readSize exact order.members = .ok user.size := by
  have fields {field : Field} (member : field ∈ user.size.fields) : field ∈ order.fields := by
    simp [Order.fields, terms, member]
  cases size : user.size with
  | range least most =>
    obtain ⟨rfl, -⟩ : false = exact ∧ _ = standing := by simpa [Order.kind, terms, size] using kind
    rw [size] at fields
    rw [readSize, readInt_field (fields List.mem_cons_self),
      readInt_field (fields (List.mem_cons_of_mem _ List.mem_cons_self))]
    rfl
  | exact exactIn amount =>
    obtain ⟨rfl, -⟩ : true = exact ∧ _ = standing := by simpa [Order.kind, terms, size] using kind
    rw [size] at fields
    rw [readSize, readFlag_field (fields List.mem_cons_self),
      readInt_field (fields (List.mem_cons_of_mem _ List.mem_cons_self))]
    rfl

theorem readLifetime_members (terms : order.terms = .user user)
    (kind : order.kind = .user exact standing) :
    readLifetime standing order.members = .ok user.lifetime := by
  have fields {field : Field} (member : field ∈ user.lifetime.fields) : field ∈ order.fields := by
    simp [Order.fields, terms, member]
  cases lifetime : user.lifetime with
  | standing nonce deadline =>
    obtain ⟨-, rfl⟩ : _ = exact ∧ true = standing := by
      simpa [Order.kind, terms, lifetime] using kind
    rw [lifetime] at fields
    rw [readLifetime, readInt_field (fields List.mem_cons_self),
      readInt_field (fields (List.mem_cons_of_mem _ List.mem_cons_self))]
    rfl
  | flash block =>
    obtain ⟨-, rfl⟩ : _ = exact ∧ false = standing := by
      simpa [Order.kind, terms, lifetime] using kind
    rw [lifetime] at fields
    rw [readLifetime, readInt_field (fields List.mem_cons_self)]
    rfl

theorem readTerms_members :
    readTerms capacity order.kind order.members = .ok order.terms := by
  cases terms : order.terms with
  | topOfBlock tob =>
    have quantityIn : ⟨"quantity_in", .uint 128 tob.quantityIn⟩ ∈ order.fields := by
      simp [fields, terms]
    have quantityOut : ⟨"quantity_out", .uint 128 tob.quantityOut⟩ ∈ order.fields := by
      simp [fields, terms]
    have maxGas : ⟨"max_gas_asset0", .uint 128 tob.maxGas⟩ ∈ order.fields := by
      simp [fields, terms]
    have block : ⟨"valid_for_block", .uint 64 tob.validForBlock⟩ ∈ order.fields := by
      simp [fields, terms]
    rw [Order.kind, terms]
    simp only [readTerms, readInt_field quantityIn, readInt_field quantityOut,
      readInt_field maxGas, readInt_field block, ok_bind]
    rfl
  | user user =>
    have refId : ⟨"ref_id", .uint 32 user.refId⟩ ∈ order.fields := by
      simp [fields, terms]
    have fee : ⟨"max_extra_fee_asset0", .uint 128 user.maxExtraFee⟩ ∈ order.fields := by
      simp [fields, terms]
    have price : ⟨"min_price", .uint 256 user.minPrice⟩ ∈ order.fields := by
      simp [fields, terms]
    have data : ⟨"hook_data", .bytes user.hookData⟩ ∈ order.fields := by
      simp [fields, terms]
    obtain ⟨exact, standing, kind⟩ : ∃ exact standing, order.kind = .user exact standing := by
      simp [Order.kind, terms]
    simp only [kind, readTerms, readInt_field refId, readSize_members terms kind,
      readInt_field fee, readInt_field price, readBytes_field data,
      readLifetime_members terms kind, ok_bind]
    rfl

end Terms

theorem common_fields (order : Order) : order.commonFields ⊆ order.fields := by
  intro field member
  cases terms : order.terms <;> simp [fields, terms, member]

theorem ofMembers_members (order : Order) :
    ofMembers capacity order.kind order.members = .ok order := by
  have common {field : Field} (member : field ∈ order.commonFields) : field ∈ order.fields :=
    order.common_fields member
  have assetIn : order.members.readAddress "asset_in" = .ok order.assetIn :=
    readAddress_field (common (by simp [commonFields]))
  have assetOut : order.members.readAddress "asset_out" = .ok order.assetOut :=
    readAddress_field (common (by simp [commonFields]))
  have recipient : order.members.readAddress "recipient" = .ok order.recipient :=
    readAddress_field (common (by simp [commonFields]))
  have internal : order.members.readFlag "use_internal" false = order.useInternal :=
    readFlag_field (common (by simp [commonFields])) false
  simp only [ofMembers, readTerms_members, readAuthorization_field, assetIn, assetOut, recipient,
    internal, ok_bind]
  rfl

theorem ofJson_toJson (order : Order) : ofJson capacity order.toJson = .ok order := by
  rw [toJson_eq, ofJson, OrderKind.ofTag?_tag]
  exact order.ofMembers_members

/-! ## Documents -/

/-- Whether the numbers in an order have few enough digits to be written. -/
def Writable (order : Order) : Prop :=
  ∀ name bits value, ⟨name, .uint bits value⟩ ∈ order.fields → Digit.fits value = true

theorem toJson_legible (writable : order.Writable) : order.toJson.Legible := by
  have authorization : order.authorization.toJson.Legible := by
    refine ⟨order.authorization.members_nodup, ?_⟩
    simp [Json.LegibleMembers, Json.Legible, Text.isWhole_ofString]
  have fields : ∀ field ∈ order.fields, field.value.toJson.Legible := by
    rintro ⟨name, value⟩ member
    cases value with
    | uint bits value => exact writable name bits value member
    | flag value => trivial
    | account address => exact Text.isWhole_ofString _
    | bytes bytes => exact Text.isWhole_ofString _
  have body : Json.LegibleMembers order.members := by
    rw [Json.legibleMembers_iff]
    intro member place
    rcases List.mem_append.mp place with place | place
    · obtain ⟨field, field_mem, rfl⟩ := List.mem_map.mp place
      exact ⟨Text.isWhole_ofString _, fields field field_mem⟩
    · obtain rfl := List.mem_singleton.mp place
      exact ⟨Text.isWhole_ofString _, authorization⟩
  exact ⟨List.nodup_singleton _, Text.isWhole_ofString _, ⟨order.members_nodup, body⟩, trivial⟩

/-- The authorization is an object in the body, and the body is one under the tag. -/
theorem toJson_nesting (order : Order) : order.toJson.nesting ≤ 3 := by
  have plain (value : FieldValue) : value.toJson.nesting = 0 := by cases value <;> rfl
  have body : Json.nestingMembers order.members ≤ 1 := by
    rw [Json.nestingMembers_le_iff]
    intro member place
    rcases List.mem_append.mp place with place | place
    · obtain ⟨field, -, rfl⟩ := List.mem_map.mp place
      exact (plain field.value).trans_le (Nat.zero_le 1)
    · obtain rfl := List.mem_singleton.mp place
      exact le_rfl
  exact Nat.succ_le_succ (max_le (Nat.succ_le_succ body) (Nat.zero_le 2))

theorem ofText_toText (writable : order.Writable) : ofText capacity order.toText = .ok order := by
  have fits := order.toJson_nesting.trans capacity.nesting_ge
  rw [ofText, toText, Json.read_pretty (toJson_legible writable) fits, ok_bind, ofJson_toJson]

theorem document_eq (writable : order.Writable) : order.document = .ok order.toText :=
  if_pos (Json.isWritable_of_legible (toJson_legible writable))

/-- Every order whose numbers are below `2 ^ 256` in size has a document, from which the same order
is read with any capacity. -/
theorem ofText_document (order : Order)
    (bounded : ∀ name bits value, ⟨name, .uint bits value⟩ ∈ order.fields →
      -2 ^ 256 < value ∧ value < 2 ^ 256) :
    ∃ text, order.document = .ok text ∧ ∀ capacity, ofText capacity text = .ok order := by
  have writable : order.Writable := by
    intro name bits value member
    exact Digit.fits_of_lt (bounded name bits value member)
  exact ⟨order.toText, document_eq writable, fun _ => ofText_toText writable⟩

/-- Negative and very large numbers, a hook and a signature of odd bytes come back. -/
theorem ofText_document_hooked :
    let order : Order :=
      { assetIn := .ofNat 0xdeadbeef, assetOut := .zero, recipient := .ofNat (2 ^ 160 - 1)
        useInternal := true
        authorization := ⟨true, .ofNat 0xabcdef, [0, 255, 27]⟩
        terms := .user
          { refId := -1, maxExtraFee := 2 ^ 256 - 1, minPrice := 1 - 2 ^ 256, hookData := [0, 128]
            size := .exact false 0, lifetime := .standing (2 ^ 255) (-7) } }
    (∀ name bits value, ⟨name, .uint bits value⟩ ∈ order.fields →
      -2 ^ 256 < value ∧ value < 2 ^ 256) ∧
    ∃ text, order.document = .ok text ∧ ∀ capacity, ofText capacity text = .ok order := by
  intro order
  have bounded : ∀ name bits value, ⟨name, .uint bits value⟩ ∈ order.fields →
      -2 ^ 256 < value ∧ value < 2 ^ 256 := by
    intro name bits value member
    simp only [order, fields, commonFields, OrderSize.fields, Lifetime.fields, List.cons_append,
      List.nil_append, List.mem_cons, List.not_mem_nil, Field.mk.injEq, FieldValue.uint.injEq,
      reduceCtorEq, and_false, or_false, false_or] at member
    omega
  exact ⟨bounded, ofText_document order bounded⟩

end Order

end OrderDesk
