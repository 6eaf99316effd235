import OrderDesk.Proofs.Abi
import OrderDesk.Proofs.Bytes
import OrderDesk.Proofs.Order.Kind
import OrderDesk.Proofs.Signing

/-!
# What a digest binds

A digest is taken in levels: of byte strings in fields, of structures, and of the structure with its
domain. Where two digests are the same, what they were taken of is the same from the outside in, as
far as no two byte strings on the way share a digest.

* `FieldValue.words_bind`, `structHash?_binds`: the levels of fields and of structures.
* `OrderKind.typeText_inj`: no two variants have the same type.
* `Order.signingHash_binds`: the digest of an order binds its variant, all that is signed, and the
  deployment, and depends on nothing else.
-/

namespace OrderDesk

/-- Whether two byte strings, one from each list, differ and have the same digest. -/
def Collide (first second : List Bytes) : Prop :=
  ∃ a ∈ first, ∃ b ∈ second, a ≠ b ∧ Keccak.hash a = Keccak.hash b

variable {first second : List Bytes}

theorem Collide.mono {larger wider : List Bytes} (collide : Collide first second)
    (le : first ⊆ larger) (wide : second ⊆ wider) : Collide larger wider := by
  obtain ⟨a, a_mem, b, b_mem, differ, same⟩ := collide
  exact ⟨a, le a_mem, b, wide b_mem, differ, same⟩

theorem eq_or_collide {a b : Bytes} (a_mem : a ∈ first) (b_mem : b ∈ second)
    (same : Keccak.hash a = Keccak.hash b) : a = b ∨ Collide first second := by
  by_cases equal : a = b
  · exact .inl equal
  · exact .inr ⟨a, a_mem, b, b_mem, equal, same⟩

/-! ## Fields -/

namespace FieldValue

variable {value other : FieldValue} {values others : List FieldValue} {word : Bytes}
  {words otherWords : List Bytes}

/-- Whether a type of numbers is no wider than a word. -/
def Narrow : FieldValue → Prop
  | uint bits _ => bits ≤ 256
  | flag _ | account _ | bytes _ => True

/-- Whether a number is in the range of its type. -/
def Fits : FieldValue → Prop
  | uint bits value => 0 ≤ value ∧ value < 2 ^ bits
  | flag _ | account _ | bytes _ => True

/-- What is hashed for the word of a value. -/
def hashed : FieldValue → List Bytes
  | bytes value => [value]
  | uint _ _ | flag _ | account _ => []

theorem word?_length (given : value.word? = some word) : word.length = 32 := by
  cases value with
  | uint bits number =>
    simp only [word?] at given
    split at given
    · cases given
      exact Abi.numberWord_length _
    · cases given
  | flag | account =>
    cases given
    exact Abi.numberWord_length _
  | bytes content =>
    cases given
    exact Keccak.hash_length _

theorem word?_isSome : value.word?.isSome = true ↔ value.Fits := by
  cases value with
  | uint bits number =>
    rw [word?, Fits]
    split <;> simp_all
  | flag | account | bytes => exact iff_of_true rfl trivial

theorem numberWord_inj {number another : Int} (fits : 0 ≤ number ∧ number < 2 ^ 256)
    (other_fits : 0 ≤ another ∧ another < 2 ^ 256)
    (same : Abi.numberWord number = Abi.numberWord another) : number = another := by
  have reads := Abi.toNat_numberWord number
  rw [same, Abi.toNat_numberWord another] at reads
  omega

theorem uint_word?_ok {bits : Nat} {number : Int} (narrow : bits ≤ 256)
    (given : (uint bits number).word? = some word) :
    (0 ≤ number ∧ number < 2 ^ 256) ∧ Abi.numberWord number = word := by
  have wide : (2 : Int) ^ bits ≤ 2 ^ 256 := pow_le_pow_right₀ (by decide) narrow
  simp only [word?] at given
  split at given
  · rename_i fits
    exact ⟨⟨fits.1, fits.2.trans_le wide⟩, Option.some.inj given⟩
  · cases given

theorem word?_binds (alike : value.blank = other.blank) (narrow : value.Narrow)
    (given : value.word? = some word) (other_given : other.word? = some word) :
    value = other ∨ Collide value.hashed other.hashed := by
  cases value <;> cases other <;> simp only [blank, reduceCtorEq] at alike
  case uint.uint bits number width another =>
    obtain ⟨rfl, -⟩ := uint.inj alike
    obtain ⟨fits, word_eq⟩ := uint_word?_ok narrow given
    obtain ⟨other_fits, other_word_eq⟩ := uint_word?_ok narrow other_given
    exact .inl (congrArg _ (numberWord_inj fits other_fits (word_eq.trans other_word_eq.symm)))
  case flag.flag holds another =>
    have same : Abi.numberWord (if holds then 1 else 0) =
        Abi.numberWord (if another then 1 else 0) :=
      Option.some.inj (given.trans other_given.symm)
    have number := numberWord_inj (by split <;> decide) (by split <;> decide) same
    cases holds <;> cases another <;> first | exact .inl rfl | cases number
  case account.account address another =>
    have same : Abi.numberWord address.val = Abi.numberWord another.val :=
      Option.some.inj (given.trans other_given.symm)
    have lt := address.lt_two_pow
    have other_lt := another.lt_two_pow
    have number := numberWord_inj (by omega) (by omega) same
    exact .inl (congrArg _ (Address.ext_val (by exact_mod_cast number)))
  case bytes.bytes content another =>
    have same : Keccak.hash content = Keccak.hash another :=
      Option.some.inj (given.trans other_given.symm)
    exact (eq_or_collide (List.mem_singleton_self _) (List.mem_singleton_self _) same).imp_left
      (congrArg _)

theorem mapM_word?_cons :
    (value :: values).mapM word? = some words ↔ ∃ word rest,
      value.word? = some word ∧ values.mapM word? = some rest ∧ word :: rest = words := by
  simp [List.mapM_cons, Option.bind_eq_some_iff]

theorem mapM_word?_isSome : (values.mapM word?).isSome = true ↔ ∀ value ∈ values, value.Fits := by
  induction values with
  | nil => simp
  | cons value values ih =>
    rw [List.forall_mem_cons, ← ih, ← word?_isSome, List.mapM_cons]
    cases value.word? <;> cases values.mapM word? <;> simp

/-- Values of the same types whose words are the same one after another are the same, or they
contain byte strings of the same digest. -/
theorem words_bind (alike : values.map blank = others.map blank)
    (narrow : ∀ value ∈ values, value.Narrow) (given : values.mapM word? = some words)
    (other_given : others.mapM word? = some otherWords)
    (same : words.flatten = otherWords.flatten) :
    values = others ∨ Collide (values.flatMap hashed) (others.flatMap hashed) := by
  induction values generalizing others words otherWords with
  | nil =>
    cases others with
    | nil => exact .inl rfl
    | cons other others => cases alike
  | cons value values ih =>
    cases others with
    | nil => cases alike
    | cons other others =>
      obtain ⟨type_eq, types_eq⟩ := List.cons.inj alike
      obtain ⟨narrow, rest_narrow⟩ := List.forall_mem_cons.mp narrow
      obtain ⟨word, rest, word_ok, rest_ok, rfl⟩ := mapM_word?_cons.mp given
      obtain ⟨otherWord, otherRest, other_ok, others_ok, rfl⟩ := mapM_word?_cons.mp other_given
      have sizes := (word?_length word_ok).trans (word?_length other_ok).symm
      obtain ⟨rfl, rest_same⟩ := List.append_inj same sizes
      rcases word?_binds type_eq narrow word_ok other_ok with rfl | collide
      · rcases ih types_eq rest_narrow rest_ok others_ok rest_same with rfl | collide
        · exact .inl rfl
        · exact .inr (collide.mono (by simp) (by simp))
      · exact .inr (collide.mono (by simp) (by simp))

end FieldValue

/-! ## Structures -/

section Structures

variable {typeText otherText : String} {values others : List FieldValue} {digest : Bytes}

/-- What the digest of a structure is taken of. -/
def structInput? (typeText : String) (values : List FieldValue) : Option Bytes := do
  let words ← values.mapM FieldValue.word?
  return Keccak.hash (Bytes.ofText typeText) ++ words.flatten

/-- All that is hashed for the digest of a structure. -/
def structHashed (typeText : String) (values : List FieldValue) : List Bytes :=
  Bytes.ofText typeText :: (values.flatMap FieldValue.hashed ++
    (structInput? typeText values).toList)

theorem structHash?_ok (given : structHash? typeText values = some digest) :
    ∃ words, values.mapM FieldValue.word? = some words ∧
      structInput? typeText values = some (Keccak.hash (Bytes.ofText typeText) ++ words.flatten) ∧
      Keccak.hash (Keccak.hash (Bytes.ofText typeText) ++ words.flatten) = digest := by
  obtain ⟨words, words_ok, given⟩ := Option.bind_eq_some_iff.mp given
  refine ⟨words, words_ok, ?_, Option.some.inj given⟩
  rw [structInput?, words_ok]
  rfl

theorem structHash?_isSome : (structHash? typeText values).isSome = true ↔
    ∀ value ∈ values, value.Fits := by
  rw [← FieldValue.mapM_word?_isSome, structHash?]
  cases values.mapM FieldValue.word? <;> simp

theorem structHash?_length (given : structHash? typeText values = some digest) :
    digest.length = 32 := by
  obtain ⟨words, -, -, rfl⟩ := structHash?_ok given
  exact Keccak.hash_length _

theorem structHash?_binds
    (alike : Bytes.ofText typeText = Bytes.ofText otherText →
      values.map FieldValue.blank = others.map FieldValue.blank)
    (narrow : ∀ value ∈ values, value.Narrow) (given : structHash? typeText values = some digest)
    (other_given : structHash? otherText others = some digest) :
    (Bytes.ofText typeText = Bytes.ofText otherText ∧ values = others) ∨
      Collide (structHashed typeText values) (structHashed otherText others) := by
  obtain ⟨words, words_ok, input, digest_eq⟩ := structHash?_ok given
  obtain ⟨other_words, other_words_ok, other_input, other_digest_eq⟩ := structHash?_ok other_given
  let hashed := structHashed typeText values
  let otherHashed := structHashed otherText others
  have inputs : _ = _ ∨ Collide hashed otherHashed :=
    eq_or_collide (by simp [hashed, structHashed, input])
      (by simp [otherHashed, structHashed, other_input]) (digest_eq.trans other_digest_eq.symm)
  rcases inputs with inputs | collide
  · have sizes := (Keccak.hash_length (Bytes.ofText typeText)).trans
      (Keccak.hash_length (Bytes.ofText otherText)).symm
    obtain ⟨type_digests, flat⟩ := List.append_inj inputs sizes
    have types : _ = _ ∨ Collide hashed otherHashed :=
      eq_or_collide (by simp [hashed, structHashed]) (by simp [otherHashed, structHashed])
        type_digests
    rcases types with types | collide
    · rcases FieldValue.words_bind (alike types) narrow words_ok other_words_ok flat with
        same | collide
      · exact .inl ⟨types, same⟩
      · exact .inr (collide.mono (by simp [structHashed]) (by simp [structHashed]))
    · exact .inr collide
  · exact .inr collide

end Structures

/-! ## Orders -/

theorem OrderKind.typeText_inj : ∀ kind other : OrderKind,
    Bytes.ofText kind.blank.typeText = Bytes.ofText other.blank.typeText → kind = other := by
  have different : (OrderKind.all.map fun kind => Bytes.ofText kind.blank.typeText).Nodup := by
    decide +kernel
  intro kind other
  exact List.inj_on_of_nodup_map different kind.mem_all other.mem_all

namespace Order

variable (order : Order)

theorem fields_narrow : ∀ field ∈ order.fields, field.value.Narrow := by
  rcases order with ⟨_, _, _, _, _, _ | ⟨_, _, _, _, _ | _, _ | _⟩⟩ <;>
    simp [fields, commonFields, OrderSize.fields, Lifetime.fields, FieldValue.Narrow]

end Order

/-! ## Digests of orders -/

def Deployment.domainValues (deployment : Deployment) (chain : Int) : List FieldValue :=
  [.bytes (Bytes.ofText domainName), .bytes (Bytes.ofText domainVersion), .uint 256 chain,
    .account deployment.angstrom]

namespace Order

def values (order : Order) : List FieldValue := order.fields.map (·.value)

def signedMessage (domain struct : Bytes) : Bytes := [0x19, 0x01] ++ domain ++ struct

/-- All that is hashed for the digest of an order. -/
def hashed (order : Order) (deployment : Deployment) : List Bytes :=
  let domain := deployment.domainHash?.getD []
  let struct := (structHash? order.typeText order.values).getD []
  let chain := deployment.chainNumber?.getD 0
  structHashed domainTypeText (deployment.domainValues chain) ++
    structHashed order.typeText order.values ++ [signedMessage domain struct]

variable {order other : Order} {deployment here there : Deployment} {digest : Bytes}

theorem signingHash_ok (given : order.signingHash deployment = .ok digest) :
    ∃ chain domain struct, deployment.chainNumber? = some chain ∧
      structHash? domainTypeText (deployment.domainValues chain) = some domain ∧
      structHash? order.typeText order.values = some struct ∧
      Keccak.hash (signedMessage domain struct) = digest ∧
      order.hashed deployment = structHashed domainTypeText (deployment.domainValues chain) ++
        structHashed order.typeText order.values ++ [signedMessage domain struct] := by
  unfold signingHash at given
  split at given
  · rename_i domain struct domain_ok struct_ok
    obtain ⟨chain, chain_ok, hash_ok⟩ := Option.bind_eq_some_iff.mp domain_ok
    refine ⟨chain, domain, struct, chain_ok, hash_ok, struct_ok, Except.ok.inj given, ?_⟩
    simp [hashed, domain_ok, chain_ok, values, struct_ok]
  · cases given

theorem struct_binds {struct : Bytes}
    (given : structHash? order.typeText order.values = some struct)
    (other_given : structHash? other.typeText other.values = some struct) :
    (order.kind = other.kind ∧ order.fields = other.fields) ∨
      Collide (structHashed order.typeText order.values)
        (structHashed other.typeText other.values) := by
  have kinds (same : Bytes.ofText order.typeText = Bytes.ofText other.typeText) :
      order.kind = other.kind := by
    rw [typeText_blank order, typeText_blank other] at same
    exact OrderKind.typeText_inj _ _ same
  have blanks (same : order.kind = other.kind) :
      order.fields.map Field.blank = other.fields.map Field.blank := by
    rw [fields_blank order, fields_blank other, same]
  have alike (same : Bytes.ofText order.typeText = Bytes.ofText other.typeText) :
      order.values.map FieldValue.blank = other.values.map FieldValue.blank := by
    have split : (fun field => field.value) ∘ Field.blank =
        FieldValue.blank ∘ fun field => field.value := rfl
    have values := congrArg (List.map (·.value)) (blanks (kinds same))
    rwa [List.map_map, List.map_map, split, ← List.map_map, ← List.map_map] at values
  have narrow : ∀ value ∈ order.values, value.Narrow := by
    simpa [Order.values] using order.fields_narrow
  rcases structHash?_binds alike narrow given other_given with ⟨types, same⟩ | collide
  · exact .inl ⟨kinds types, fields_ext (blanks (kinds types)) same⟩
  · exact .inr collide

theorem domain_binds {chain otherChain : Int} {domain : Bytes}
    (given : structHash? domainTypeText (here.domainValues chain) = some domain)
    (other_given : structHash? domainTypeText (there.domainValues otherChain) = some domain) :
    (chain = otherChain ∧ here.angstrom = there.angstrom) ∨
      Collide (structHashed domainTypeText (here.domainValues chain))
        (structHashed domainTypeText (there.domainValues otherChain)) := by
  have narrow : ∀ value ∈ here.domainValues chain, value.Narrow := by
    simp [Deployment.domainValues, FieldValue.Narrow]
  have alike : (here.domainValues chain).map FieldValue.blank =
      (there.domainValues otherChain).map FieldValue.blank := rfl
  rcases structHash?_binds (fun _ => alike) narrow given other_given with ⟨-, same⟩ | collide
  · refine .inl ?_
    simpa [Deployment.domainValues] using same
  · exact .inr collide

/-- Two digests that are the same are of orders of one variant with the same fields, for the same
chain and contract, or two byte strings hashed for them differ and have the same digest. -/
theorem eq_of_signingHash (given : order.signingHash here = .ok digest)
    (other_given : other.signingHash there = .ok digest) :
    (order.kind = other.kind ∧ order.fields = other.fields ∧
      here.chainNumber? = there.chainNumber? ∧ here.angstrom = there.angstrom) ∨
      Collide (order.hashed here) (other.hashed there) := by
  obtain ⟨chain, domain, struct, chain_ok, domain_ok, struct_ok, digest_eq, hashed_eq⟩ :=
    signingHash_ok given
  obtain ⟨otherChain, otherDomain, otherStruct, other_chain_ok, other_domain_ok, other_struct_ok,
    other_digest_eq, other_hashed_eq⟩ := signingHash_ok other_given
  rw [hashed_eq, other_hashed_eq, or_iff_not_imp_right]
  intro apart
  have messages : signedMessage domain struct = signedMessage otherDomain otherStruct :=
    (eq_or_collide (by simp) (by simp) (digest_eq.trans other_digest_eq.symm)).resolve_right apart
  obtain ⟨fronts, rfl⟩ := List.append_inj messages
    (by simp [structHash?_length domain_ok, structHash?_length other_domain_ok])
  obtain rfl : domain = otherDomain := List.append_cancel_left fronts
  obtain ⟨rfl, contract⟩ := (domain_binds domain_ok other_domain_ok).resolve_right fun collide =>
    apart (collide.mono (by simp) (by simp))
  obtain ⟨kind, fields⟩ := (struct_binds struct_ok other_struct_ok).resolve_right fun collide =>
    apart (collide.mono (by simp) (by simp))
  exact ⟨kind, fields, chain_ok.trans other_chain_ok.symm, contract⟩

theorem signingHash_congr (kind : order.kind = other.kind) (fields : order.fields = other.fields)
    (chain : here.chainNumber? = there.chainNumber?) (contract : here.angstrom = there.angstrom) :
    order.signingHash here = other.signingHash there := by
  rw [signingHash, signingHash, typeText, typeText, kind, fields, Deployment.domainHash?,
    Deployment.domainHash?, chain, contract]

/-! ## Orders that can be signed -/

/-- Whether all numbers are in the range of their types, that of the chain included. -/
def Signable (order : Order) (deployment : Deployment) : Prop :=
  (∀ field ∈ order.fields, field.value.Fits) ∧
    ∃ chain, deployment.chainNumber? = some chain ∧ 0 ≤ chain ∧ chain < 2 ^ 256

theorem domainHash?_isSome : deployment.domainHash?.isSome = true ↔
    ∃ chain, deployment.chainNumber? = some chain ∧ 0 ≤ chain ∧ chain < 2 ^ 256 := by
  rw [Deployment.domainHash?]
  cases deployment.chainNumber? with
  | none => simp
  | some chain =>
    have fits : (structHash? domainTypeText (deployment.domainValues chain)).isSome = true ↔ _ :=
      structHash?_isSome
    simpa [Deployment.domainValues, FieldValue.Fits] using fits

theorem struct_isSome : (structHash? order.typeText order.values).isSome = true ↔
    ∀ field ∈ order.fields, field.value.Fits := by
  rw [structHash?_isSome, values, List.forall_mem_map]

theorem signingHash_of_signable (signable : order.Signable deployment) :
    ∃ digest, order.signingHash deployment = .ok digest := by
  obtain ⟨domain, domain_ok⟩ := Option.isSome_iff_exists.mp (domainHash?_isSome.mpr signable.2)
  obtain ⟨struct, struct_ok⟩ := Option.isSome_iff_exists.mp (struct_isSome.mpr signable.1)
  rw [values] at struct_ok
  exact ⟨_, by rw [signingHash, domain_ok, struct_ok]⟩

theorem signingHash_of_not_signable (beyond : ¬ order.Signable deployment) :
    order.signingHash deployment = .error (.unsignable order.kind.structName) := by
  rw [signingHash]
  split
  · rename_i domain struct domain_ok struct_ok
    refine absurd ⟨struct_isSome.mp ?_, domainHash?_isSome.mp ?_⟩ beyond
    · rw [values, struct_ok]
      rfl
    · rw [domain_ok]
      rfl
  · rfl

/-- The digest of an order binds its variant, all its fields, and the chain and contract that it is
for, up to byte strings of the same digest. It depends on nothing else, and there is one exactly if
all numbers are in the range of their types. -/
theorem signingHash_binds (order other : Order) (here there : Deployment) :
    (∀ digest, order.signingHash here = .ok digest → other.signingHash there = .ok digest →
      (order.kind = other.kind ∧ order.fields = other.fields ∧
        here.chainNumber? = there.chainNumber? ∧ here.angstrom = there.angstrom) ∨
      Collide (order.hashed here) (other.hashed there)) ∧
    (order.kind = other.kind → order.fields = other.fields →
      here.chainNumber? = there.chainNumber? → here.angstrom = there.angstrom →
      order.signingHash here = other.signingHash there) ∧
    (∀ authorization,
      { order with authorization }.signingHash here = order.signingHash here) ∧
    (order.Signable here → ∃ digest, order.signingHash here = .ok digest) ∧
    (¬ order.Signable here →
      ∃ fault, order.signingHash here = .error fault ∧ fault.label? = some "SignerError") :=
  ⟨fun _ => eq_of_signingHash, signingHash_congr,
    fun authorization => signingHash_authorization order authorization here,
    signingHash_of_signable, fun beyond => ⟨_, signingHash_of_not_signable beyond, rfl⟩⟩

/-- An order that stands, with data for a hook and some authorization. -/
def hookedTrade (amount : Int) (authorization : Authorization) : Order where
  assetIn := .ofNat 0xaaaaaaaaaaaaaaaaaaaaaaaaaaaaaaaaaaaaaaaa
  assetOut := .ofNat 0xbbbbbbbbbbbbbbbbbbbbbbbbbbbbbbbbbbbbbbbb
  recipient := .zero
  useInternal := true
  authorization := authorization
  terms := .user ⟨7, 10, 2 ^ 255, [1, 2, 3], .exact true amount, .standing 5 1900000000⟩

/-- Orders of the same amount have one digest, whoever authorized them; an amount of 129 bits has
none. -/
theorem signingHash_binds_hookedTrade :
    let plain := hookedTrade 1000 .empty
    let authorized := hookedTrade 1000 ⟨true, .ofNat 1, [27]⟩
    let excessive := hookedTrade (2 ^ 128) .empty
    (∃ digest, plain.signingHash .mainnet = .ok digest ∧
      authorized.signingHash .mainnet = .ok digest) ∧
    ((plain.kind = authorized.kind ∧ plain.fields = authorized.fields) ∨
      Collide (plain.hashed .mainnet) (authorized.hashed .mainnet)) ∧
    ∃ fault, excessive.signingHash .mainnet = .error fault ∧ fault.label? = some "SignerError" := by
  intro plain authorized excessive
  have signable : plain.Signable .mainnet := by
    refine ⟨?_, 1, rfl, by decide, by decide⟩
    simp [plain, hookedTrade, fields, commonFields, OrderSize.fields, Lifetime.fields,
      FieldValue.Fits]
  have beyond : ¬ excessive.Signable .mainnet := by
    intro signable
    have amount : (FieldValue.uint 128 (2 ^ 128)).Fits :=
      signable.1 ⟨"amount", .uint 128 (2 ^ 128)⟩ (by simp [excessive, hookedTrade, fields,
        OrderSize.fields])
    exact absurd amount.2 (by decide)
  obtain ⟨binds, same, -, signs, -⟩ := signingHash_binds plain authorized .mainnet .mainnet
  obtain ⟨-, -, -, -, refuses⟩ := signingHash_binds excessive plain .mainnet .mainnet
  obtain ⟨digest, digest_ok⟩ := signs signable
  have authorized_ok : authorized.signingHash .mainnet = .ok digest :=
    (same rfl rfl rfl rfl).symm.trans digest_ok
  refine ⟨⟨digest, digest_ok, authorized_ok⟩, ?_, refuses beyond⟩
  exact (binds digest digest_ok authorized_ok).imp_left fun ⟨kind, fields, _⟩ => ⟨kind, fields⟩

end Order

end OrderDesk
