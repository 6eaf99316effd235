import Mathlib.Tactic
import OrderDesk.Proofs.Bytes
import OrderDesk.Proofs.Except
import OrderDesk.Signing.TypedData

/-!
# Signed orders

A signature is written as one byte and two words, and covers all of an order but its authorization.

* `SigningKey.sign?_fits`: every signature that is made fits its 65 bytes.
* `Signature.split_bytes`: a signature that fits is read back from its bytes.
* `Order.recoverSigner_signed`: the signer is recovered from an order with the authorization that it
  gave, if its key is recovered from signatures of the digest.
-/

namespace OrderDesk

variable {signer : Signer} {order : Order} {authorization : Authorization}

/-! ## Bytes of a signature -/

def Signature.Fits (signature : Signature) : Prop :=
  signature.v < 2 ^ 8 ∧ signature.r < 2 ^ 256 ∧ signature.s < 2 ^ 256

theorem Signature.bytes_length (signature : Signature) : signature.bytes.length = 65 := by
  simp only [bytes, List.length_append, Bytes.ofNat_length]

theorem Signature.split_bytes {signature : Signature} (fits : signature.Fits) :
    Signature.split signature.bytes = .ok signature := by
  obtain ⟨v, r, s⟩ := signature
  obtain ⟨v_lt, r_lt, s_lt⟩ := fits
  have first : (Bytes.ofNat 1 v).length = 1 := Bytes.ofNat_length 1 v
  have second : (Bytes.ofNat 32 r).length = 32 := Bytes.ofNat_length 32 r
  rw [split, if_pos (bytes_length _)]
  simp only [bytes, List.append_assoc]
  rw [List.take_left' first, List.drop_left' first, List.take_left' second, ← List.append_assoc,
    List.drop_left' (by rw [List.length_append, first, second]), Bytes.toNat_ofNat_of_lt v_lt,
    Bytes.toNat_ofNat_of_lt r_lt, Bytes.toNat_ofNat_of_lt s_lt]

namespace SigningKey

variable {key : SigningKey} {digest : Bytes} {signature : Signature}

theorem order_lt : Curve.order < 2 ^ 256 := by decide

theorem signWith?_fits {number : Nat} (given : key.signWith? digest number = some signature) :
    signature.Fits := by
  have order_pos : 0 < Curve.order := by decide
  have order_lt := order_lt
  unfold signWith? at given
  split at given
  · cases given
  · obtain ⟨⟨x, y⟩, -, given⟩ := Option.bind_eq_some_iff.mp given
    have r_lt := Nat.mod_lt x order_pos
    have s_lt := Nat.mod_lt (Curve.inverse Curve.order number *
      (Bytes.toNat digest + x % Curve.order * key.secret)) order_pos
    simp only at given
    split at given
    · cases given
    · split at given
      · cases given
        exact ⟨by dsimp only; omega, r_lt.trans order_lt, (Nat.sub_le _ _).trans_lt order_lt⟩
      · cases given
        exact ⟨by dsimp only; omega, r_lt.trans order_lt, s_lt.trans order_lt⟩

theorem drawSignature?_fits {rounds : Nat} {draw : Draw}
    (given : key.drawSignature? digest rounds draw = some signature) : signature.Fits := by
  induction rounds generalizing draw with
  | zero => cases given
  | succ rounds ih =>
    simp only [drawSignature?] at given
    split at given
    · rename_i made
      cases given
      exact signWith?_fits made
    · exact ih given

theorem sign?_fits (given : key.sign? digest = some signature) : signature.Fits :=
  drawSignature?_fits given

/-- Whether a signature that the key makes of a digest leads back to its address. -/
def RecoversFrom (key : SigningKey) (digest : Bytes) : Prop :=
  ∀ signature, key.sign? digest = some signature → signature.recover? digest = some key.address

end SigningKey

/-! ## Orders -/

theorem Signer.sign_ok (given : signer.sign order = .ok authorization) :
    ∃ digest signature, order.signingHash signer.deployment = .ok digest ∧
      signer.key.sign? digest = some signature ∧
      authorization = ⟨true, signer.address, signature.bytes⟩ := by
  unfold sign at given
  obtain ⟨digest, digest_ok, given⟩ := bind_eq_ok.mp given
  split at given
  · rename_i signature made
    rw [pure_eq_ok] at given
    exact ⟨digest, signature, digest_ok, made, given.symm⟩
  · cases given

theorem Signer.sign_sender (given : signer.sign order = .ok authorization) :
    authorization.sender = signer.address := by
  obtain ⟨_, _, -, -, rfl⟩ := sign_ok given
  rfl

theorem Order.signingHash_authorization (order : Order) (authorization : Authorization)
    (deployment : Deployment) :
    { order with authorization }.signingHash deployment = order.signingHash deployment := by
  have fields : { order with authorization }.fields = order.fields := rfl
  have kind : { order with authorization }.kind = order.kind := rfl
  rw [signingHash, signingHash, typeText, typeText, fields, kind]

theorem Signer.sign_authorization (signer : Signer) (order : Order)
    (authorization : Authorization) :
    signer.sign { order with authorization } = signer.sign order := by
  have kind : { order with authorization }.kind = order.kind := rfl
  rw [sign, sign, Order.signingHash_authorization, kind]

theorem Order.recoverSigner_signed (given : signer.sign order = .ok authorization)
    (backend : ∀ digest, order.signingHash signer.deployment = .ok digest →
      signer.key.RecoversFrom digest) :
    { order with authorization }.recoverSigner signer.deployment = .ok signer.address := by
  obtain ⟨digest, signature, digest_ok, made, rfl⟩ := Signer.sign_ok given
  have recovered : signature.recover? digest = some signer.address :=
    backend digest digest_ok signature made
  rw [recoverSigner, Signature.split_bytes (SigningKey.sign?_fits made), ok_bind,
    Order.signingHash_authorization, digest_ok]
  simp only [recovered]

end OrderDesk
