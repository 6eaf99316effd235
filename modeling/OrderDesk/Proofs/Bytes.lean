import Mathlib.Tactic
import OrderDesk.Address

/-!
# Numbers and addresses as bytes

* `Bytes.ofNat_inj`: numbers that fit a width differ in their bytes.
* `Bytes.ofNat_toNat`: a byte string is its number written in as many bytes.
* `Bytes.take_ofNat`: dropping the last byte of a number divides it by 256.
* `Bytes.drop_ofNat`: dropping the first bytes of a number leaves its low bytes.
* `Address.ofBytes_bytes`, `Address.bytes_inj`: so for the twenty bytes of an address.
-/

namespace OrderDesk

theorem Bytes.toNat_ofNat_of_lt {width value : Nat} (lt : value < 256 ^ width) :
    toNat (ofNat width value) = value := by
  rw [toNat_ofNat, Nat.mod_eq_of_lt lt]

theorem Bytes.ofNat_inj {width value other : Nat} (lt : value < 256 ^ width)
    (other_lt : other < 256 ^ width) :
    ofNat width value = ofNat width other ↔ value = other := by
  constructor
  · intro same
    have numbers := congrArg toNat same
    rwa [toNat_ofNat_of_lt lt, toNat_ofNat_of_lt other_lt] at numbers
  · intro same
    rw [same]

theorem Bytes.toNat_lt {width : Nat} {bytes : Bytes} (length_eq : bytes.length = width) :
    toNat bytes < 256 ^ width := by
  subst length_eq
  induction bytes with
  | nil => exact Nat.one_pos
  | cons byte rest ih =>
    have byte_lt := byte.toNat_lt
    calc toNat (byte :: rest)
      _ = byte.toNat * 256 ^ rest.length + toNat rest := toNat_cons byte rest
      _ < byte.toNat * 256 ^ rest.length + 256 ^ rest.length := Nat.add_lt_add_left ih _
      _ = (byte.toNat + 1) * 256 ^ rest.length := (Nat.succ_mul _ _).symm
      _ ≤ 256 * 256 ^ rest.length := Nat.mul_le_mul_right _ (by omega)
      _ = 256 ^ (byte :: rest).length := (Nat.pow_succ').symm

theorem Bytes.toNat_inj {bytes other : Bytes} (length_eq : bytes.length = other.length) :
    toNat bytes = toNat other ↔ bytes = other := by
  refine ⟨fun same => ?_, congrArg toNat⟩
  induction bytes generalizing other with
  | nil => exact (List.length_eq_zero_iff.mp length_eq.symm).symm
  | cons byte rest ih =>
    obtain ⟨first, tail, rfl⟩ := List.exists_cons_of_length_eq_add_one length_eq.symm
    have tail_length : rest.length = tail.length := Nat.succ.inj length_eq
    have rest_lt : toNat rest < 256 ^ rest.length := toNat_lt rfl
    have tail_lt := toNat_lt tail_length.symm
    rw [toNat_cons, toNat_cons, ← tail_length] at same
    have heads : byte.toNat = first.toNat := by
      have quotients := congrArg (· / 256 ^ rest.length) same
      simpa [Nat.mul_add_div, Nat.mul_comm, Nat.div_eq_of_lt, rest_lt, tail_lt] using quotients
    have tails : toNat rest = toNat tail := by
      rw [heads] at same
      exact Nat.add_left_cancel same
    rw [UInt8.toNat_inj.mp heads, ih tail_length tails]

theorem Bytes.ofNat_toNat {width : Nat} {bytes : Bytes} (length_eq : bytes.length = width) :
    ofNat width (toNat bytes) = bytes := by
  subst length_eq
  rw [← toNat_inj (ofNat_length _ _), toNat_ofNat_of_lt (toNat_lt rfl)]

theorem Bytes.drop_ofNat (count width value : Nat) :
    (ofNat (count + width) value).drop count = ofNat width value := by
  induction count with
  | zero => rw [Nat.zero_add, List.drop_zero]
  | succ count ih => rw [Nat.succ_add, ofNat, List.drop_succ_cons, ih]

theorem Bytes.take_ofNat (width value : Nat) :
    (ofNat (width + 1) value).take width = ofNat width (value / 256) := by
  induction width with
  | zero => rfl
  | succ width ih =>
    have shifted : value >>> (8 * (width + 1)) = (value / 256) >>> (8 * width) := by
      rw [Nat.mul_succ, Nat.add_comm, Nat.shiftRight_add, Nat.shiftRight_eq_div_pow value 8]
    rw [ofNat, List.take_succ_cons, ih, shifted]
    rfl

namespace Address

variable {address other : Address}

theorem bytes_length : address.bytes.length = 20 := Bytes.ofNat_length _ _

@[simp]
theorem ofBytes_bytes (address : Address) : ofBytes address.bytes = address := by
  have reads : Bytes.toNat address.bytes = address.val :=
    Bytes.toNat_ofNat_of_lt address.lt_two_pow
  apply ext_val
  calc (ofBytes address.bytes).val
    _ = Bytes.toNat address.bytes % 2 ^ 160 := rfl
    _ = address.val := by rw [reads, Nat.mod_eq_of_lt address.lt_two_pow]

theorem bytes_inj : address.bytes = other.bytes ↔ address = other := by
  constructor
  · intro same
    rw [← ofBytes_bytes address, same, ofBytes_bytes]
  · intro same
    rw [same]

end Address

end OrderDesk
