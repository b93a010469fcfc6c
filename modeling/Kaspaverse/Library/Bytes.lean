import Mathlib

namespace Kaspaverse

abbrev Bytes := List UInt8

/-- The low bytes of a number, least significant first. -/
def leBytes : Nat → Nat → Bytes
  | 0, _ => []
  | width + 1, n => UInt8.ofNat n :: leBytes width (n / 256)

def leValue : Bytes → Nat
  | [] => 0
  | byte :: bytes => byte.toNat + 256 * leValue bytes

@[simp] theorem length_leBytes (width n : Nat) : (leBytes width n).length = width := by
  induction width generalizing n with
  | zero => rfl
  | succ width ih => exact congrArg (· + 1) (ih (n / 256))

theorem leValue_leBytes {width n : Nat} (bound : n < 256 ^ width) : leValue (leBytes width n) = n := by
  induction width generalizing n with
  | zero =>
    rw [Nat.pow_zero] at bound
    exact (Nat.lt_one_iff.mp bound).symm
  | succ width ih =>
    rw [Nat.pow_succ] at bound
    have rest : n / 256 < 256 ^ width := by omega
    show (UInt8.ofNat n).toNat + 256 * leValue (leBytes width (n / 256)) = n
    rw [ih rest, UInt8.toNat_ofNat']
    omega

theorem leBytes_leValue (bytes : Bytes) : leBytes bytes.length (leValue bytes) = bytes := by
  induction bytes with
  | nil => rfl
  | cons byte bytes ih =>
    have bound := byte.toNat_lt
    have low : UInt8.ofNat (byte.toNat + 256 * leValue bytes) = byte := by
      rw [← UInt8.toNat_inj, UInt8.toNat_ofNat']
      omega
    have high : (byte.toNat + 256 * leValue bytes) / 256 = leValue bytes := by omega
    show UInt8.ofNat (byte.toNat + 256 * leValue bytes) ::
      leBytes bytes.length ((byte.toNat + 256 * leValue bytes) / 256) = byte :: bytes
    rw [low, high, ih]

end Kaspaverse
