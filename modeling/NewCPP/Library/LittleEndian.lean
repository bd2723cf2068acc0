import Mathlib.Algebra.Order.Ring.Nat
import Mathlib.Tactic.Common

/-!
# Little-endian numbers

The bytes of a number, least significant first, and the number of some bytes.

* `value_bytes` — a number that fits is read back from its bytes.
* `length_bytes` — there are as many bytes as were asked for.

The definitions are computable.  `bytes` keeps as many bytes as it is asked for, so that a
number that is too large loses its high part, and `value` reads lists of any length.

The width is a parameter.
-/

namespace Library.LittleEndian

/-- The `width` bytes of a number. -/
def bytes : ℕ → ℕ → List UInt8
  | 0, _ => []
  | width + 1, number => UInt8.ofNat number :: bytes width (number / 256)

/-- The number whose digits the bytes are, the lowest first. -/
def value : List UInt8 → ℕ
  | [] => 0
  | byte :: rest => byte.toNat + 256 * value rest

@[simp] theorem length_bytes (width number : ℕ) : (bytes width number).length = width := by
  induction width generalizing number with
  | zero => rfl
  | succ width ih => rw [bytes, List.length_cons, ih]

/-- The bytes give the number back, if it fits into the width. -/
theorem value_bytes {width number : ℕ} (h : number < 256 ^ width) :
    value (bytes width number) = number := by
  induction width generalizing number with
  | zero =>
      rw [Nat.pow_zero] at h
      exact (Nat.lt_one_iff.1 h).symm
  | succ width ih =>
      have hrest : number / 256 < 256 ^ width := by
        rw [Nat.pow_succ] at h
        exact Nat.div_lt_of_lt_mul (Nat.mul_comm _ _ ▸ h)
      rw [bytes, value, ih hrest, UInt8.toNat_ofNat']
      exact Nat.mod_add_div number 256

/-- The low bytes first, then those of what is above them. -/
theorem bytes_add (low high number : ℕ) :
    bytes (low + high) number = bytes low number ++ bytes high (number / 256 ^ low) := by
  induction low generalizing number with
  | zero => rw [Nat.zero_add, Nat.pow_zero, Nat.div_one, bytes, List.nil_append]
  | succ low ih =>
      rw [Nat.succ_add, bytes, bytes, ih, List.cons_append, Nat.div_div_eq_div_mul,
        Nat.pow_succ']

/-- The bytes do not see what is above them. -/
theorem bytes_mod (width number : ℕ) : bytes width (number % 256 ^ width) = bytes width number := by
  induction width generalizing number with
  | zero => rfl
  | succ width ih =>
      have hlow : UInt8.ofNat (number % 256 ^ (width + 1)) = UInt8.ofNat number := by
        rw [← UInt8.toNat_inj, UInt8.toNat_ofNat', UInt8.toNat_ofNat']
        exact Nat.mod_mod_of_dvd _ (Dvd.intro_left _ (Nat.pow_succ ..).symm)
      have hhigh : number % 256 ^ (width + 1) / 256 = number / 256 % 256 ^ width := by
        rw [Nat.pow_succ', Nat.mod_mul_right_div_self]
      rw [bytes, bytes, hlow, hhigh, ih]

end Library.LittleEndian
