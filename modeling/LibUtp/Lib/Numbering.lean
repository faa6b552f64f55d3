import Mathlib.Data.UInt
import Mathlib.Tactic.Linarith

/-! Natural numbers known by their last 16 bits: how far apart two of them are, and when they are
the same. -/

namespace Numbering

theorem toNat_ofNat (n : ℕ) : (UInt16.ofNat n).toNat = n % 2 ^ 16 := UInt16.toNat_ofNat'

theorem ofNat_succ (n : ℕ) : UInt16.ofNat (n + 1) = UInt16.ofNat n + 1 := by
  rw [UInt16.ofNat_add]
  rfl

/-- The distance to a number that is not far ahead. -/
theorem toNat_sub_of_le {m n : ℕ} (h : m ≤ n) (hn : n < m + 2 ^ 16) :
    (UInt16.ofNat n - UInt16.ofNat m).toNat = n - m := by
  rw [UInt16.toNat_sub, toNat_ofNat, toNat_ofNat]
  omega

/-- The distance to a number that lies behind wraps around. -/
theorem toNat_sub_of_lt {m n : ℕ} (h : m < n) (hn : n ≤ m + 2 ^ 16) :
    (UInt16.ofNat m - UInt16.ofNat n).toNat + (n - m) = 2 ^ 16 ∨ n = m + 2 ^ 16 := by
  rw [UInt16.toNat_sub, toNat_ofNat, toNat_ofNat]
  omega

/-- Numbers of the same residue are equal unless they are a whole round apart. -/
theorem eq_of_ofNat_eq {m n : ℕ} (h : UInt16.ofNat m = UInt16.ofNat n) (hm : m < n + 2 ^ 16)
    (hn : n < m + 2 ^ 16) : m = n := by
  have := congrArg UInt16.toNat h
  rw [toNat_ofNat, toNat_ofNat] at this
  omega

/-- A residue near that of `n` is that of the number as near to `n`. -/
theorem ofNat_add_toNat {n : ℕ} {q : UInt16} : UInt16.ofNat (n + (q - UInt16.ofNat n).toNat) = q := by
  rw [UInt16.ofNat_add, UInt16.ofNat_toNat]
  grind

end Numbering
