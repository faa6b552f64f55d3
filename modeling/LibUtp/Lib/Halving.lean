import Mathlib.Data.Nat.Find
import Mathlib.Data.Nat.Log
import Mathlib.Tactic.Ring

/-! Sequences that halve until they are small. -/

namespace Halving

variable {w : ℕ → ℕ} {c : ℕ}

/-- After `n` rounds the excess over one has been halved `n` times. -/
theorem two_pow_mul_le {n : ℕ} (hw : ∀ k < n, 2 * w (k + 1) ≤ w k + 1) :
    2 ^ n * (w n - 1) ≤ w 0 - 1 := by
  induction n with
  | zero => simp
  | succ n ih =>
    have hlast := hw n (Nat.lt_succ_self n)
    have hprev := ih fun k hk => hw k (Nat.lt_succ_of_lt hk)
    calc 2 ^ (n + 1) * (w (n + 1) - 1) = 2 ^ n * (2 * (w (n + 1) - 1)) := by rw [Nat.pow_succ, Nat.mul_assoc]
      _ ≤ 2 ^ n * (w n - 1) := Nat.mul_le_mul_left _ (by omega)
      _ ≤ w 0 - 1 := hprev

/-- A sequence that halves as long as it was large is small after a logarithmic number of rounds. -/
theorem exists_le (hc : 0 < c) (hw : ∀ k, (∀ j ≤ k, c < w j) → 2 * w (k + 1) ≤ w k + 1) :
    ∃ n ≤ Nat.log 2 (w 0 + 1) + 1, w n ≤ c ∧ ∀ k < n, c < w k := by
  have hex : ∃ n ≤ Nat.log 2 (w 0 + 1) + 1, w n ≤ c := by
    by_contra hno
    push Not at hno
    have hle := @two_pow_mul_le w (Nat.log 2 (w 0 + 1) + 1)
      fun k hk => hw k fun j hj => hno j (hj.trans hk.le)
    have hlarge := hno _ le_rfl
    have hlog : w 0 + 1 < 2 ^ (Nat.log 2 (w 0 + 1) + 1) := Nat.lt_pow_succ_log_self (by omega) _
    have := Nat.mul_le_mul_left (2 ^ (Nat.log 2 (w 0 + 1) + 1))
      (show 1 ≤ w (Nat.log 2 (w 0 + 1) + 1) - 1 by omega)
    omega
  obtain ⟨N, hN, hsmall⟩ := hex
  classical
  have hfind : ∃ n, w n ≤ c := ⟨N, hsmall⟩
  refine ⟨Nat.find hfind, (Nat.find_min' hfind hsmall).trans hN, Nat.find_spec hfind, fun k hk => ?_⟩
  exact Nat.lt_of_not_le (Nat.find_min hfind hk)

end Halving
