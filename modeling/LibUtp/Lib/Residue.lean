import Mathlib.Data.Int.ModEq
import Mathlib.Order.Lattice
import Mathlib.Tactic.Linarith

/-! Integers known by their residues modulo `2 ^ 32`: the ring operations, and the order of
integers that lie in less than half of the range. -/

namespace Residue

theorem toNat_ofInt (x : ℤ) : ((UInt32.ofInt x).toNat : ℤ) = x % 2 ^ 32 := by
  simp [UInt32.ofInt]
  omega

theorem ofInt_add (x y : ℤ) : UInt32.ofInt (x + y) = UInt32.ofInt x + UInt32.ofInt y := by
  apply UInt32.toNat.inj
  have h := toNat_ofInt (x + y)
  have hx := toNat_ofInt x
  have hy := toNat_ofInt y
  rw [UInt32.toNat_add]
  omega

theorem ofInt_sub (x y : ℤ) : UInt32.ofInt (x - y) = UInt32.ofInt x - UInt32.ofInt y := by
  have h := ofInt_add (x - y) y
  rw [Int.sub_add_cancel] at h
  rw [h]
  grind

/-- A small non-negative integer is its residue. -/
theorem toNat_ofInt_of_lt {x : ℤ} (h₀ : 0 ≤ x) (h : x < 2 ^ 32) : ((UInt32.ofInt x).toNat : ℤ) = x := by
  rw [toNat_ofInt, Int.emod_eq_of_lt h₀ h]

theorem ofInt_toNat (a : UInt32) : UInt32.ofInt (a.toNat : ℤ) = a := by
  apply UInt32.toNat.inj
  have h := toNat_ofInt (a.toNat : ℤ)
  have := a.toNat_lt
  omega

/-- `x` and `y` are less than half the range apart. -/
def Near (x y : ℤ) : Prop := x - y < 2 ^ 31 ∧ y - x < 2 ^ 31

theorem Near.symm {x y : ℤ} (h : Near x y) : Near y x := ⟨h.2, h.1⟩

/-- The way up from `x` is the shorter one when `x` is below `y`. -/
theorem dist_lt_dist_iff {x y : ℤ} (h : Near x y) :
    UInt32.ofInt y - UInt32.ofInt x < UInt32.ofInt x - UInt32.ofInt y ↔ x < y := by
  obtain ⟨h₁, h₂⟩ := h
  rw [← ofInt_sub, ← ofInt_sub, UInt32.lt_iff_toNat_lt]
  have hu := toNat_ofInt (y - x)
  have hd := toNat_ofInt (x - y)
  omega

/-- The smaller of two residues, by the shorter way. -/
theorem lower_ofInt {x y : ℤ} (h : Near x y) {less : UInt32 → UInt32 → Bool}
    (hl : ∀ a b, less a b ↔ b - a < a - b) :
    (if less (UInt32.ofInt x) (UInt32.ofInt y) then UInt32.ofInt x else UInt32.ofInt y) =
      UInt32.ofInt (min x y) := by
  simp only [hl, dist_lt_dist_iff h]
  split
  · rw [min_eq_left (by omega)]
  · rw [min_eq_right (by omega)]

/-- A fold that keeps the smaller residue ends at the residue of the least of the integers. -/
theorem foldl_lower {less : UInt32 → UInt32 → Bool} (hl : ∀ a b, less a b ↔ b - a < a - b)
    {l : List ℤ} {a : ℤ} (h : ∀ x ∈ a :: l, ∀ y ∈ a :: l, Near x y) :
    ∃ m ∈ a :: l, (∀ y ∈ a :: l, m ≤ y) ∧
      (l.map UInt32.ofInt).foldl (fun base x => if less x base then x else base) (UInt32.ofInt a) =
        UInt32.ofInt m := by
  induction l generalizing a with
  | nil => exact ⟨a, by simp, by simp, rfl⟩
  | cons b l ih =>
    have hmin : ∀ x ∈ min b a :: l, x ∈ a :: b :: l := by
      intro x hx
      rcases List.mem_cons.1 hx with rfl | hx
      · rcases min_choice b a with hm | hm <;> simp [hm]
      · simp [hx]
    obtain ⟨m, hm, hle, he⟩ := ih (a := min b a) fun x hx y hy => h x (hmin x hx) y (hmin y hy)
    refine ⟨m, hmin m hm, fun y hy => ?_, ?_⟩
    · have hma := hle (min b a) (by simp)
      rcases List.mem_cons.1 hy with rfl | hy
      · exact hma.trans (min_le_right _ _)
      rcases List.mem_cons.1 hy with rfl | hy
      · exact hma.trans (min_le_left _ _)
      · exact hle y (by simp [hy])
    · rw [List.map_cons, List.foldl_cons, lower_ofInt (h b (by simp) a (by simp)) hl]
      exact he

end Residue
