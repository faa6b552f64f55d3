import Mathlib.Data.List.Basic
import Mathlib.Data.List.Nodup
import Mathlib.Logic.Function.Basic
import Mathlib.Tactic.Linarith

/-! Lists whose elements know their position: `index a` is the position of `a`, or `-1`
when `a` is not in the list. An element is added at the end, and removed by moving the
last one into its place. -/

namespace IndexList

variable {α : Type*}

/-- The list and the index are inverse to each other. -/
structure Linked (l : List α) (index : α → ℤ) : Prop where
  index_of : ∀ (i : ℕ) a, l[i]? = some a → index a = i
  index_out : ∀ a, a ∉ l → index a = -1

section Operations

variable [DecidableEq α]

/-- `a` is added unless it is there. -/
def push (a : α) (l : List α) (index : α → ℤ) : List α × (α → ℤ) :=
  if index a = -1 then (l ++ [a], Function.update index a l.length) else (l, index)

/-- The last element moves into the place of `a`. -/
def swapRemove (a : α) (l : List α) (index : α → ℤ) : List α × (α → ℤ) :=
  if index a < 0 then (l, index)
  else
    match l.getLast? with
    | none => (l, index)
    | some last => ((l.set (index a).toNat last).dropLast,
        Function.update (Function.update index last (index a)) a (-1))

end Operations

namespace Linked

variable {l : List α} {index : α → ℤ} {a : α}

theorem nodup (h : Linked l index) : l.Nodup := by
  rw [List.nodup_iff_getElem?_ne_getElem?]
  intro i j hij hj he
  obtain ⟨a, ha⟩ : ∃ a, l[i]? = some a := ⟨l[i], List.getElem?_eq_getElem (hij.trans hj)⟩
  have hi := h.index_of i a ha
  rw [he] at ha
  have hj := h.index_of j a ha
  omega

theorem exists_index (h : Linked l index) (ha : a ∈ l) :
    ∃ i : ℕ, l[i]? = some a ∧ index a = i := by
  obtain ⟨i, hi⟩ := List.mem_iff_getElem?.1 ha
  exact ⟨i, hi, h.index_of i a hi⟩

theorem mem_iff (h : Linked l index) : a ∈ l ↔ 0 ≤ index a := by
  constructor
  · intro ha
    obtain ⟨i, -, hi⟩ := h.exists_index ha
    omega
  · intro ha
    by_contra hn
    have := h.index_out a hn
    omega

theorem not_mem_iff (h : Linked l index) : a ∉ l ↔ index a = -1 := by
  constructor
  · exact h.index_out a
  · intro ha hm
    have := h.mem_iff.1 hm
    omega

variable [DecidableEq α]

theorem push (h : Linked l index) (a : α) :
    Linked (IndexList.push a l index).1 (IndexList.push a l index).2 := by
  unfold IndexList.push
  split
  · rename_i ha
    have hn := h.not_mem_iff.2 ha
    refine ⟨fun i b hi => ?_, fun b hb => ?_⟩
    · dsimp only at hi ⊢
      rcases lt_trichotomy i l.length with hlt | rfl | hgt
      · rw [List.getElem?_append_left hlt] at hi
        have hne : b ≠ a := by
          rintro rfl
          exact hn (List.mem_of_getElem? hi)
        rw [Function.update_of_ne hne]
        exact h.index_of i b hi
      · rw [List.getElem?_concat_length, Option.some_inj] at hi
        rw [hi, Function.update_self]
      · rw [List.getElem?_eq_none (by simp; omega)] at hi
        cases hi
    · simp only [List.mem_append, List.mem_singleton, not_or] at hb
      dsimp only
      rw [Function.update_of_ne hb.2]
      exact h.index_out b hb.1
  · exact h

theorem mem_push (h : Linked l index) {b : α} : b ∈ (IndexList.push a l index).1 ↔ b ∈ l ∨ b = a := by
  unfold IndexList.push
  split
  · simp
  · rename_i ha
    have hm : a ∈ l := by
      by_contra hn
      exact ha (h.not_mem_iff.1 hn)
    constructor
    · exact .inl
    · rintro (hb | rfl)
      · exact hb
      · exact hm

/-- Removing `a` from its place `i`, written with the list before the last element. -/
theorem swapRemove_eq {l' : List α} {last : α} (hl : l = l' ++ [last]) {i : ℕ}
    (hi : index a = i) (hlt : i ≤ l'.length) : (IndexList.swapRemove a l index).1 = l'.set i last := by
  unfold IndexList.swapRemove
  rw [if_neg (by omega), hl, List.getLast?_concat, hi]
  dsimp only
  rw [Int.toNat_natCast]
  rcases Nat.lt_or_eq_of_le hlt with hlt | rfl
  · rw [List.set_append_left _ _ hlt, List.dropLast_concat]
  · rw [List.set_append_right _ _ le_rfl, Nat.sub_self, List.set_cons_zero, List.dropLast_concat,
      List.set_eq_of_length_le le_rfl]

theorem swapRemove (h : Linked l index) (a : α) :
    Linked (IndexList.swapRemove a l index).1 (IndexList.swapRemove a l index).2 := by
  by_cases ha : a ∈ l
  swap
  · have hneg := h.index_out a ha
    unfold IndexList.swapRemove
    rw [if_pos (by omega)]
    exact h
  obtain ⟨i, hi, hidx⟩ := h.exists_index ha
  obtain ⟨l', last, hl⟩ := (List.eq_nil_or_concat l).resolve_left (List.ne_nil_of_mem ha)
  rw [List.concat_eq_append] at hl
  have hnd := h.nodup
  rw [hl] at hnd
  have hilt : i ≤ l'.length := by
    have := (List.getElem?_eq_some_iff.1 hi).1
    rw [hl, List.length_append, List.length_singleton] at this
    omega
  have hidx2 : (IndexList.swapRemove a l index).2 =
      Function.update (Function.update index last i) a (-1) := by
    unfold IndexList.swapRemove
    rw [if_neg (by omega), hl, List.getLast?_concat, hidx]
  rw [swapRemove_eq hl hidx hilt, hidx2]
  have hlast : last ∉ l' := by
    intro hm
    exact (List.nodup_append.1 hnd).2.2 _ hm _ (List.mem_singleton.2 rfl) rfl
  refine ⟨fun j b hj => ?_, fun b hb => ?_⟩
  · rw [List.getElem?_set] at hj
    split at hj
    · rename_i hij
      split at hj
      · rename_i hjl
        obtain rfl : last = b := Option.some.inj hj
        have hne : last ≠ a := by
          rintro rfl
          rw [hl, List.getElem?_append_left (by omega)] at hi
          exact hlast (List.mem_of_getElem? hi)
        rw [Function.update_of_ne hne, Function.update_self, hij]
      · cases hj
    · rename_i hij
      have hjl := (List.getElem?_eq_some_iff.1 hj).1
      have hj' : l[j]? = some b := by rw [hl, List.getElem?_append_left hjl, hj]
      have hbl : b ≠ last := by
        rintro rfl
        exact hlast (List.mem_of_getElem? hj)
      have hba : b ≠ a := by
        rintro rfl
        have := h.index_of j b hj'
        omega
      rw [Function.update_of_ne hba, Function.update_of_ne hbl]
      exact h.index_of j b hj'
  · by_cases hba : b = a
    · rw [hba, Function.update_self]
    · rw [Function.update_of_ne hba]
      have hbl : b ≠ last := by
        rintro rfl
        rcases Nat.lt_or_eq_of_le hilt with hlt | rfl
        · exact hb (List.mem_set hlt _)
        · rw [hl, List.getElem?_concat_length, Option.some_inj] at hi
          exact hba hi
      rw [Function.update_of_ne hbl]
      refine h.index_out b fun hm => hb ?_
      obtain ⟨j, hj, hjb⟩ := h.exists_index hm
      have hjl : j < l'.length := by
        have := (List.getElem?_eq_some_iff.1 hj).1
        rw [hl, List.length_append, List.length_singleton] at this
        by_contra hge
        obtain rfl : j = l'.length := by omega
        rw [hl, List.getElem?_concat_length, Option.some_inj] at hj
        exact hbl hj.symm
      have hne : i ≠ j := by
        rintro rfl
        rw [hi] at hj
        exact hba (Option.some.inj hj).symm
      rw [List.mem_iff_getElem?]
      refine ⟨j, ?_⟩
      rw [List.getElem?_set_ne hne, ← hj, hl, List.getElem?_append_left hjl]

theorem mem_swapRemove (h : Linked l index) {b : α} :
    b ∈ (IndexList.swapRemove a l index).1 ↔ b ∈ l ∧ b ≠ a := by
  rw [(h.swapRemove a).mem_iff, h.mem_iff]
  unfold IndexList.swapRemove
  split
  · constructor
    · intro hb
      refine ⟨hb, ?_⟩
      rintro rfl
      exact absurd hb (by dsimp only; omega)
    · exact And.left
  · cases hl : l.getLast? with
    | none =>
      have := h.mem_iff (a := a)
      rw [List.getLast?_eq_none_iff] at hl
      rw [hl] at this
      simp only [List.not_mem_nil, false_iff] at this
      omega
    | some last =>
      dsimp only
      by_cases hba : b = a
      · rw [hba, Function.update_self]
        constructor
        · intro h0
          omega
        · rintro ⟨-, h0⟩
          exact absurd rfl h0
      · rw [Function.update_of_ne hba]
        by_cases hbl : b = last
        · rw [hbl, Function.update_self]
          have hm : last ∈ l := List.mem_of_getLast? hl
          have := h.mem_iff.1 hm
          constructor
          · intro _
            exact ⟨this, hbl ▸ hba⟩
          · intro _
            omega
        · rw [Function.update_of_ne hbl]
          exact ⟨fun h0 => ⟨h0, hba⟩, And.left⟩

end Linked

end IndexList
