import Mathlib.Data.Int.ModEq
import Mathlib.Data.List.Rotate
import Mathlib.Tactic.Ring

/-! A ring of slots: a list indexed by the integers modulo its length. Its slots can be read from
any index on, and moved into a longer ring slot by slot. -/

namespace SlotRing

variable {α : Type}

/-- The position of an index in a ring of `n` slots. -/
def pos (n : ℕ) (i : ℤ) : ℕ := (i % (n : ℤ)).toNat

def peek (l : List (Option α)) (i : ℤ) : Option α := (l[pos l.length i]?).join

def poke (l : List (Option α)) (i : ℤ) (x : Option α) : List (Option α) := l.set (pos l.length i) x

variable {l : List (Option α)} {n : ℕ} {i j : ℤ}

theorem pos_lt (hn : 0 < n) (i : ℤ) : pos n i < n := by
  have := Int.emod_lt_of_pos i (b := n) (by omega)
  have := Int.emod_nonneg i (b := n) (by omega)
  unfold pos
  omega

theorem pos_eq_iff (hn : 0 < n) : pos n i = pos n j ↔ (n : ℤ) ∣ i - j := by
  have hi := Int.emod_nonneg i (b := n) (by omega)
  have hj := Int.emod_nonneg j (b := n) (by omega)
  rw [← Int.modEq_iff_dvd]
  unfold pos Int.ModEq
  omega

/-- The first `n` indices from anywhere have positions of their own. -/
theorem pos_add_inj (start : ℤ) {a b : ℕ} (ha : a < n) (hb : b < n)
    (h : pos n (start + a) = pos n (start + b)) : a = b := by
  rw [pos_eq_iff (by omega)] at h
  have := Int.eq_zero_of_abs_lt_dvd h (by rw [abs_lt]; omega)
  omega

/-- And there are no further positions. -/
theorem exists_offset (hn : 0 < n) (start i : ℤ) : ∃ a < n, pos n i = pos n (start + (a : ℕ)) := by
  have h0 := Int.emod_nonneg (i - start) (b := n) (by omega)
  have h1 := Int.emod_lt_of_pos (i - start) (b := n) (by omega)
  refine ⟨((i - start) % n).toNat, by omega, ?_⟩
  rw [pos_eq_iff hn, Int.toNat_of_nonneg h0, ← sub_sub]
  exact Int.dvd_self_sub_emod

theorem pos_natCast {a : ℕ} (ha : a < n) : pos n a = a := by
  unfold pos
  rw [Int.emod_eq_of_lt (by omega) (by omega), Int.toNat_natCast]

@[simp] theorem length_poke (l : List (Option α)) (i : ℤ) (x : Option α) :
    (poke l i x).length = l.length := by simp [poke]

theorem peek_poke (hl : 0 < l.length) (i j : ℤ) (x : Option α) :
    peek (poke l i x) j = if pos l.length i = pos l.length j then x else peek l j := by
  have hi := pos_lt hl i
  unfold peek
  rw [length_poke]
  unfold poke
  by_cases h : pos l.length i = pos l.length j
  · rw [if_pos h, ← h, List.getElem?_set_self hi]
    rfl
  · rw [if_neg h, List.getElem?_set_ne h]

/-- Only the position of an index matters. -/
theorem peek_congr (h : pos l.length i = pos l.length j) : peek l i = peek l j := by
  unfold peek
  rw [h]

theorem poke_congr (h : pos l.length i = pos l.length j) (x : Option α) : poke l i x = poke l j x := by
  unfold poke
  rw [h]

@[simp] theorem peek_replicate (n : ℕ) (i : ℤ) : peek (List.replicate n (none : Option α)) i = none := by
  unfold peek
  rw [List.getElem?_replicate]
  split <;> rfl

/-! All the slots, from some index on. -/

/-- The first `n` slots from `start` on. -/
def window (l : List (Option α)) (start : ℤ) (n : ℕ) : List (Option α) :=
  (List.range n).map fun a => peek l (start + (a : ℕ))

@[simp] theorem length_window (l : List (Option α)) (start : ℤ) (n : ℕ) :
    (window l start n).length = n := by simp [window]

/-- Counted from elsewhere the ring is its list rotated. -/
theorem window_length (hl : 0 < l.length) (start : ℤ) :
    window l start l.length = l.rotate (pos l.length start) := by
  refine List.ext_getElem (by simp) fun a ha _ => ?_
  rw [length_window] at ha
  have hp : pos l.length (start + a) = (a + pos l.length start) % l.length := by
    have h0 := Int.emod_nonneg start (b := l.length) (by omega)
    have h1 : (start + a) % l.length = (a + start % l.length) % l.length := by
      rw [Int.add_emod_emod, add_comm]
    have h2 : ((a + pos l.length start : ℕ) : ℤ) = a + start % l.length := by
      unfold pos
      omega
    unfold pos at h2 ⊢
    rw [h1, ← h2]
    omega
  have hlt : (a + pos l.length start) % l.length < l.length := Nat.mod_lt _ hl
  rw [List.getElem_rotate]
  simp [window, peek, hp, hlt]

theorem window_append (l : List (Option α)) (start : ℤ) (m n : ℕ) :
    window l start (m + n) = window l start m ++ window l (start + m) n := by
  unfold window
  rw [List.range_add, List.map_append, List.map_map]
  congr 1
  refine List.map_congr_left fun a _ => ?_
  simp only [Function.comp_apply, Nat.cast_add]
  rw [add_assoc]

theorem window_congr {l' : List (Option α)} {start : ℤ} {n : ℕ}
    (h : ∀ a < n, peek l (start + (a : ℕ)) = peek l' (start + (a : ℕ))) :
    window l start n = window l' start n :=
  List.map_congr_left fun a ha => h a (List.mem_range.1 ha)

/-- The ring is known by its slots from any index on. -/
theorem eq_of_peek {l' : List (Option α)} (hl : 0 < l.length) (hlen : l'.length = l.length) (start : ℤ)
    (h : ∀ a < l.length, peek l (start + (a : ℕ)) = peek l' (start + (a : ℕ))) : l = l' := by
  have hw := window_congr h
  have hw' : window l' start l.length = window l' start l'.length := by rw [hlen]
  rw [hw', window_length hl, window_length (hlen ▸ hl), hlen] at hw
  exact List.rotate_injective _ hw

/-! Moving the slots into another ring. -/

/-- The slot of one index is moved: the element leaves the old ring. -/
def moveSlot (start : ℤ) (p : List (Option α) × List (Option α)) (a : ℕ) :
    List (Option α) × List (Option α) :=
  (poke p.1 (start + a) none, poke p.2 (start + a) (peek p.1 (start + a)))

/-- The first `n` slots from `start` on are moved. -/
def migrate (start : ℤ) (n : ℕ) (p : List (Option α) × List (Option α)) :
    List (Option α) × List (Option α) :=
  (List.range n).foldl (moveSlot start) p

variable {start : ℤ} {p : List (Option α) × List (Option α)}

theorem migrate_succ (start : ℤ) (n : ℕ) (p : List (Option α) × List (Option α)) :
    migrate start (n + 1) p = moveSlot start (migrate start n p) n := by
  simp [migrate, List.range_succ]

theorem length_migrate (start : ℤ) (n : ℕ) (p : List (Option α) × List (Option α)) :
    (migrate start n p).1.length = p.1.length ∧ (migrate start n p).2.length = p.2.length := by
  induction n with
  | zero => exact ⟨rfl, rfl⟩
  | succ n ih =>
    rw [migrate_succ]
    simpa [moveSlot] using ih

/-- What `n` moves leave in the old ring: the slots behind them. -/
theorem peek_migrate_fst {n : ℕ} (hn : n ≤ p.1.length) {b : ℕ} (hb : b < p.1.length) :
    peek (migrate start n p).1 (start + b) = if b < n then none else peek p.1 (start + b) := by
  induction n with
  | zero => rfl
  | succ n ih =>
    have hlen := (length_migrate start n p).1
    rw [migrate_succ, moveSlot, peek_poke (by omega), ih (by omega), hlen]
    by_cases hnb : n = b
    · subst hnb
      simp
    · rw [if_neg fun h => hnb (pos_add_inj start (by omega) hb h)]
      split <;> split <;> first | rfl | omega

/-- What they leave in the new one, if it is not shorter. -/
theorem peek_migrate_snd (hlen : p.1.length ≤ p.2.length) {n : ℕ} (hn : n ≤ p.1.length) {b : ℕ}
    (hb : b < p.2.length) : peek (migrate start n p).2 (start + b) =
      if b < n then peek p.1 (start + b) else peek p.2 (start + b) := by
  induction n with
  | zero => rfl
  | succ n ih =>
    have hlen' := (length_migrate start n p).2
    rw [migrate_succ, moveSlot, peek_poke (by omega), ih (by omega), hlen',
      peek_migrate_fst (by omega) (by omega), if_neg (Nat.lt_irrefl n)]
    by_cases hnb : n = b
    · subst hnb
      simp
    · rw [if_neg fun h => hnb (pos_add_inj start (by omega) hb h)]
      split <;> split <;> first | rfl | omega

/-- A whole ring moved into an empty one. -/
theorem peek_migrate_replicate (hl : l.length ≤ n) {b : ℕ} (hb : b < n) :
    peek (migrate start l.length (l, List.replicate n none)).2 (start + b) =
      if b < l.length then peek l (start + b) else none := by
  have h := @peek_migrate_snd _ start (l, List.replicate n none) (by simpa using hl) l.length
    le_rfl b (by simpa using hb)
  rw [peek_replicate] at h
  exact h

/-- No element is lost and none is copied. -/
theorem migrate_perm (h0 : 0 < l.length) (hl : l.length ≤ n) :
    ((migrate start l.length (l, List.replicate n none)).2.filterMap id).Perm (l.filterMap id) := by
  set l' := (migrate start l.length (l, List.replicate n none)).2 with hl'
  have hlen : l'.length = n := by
    rw [hl', (length_migrate start _ _).2, List.length_replicate]
  have hsplit : window l' start l'.length = window l start l.length ++ List.replicate (n - l.length) none := by
    rw [hlen, show n = l.length + (n - l.length) by omega, window_append]
    congr 1
    · refine window_congr fun a ha => ?_
      rw [peek_migrate_replicate hl (by omega), if_pos ha]
    · refine List.ext_getElem (by simp) fun a ha ha' => ?_
      rw [length_window] at ha
      have hread := @peek_migrate_replicate _ l n start hl (l.length + a) (by omega)
      rw [if_neg (by omega)] at hread
      simp only [window, List.getElem_map, List.getElem_range, List.getElem_replicate]
      rw [← hread, Nat.cast_add, add_assoc]
  have hrot (l : List (Option α)) (h0 : 0 < l.length) :
      ((window l start l.length).filterMap id).Perm (l.filterMap id) := by
    rw [window_length h0]
    exact (List.rotate_perm l _).filterMap id
  have hnone : (window l' start l'.length).filterMap id = (window l start l.length).filterMap id := by
    rw [hsplit, List.filterMap_append]
    simp
  exact (hrot l' (by omega)).symm.trans (hnone ▸ hrot l h0)

end SlotRing
