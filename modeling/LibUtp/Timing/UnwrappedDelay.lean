import LibUtp.DelayHistory
import LibUtp.Lib.Residue
import Mathlib.Data.Finset.Lattice.Fold
import Mathlib.Data.Fintype.Basic

/-! The delay history beside a reference that works on unbounded integers with the ordinary
minimum. -/

namespace Utp

open Residue

/-- Thirteen slots, and the delays measured so far, the latest first. -/
structure Unwrapped where
  slots : Fin 13 → ℤ := fun _ => 0
  slot : Fin 13 := 0
  since : UInt64 := 0
  seeded : Bool := false
  delays : List ℤ := []

namespace Unwrapped

def base (r : Unwrapped) : ℤ := Finset.univ.inf' Finset.univ_nonempty r.slots

/-- The least of the last three delays; one that is not there yet counts as zero. -/
def value (r : Unwrapped) : ℤ :=
  Finset.univ.inf' Finset.univ_nonempty fun k : Fin 3 => r.delays.getD k 0

/-- The calls on a history. A sample and an offset are integers here. -/
inductive Call where
  | clear (ms : UInt64)
  | shift (offset : ℤ)
  | addSample (sample : ℤ) (ms : UInt64)

def seed (r : Unwrapped) (x : ℤ) : Unwrapped :=
  if r.seeded then r else { r with slots := fun _ => x, seeded := true }

def lower (r : Unwrapped) (x : ℤ) : Unwrapped :=
  { r with slots := Function.update r.slots r.slot (min x (r.slots r.slot)) }

def record (r : Unwrapped) (x : ℤ) : Unwrapped := { r with delays := (x - r.base) :: r.delays }

/-- The milliseconds since the last rotation, on the clock of 64 bits. -/
def elapsed (r : Unwrapped) (ms : UInt64) : ℕ := (ms - r.since).toNat

example : ({ since := 70000 } : Unwrapped).elapsed 140000 = 70000 := by decide

def rotate (r : Unwrapped) (x : ℤ) (ms : UInt64) : Unwrapped :=
  if 60000 < r.elapsed ms then
    { r with slots := Function.update r.slots (r.slot + 1) x, slot := r.slot + 1, since := ms }
  else r

def run (r : Unwrapped) : Call → Unwrapped
  | .clear ms => { since := ms }
  | .shift d => { r with slots := fun i => r.slots i + d }
  | .addSample x ms => (((r.seed x).lower x).record x).rotate x ms

/-- A sample lies with the slots in a range shorter than `2 ^ 31`. The first one finds no slots. -/
def Fits (r : Unwrapped) : Call → Prop
  | .addSample x _ => r.seeded → ∃ lo, ∀ y, y = x ∨ y ∈ Set.range r.slots → lo ≤ y ∧ y < lo + 2 ^ 31
  | _ => True

def AllFit (r : Unwrapped) : List Call → Prop
  | [] => True
  | c :: cs => r.Fits c ∧ AllFit (r.run c) cs

theorem allFit_append {r : Unwrapped} {cs cs' : List Call} :
    r.AllFit (cs ++ cs') ↔ r.AllFit cs ∧ (cs.foldl run r).AllFit cs' := by
  induction cs generalizing r with
  | nil => simp [AllFit]
  | cons c cs ih => simp [AllFit, ih, and_assoc]

end Unwrapped

namespace DelayHistory

def run (h : DelayHistory) : Unwrapped.Call → DelayHistory
  | .clear ms => clear ms
  | .shift d => h.shift (UInt32.ofInt d)
  | .addSample x ms => h.addSample (UInt32.ofInt x) ms

/-- The history holds the residues of what the reference holds. -/
structure Wraps (h : DelayHistory) (r : Unwrapped) : Prop where
  slots : ∀ i, h.delayBaseHist.get i = UInt32.ofInt (r.slots i)
  base : h.delayBase = UInt32.ofInt r.base
  slot : h.delayBaseIdx = r.slot
  since : h.delayBaseTime = r.since
  seeded : h.delayBaseInitialized = r.seeded
  delays : ∀ k : Fin 3, ((h.curDelayHist.get (h.curDelayIdx - 1 - k)).toNat : ℤ) = r.delays.getD k 0

end DelayHistory

namespace Unwrapped

variable {r : Unwrapped} {x : ℤ}

/-- The sample and the slots are near to each other. -/
def Close (r : Unwrapped) (x : ℤ) : Prop :=
  (∀ i, Near x (r.slots i)) ∧ ∀ i j, Near (r.slots i) (r.slots j)

theorem close_seed {ms : UInt64} (h : r.Fits (.addSample x ms)) : (r.seed x).Close x := by
  unfold seed
  split
  · rename_i hs
    obtain ⟨lo, hlo⟩ := h hs
    have hx := hlo x (.inl rfl)
    have hi (i : Fin 13) := hlo (r.slots i) (.inr ⟨i, rfl⟩)
    refine ⟨fun i => ?_, fun i j => ?_⟩
    · have := hi i
      exact ⟨by omega, by omega⟩
    · have h₁ := hi i
      have h₂ := hi j
      exact ⟨by omega, by omega⟩
  · have hx : Near x x := ⟨by omega, by omega⟩
    exact ⟨fun _ => hx, fun _ _ => hx⟩

theorem base_le (r : Unwrapped) (i : Fin 13) : r.base ≤ r.slots i :=
  Finset.inf'_le _ (Finset.mem_univ i)

theorem exists_base (r : Unwrapped) : ∃ i, r.slots i = r.base := by
  obtain ⟨i, -, hi⟩ := Finset.exists_mem_eq_inf' Finset.univ_nonempty r.slots
  exact ⟨i, hi.symm⟩

theorem eq_base {m : ℤ} (hle : ∀ i, m ≤ r.slots i) (hm : ∃ i, r.slots i = m) : r.base = m := by
  obtain ⟨i, rfl⟩ := hm
  exact le_antisymm (r.base_le i) (Finset.le_inf' _ _ fun j _ => hle j)

theorem base_lower (r : Unwrapped) (x : ℤ) : (r.lower x).base = min x r.base := by
  refine eq_base (fun i => ?_) ?_
  · unfold lower
    by_cases hi : i = r.slot
    · subst hi
      simp [r.base_le]
    · simp [Function.update_of_ne hi, r.base_le]
  · obtain ⟨j, hj⟩ := r.exists_base
    rcases le_total x r.base with hx | hx
    · refine ⟨r.slot, ?_⟩
      rw [min_eq_left hx]
      simp [lower, hx.trans (r.base_le _)]
    · refine ⟨j, ?_⟩
      rw [min_eq_right hx]
      unfold lower
      by_cases hjs : j = r.slot
      · subst hjs
        simp [hj, hx]
      · simp [Function.update_of_ne hjs, hj]

end Unwrapped

namespace Unwrapped

variable {r : Unwrapped} {x : ℤ}

theorem near_base (h : r.Close x) : Near x r.base := by
  obtain ⟨i, hi⟩ := r.exists_base
  rw [← hi]
  exact h.1 i

/-- Slots that held the sample or another slot's value before. -/
theorem Close.of_slots (h : r.Close x) {r' : Unwrapped}
    (hs : ∀ i, r'.slots i = x ∨ ∃ j, r'.slots i = r.slots j) : r'.Close x := by
  have hx : Near x x := ⟨by omega, by omega⟩
  refine ⟨fun i => ?_, fun i j => ?_⟩
  · rcases hs i with hi | ⟨k, hi⟩ <;> rw [hi]
    · exact hx
    · exact h.1 k
  · rcases hs i with hi | ⟨k, hi⟩ <;> rcases hs j with hj | ⟨l, hj⟩ <;> rw [hi, hj]
    · exact hx
    · exact h.1 l
    · exact (h.1 k).symm
    · exact h.2 k l

theorem Close.lower (h : r.Close x) : (r.lower x).Close x := by
  refine h.of_slots fun i => ?_
  unfold Unwrapped.lower
  by_cases hi : i = r.slot
  · subst hi
    rcases min_choice x (r.slots r.slot) with hm | hm
    · simp [hm]
    · exact .inr ⟨r.slot, by simp [hm]⟩
  · exact .inr ⟨i, by simp [Function.update_of_ne hi]⟩

/-- What is measured against the base is not negative. -/
theorem delay_nonneg (r : Unwrapped) (x : ℤ) : 0 ≤ x - (r.lower x).base := by
  rw [base_lower]
  have := min_le_left x r.base
  omega

end Unwrapped

namespace DelayHistory

variable {h : DelayHistory} {r : Unwrapped} {x : ℤ}

theorem wrappingCompareLess_mask (a b : UInt32) :
    wrappingCompareLess a b TIMESTAMP_MASK ↔ b - a < a - b := by
  have hm (c : UInt32) : c &&& TIMESTAMP_MASK = c := by
    have : TIMESTAMP_MASK = -1 := by decide
    rw [this]
    simp
  unfold wrappingCompareLess
  simp [hm]

theorem get_eq_getElem {α : Type} {n : ℕ} (v : Vector α n) (i : Fin n) : v.get i = v[i.val] := rfl

theorem get_set {α : Type} {n : ℕ} (v : Vector α n) (i j : Fin n) (x : α) :
    (v.set i x).get j = if i = j then x else v.get j := by
  simp only [get_eq_getElem, Vector.getElem_set, Fin.ext_iff]

theorem Wraps.clear (ms : UInt64) : (clear ms).Wraps { since := ms } where
  slots i := by
    simp [DelayHistory.clear, get_eq_getElem]
    rfl
  base := by
    rw [Unwrapped.eq_base (m := 0) (fun _ => le_refl _) ⟨0, rfl⟩]
    rfl
  slot := rfl
  since := rfl
  seeded := rfl
  delays k := by simp [DelayHistory.clear, get_eq_getElem]

theorem Wraps.shift (hw : h.Wraps r) (d : ℤ) :
    (h.shift (UInt32.ofInt d)).Wraps { r with slots := fun i => r.slots i + d } where
  slots i := by
    rw [ofInt_add, ← hw.slots i]
    simp [DelayHistory.shift, get_eq_getElem]
  base := by
    obtain ⟨i, hi⟩ := r.exists_base
    rw [Unwrapped.eq_base (m := r.base + d) (fun i => Int.add_le_add_right (r.base_le i) d)
      ⟨i, congrArg (· + d) hi⟩, ofInt_add, ← hw.base]
    rfl
  slot := hw.slot
  since := hw.since
  seeded := hw.seeded
  delays := hw.delays

theorem Wraps.seed (hw : h.Wraps r) (x : ℤ) : (h.seed (UInt32.ofInt x)).Wraps (r.seed x) := by
  unfold DelayHistory.seed Unwrapped.seed
  rw [hw.seeded]
  split
  · exact hw
  · exact {
      slots := fun i => by simp [get_eq_getElem]
      base := by rw [Unwrapped.eq_base (m := x) (fun _ => le_refl _) ⟨0, rfl⟩]
      slot := hw.slot
      since := hw.since
      seeded := rfl
      delays := hw.delays }

theorem lower_eq (h : DelayHistory) (s : UInt32) : h.lower s = { h with
    delayBaseHist := h.delayBaseHist.set h.delayBaseIdx
      (if wrappingCompareLess s (h.delayBaseHist.get h.delayBaseIdx) TIMESTAMP_MASK then s
        else h.delayBaseHist.get h.delayBaseIdx) h.delayBaseIdx.isLt
    delayBase := if wrappingCompareLess s h.delayBase TIMESTAMP_MASK then s else h.delayBase } := by
  have hself : h.delayBaseHist.set h.delayBaseIdx (h.delayBaseHist.get h.delayBaseIdx) =
      h.delayBaseHist := by simp [get_eq_getElem]
  unfold lower
  split_ifs <;> simp_all

theorem Wraps.lower (hw : h.Wraps r) (hc : r.Close x) :
    (h.lower (UInt32.ofInt x)).Wraps (r.lower x) := by
  have hslot := lower_ofInt (hc.1 r.slot) wrappingCompareLess_mask
  have hbase := lower_ofInt (Unwrapped.near_base hc) wrappingCompareLess_mask
  rw [← hw.slots, ← hw.slot] at hslot
  rw [← hw.base] at hbase
  rw [lower_eq, hslot, hbase]
  exact {
    slots := fun i => by
      rw [get_set, Unwrapped.lower, hw.slot]
      by_cases hi : r.slot = i
      · subst hi
        simp
      · simp [hi, Function.update_of_ne (Ne.symm hi), hw.slots]
    base := by rw [Unwrapped.base_lower]
    slot := hw.slot
    since := hw.since
    seeded := hw.seeded
    delays := hw.delays }

theorem Wraps.record (hw : h.Wraps r) (hc : r.Close x) (h0 : 0 ≤ x - r.base) :
    (h.record (UInt32.ofInt x)).Wraps (r.record x) where
  slots := hw.slots
  base := hw.base
  slot := hw.slot
  since := hw.since
  seeded := hw.seeded
  delays k := by
    obtain ⟨h₁, -⟩ := Unwrapped.near_base hc
    have hnew : (((UInt32.ofInt x) - h.delayBase).toNat : ℤ) = x - r.base := by
      rw [hw.base, ← ofInt_sub, toNat_ofInt_of_lt h0 (by omega)]
    -- what was `k - 1` calls ago is now `k` calls ago
    have hold (j : Fin 3) (hj : h.curDelayIdx ≠ h.curDelayIdx - 1 - j) :
        (((h.record (UInt32.ofInt x)).curDelayHist.get (h.curDelayIdx - 1 - j)).toNat : ℤ) =
          r.delays.getD j 0 := by
      rw [← hw.delays j, DelayHistory.record, get_set, if_neg hj]
    have hidx (j : Fin 3) : (h.record (UInt32.ofInt x)).curDelayIdx - 1 - j = h.curDelayIdx - j := by
      simp [DelayHistory.record]
    rw [hidx]
    obtain ⟨hne, hne', htwo⟩ := (by decide : ∀ i : Fin 3, i ≠ i - 1 - 0 ∧ i ≠ i - 1 - 1 ∧
      i - 2 = i - 1 - 1) h.curDelayIdx
    match k with
    | 0 =>
      rw [sub_zero, DelayHistory.record, get_set, if_pos rfl]
      exact hnew
    | 1 =>
      rw [← sub_zero (h.curDelayIdx - 1)]
      exact hold 0 hne
    | 2 =>
      rw [htwo]
      exact hold 1 hne'

/-- The scan of the slots finds the least one. -/
theorem foldl_hist {v : Vector UInt32 13} (hw : ∀ i, v.get i = UInt32.ofInt (r.slots i))
    (hc : ∀ i j, Near (r.slots i) (r.slots j)) :
    v.foldl (fun base x => if wrappingCompareLess x base TIMESTAMP_MASK then x else base) (v.get 0) =
      UInt32.ofInt r.base := by
  have hl : v.toList = (List.ofFn r.slots).map UInt32.ofInt := by
    apply List.ext_getElem
    · rw [Vector.length_toList, List.length_map, List.length_ofFn]
    · intro i h₁ h₂
      have := hw ⟨i, by rwa [Vector.length_toList] at h₁⟩
      rw [List.getElem_map, List.getElem_ofFn, ← this, get_eq_getElem, Vector.getElem_toList]
  have hmem {a : ℤ} (ha : a ∈ r.slots 0 :: List.ofFn r.slots) : ∃ i, r.slots i = a := by
    rcases List.mem_cons.1 ha with rfl | ha
    · exact ⟨0, rfl⟩
    · exact List.mem_ofFn.1 ha
  obtain ⟨m, hm, hle, he⟩ := foldl_lower wrappingCompareLess_mask (l := List.ofFn r.slots)
    (a := r.slots 0) fun a ha b hb => by
      obtain ⟨i, rfl⟩ := hmem ha
      obtain ⟨j, rfl⟩ := hmem hb
      exact hc i j
  rw [← Vector.foldl_toList, hl, hw 0, he, Unwrapped.eq_base _ (hmem hm)]
  exact fun i => hle _ (List.mem_cons_of_mem _ (List.mem_ofFn.2 ⟨i, rfl⟩))

theorem Wraps.rotate (hw : h.Wraps r) (hc : r.Close x) (ms : UInt64) :
    (h.rotate (UInt32.ofInt x) ms).Wraps (r.rotate x ms) := by
  have helapsed : ms - h.delayBaseTime > 60 * 1000 ↔ 60000 < r.elapsed ms := by
    rw [hw.since, gt_iff_lt, UInt64.lt_iff_toNat_lt]
    rfl
  unfold DelayHistory.rotate Unwrapped.rotate
  by_cases ht : 60000 < r.elapsed ms
  · rw [if_pos (helapsed.2 ht), if_pos ht, ← hw.slot]
    set k : Fin 13 := h.delayBaseIdx + 1
    set r' : Unwrapped := { r with
      slots := Function.update r.slots k x
      slot := k
      since := ms } with hr'
    have hslots (j : Fin 13) : (h.delayBaseHist.set k (UInt32.ofInt x)).get j =
        UInt32.ofInt (r'.slots j) := by
      rw [get_set, hr']
      by_cases hj : k = j
      · subst hj
        simp
      · simp [hj, Function.update_of_ne (Ne.symm hj), hw.slots]
    have hc' : r'.Close x := by
      refine hc.of_slots fun j => ?_
      by_cases hj : j = k
      · subst hj
        simp [hr']
      · exact .inr ⟨j, by simp [hr', Function.update_of_ne hj]⟩
    exact ⟨hslots, foldl_hist hslots hc'.2, rfl, rfl, hw.seeded, hw.delays⟩
  · rw [if_neg (fun h => ht (helapsed.1 h)), if_neg ht]
    exact hw

/-- One call. -/
theorem Wraps.run (hw : h.Wraps r) {c : Unwrapped.Call} (hf : r.Fits c) : (h.run c).Wraps (r.run c) := by
  cases c with
  | clear ms => exact .clear ms
  | shift d => exact hw.shift d
  | addSample x ms =>
    have hc := Unwrapped.close_seed hf
    exact (((hw.seed x).lower hc).record hc.lower (Unwrapped.delay_nonneg _ x)).rotate hc.lower ms

theorem Wraps.runs {cs : List Unwrapped.Call} (hw : h.Wraps r) (hf : r.AllFit cs) :
    (cs.foldl DelayHistory.run h).Wraps (cs.foldl Unwrapped.run r) := by
  induction cs generalizing h r with
  | nil => exact hw
  | cons c cs ih => exact ih (hw.run hf.1) hf.2

theorem le_foldl_min (l : List UInt32) (a : UInt32) (m : ℕ) :
    m ≤ (l.foldl (fun value x => min x value) a).toNat ↔ m ≤ a.toNat ∧ ∀ x ∈ l, m ≤ x.toNat := by
  induction l generalizing a with
  | nil => simp
  | cons b l ih =>
    have hmin : m ≤ (min b a).toNat ↔ m ≤ b.toNat ∧ m ≤ a.toNat := by
      show m ≤ (if b ≤ a then b else a).toNat ↔ _
      split
      · rename_i hle
        have := UInt32.le_iff_toNat_le.1 hle
        omega
      · rename_i hle
        have := UInt32.lt_iff_toNat_lt.1 (UInt32.not_le.1 hle)
        omega
    rw [List.foldl_cons, ih, hmin]
    simp only [List.mem_cons, forall_eq_or_imp]
    tauto

/-- The least of the three delays in the ring. -/
theorem Wraps.value (hw : h.Wraps r) : (h.getValue.toNat : ℤ) = r.value := by
  have hle (m : ℕ) : m ≤ h.getValue.toNat ↔ ∀ k : Fin 3, (m : ℤ) ≤ r.delays.getD k 0 := by
    unfold getValue
    rw [← Vector.foldl_toList, le_foldl_min]
    refine ⟨fun ⟨_, hm⟩ k => ?_, fun hm => ?_⟩
    · rw [← hw.delays k]
      exact_mod_cast hm _ (by simp [get_eq_getElem])
    · have hall (i : Fin 3) : m ≤ (h.curDelayHist.get i).toNat := by
        have := hw.delays (h.curDelayIdx - 1 - i)
        rw [sub_sub_cancel] at this
        have hi := hm (h.curDelayIdx - 1 - i)
        omega
      refine ⟨?_, fun x hx => ?_⟩
      · have := hall 0
        have hlt := (h.curDelayHist.get 0).toNat_lt
        show m ≤ 4294967295
        omega
      · obtain ⟨i, hi, rfl⟩ := List.getElem_of_mem hx
        rw [Vector.length_toList] at hi
        exact hall ⟨i, hi⟩
  refine le_antisymm (Finset.le_inf' _ _ fun k _ => (hle _).1 (le_refl _) k) ?_
  have h0 : 0 ≤ r.value := Finset.le_inf' _ _ fun k _ => by
    rw [← hw.delays k]
    exact Int.natCast_nonneg _
  have hm := (hle r.value.toNat).2 fun k => by
    rw [Int.toNat_of_nonneg h0]
    exact Finset.inf'_le _ (Finset.mem_univ k)
  omega

theorem get_record (hw : h.Wraps r) (hc : r.Close x) (h0 : 0 ≤ x - r.base) (ms : UInt64) :
    ((((h.record (UInt32.ofInt x)).rotate (UInt32.ofInt x) ms).curDelayHist.get h.curDelayIdx).toNat : ℤ) =
      x - r.base := by
  have hrot : ((h.record (UInt32.ofInt x)).rotate (UInt32.ofInt x) ms).curDelayHist =
      (h.record (UInt32.ofInt x)).curDelayHist := by
    unfold rotate
    split <;> rfl
  have hrec := (hw.record hc h0).delays 0
  have hidx : (h.record (UInt32.ofInt x)).curDelayIdx - 1 - 0 = h.curDelayIdx := by
    simp [record]
  rw [hidx] at hrec
  rw [hrot]
  exact hrec

/-- In every sequence of calls whose samples fit, after each call the base is the residue of the
least slot and the value is the least of the last three delays. A delay is what its sample lies
above the base, before the slots turn. The slots turn by the clock of 64 bits. -/
theorem delayHistory_unwraps {calls : List Unwrapped.Call} (hf : Unwrapped.AllFit {} calls)
    {cs : List Unwrapped.Call} (hcs : cs <+: calls) :
    (cs.foldl run {}).delayBase = UInt32.ofInt (cs.foldl Unwrapped.run {}).base ∧
      ((cs.foldl run {}).getValue.toNat : ℤ) = (cs.foldl Unwrapped.run {}).value ∧
      ∀ x ms, cs ++ [.addSample x ms] <+: calls →
        let r := ((cs.foldl Unwrapped.run {}).seed x).lower x
        0 ≤ x - r.base ∧
          ((cs.foldl Unwrapped.run {}).run (.addSample x ms)).delays = (x - r.base) :: r.delays ∧
          ((((cs.foldl run {}).run (.addSample x ms)).curDelayHist.get
            (cs.foldl run {}).curDelayIdx).toNat : ℤ) = x - r.base := by
  obtain ⟨rest, rfl⟩ := hcs
  obtain ⟨hf', hrest⟩ := Unwrapped.allFit_append.1 hf
  have hw := Wraps.runs (h := {}) (r := {}) (.clear 0) hf'
  refine ⟨hw.base, hw.value, fun x ms hx => ?_⟩
  obtain ⟨rest', he⟩ := hx
  rw [List.append_assoc, List.append_cancel_left_eq] at he
  subst he
  have hc := Unwrapped.close_seed hrest.1
  refine ⟨Unwrapped.delay_nonneg _ x, ?_, ?_⟩
  · show (Unwrapped.rotate _ x ms).delays = _
    unfold Unwrapped.rotate
    split <;> rfl
  · have hidx : (((cs.foldl run {}).seed (UInt32.ofInt x)).lower (UInt32.ofInt x)).curDelayIdx =
        (cs.foldl run {}).curDelayIdx := by
      rw [lower_eq, seed]
      split <;> rfl
    have hrec := get_record ((hw.seed x).lower hc) hc.lower (Unwrapped.delay_nonneg _ x) ms
    rw [hidx] at hrec
    exact hrec

/-- The second sample lies below zero and the slots turn with it. -/
theorem delayHistory_unwraps_below :
    ([.addSample 3 10, .addSample (-4) 70000].foldl run {}).delayBase = 0xFFFFFFFC := by
  refine (@delayHistory_unwraps [.addSample 3 10, .addSample (-4) 70000] ?_ _
    (List.prefix_refl _)).1.trans (by decide)
  refine ⟨nofun, fun _ => ⟨-4, ?_⟩, trivial⟩
  rintro y (rfl | ⟨i, rfl⟩)
  · omega
  · fin_cases i <;> decide

end DelayHistory
end Utp
