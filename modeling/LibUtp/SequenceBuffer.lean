import LibUtp.Lib.SlotRing
import Mathlib.Tactic

/-! `utp::SequenceBuffer`: a ring whose size is a power of two, indexed by a
sequence number reduced modulo that size. The slots own their elements, so an
empty slot is `none`. Every caller grows it for a 16-bit distance, so the size
divides `2 ^ 16` and 16-bit numbers address it whichever way they wrapped. -/

namespace Utp

/-- The ring. Initialisation and `grow` only ever build sizes `2 ^ k` with `0 < k`. -/
structure SequenceBuffer (α : Type) where
  buf : List (Option α)
  lg : ℕ
  lg_pos : 0 < lg
  lg_le : lg ≤ 16
  length_buf : buf.length = 2 ^ lg

namespace SequenceBuffer

variable {α : Type}

def size (b : SequenceBuffer α) : ℕ := 2 ^ b.lg

def mask (b : SequenceBuffer α) : ℕ := b.size - 1

/-- `seq & mask_`. The C expression `seq` is an `int` converted to `size_t`; as
the size divides `2 ^ 64` the masked value is the residue of the integer. -/
def idx (b : SequenceBuffer α) (seq : ℤ) : ℕ := (seq % (b.size : ℤ)).toNat

def get (b : SequenceBuffer α) (seq : ℤ) : Option α := (b.buf[b.idx seq]?).join

def put (b : SequenceBuffer α) (seq : ℤ) (data : Option α) : SequenceBuffer α where
  buf := b.buf.set (b.idx seq) data
  lg := b.lg
  lg_pos := b.lg_pos
  lg_le := b.lg_le
  length_buf := by rw [List.length_set, b.length_buf]

/-- `take` moves the element out; the slot is left empty. -/
def take (b : SequenceBuffer α) (seq : ℤ) : Option α × SequenceBuffer α :=
  (b.get seq, b.put seq none)

/-- `initialize(2 ^ lg)`: all slots empty. -/
def initialized (lg : ℕ) (h : 0 < lg) (h' : lg ≤ 16) : SequenceBuffer α where
  buf := List.replicate (2 ^ lg) none
  lg := lg
  lg_pos := h
  lg_le := h'
  length_buf := List.length_replicate

/-! The buffers of a socket start with sixteen slots. -/

theorem four_lg_pos : 0 < 4 := by decide

theorem four_lg_le : 4 ≤ 16 := by decide

/-- `do new_size *= 2; while (index >= new_size);` on the exponent. -/
def growLg : ℕ → ℕ → ℕ → ℕ
  | 0, lg, _ => lg
  | fuel + 1, lg, index => if index < 2 ^ (lg + 1) then lg + 1 else growLg fuel (lg + 1) index

theorem lt_growLg (fuel lg index : ℕ) : lg < growLg (fuel + 1) lg index := by
  induction fuel generalizing lg with
  | zero => unfold growLg; split <;> simp [growLg]
  | succ fuel ih =>
    unfold growLg
    split
    · exact Nat.lt_succ_self lg
    · exact (Nat.lt_succ_self lg).trans (ih (lg + 1))

/-- The doubling stops above `index` before the bits of `index` run out. -/
theorem lt_two_pow_growLg (fuel lg index : ℕ) (h : index < 2 ^ (lg + fuel + 1)) :
    index < 2 ^ growLg (fuel + 1) lg index := by
  induction fuel generalizing lg with
  | zero => unfold growLg; rw [if_pos h]; exact h
  | succ fuel ih =>
    unfold growLg
    split
    · assumption
    · exact ih (lg + 1) (by rwa [show lg + 1 + fuel + 1 = lg + (fuel + 1) + 1 by omega])

theorem growLg_le (fuel lg index : ℕ) (hlg : lg < 16) (h : index < 2 ^ 16) :
    growLg fuel lg index ≤ 16 := by
  induction fuel generalizing lg with
  | zero => exact hlg.le
  | succ fuel ih =>
    unfold growLg
    split
    · exact hlg
    · rename_i hi
      refine ih (lg + 1) (lt_of_le_of_ne hlg ?_)
      intro he
      rw [he] at hi
      exact hi h

theorem mask_lt_iff (b : SequenceBuffer α) (index : ℕ) : b.mask < index ↔ b.size ≤ index := by
  have : 0 < b.size := Nat.two_pow_pos _
  unfold mask
  omega

theorem lg_lt (b : SequenceBuffer α) {index : UInt16} (h : b.mask < index.toNat) : b.lg < 16 := by
  rw [mask_lt_iff] at h
  exact (Nat.pow_lt_pow_iff_right (by norm_num)).1 (h.trans_lt index.toNat_lt)

/-- The empty ring `grow` migrates into. -/
def grown (b : SequenceBuffer α) (index : UInt16) (h : b.mask < index.toNat) : SequenceBuffer α :=
  initialized (growLg (index.toNat + 1) b.lg index.toNat) (b.lg_pos.trans (lt_growLg _ _ _))
    (growLg_le _ _ _ (b.lg_lt h) index.toNat_lt)

/-- Migration of the old slots, `n` of them, from `item - index` upwards. -/
def migrate (b : SequenceBuffer α) (start : ℤ) (nb : SequenceBuffer α) (n : ℕ) : SequenceBuffer α :=
  (List.range n).foldl (fun nb (i : ℕ) => nb.put (start + i) (b.get (start + i))) nb

def grow (b : SequenceBuffer α) (item : ℤ) (index : UInt16) (h : b.mask < index.toNat) :
    SequenceBuffer α :=
  b.migrate (item - index.toNat) (b.grown index h) b.size

def ensureSize (b : SequenceBuffer α) (item : ℤ) (index : UInt16) : SequenceBuffer α :=
  if h : b.mask < index.toNat then b.grow item index h else b

/-! Reading after writing. -/

theorem size_pos (b : SequenceBuffer α) : 0 < b.size := Nat.two_pow_pos _

theorem two_le_size (b : SequenceBuffer α) : 2 ≤ b.size := by
  have := Nat.pow_le_pow_right (n := 2) (by norm_num) b.lg_pos
  simpa [size] using this

/-- The ring is the general one on the list of its slots. -/
theorem idx_eq_pos (b : SequenceBuffer α) (seq : ℤ) : b.idx seq = SlotRing.pos b.buf.length seq := by
  rw [b.length_buf]
  rfl

theorem get_eq_peek (b : SequenceBuffer α) (seq : ℤ) : b.get seq = SlotRing.peek b.buf seq := by
  unfold get SlotRing.peek
  rw [idx_eq_pos]

theorem buf_put (b : SequenceBuffer α) (seq : ℤ) (x : Option α) :
    (b.put seq x).buf = SlotRing.poke b.buf seq x := by
  show b.buf.set (b.idx seq) x = b.buf.set (SlotRing.pos b.buf.length seq) x
  rw [idx_eq_pos]

theorem idx_lt (b : SequenceBuffer α) (seq : ℤ) : b.idx seq < b.size := SlotRing.pos_lt b.size_pos seq

theorem idx_eq_iff (b : SequenceBuffer α) (s t : ℤ) :
    b.idx s = b.idx t ↔ (b.size : ℤ) ∣ s - t := SlotRing.pos_eq_iff b.size_pos

@[simp] theorem size_put (b : SequenceBuffer α) (s : ℤ) (x : Option α) : (b.put s x).size = b.size := rfl

@[simp] theorem idx_put (b : SequenceBuffer α) (s t : ℤ) (x : Option α) :
    (b.put s x).idx t = b.idx t := rfl

theorem get_put (b : SequenceBuffer α) (s t : ℤ) (x : Option α) :
    (b.put s x).get t = if b.idx s = b.idx t then x else b.get t := by
  have hl : 0 < b.buf.length := by
    rw [b.length_buf]
    exact b.size_pos
  rw [get_eq_peek, get_eq_peek, buf_put, SlotRing.peek_poke hl, idx_eq_pos, idx_eq_pos]

theorem get_put_self (b : SequenceBuffer α) (s : ℤ) (x : Option α) : (b.put s x).get s = x := by
  rw [get_put, if_pos rfl]

/-- Only the residue of the index matters. -/
theorem get_congr (b : SequenceBuffer α) {s t : ℤ} (h : (b.size : ℤ) ∣ s - t) :
    b.get s = b.get t := by
  unfold get
  rw [(b.idx_eq_iff s t).2 h]

theorem idx_add_inj (b : SequenceBuffer α) (start : ℤ) {i j : ℕ} (hi : i < b.size)
    (hj : j < b.size) (h : b.idx (start + i) = b.idx (start + j)) : i = j :=
  SlotRing.pos_add_inj start hi hj h

/-- Every index is a residue of one of the `size` indices from `start`. -/
theorem exists_offset (b : SequenceBuffer α) (start t : ℤ) :
    ∃ j < b.size, b.idx t = b.idx (start + (j : ℕ)) := SlotRing.exists_offset b.size_pos start t

@[simp] theorem get_initialized (lg : ℕ) (h : 0 < lg) (h' : lg ≤ 16) (t : ℤ) :
    (initialized lg h h' : SequenceBuffer α).get t = none := by
  rw [get_eq_peek]
  exact SlotRing.peek_replicate _ t

/-! Growing. -/

@[simp] theorem size_migrate (b nb : SequenceBuffer α) (start : ℤ) (n : ℕ) :
    (b.migrate start nb n).size = nb.size := by
  induction n with
  | zero => rfl
  | succ n ih =>
    unfold migrate at ih ⊢
    rw [List.range_succ, List.foldl_append]
    exact ih

/-- What the first `n` moves leave at offset `j` from `start`. -/
theorem get_migrate (b nb : SequenceBuffer α) (start : ℤ) {n j : ℕ} (hn : n ≤ nb.size)
    (hj : j < nb.size) :
    (b.migrate start nb n).get (start + j) =
      if j < n then b.get (start + j) else nb.get (start + j) := by
  induction n with
  | zero => rfl
  | succ n ih =>
    have hstep : b.migrate start nb (n + 1) =
        (b.migrate start nb n).put (start + n) (b.get (start + n)) := by
      simp [migrate, List.range_succ, List.foldl_append]
    rw [hstep, get_put, ih (by omega)]
    split
    · rename_i h
      have := idx_add_inj _ start (by simpa using hn) (by simpa using hj) h
      subst this
      rw [if_pos (Nat.lt_succ_self n)]
    · rename_i h
      have : n ≠ j := by rintro rfl; exact h rfl
      split <;> split <;> first | rfl | omega

theorem grown_size (b : SequenceBuffer α) (index : UInt16) (h : b.mask < index.toNat) :
    b.size < (b.grown index h).size ∧ index.toNat < (b.grown index h).size := by
  have hlt := lt_growLg index.toNat b.lg index.toNat
  constructor
  · exact Nat.pow_lt_pow_right (by norm_num) hlt
  · refine lt_two_pow_growLg index.toNat b.lg index.toNat ?_
    exact Nat.lt_two_pow_self.trans_le (Nat.pow_le_pow_right (by norm_num) (by omega))

/-- After `ensure_size` the ring is larger than `index`, and not smaller than before. -/
theorem size_ensureSize (b : SequenceBuffer α) (item : ℤ) (index : UInt16) :
    b.size ≤ (b.ensureSize item index).size ∧ index.toNat < (b.ensureSize item index).size := by
  unfold ensureSize
  split
  · rename_i h
    have := b.grown_size index h
    simp only [grow, size_migrate]
    omega
  · rename_i h
    rw [mask_lt_iff] at h
    omega

/-- `ensure_size` keeps what the old ring held at the `size` indices from `item - index` on. -/
theorem get_ensureSize (b : SequenceBuffer α) (item : ℤ) (index : UInt16) {j : ℕ}
    (hj : j < b.size) :
    (b.ensureSize item index).get (item - index.toNat + j) = b.get (item - index.toNat + j) := by
  unfold ensureSize
  split
  · rename_i h
    have := b.grown_size index h
    rw [grow, get_migrate _ _ _ (by omega) (by omega), if_pos hj]
  · rfl

/-- Past those, a ring that grew is empty. -/
theorem get_ensureSize_none (b : SequenceBuffer α) (item : ℤ) (index : UInt16) {j : ℕ}
    (hj : b.size ≤ j) (hjn : j < (b.ensureSize item index).size) :
    (b.ensureSize item index).get (item - index.toNat + j) = none := by
  unfold ensureSize at hjn ⊢
  split at hjn
  · rename_i h
    have hs := b.grown_size index h
    rw [dif_pos h]
    simp only [grow, size_migrate] at hjn
    rw [grow, get_migrate _ _ _ (by omega) hjn, if_neg (by omega)]
    exact get_initialized _ _ _ _
  · omega

/-! 16-bit numbers as indices. -/

/-- The element of the sequence number `q`. -/
def slot (b : SequenceBuffer α) (q : UInt16) : Option α := b.get q.toNat

def setSlot (b : SequenceBuffer α) (q : UInt16) (x : Option α) : SequenceBuffer α := b.put q.toNat x

/-- Two sequence numbers share a slot. -/
def Same (b : SequenceBuffer α) (q r : UInt16) : Prop := (b.size : ℤ) ∣ (q.toNat : ℤ) - r.toNat

instance (b : SequenceBuffer α) (q r : UInt16) : Decidable (b.Same q r) :=
  inferInstanceAs (Decidable (_ ∣ _))

theorem size_dvd (b : SequenceBuffer α) : (b.size : ℤ) ∣ 2 ^ 16 := by
  exact_mod_cast Nat.pow_dvd_pow 2 b.lg_le

theorem size_le (b : SequenceBuffer α) : b.size ≤ 2 ^ 16 :=
  Nat.pow_le_pow_right (by norm_num) b.lg_le

theorem toNat_ofInt (i : ℤ) : ((UInt16.ofInt i).toNat : ℤ) = i % 2 ^ 16 := by
  simp [UInt16.ofInt]
  omega

theorem dvd_sub_ofInt (b : SequenceBuffer α) (i : ℤ) :
    (b.size : ℤ) ∣ i - (UInt16.ofInt i).toNat := by
  rw [toNat_ofInt]
  exact b.size_dvd.trans Int.dvd_self_sub_emod

theorem get_eq_slot (b : SequenceBuffer α) (i : ℤ) : b.get i = b.slot (UInt16.ofInt i) :=
  b.get_congr (b.dvd_sub_ofInt i)

theorem put_eq_setSlot (b : SequenceBuffer α) (i : ℤ) (x : Option α) :
    b.put i x = b.setSlot (UInt16.ofInt i) x := by
  unfold setSlot put
  simp only [(b.idx_eq_iff _ _).2 (b.dvd_sub_ofInt i)]

theorem idx_eq_iff_same (b : SequenceBuffer α) (q r : UInt16) :
    b.idx q.toNat = b.idx r.toNat ↔ b.Same q r := b.idx_eq_iff _ _

theorem same_refl (b : SequenceBuffer α) (q : UInt16) : b.Same q q := by simp [Same]

theorem Same.symm {b : SequenceBuffer α} {q r : UInt16} (h : b.Same q r) : b.Same r q := by
  have := (dvd_neg (α := ℤ)).2 h
  rwa [neg_sub] at this

theorem Same.trans {b : SequenceBuffer α} {q r t : UInt16} (h : b.Same q r) (h' : b.Same r t) :
    b.Same q t := by
  have := dvd_add (α := ℤ) h h'
  rwa [sub_add_sub_cancel] at this

theorem Same.slot_eq {b : SequenceBuffer α} {q r : UInt16} (h : b.Same q r) :
    b.slot q = b.slot r := b.get_congr h

theorem Same.setSlot_eq {b : SequenceBuffer α} {q r : UInt16} (h : b.Same q r) (x : Option α) :
    b.setSlot q x = b.setSlot r x := by
  unfold setSlot put
  simp only [(b.idx_eq_iff_same q r).2 h]

@[simp] theorem size_setSlot (b : SequenceBuffer α) (q : UInt16) (x : Option α) :
    (b.setSlot q x).size = b.size := rfl

@[simp] theorem same_setSlot (b : SequenceBuffer α) (q : UInt16) (x : Option α) (r t : UInt16) :
    (b.setSlot q x).Same r t ↔ b.Same r t := Iff.rfl

theorem slot_setSlot (b : SequenceBuffer α) (q r : UInt16) (x : Option α) :
    (b.setSlot q x).slot r = if b.Same q r then x else b.slot r := by
  unfold slot setSlot
  rw [get_put]
  simp only [idx_eq_iff_same]

theorem slot_setSlot_self (b : SequenceBuffer α) (q : UInt16) (x : Option α) :
    (b.setSlot q x).slot q = x := b.get_put_self _ _

/-- Writing back what a slot holds changes nothing. -/
theorem setSlot_slot (b : SequenceBuffer α) (q : UInt16) : b.setSlot q (b.slot q) = b := by
  have hl : b.idx q.toNat < b.buf.length := by rw [b.length_buf]; exact b.idx_lt _
  have : b.buf.set (b.idx q.toNat) (b.get q.toNat) = b.buf := by
    unfold get
    rw [List.getElem?_eq_getElem hl]
    exact List.set_getElem_self hl
  obtain ⟨buf, lg, h1, h2, h3⟩ := b
  simpa [setSlot, put, slot] using this

theorem ofInt_add (q : UInt16) (n : ℕ) :
    UInt16.ofInt ((q.toNat : ℤ) + n) = q + UInt16.ofNat n := by
  apply UInt16.toNat.inj
  have h := toNat_ofInt ((q.toNat : ℤ) + n)
  simp only [UInt16.toNat_add, UInt16.toNat_ofNat']
  omega

theorem ofInt_sub (q r : UInt16) : UInt16.ofInt ((q.toNat : ℤ) - r.toNat) = q - r := by
  apply UInt16.toNat.inj
  have h := toNat_ofInt ((q.toNat : ℤ) - r.toNat)
  have := r.toNat_lt
  simp only [UInt16.toNat_sub]
  omega

/-- Numbers that share a slot lie multiples of the size apart, from wherever they are counted. -/
theorem Same.dvd_offset {b : SequenceBuffer α} {q r : UInt16} (h : b.Same q r) (s : UInt16) :
    (b.size : ℤ) ∣ ((q - s).toNat : ℤ) - (r - s).toNat := by
  have hd := b.size_dvd
  have hqs : ((q - s).toNat : ℤ) = (q.toNat - s.toNat : ℤ) % 2 ^ 16 := by
    rw [UInt16.toNat_sub]
    have := s.toNat_lt
    omega
  have hrs : ((r - s).toNat : ℤ) = (r.toNat - s.toNat : ℤ) % 2 ^ 16 := by
    rw [UInt16.toNat_sub]
    have := s.toNat_lt
    omega
  have e1 := hd.trans (Int.dvd_self_sub_emod (x := (q.toNat - s.toNat : ℤ)) (m := 2 ^ 16))
  have e2 := hd.trans (Int.dvd_self_sub_emod (x := (r.toNat - s.toNat : ℤ)) (m := 2 ^ 16))
  rw [← hqs] at e1
  rw [← hrs] at e2
  have e := dvd_sub (dvd_add (α := ℤ) h e2) e1
  have hring : ((q - s).toNat : ℤ) - (r - s).toNat =
      (q.toNat - r.toNat : ℤ) + ((r.toNat - s.toNat : ℤ) - (r - s).toNat) -
        ((q.toNat - s.toNat : ℤ) - (q - s).toNat) := by ring
  rwa [hring]

/-- Equal numbers, when they lie less than the size apart. -/
theorem Same.eq {b : SequenceBuffer α} {q r s : UInt16} (h : b.Same q r)
    (hq : (q - s).toNat < b.size) (hr : (r - s).toNat < b.size) : q = r := by
  have h2 := Int.eq_zero_of_abs_lt_dvd (h.dvd_offset s) (by rw [abs_lt]; omega)
  have h3 : q - s = r - s := UInt16.toNat.inj (by omega)
  grind

theorem ofInt_sub_add (item index : UInt16) (j : ℕ) :
    UInt16.ofInt ((item.toNat : ℤ) - index.toNat + j) = item - index + UInt16.ofNat j := by
  apply UInt16.toNat.inj
  have h := toNat_ofInt ((item.toNat : ℤ) - index.toNat + j)
  have := index.toNat_lt
  simp only [UInt16.toNat_add, UInt16.toNat_sub, UInt16.toNat_ofNat']
  omega

/-- `ensure_size` keeps the slots of the `size` numbers from `item - index` on. -/
theorem slot_ensureSize (b : SequenceBuffer α) (item index q : UInt16)
    (h : (q - (item - index)).toNat < b.size) :
    (b.ensureSize item.toNat index).slot q = b.slot q := by
  have hq : item - index + UInt16.ofNat (q - (item - index)).toNat = q := by
    rw [UInt16.ofNat_toNat]
    grind
  have := b.get_ensureSize item.toNat index h
  rwa [get_eq_slot, get_eq_slot, ofInt_sub_add, hq] at this

theorem slot_ensureSize_none (b : SequenceBuffer α) (item index q : UInt16)
    (h : b.size ≤ (q - (item - index)).toNat)
    (h' : (q - (item - index)).toNat < (b.ensureSize item.toNat index).size) :
    (b.ensureSize item.toNat index).slot q = none := by
  have hq : item - index + UInt16.ofNat (q - (item - index)).toNat = q := by
    rw [UInt16.ofNat_toNat]
    grind
  have := b.get_ensureSize_none item.toNat index h h'
  rwa [get_eq_slot, ofInt_sub_add, hq] at this

/-- Growing depends on the item modulo `2 ^ 16` only. -/
theorem ensureSize_ofInt (b : SequenceBuffer α) (item : ℤ) (index : UInt16) :
    b.ensureSize item index = b.ensureSize (UInt16.ofInt item).toNat index := by
  have key (start start' : ℤ) (h : (2 ^ 16 : ℤ) ∣ start - start') (nb : SequenceBuffer α) (n : ℕ) :
      b.migrate start nb n = b.migrate start' nb n := by
    unfold migrate
    congr 1
    funext nb i
    have hsub : start + (i : ℤ) - (start' + i) = start - start' := by ring
    rw [b.get_congr (s := start + i) (t := start' + i) (by rw [hsub]; exact b.size_dvd.trans h)]
    unfold put
    simp only [(nb.idx_eq_iff (start + i) (start' + i)).2 (by rw [hsub]; exact nb.size_dvd.trans h)]
  unfold ensureSize
  split
  · refine key _ _ ?_ _ _
    rw [toNat_ofInt, sub_sub_sub_cancel_right]
    exact Int.dvd_self_sub_emod
  · rfl

/-- Every number shares its slot with one of the `size` numbers from `start` on. -/
theorem exists_same (b : SequenceBuffer α) (start q : UInt16) :
    ∃ r, b.Same q r ∧ (r - start).toNat < b.size := by
  obtain ⟨j, hj, hi⟩ := b.exists_offset start.toNat q.toNat
  refine ⟨start + UInt16.ofNat j, ?_, ?_⟩
  · rw [idx_eq_iff] at hi
    have hd := b.dvd_sub_ofInt ((start.toNat : ℤ) + j)
    rw [ofInt_add] at hd
    have hring : (q.toNat : ℤ) - (start + UInt16.ofNat j).toNat =
        (q.toNat - (start.toNat + j) : ℤ) +
          ((start.toNat + j : ℤ) - (start + UInt16.ofNat j).toNat) := by ring
    unfold Same
    rw [hring]
    exact dvd_add hi hd
  · have := b.size_le
    have h1 : start + UInt16.ofNat j - start = UInt16.ofNat j := by grind
    rw [h1, UInt16.toNat_ofNat']
    exact (Nat.mod_le _ _).trans_lt hj

/-- What a grown ring holds was in the old ring, under a number of its range. -/
theorem exists_of_slot_ensureSize {b : SequenceBuffer α} {item index q : UInt16} {x : α}
    (h : (b.ensureSize item.toNat index).slot q = some x) :
    ∃ r, (r - (item - index)).toNat < b.size ∧ (b.ensureSize item.toNat index).Same q r ∧
      b.slot r = some x := by
  obtain ⟨r, hs, hr⟩ := (b.ensureSize item.toNat index).exists_same (item - index) q
  rw [hs.slot_eq] at h
  by_cases hlt : (r - (item - index)).toNat < b.size
  · rw [b.slot_ensureSize item index r hlt] at h
    exact ⟨r, hlt, hs, h⟩
  · rw [b.slot_ensureSize_none item index r (not_lt.1 hlt) hr] at h
    cases h

/-! The number of occupied slots. -/

def occupied (b : SequenceBuffer α) : ℕ :=
  ((Finset.range b.size).filter fun j => (b.get (j : ℕ)).isSome).card

/-- The slots may be counted from any number on. -/
theorem occupied_eq_sum (b : SequenceBuffer α) (start : UInt16) :
    b.occupied = ∑ j ∈ Finset.range b.size,
      if (b.slot (start + UInt16.ofNat j)).isSome then 1 else 0 := by
  have hget (j : ℕ) : b.slot (start + UInt16.ofNat j) = b.get (start.toNat + j) := by
    rw [get_eq_slot, ofInt_add]
  simp only [hget]
  rw [← Finset.card_filter, occupied]
  symm
  refine Finset.card_bij (fun j _ => b.idx (start.toNat + j)) ?_ ?_ ?_
  · intro j hj
    rw [Finset.mem_filter, Finset.mem_range] at hj ⊢
    refine ⟨b.idx_lt _, ?_⟩
    have hdvd : (b.size : ℤ) ∣ ((b.idx (start.toNat + j) : ℕ) : ℤ) - (start.toNat + j) := by
      have h0 : (0 : ℤ) ≤ ((start.toNat : ℤ) + j) % b.size :=
        Int.emod_nonneg _ (by have := b.size_pos; omega)
      unfold idx
      rw [Int.toNat_of_nonneg h0]
      exact (dvd_neg.2 (Int.dvd_self_sub_emod (x := (start.toNat : ℤ) + j) (m := b.size))).trans
        (by rw [neg_sub])
    rw [b.get_congr hdvd]
    exact hj.2
  · intro i hi j hj h
    rw [Finset.mem_filter, Finset.mem_range] at hi hj
    exact b.idx_add_inj _ hi.1 hj.1 h
  · intro i hi
    rw [Finset.mem_filter, Finset.mem_range] at hi
    obtain ⟨j, hj, hij⟩ := b.exists_offset start.toNat i
    have hidx : b.idx (i : ℕ) = i := SlotRing.pos_natCast hi.1
    refine ⟨j, ?_, by rw [← hij, hidx]⟩
    rw [Finset.mem_filter, Finset.mem_range]
    refine ⟨hj, ?_⟩
    rw [← b.get_congr ((b.idx_eq_iff _ _).1 hij)]
    exact hi.2

theorem toNat_offset (start : UInt16) {j : ℕ} (hj : j < 2 ^ 16) :
    (start + UInt16.ofNat j - start).toNat = j := by
  have h : start + UInt16.ofNat j - start = UInt16.ofNat j := by grind
  rw [h, UInt16.toNat_ofNat', Nat.mod_eq_of_lt hj]

theorem slot_add_zero (b : SequenceBuffer α) (q : UInt16) :
    b.slot (q + UInt16.ofNat 0) = b.slot q := by
  rw [show q + UInt16.ofNat 0 = q by rw [show UInt16.ofNat 0 = 0 from rfl]; grind]

/-- Writing a slot changes the count by that slot. -/
theorem occupied_setSlot (b : SequenceBuffer α) (q : UInt16) (x : Option α) :
    (b.setSlot q x).occupied + (if (b.slot q).isSome then 1 else 0) =
      b.occupied + if x.isSome then 1 else 0 := by
  rw [occupied_eq_sum _ q, b.occupied_eq_sum q, size_setSlot]
  obtain ⟨n, hn⟩ := Nat.exists_eq_succ_of_ne_zero b.size_pos.ne'
  have hle := b.size_le
  rw [hn, Finset.sum_range_succ', Finset.sum_range_succ', slot_add_zero, slot_add_zero,
    slot_setSlot_self]
  have hrest : ∀ j ∈ Finset.range n,
      (if ((b.setSlot q x).slot (q + UInt16.ofNat (j + 1))).isSome then 1 else 0) =
        if (b.slot (q + UInt16.ofNat (j + 1))).isSome then 1 else 0 := by
    intro j hj
    rw [Finset.mem_range] at hj
    have hne : ¬ b.Same q (q + UInt16.ofNat (j + 1)) := by
      intro hs
      have hoff := toNat_offset q (show j + 1 < 2 ^ 16 by omega)
      have h0 : (q - q).toNat = 0 := by simp
      have := hs.eq (s := q) (by omega) (by omega)
      rw [← this, h0] at hoff
      omega
    rw [slot_setSlot, if_neg hne]
  rw [Finset.sum_congr rfl hrest]
  omega

/-- Growing loses no element. -/
theorem occupied_ensureSize (b : SequenceBuffer α) (item index : UInt16) :
    (b.ensureSize item.toNat index).occupied = b.occupied := by
  obtain ⟨hge, -⟩ := b.size_ensureSize item.toNat index
  have hle := (b.ensureSize item.toNat index).size_le
  rw [occupied_eq_sum _ (item - index), b.occupied_eq_sum (item - index)]
  rw [← Finset.sum_subset (Finset.range_mono hge)]
  · refine Finset.sum_congr rfl fun j hj => ?_
    rw [Finset.mem_range] at hj
    have hoff := toNat_offset (item - index) (show j < 2 ^ 16 by omega)
    rw [b.slot_ensureSize item index _ (by omega)]
  · intro j hj hn
    rw [Finset.mem_range] at hj hn
    have hoff := toNat_offset (item - index) (show j < 2 ^ 16 by omega)
    rw [b.slot_ensureSize_none item index _ (by omega) (by omega)]
    rfl

theorem slot_of_occupied_zero {b : SequenceBuffer α} (h : b.occupied = 0) (q : UInt16) :
    b.slot q = none := by
  rw [b.occupied_eq_sum q, Finset.sum_eq_zero_iff] at h
  have := h 0 (Finset.mem_range.2 b.size_pos)
  rw [slot_add_zero] at this
  by_contra hne
  rw [if_pos (Option.isSome_iff_ne_none.2 hne)] at this
  cases this

theorem occupied_initialized (lg : ℕ) (h : 0 < lg) (h' : lg ≤ 16) :
    (initialized lg h h' : SequenceBuffer α).occupied = 0 := by
  rw [occupied, Finset.card_eq_zero, Finset.filter_eq_empty_iff]
  intro j _
  rw [get_initialized]
  simp

theorem occupied_lt {b : SequenceBuffer α} {q : UInt16} (h : b.slot q = none) :
    b.occupied < b.size := by
  obtain ⟨n, hn⟩ := Nat.exists_eq_succ_of_ne_zero b.size_pos.ne'
  rw [b.occupied_eq_sum q, hn, Finset.sum_range_succ', slot_add_zero, h, ← Finset.card_filter]
  have := Finset.card_filter_le (Finset.range n)
    fun j => (b.slot (q + UInt16.ofNat (j + 1))).isSome
  rw [Finset.card_range] at this
  simp only [Option.isSome_none, Bool.false_eq_true, if_false]
  omega

end SequenceBuffer

end Utp
