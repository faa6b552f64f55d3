import LibUtp.SequenceBuffer

/-! `utp::SequenceBuffer` on `size_t` indices, as the class stands: any size, any item and index.
The ring of the sockets is the part of it that 16-bit numbers reach. -/

namespace Utp

open SlotRing

/-- A vector of slots and the mask of its indices. A default buffer has neither. -/
structure RawBuffer (α : Type) where
  buf : List (Option α) := []
  mask : UInt64 := 0

namespace RawBuffer

variable {α : Type}

def get (b : RawBuffer α) (seq : UInt64) : Option α :=
  if b.mask = 0 then none else (b.buf[(seq &&& b.mask).toNat]?).join

def put (b : RawBuffer α) (seq : UInt64) (data : Option α) : RawBuffer α :=
  { b with buf := b.buf.set (seq &&& b.mask).toNat data }

def take (b : RawBuffer α) (seq : UInt64) : Option α × RawBuffer α :=
  if b.mask = 0 then (none, b)
  else ((b.buf[(seq &&& b.mask).toNat]?).join, { b with buf := b.buf.set (seq &&& b.mask).toNat none })

/-- `do new_size *= 2; while (index >= new_size);`, at most `fuel` rounds of it. -/
def doubled : ℕ → UInt64 → UInt64 → Option UInt64
  | 0, _, _ => none
  | fuel + 1, newSize, index =>
    if newSize * 2 ≤ index then doubled fuel (newSize * 2) index else some (newSize * 2)

/-- One pass of the loop that migrates the slots: the old vector gives its element to the new one. -/
def migrateSlot (start mask newMask : UInt64) (p : List (Option α) × List (Option α)) (i : ℕ) :
    List (Option α) × List (Option α) :=
  let seq := start + UInt64.ofNat i
  (p.1.set (seq &&& mask).toNat none,
    p.2.set (seq &&& newMask).toNat (p.1[(seq &&& mask).toNat]?).join)

/-- There is no result when the size has not passed `index` after `fuel` doublings. -/
def grow (fuel : ℕ) (b : RawBuffer α) (item index : UInt64) : Option (RawBuffer α) :=
  (doubled fuel (if b.mask + 1 = 0 then 1 else b.mask + 1) index).map fun newSize =>
    let newBuf := List.replicate newSize.toNat none
    { buf :=
        if 0 < b.mask ∨ 0 < b.buf.length then
          ((List.range (b.mask.toNat + 1)).foldl (migrateSlot (item - index) b.mask (newSize - 1))
            (b.buf, newBuf)).2
        else newBuf
      mask := newSize - 1 }

def ensureSize (fuel : ℕ) (b : RawBuffer α) (item index : UInt64) : Option (RawBuffer α) :=
  if b.mask < index then grow fuel b item index else some b

def initialized (size : UInt64) : RawBuffer α where
  buf := List.replicate size.toNat none
  mask := size - 1

/-- A buffer of `2 ^ lg` slots, at least two. -/
structure Sized (lg : ℕ) (b : RawBuffer α) : Prop where
  lg_pos : 0 < lg
  lg_lt : lg < 64
  mask : b.mask.toNat = 2 ^ lg - 1
  length : b.buf.length = 2 ^ lg

variable {lg : ℕ} {b : RawBuffer α}

/-! The masked number is the position in the ring. -/

theorem and_mask {mask : UInt64} (hm : mask.toNat = 2 ^ lg - 1) (seq : UInt64) :
    (seq &&& mask).toNat = pos (2 ^ lg) seq.toNat := by
  rw [UInt64.toNat_and, hm, Nat.and_two_pow_sub_one_eq_mod]
  unfold pos
  rw [← Int.natCast_emod, Int.toNat_natCast]

/-- The underflow of `item - index` is a multiple of every size. -/
theorem pos_start (hlg : lg ≤ 64) (item index : UInt64) (i : ℕ) :
    pos (2 ^ lg) (item - index + UInt64.ofNat i).toNat = pos (2 ^ lg) (item.toNat - index.toNat + i) := by
  have hdvd : ((2 ^ lg : ℕ) : ℤ) ∣ 2 ^ 64 := by exact_mod_cast Nat.pow_dvd_pow 2 hlg
  rw [pos_eq_iff (Nat.two_pow_pos lg)]
  refine hdvd.trans ?_
  have := index.toNat_lt
  rw [UInt64.toNat_add, UInt64.toNat_sub, UInt64.toNat_ofNat']
  omega

theorem Sized.length_pos (h : b.Sized lg) : 0 < b.buf.length := by
  rw [h.length]
  exact Nat.two_pow_pos lg

theorem Sized.mask_ne (h : b.Sized lg) : b.mask ≠ 0 := by
  intro h0
  have hm := h.mask
  have := Nat.pow_le_pow_right (n := 2) (by omega) h.lg_pos
  rw [h0, UInt64.toNat_zero] at hm
  omega

theorem Sized.get_eq (h : b.Sized lg) (seq : UInt64) : b.get seq = peek b.buf seq.toNat := by
  unfold get peek
  rw [if_neg h.mask_ne, and_mask h.mask, h.length]

theorem Sized.put_eq (h : b.Sized lg) (seq : UInt64) (x : Option α) :
    b.put seq x = { b with buf := poke b.buf seq.toNat x } := by
  unfold put poke
  rw [and_mask h.mask, h.length]

theorem Sized.take_eq (h : b.Sized lg) (seq : UInt64) : b.take seq = (b.get seq, b.put seq none) := by
  unfold take get put
  rw [if_neg h.mask_ne, if_neg h.mask_ne]

theorem Sized.put (h : b.Sized lg) (seq : UInt64) (x : Option α) : (b.put seq x).Sized lg := by
  rw [h.put_eq]
  exact ⟨h.lg_pos, h.lg_lt, h.mask, by rw [← h.length]; exact length_poke ..⟩

theorem sized_initialized {size : UInt64} (h₀ : 0 < lg) (h₁ : lg < 64) (hs : size.toNat = 2 ^ lg) :
    (initialized size : RawBuffer α).Sized lg := by
  refine ⟨h₀, h₁, ?_, ?_⟩
  · show (size - 1).toNat = _
    have := Nat.two_pow_pos lg
    rw [UInt64.toNat_sub_of_le _ _ (UInt64.le_iff_toNat_le.2 (by rw [UInt64.toNat_one]; omega)), hs,
      UInt64.toNat_one]
  · show (List.replicate size.toNat none).length = _
    rw [List.length_replicate, hs]

/-- In a buffer of at most `2 ^ 16` slots `2 ^ 16` is a multiple of the size. -/
theorem pos_add_wrap (hlg : lg ≤ 16) (seq : UInt64) :
    pos (2 ^ lg) (seq + 65536).toNat = pos (2 ^ lg) seq.toNat := by
  have hdvd : ((2 ^ lg : ℕ) : ℤ) ∣ 2 ^ 16 := by exact_mod_cast Nat.pow_dvd_pow 2 hlg
  rw [pos_eq_iff (Nat.two_pow_pos lg)]
  refine hdvd.trans ?_
  rw [UInt64.toNat_add, show (65536 : UInt64).toNat = 65536 from rfl]
  omega

/-! The doubling loop. -/

theorem toNat_mul_two {a : UInt64} {k : ℕ} (hk : k < 63) (ha : a.toNat = 2 ^ k) :
    (a * 2).toNat = 2 ^ (k + 1) := by
  have := Nat.pow_lt_pow_right (a := 2) (by omega) (show k + 1 < 64 by omega)
  rw [UInt64.toNat_mul, ha, show (2 : UInt64).toNat = 2 from rfl, ← Nat.pow_succ, Nat.mod_eq_of_lt this]

/-- Below `2 ^ 63` the doubling ends at the least power of two above `index`. -/
theorem doubled_spec {index : UInt64} (hi : index.toNat < 2 ^ 63) (rounds : ℕ) {k : ℕ} {a : UInt64}
    (hk : k + rounds = 62) (ha : a.toNat = 2 ^ k) :
    ∃ m n, k < m ∧ m < 64 ∧ n.toNat = 2 ^ m ∧ index.toNat < 2 ^ m ∧
      (∀ i, k < i → index.toNat < 2 ^ i → m ≤ i) ∧
      ∀ fuel, rounds < fuel → doubled fuel a index = some n := by
  induction rounds generalizing k a with
  | zero =>
    have h2 := toNat_mul_two (by omega) ha
    rw [show k = 62 by omega] at h2
    refine ⟨63, a * 2, by omega, by omega, h2, hi, by omega, fun fuel hf => ?_⟩
    obtain ⟨fuel, rfl⟩ := Nat.exists_eq_succ_of_ne_zero hf.ne'
    rw [doubled, if_neg]
    rw [UInt64.le_iff_toNat_le, h2]
    omega
  | succ rounds ih =>
    have h2 := toNat_mul_two (by omega) ha
    by_cases hlt : index.toNat < 2 ^ (k + 1)
    · refine ⟨k + 1, a * 2, by omega, by omega, h2, hlt, fun i hi _ => hi, fun fuel hf => ?_⟩
      obtain ⟨fuel, rfl⟩ := Nat.exists_eq_succ_of_ne_zero (Nat.ne_of_gt (Nat.zero_lt_of_lt hf))
      rw [doubled, if_neg]
      rw [UInt64.le_iff_toNat_le, h2]
      omega
    · obtain ⟨m, n, h₁, h₂, h₃, h₄, h₅, h₆⟩ := ih (by omega) h2
      refine ⟨m, n, by omega, h₂, h₃, h₄, fun i hi hi' => ?_, fun fuel hf => ?_⟩
      · have hne : i ≠ k + 1 := fun he => hlt (he ▸ hi')
        exact h₅ i (by omega) hi'
      · obtain ⟨fuel, rfl⟩ := Nat.exists_eq_succ_of_ne_zero (Nat.ne_of_gt (Nat.zero_lt_of_lt hf))
        rw [doubled, if_pos]
        · exact h₆ fuel (by omega)
        · rw [UInt64.le_iff_toNat_le, h2]
          omega

/-- From `2 ^ 63` on it never ends: the size overflows to zero. -/
theorem doubled_none {index : UInt64} (hi : 2 ^ 63 ≤ index.toNat) (fuel : ℕ) {a : UInt64}
    (ha : a = 0 ∨ ∃ k < 64, a.toNat = 2 ^ k) : doubled fuel a index = none := by
  induction fuel generalizing a with
  | zero => rfl
  | succ fuel ih =>
    have hnext : a * 2 = 0 ∨ ∃ k < 64, (a * 2).toNat = 2 ^ k := by
      rcases ha with rfl | ⟨k, hk, ha⟩
      · exact .inl rfl
      · rcases Nat.lt_or_ge k 63 with hk' | hk'
        · exact .inr ⟨k + 1, by omega, toNat_mul_two hk' ha⟩
        · refine .inl (UInt64.toNat.inj ?_)
          rw [UInt64.toNat_mul, ha, show k = 63 by omega]
          rfl
    have hle : a * 2 ≤ index := by
      rw [UInt64.le_iff_toNat_le]
      rcases hnext with h0 | ⟨k, hk, h2⟩
      · rw [h0]
        exact Nat.zero_le _
      · rw [h2]
        exact (Nat.pow_le_pow_right (by omega) (show k ≤ 63 by omega)).trans hi
    rw [doubled, if_pos hle]
    exact ih hnext

/-! Growing. -/

/-- The loop of `grow` moves the slots of one ring into another. -/
theorem foldl_migrateSlot {lg' : ℕ} {mask newMask : UInt64} (item index : UInt64)
    {p : List (Option α) × List (Option α)} (hlg : lg ≤ 64) (hlg' : lg' ≤ 64)
    (hm : mask.toNat = 2 ^ lg - 1) (hm' : newMask.toNat = 2 ^ lg' - 1) (hl : p.1.length = 2 ^ lg)
    (hl' : p.2.length = 2 ^ lg') (n : ℕ) :
    (List.range n).foldl (migrateSlot (item - index) mask newMask) p =
      migrate (item.toNat - index.toNat) n p := by
  induction n with
  | zero => rfl
  | succ n ih =>
    obtain ⟨h₁, h₂⟩ := length_migrate (item.toNat - index.toNat : ℤ) n p
    rw [List.range_succ, List.foldl_append, ih, migrate_succ]
    simp only [List.foldl_cons, List.foldl_nil]
    unfold migrateSlot moveSlot poke peek
    dsimp only
    rw [and_mask hm, and_mask hm', pos_start hlg, pos_start hlg', h₁, h₂, hl, hl']

/-- A grown buffer: the least size above the old one and `index`, with the old slots moved into it. -/
theorem Sized.grow (h : b.Sized lg) (item : UInt64) {index : UInt64} (hi : index.toNat < 2 ^ 63)
    (hlt : b.mask < index) :
    ∃ lg' b', b'.Sized lg' ∧ lg < lg' ∧ index.toNat < 2 ^ lg' ∧
      (∀ i, lg < i → index.toNat < 2 ^ i → lg' ≤ i) ∧ b'.buf = (migrate (item.toNat - index.toNat) b.buf.length
        (b.buf, List.replicate (2 ^ lg') none)).2 ∧
      ∀ fuel, 64 ≤ fuel → b.ensureSize fuel item index = some b' := by
  have hmask := h.mask
  have hpos := Nat.two_pow_pos lg
  have hlg : lg < 63 := by
    have hlt' := UInt64.lt_iff_toNat_lt.1 hlt
    rcases Nat.lt_or_ge lg 63 with hlg | hlg
    · exact hlg
    · have := Nat.pow_le_pow_right (n := 2) (by omega) hlg
      omega
  have hsize : (b.mask + 1).toNat = 2 ^ lg := by
    have := Nat.pow_lt_pow_right (a := 2) (by omega) h.lg_lt
    rw [UInt64.toNat_add, hmask, UInt64.toNat_one, Nat.sub_add_cancel hpos, Nat.mod_eq_of_lt this]
  have hsize0 : b.mask + 1 ≠ 0 := by
    intro h0
    rw [h0, UInt64.toNat_zero] at hsize
    omega
  obtain ⟨m, n, h₁, h₂, h₃, h₄, h₅, h₆⟩ := doubled_spec hi (62 - lg) (by omega) hsize
  have hn : (n - 1).toNat = 2 ^ m - 1 := by
    have := Nat.two_pow_pos m
    rw [UInt64.toNat_sub_of_le _ _ (UInt64.le_iff_toNat_le.2 (by rw [UInt64.toNat_one]; omega)), h₃,
      UInt64.toNat_one]
  have hfold := foldl_migrateSlot item index (p := (b.buf, List.replicate n.toNat none)) h.lg_lt.le
    h₂.le hmask hn h.length (by rw [List.length_replicate, h₃]) b.buf.length
  refine ⟨m, ⟨(migrate (item.toNat - index.toNat) b.buf.length
    (b.buf, List.replicate (2 ^ m) none)).2, n - 1⟩, ⟨by omega, h₂, hn, ?_⟩, h₁, h₄, h₅, rfl,
    fun fuel hf => ?_⟩
  · exact (length_migrate _ _ _).2.trans List.length_replicate
  · unfold ensureSize RawBuffer.grow
    rw [if_pos hlt, if_neg hsize0, h₆ fuel (by omega), Option.map_some]
    dsimp only
    rw [if_pos (.inr h.length_pos), hmask, Nat.sub_add_cancel hpos, ← h.length, hfold, h₃]

/-- Whatever fuel there is, `ensure_size` does not return for an index of `2 ^ 63` or more. -/
theorem Sized.ensureSize_none (h : b.Sized lg) (item : UInt64) {index : UInt64}
    (hi : 2 ^ 63 ≤ index.toNat) (fuel : ℕ) : b.ensureSize fuel item index = none := by
  have hpos := Nat.two_pow_pos lg
  have hle := Nat.pow_le_pow_right (n := 2) (by omega) (show lg ≤ 63 by have := h.lg_lt; omega)
  have hsize : (b.mask + 1).toNat = 2 ^ lg := by
    rw [UInt64.toNat_add, h.mask, UInt64.toNat_one, Nat.sub_add_cancel hpos, Nat.mod_eq_of_lt (by omega)]
  have hsize0 : b.mask + 1 ≠ 0 := by
    intro h0
    rw [h0, UInt64.toNat_zero] at hsize
    omega
  have hlt : b.mask < index := by
    rw [UInt64.lt_iff_toNat_lt, h.mask]
    omega
  unfold ensureSize RawBuffer.grow
  rw [if_pos hlt, if_neg hsize0, doubled_none hi fuel (.inr ⟨lg, h.lg_lt, hsize⟩)]
  rfl

/-- What `ensure_size` may do to a buffer: the slots from `item - index` on, as many as there were,
stay; the others are empty; the elements are the same ones. -/
structure Grown (item index : UInt64) (b b' : RawBuffer α) : Prop where
  sized : ∃ lg, b'.Sized lg ∧ index.toNat < 2 ^ lg
  get : ∀ j ≤ b.mask, b'.get (item - index + j) = b.get (item - index + j)
  get_none : ∀ seq, (∀ j ≤ b.mask, seq &&& b'.mask ≠ (item - index + j) &&& b'.mask) → b'.get seq = none
  perm : (b'.buf.filterMap id).Perm (b.buf.filterMap id)

/-- A masked number is one of the masked numbers from anywhere on. -/
theorem Sized.exists_offset (h : b.Sized lg) (item index seq : UInt64) :
    ∃ a < 2 ^ lg, pos (2 ^ lg) seq.toNat = pos (2 ^ lg) (item.toNat - index.toNat + (a : ℕ)) ∧
      seq &&& b.mask = (item - index + UInt64.ofNat a) &&& b.mask := by
  obtain ⟨a, ha, he⟩ := SlotRing.exists_offset (Nat.two_pow_pos lg) (item.toNat - index.toNat) seq.toNat
  refine ⟨a, ha, he, UInt64.toNat.inj ?_⟩
  rw [and_mask h.mask, and_mask h.mask, pos_start h.lg_lt.le, he]

theorem Sized.ofNat_le_mask (h : b.Sized lg) {a : ℕ} (ha : a < 2 ^ lg) : UInt64.ofNat a ≤ b.mask := by
  have := Nat.pow_lt_pow_right (a := 2) (by omega) h.lg_lt
  rw [UInt64.le_iff_toNat_le, h.mask, UInt64.toNat_ofNat']
  omega

theorem Sized.get_start (h : b.Sized lg) (item index : UInt64) (a : ℕ) :
    b.get (item - index + UInt64.ofNat a) = peek b.buf (item.toNat - index.toNat + a) := by
  rw [h.get_eq]
  apply peek_congr
  rw [h.length, pos_start h.lg_lt.le]

theorem Sized.grown_self (h : b.Sized lg) (item : UInt64) {index : UInt64} (hle : index ≤ b.mask) :
    Grown item index b b := by
  have hpos := Nat.two_pow_pos lg
  refine ⟨⟨lg, h, ?_⟩, fun _ _ => rfl, fun seq hseq => ?_, List.Perm.refl _⟩
  · have := UInt64.le_iff_toNat_le.1 hle
    rw [h.mask] at this
    omega
  · obtain ⟨a, ha, -, he⟩ := h.exists_offset item index seq
    exact absurd he (hseq _ (h.ofNat_le_mask ha))

theorem Sized.ensureSize (h : b.Sized lg) (item : UInt64) {index : UInt64} (hi : index.toNat < 2 ^ 63) :
    ∃ b', (∀ fuel, 64 ≤ fuel → b.ensureSize fuel item index = some b') ∧ Grown item index b b' := by
  by_cases hlt : b.mask < index
  · obtain ⟨lg', b', hs, hlg, hidx, -, hbuf, hret⟩ := h.grow item hi hlt
    have hle : 2 ^ lg ≤ 2 ^ lg' := Nat.pow_le_pow_right (by omega) hlg.le
    have hlen : b.buf.length ≤ 2 ^ lg' := by rw [h.length]; exact hle
    have hpeek {a : ℕ} (ha : a < 2 ^ lg') : b'.get (item - index + UInt64.ofNat a) =
        if a < 2 ^ lg then b.get (item - index + UInt64.ofNat a) else none := by
      rw [hs.get_start, h.get_start, hbuf, peek_migrate_replicate hlen ha, h.length]
    refine ⟨b', hret, ⟨lg', hs, hidx⟩, fun j hj => ?_, fun seq hseq => ?_, ?_⟩
    · have hj' : j.toNat < 2 ^ lg := by
        have := UInt64.le_iff_toNat_le.1 hj
        have := Nat.two_pow_pos lg
        rw [h.mask] at *
        omega
      have hget := hpeek (hj'.trans_le hle)
      rwa [if_pos hj', UInt64.ofNat_toNat] at hget
    · obtain ⟨a, ha, hpos, he⟩ := hs.exists_offset item index seq
      have hge : ¬ a < 2 ^ lg := fun ha' => hseq _ (h.ofNat_le_mask ha') he
      have hget := hpeek ha
      rw [if_neg hge, hs.get_start] at hget
      rw [hs.get_eq, ← hget]
      apply peek_congr
      rw [hs.length, hpos]
    · rw [hbuf]
      exact migrate_perm h.length_pos hlen
  · refine ⟨b, fun fuel _ => ?_, h.grown_self item (UInt64.not_lt.1 hlt)⟩
    unfold RawBuffer.ensureSize
    rw [if_neg hlt]

/-- Sequence numbers that differ by the wrap of 16 bits name the same slot. -/
structure Wraps (seq : UInt64) (b : RawBuffer α) : Prop where
  get : b.get (seq + 65536) = b.get seq
  put : ∀ x, b.put (seq + 65536) x = b.put seq x
  take : b.take (seq + 65536) = b.take seq

theorem Sized.wraps (h : b.Sized lg) (hlg : lg ≤ 16) (seq : UInt64) : b.Wraps seq := by
  have hpos : pos b.buf.length (seq + 65536).toNat = pos b.buf.length seq.toNat := by
    rw [h.length, pos_add_wrap hlg]
  have hget : b.get (seq + 65536) = b.get seq := by
    rw [h.get_eq, h.get_eq, peek_congr hpos]
  have hput (x : Option α) : b.put (seq + 65536) x = b.put seq x := by
    rw [h.put_eq, h.put_eq, poke_congr hpos]
  exact ⟨hget, hput, by rw [h.take_eq, h.take_eq, hget, hput]⟩

/-- A buffer of any size and content and any item: for an index below `2 ^ 63` the buffer returned
is larger than the index, and it has the old slots where they were and no others. From `2 ^ 63` on
there is no power of two to return. Up to `2 ^ 16` slots the 16-bit wrap of a number does not
matter. -/
theorem ensureSize_grows (h : b.Sized lg) (item index : UInt64) :
    (index.toNat < 2 ^ 63 → ∃ b', (∀ fuel, 64 ≤ fuel → b.ensureSize fuel item index = some b') ∧
        Grown item index b b') ∧
      (2 ^ 63 ≤ index.toNat → ∀ fuel, b.ensureSize fuel item index = none) ∧
      (lg ≤ 16 → ∀ seq, b.Wraps seq) :=
  ⟨h.ensureSize item, h.ensureSize_none item, h.wraps⟩

/-- Four numbers from 10 on, and room for a fifth. -/
theorem ensureSize_grows_ten : ∃ b', (((initialized 4 : RawBuffer ℕ).put 10 (some 10)).ensureSize 64 14 4) =
    some b' ∧ Grown 14 4 ((initialized 4).put 10 (some 10)) b' := by
  have h : ((initialized 4 : RawBuffer ℕ).put 10 (some 10)).Sized 2 :=
    (sized_initialized (by omega) (by omega) rfl).put 10 (some 10)
  obtain ⟨b', hret, hgrown⟩ := (ensureSize_grows h 14 4).1 (by decide)
  exact ⟨b', hret 64 le_rfl, hgrown⟩

/-- With an index of `2 ^ 63` the doubling runs past the largest power of two and never ends. -/
theorem not_ensureSize_grows : ¬ ∀ item index : UInt64, ∃ fuel b',
    (initialized 2 : RawBuffer ℕ).ensureSize fuel item index = some b' ∧
      Grown item index (initialized 2) b' := by
  intro hall
  have h : (initialized 2 : RawBuffer ℕ).Sized 1 := sized_initialized (by omega) (by omega) rfl
  obtain ⟨fuel, b', hret, -⟩ := hall 0 9223372036854775808
  rw [h.ensureSize_none 0 (by decide)] at hret
  cases hret

end RawBuffer

/-! The ring of the sockets. -/

namespace SequenceBuffer

open RawBuffer

variable {α : Type}

/-- The vector and the mask of a ring. -/
def raw (b : SequenceBuffer α) : RawBuffer α := ⟨b.buf, UInt64.ofNat b.mask⟩

theorem sized_raw (b : SequenceBuffer α) : b.raw.Sized b.lg := by
  have hle := b.lg_le
  have := b.size_le
  refine ⟨b.lg_pos, by omega, ?_, b.length_buf⟩
  show (UInt64.ofNat b.mask).toNat = _
  unfold mask
  rw [UInt64.toNat_ofNat', Nat.mod_eq_of_lt (by omega)]
  rfl

/-- An `int` converted to `size_t` keeps its position. -/
theorem pos_ofInt {lg : ℕ} (hlg : lg ≤ 64) (seq : ℤ) : pos (2 ^ lg) (UInt64.ofInt seq).toNat = pos (2 ^ lg) seq := by
  have hdvd : ((2 ^ lg : ℕ) : ℤ) ∣ 2 ^ 64 := by exact_mod_cast Nat.pow_dvd_pow 2 hlg
  rw [pos_eq_iff (Nat.two_pow_pos lg)]
  refine hdvd.trans ?_
  simp [UInt64.ofInt]
  omega

theorem get_raw (b : SequenceBuffer α) (seq : ℤ) : b.raw.get (UInt64.ofInt seq) = b.get seq := by
  rw [b.sized_raw.get_eq, get_eq_peek]
  apply peek_congr
  rw [b.sized_raw.length, pos_ofInt b.sized_raw.lg_lt.le]

theorem put_raw (b : SequenceBuffer α) (seq : ℤ) (x : Option α) :
    b.raw.put (UInt64.ofInt seq) x = (b.put seq x).raw := by
  have hbuf : poke b.buf (UInt64.ofInt seq).toNat x = (b.put seq x).buf := by
    rw [buf_put]
    apply poke_congr
    rw [b.length_buf, pos_ofInt b.sized_raw.lg_lt.le]
  rw [b.sized_raw.put_eq]
  unfold raw
  rw [← hbuf]
  rfl

theorem take_raw (b : SequenceBuffer α) (seq : ℤ) :
    b.raw.take (UInt64.ofInt seq) = ((b.take seq).1, (b.take seq).2.raw) := by
  rw [b.sized_raw.take_eq, get_raw, put_raw]
  rfl

theorem growLg_le_of_lt {fuel lg index i : ℕ} (hi : lg < i) (hlt : index < 2 ^ i) :
    growLg fuel lg index ≤ i := by
  induction fuel generalizing lg with
  | zero => exact hi.le
  | succ fuel ih =>
    unfold growLg
    split
    · exact hi
    · rename_i h
      refine ih (lt_of_le_of_ne hi ?_)
      intro he
      rw [he] at h
      exact h hlt

theorem lg_migrate (b nb : SequenceBuffer α) (start : ℤ) (n : ℕ) : (b.migrate start nb n).lg = nb.lg := by
  induction n with
  | zero => rfl
  | succ n ih =>
    unfold migrate at ih ⊢
    rw [List.range_succ, List.foldl_append]
    exact ih

/-- Every slot of a grown ring, counted from the first index that stays. -/
theorem peek_ensureSize (b : SequenceBuffer α) (item : ℤ) (index : UInt16) {a : ℕ}
    (ha : a < (b.ensureSize item index).size) :
    peek (b.ensureSize item index).buf (item - index.toNat + a) =
      if a < b.size then peek b.buf (item - index.toNat + a) else none := by
  rw [← get_eq_peek, ← get_eq_peek]
  split
  · exact b.get_ensureSize item index ‹_›
  · exact b.get_ensureSize_none item index (not_lt.1 ‹_›) ha

/-- The ring grows as the buffer does. -/
theorem ensureSize_raw (b : SequenceBuffer α) (item : ℤ) (index : UInt16) {fuel : ℕ} (hf : 64 ≤ fuel) :
    b.raw.ensureSize fuel (UInt64.ofInt item) index.toUInt64 = some (b.ensureSize item index).raw := by
  have hmask : b.raw.mask < index.toUInt64 ↔ b.mask < index.toNat := by
    rw [UInt64.lt_iff_toNat_lt, b.sized_raw.mask, UInt16.toNat_toUInt64]
    rfl
  by_cases h : b.mask < index.toNat
  · have hidx := index.toNat_lt
    obtain ⟨lg', b', hs, hlg, hlt, hleast, hbuf, hret⟩ := b.sized_raw.grow (UInt64.ofInt item)
      (show index.toUInt64.toNat < 2 ^ 63 by rw [UInt16.toNat_toUInt64]; omega) (hmask.2 h)
    rw [UInt16.toNat_toUInt64] at hlt hleast hbuf
    have hlgr : (b.ensureSize item index).lg = (b.grown index h).lg := by
      unfold ensureSize
      rw [dif_pos h]
      exact lg_migrate ..
    have hlg' : lg' = (b.ensureSize item index).lg := by
      rw [hlgr]
      exact le_antisymm (hleast _ (lt_growLg _ _ _) (b.grown_size index h).2) (growLg_le_of_lt hlg hlt)
    have hlen : b'.buf.length = 2 ^ lg' := hs.length
    have hsize : 2 ^ lg' = (b.ensureSize item index).size := by rw [hlg', size]
    have hle : b.raw.buf.length ≤ 2 ^ lg' := by
      rw [b.sized_raw.length]
      exact Nat.pow_le_pow_right (by omega) hlg.le
    rw [hret fuel hf]
    congr 1
    have hbuf' : b'.buf = (b.ensureSize item index).buf := by
      refine eq_of_peek (by rw [hlen]; exact Nat.two_pow_pos _) (by rw [hlen, hsize]; exact length_buf _)
        (item - index.toNat) fun a ha => ?_
      rw [hlen] at ha
      have hpos {lg : ℕ} (hlg : lg ≤ 64) : pos (2 ^ lg) (item - index.toNat + a) =
          pos (2 ^ lg) ((UInt64.ofInt item).toNat - index.toNat + a) := by
        have hd := (pos_eq_iff (Nat.two_pow_pos lg)).1 (pos_ofInt hlg item)
        rw [pos_eq_iff (Nat.two_pow_pos lg), dvd_sub_comm]
        have hsub : ((UInt64.ofInt item).toNat - index.toNat + a : ℤ) - (item - index.toNat + a) =
            (UInt64.ofInt item).toNat - item := by ring
        rwa [hsub]
      rw [b.peek_ensureSize item index (hsize ▸ ha)]
      have hread := @peek_migrate_replicate _ _ _ ((UInt64.ofInt item).toNat - index.toNat) hle a ha
      rw [← hbuf, b.sized_raw.length] at hread
      have hl : peek b'.buf (item - index.toNat + a) =
          peek b'.buf ((UInt64.ofInt item).toNat - index.toNat + a) := by
        apply peek_congr
        rw [hlen, hpos hs.lg_lt.le]
      have hr : peek b.buf (item - index.toNat + a) =
          peek b.buf ((UInt64.ofInt item).toNat - index.toNat + a) := by
        apply peek_congr
        rw [b.length_buf, hpos b.sized_raw.lg_lt.le]
      rw [hl, hr]
      exact hread
    have hmask' : b'.mask = UInt64.ofNat (b.ensureSize item index).mask := by
      apply UInt64.toNat.inj
      rw [hs.mask, hlg']
      exact (sized_raw _).mask.symm
    unfold raw
    rw [← hbuf', ← hmask']
  · unfold RawBuffer.ensureSize ensureSize
    rw [if_neg (mt hmask.1 h), dif_neg h]

end SequenceBuffer
end Utp
