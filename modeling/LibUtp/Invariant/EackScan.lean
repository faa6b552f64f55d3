import LibUtp.Invariant.FastResend

/-! The scan of an EACK bitmap, bit by bit: what it counts, what it takes out of the ring and what
it puts on the list of resends. -/

namespace Utp

open Lts SequenceBuffer

namespace UtpSocket

variable (env : Env) {s : UtpSocket} {base : ℤ} {mask : Bytes}

/-- One round of the scan: it looks at the bit before `n`. -/
def eackStep (base : ℤ) (mask : Bytes) (a : ℕ × List ℤ × UtpSocket) (n : ℕ) : ℕ × List ℤ × UtpSocket :=
  let bits : ℤ := (n : ℤ) - 1
  let v := base + bits
  let s := a.2.2
  if s.inEackWindow v then
    let count := if maskBit mask bits then a.1 + 1 else a.1
    match (s.send.outbuf.get v).filter fun p => 0 < p.transmissions with
    | none => (count, a.2.1, s)
    | some _ =>
      if maskBit mask bits then
        let s := s.assert (s.send.outbuf.idx v ≠ s.send.outbuf.idx s.headIdx) .eackHead
        (count, a.2.1, (s.ackPacket env (UInt16.ofInt v)).2)
      else if s.fastResend v count then (count, pushResend a.2.1 v, s)
      else (count, a.2.1, s)
  else a

theorem eackLoop_succ (base : ℤ) (mask : Bytes) (n count : ℕ) (resends : List ℤ) (s : UtpSocket) :
    s.eackLoop env base mask (n + 1) count resends =
      (eackStep env base mask (count, resends, s) n).2.2.eackLoop env base mask n
        (eackStep env base mask (count, resends, s) n).1
        (eackStep env base mask (count, resends, s) n).2.1 := by
  rw [eackLoop]
  unfold eackStep
  dsimp only
  by_cases hw : s.inEackWindow (base + ((n : ℤ) - 1))
  · rw [if_pos hw, if_pos hw]
    cases (s.send.outbuf.get (base + ((n : ℤ) - 1))).filter fun p => 0 < p.transmissions with
    | none => rfl
    | some p =>
      dsimp only
      split_ifs <;> rfl
  · rw [if_neg hw, if_neg hw]

/-- The scan goes down from the top bit. -/
theorem eackLoop_eq (base : ℤ) (mask : Bytes) (n count : ℕ) (resends : List ℤ) (s : UtpSocket) :
    s.eackLoop env base mask n count resends =
      (List.range n).reverse.foldl (eackStep env base mask) (count, resends, s) := by
  induction n generalizing count resends s with
  | zero => rfl
  | succ n ih =>
    rw [eackLoop_succ, ih, List.range_succ, List.reverse_append, List.reverse_singleton,
      List.singleton_append, List.foldl_cons]

/-- The bits from `n` on that are set and stand for packets of the window. -/
def marks (s : UtpSocket) (base : ℤ) (mask : Bytes) (n : ℕ) : ℕ :=
  (List.range' n (8 * mask.length - n)).countP fun b : ℕ => maskBit mask b && s.inEackWindow (base + b)

/-- The bit that stands for the packet. -/
def bitOf (base : ℤ) (p : OutgoingPacket) : ℕ := (p.hdr.seqNr - UInt16.ofInt base).toNat

/-- The packet was sent, lies behind the head of the window and is marked. -/
def sacked (s : UtpSocket) (base : ℤ) (mask : Bytes) (p : OutgoingPacket) : Bool :=
  0 < p.transmissions && s.inEackWindow (base + bitOf base p) && maskBit mask (bitOf base p)

/-- Three marked packets of the window lie behind the sent packet `v`, which is not marked. -/
def Lost (s : UtpSocket) (base : ℤ) (mask : Bytes) (v : ℤ) : Prop :=
  ∃ n : ℕ, v = base + (n - 1) ∧ s.inEackWindow v ∧ maskBit mask (n - 1) = false ∧
    DUPLICATE_ACKS_BEFORE_RESEND ≤ s.marks base mask n ∧
    ∃ p, s.kernel.outbuf.slot (UInt16.ofInt v) = some p ∧ p.hdr.seqNr = UInt16.ofInt v ∧
      0 < p.transmissions

/-- The scan of `s` when `n` rounds are left. -/
structure Scan (s : UtpSocket) (base : ℤ) (mask : Bytes) (n : ℕ) (a : ℕ × List ℤ × UtpSocket) :
    Prop where
  place : SamePlace s a.2.2
  size : a.2.2.kernel.outbuf.size = s.kernel.outbuf.size
  count : a.1 = s.marks base mask (n - 1)
  slots : ∀ q, a.2.2.kernel.outbuf.slot q =
    (s.kernel.outbuf.slot q).filter fun p => !(s.sacked base mask p && n ≤ bitOf base p + 1)
  resends : ∀ v ∈ a.2.1, s.Lost base mask v
  length : a.2.1.length ≤ MAX_EACK - 2

theorem marks_step (s : UtpSocket) (base : ℤ) {mask : Bytes} {n : ℕ} (hn : n < 8 * mask.length) :
    s.marks base mask n = s.marks base mask (n + 1) +
      if maskBit mask n && s.inEackWindow (base + n) then 1 else 0 := by
  unfold marks
  rw [show 8 * mask.length - n = 8 * mask.length - (n + 1) + 1 by omega, List.range'_succ,
    List.countP_cons]

theorem marks_top (s : UtpSocket) (base : ℤ) {mask : Bytes} {n : ℕ} (hn : 8 * mask.length ≤ n) :
    s.marks base mask n = 0 := by
  unfold marks
  rw [Nat.sub_eq_zero_of_le hn]
  rfl

/-- The count after the bit before `n`. -/
theorem marks_pred (s : UtpSocket) (base : ℤ) (mask : Bytes) (n : ℕ) :
    s.marks base mask (n - 1) = s.marks base mask n +
      if maskBit mask ((n : ℤ) - 1) && s.inEackWindow (base + ((n : ℤ) - 1)) then 1 else 0 := by
  cases n with
  | zero =>
    have hb : maskBit mask (((0 : ℕ) : ℤ) - 1) = false := rfl
    rw [hb]
    rfl
  | succ n =>
    rw [show ((n + 1 : ℕ) : ℤ) - 1 = n by omega, Nat.add_sub_cancel]
    by_cases hn : n < 8 * mask.length
    · exact marks_step s base hn
    · have hb : maskBit mask n = false := by
        refine Bool.eq_false_iff.2 fun h => ?_
        obtain ⟨m, he, hm⟩ := maskBit_range h
        omega
      rw [marks_top s base (not_lt.1 hn), marks_top s base (by omega), hb]
      rfl

theorem ofInt_bitOf (base : ℤ) (p : OutgoingPacket) :
    UInt16.ofInt (base + bitOf base p) = p.hdr.seqNr := by
  apply UInt16.toNat.inj
  have h₁ := toNat_ofInt (base + bitOf base p)
  have h₂ := toNat_ofInt base
  have h₃ := p.hdr.seqNr.toNat_lt
  have h₄ := (UInt16.ofInt base).toNat_lt
  unfold bitOf at *
  rw [UInt16.toNat_sub] at *
  omega

theorem bitOf_eq {p : OutgoingPacket} {b : ℕ} (h : p.hdr.seqNr = UInt16.ofInt (base + b))
    (hb : b < 2 ^ 16) : bitOf base p = b := by
  have h₁ := toNat_ofInt (base + b)
  have h₂ := toNat_ofInt base
  have h₄ := (UInt16.ofInt base).toNat_lt
  unfold bitOf
  rw [h, UInt16.toNat_sub]
  omega

theorem sacked_iff {p : OutgoingPacket} : s.sacked base mask p ↔
    0 < p.transmissions ∧ s.inEackWindow (base + bitOf base p) ∧ maskBit mask (bitOf base p) := by
  unfold sacked
  rw [Bool.and_eq_true, Bool.and_eq_true, decide_eq_true_eq, and_assoc]

theorem length_pushResend {resends : List ℤ} (h : resends.length ≤ MAX_EACK - 2) (v : ℤ) :
    (pushResend resends v).length ≤ MAX_EACK - 2 := by
  unfold pushResend MAX_EACK at *
  split
  · rw [List.length_append, List.length_drop, List.length_singleton]
    omega
  · rw [List.length_append, List.length_singleton]
    omega

/-- `v` is the number of a packet in the slot of `v` that lies in the window. -/
theorem seqNr_of_eackWindow (hr : s.kernel.Ring) (hc : 0 < s.kernel.cur) {v : ℤ} (hw : s.inEackWindow v)
    {p : OutgoingPacket} (hp : s.kernel.outbuf.slot (UInt16.ofInt v) = some p) :
    p.hdr.seqNr = UInt16.ofInt v :=
  hr.seqNr_eq hp (((inEackWindow_kernel v s).1 hw).lt hc).1

/-- What the scan has taken out so far does not depend on a bit that marks no packet. -/
theorem Scan.slot_skip {n : ℕ} {a : ℕ × List ℤ × UtpSocket} (h : Scan s base mask (n + 1) a)
    {q : UInt16}
    (hn : ∀ p, s.kernel.outbuf.slot q = some p → s.sacked base mask p → bitOf base p + 1 ≠ n) :
    a.2.2.kernel.outbuf.slot q =
      (s.kernel.outbuf.slot q).filter fun p => !(s.sacked base mask p && n ≤ bitOf base p + 1) := by
  rw [h.slots]
  cases hp : s.kernel.outbuf.slot q with
  | none => rfl
  | some p =>
    have he : (s.sacked base mask p && n + 1 ≤ bitOf base p + 1) =
        (s.sacked base mask p && n ≤ bitOf base p + 1) := by
      cases hsa : s.sacked base mask p with
      | false => rfl
      | true =>
        have := hn p hp hsa
        simp only [Bool.true_and, decide_eq_decide]
        omega
    rw [Option.filter_some, Option.filter_some, he]

/-- The packet of the bit before `n`. -/
theorem sacked_bit {n : ℕ} {p : OutgoingPacket} (h : s.sacked base mask p) (hn : bitOf base p + 1 = n) :
    p.hdr.seqNr = UInt16.ofInt (base + ((n : ℤ) - 1)) ∧ 0 < p.transmissions ∧
      s.inEackWindow (base + ((n : ℤ) - 1)) ∧ maskBit mask ((n : ℤ) - 1) := by
  obtain ⟨ht, hw, hb⟩ := sacked_iff.1 h
  have he : (n : ℤ) - 1 = bitOf base p := by omega
  rw [he]
  exact ⟨(ofInt_bitOf base p).symm, ht, hw, hb⟩

/-- The round that finds a marked packet takes it out. -/
theorem Scan.slot_clear (hr : s.kernel.Ring) (hm : mask.length ≤ 255) {n : ℕ}
    {a : ℕ × List ℤ × UtpSocket} (h : Scan s base mask (n + 1) a)
    (hw : s.inEackWindow (base + ((n : ℤ) - 1))) (hb : maskBit mask ((n : ℤ) - 1)) {p : OutgoingPacket}
    (hp : s.kernel.outbuf.slot (UInt16.ofInt (base + ((n : ℤ) - 1))) = some p)
    (hq : p.hdr.seqNr = UInt16.ofInt (base + ((n : ℤ) - 1))) (ht : 0 < p.transmissions) (q : UInt16) :
    (a.2.2.kernel.outbuf.setSlot (UInt16.ofInt (base + ((n : ℤ) - 1))) none).slot q =
      (s.kernel.outbuf.slot q).filter fun p => !(s.sacked base mask p && n ≤ bitOf base p + 1) := by
  obtain ⟨b, he, hlt⟩ := maskBit_range hb
  rw [he] at hw hb hp hq ⊢
  rw [slot_setSlot]
  have hsame : a.2.2.kernel.outbuf.Same (UInt16.ofInt (base + b)) q ↔
      s.kernel.outbuf.Same (UInt16.ofInt (base + b)) q := by
    unfold SequenceBuffer.Same
    rw [h.size]
  by_cases hs : s.kernel.outbuf.Same (UInt16.ofInt (base + b)) q
  · have hbit : bitOf base p = b := bitOf_eq hq (by omega)
    have hsa : s.sacked base mask p := sacked_iff.2 ⟨ht, by rw [hbit]; exact hw, by rw [hbit]; exact hb⟩
    rw [if_pos (hsame.2 hs), ← hs.slot_eq, hp, Option.filter_some, hsa, hbit, decide_eq_true (by omega)]
    rfl
  · rw [if_neg (mt hsame.1 hs)]
    refine h.slot_skip fun p' hp' hsa hn => hs ?_
    have hq' := (sacked_bit hsa hn).1
    rw [he] at hq'
    rw [← hq']
    exact (hr.occupied q p' hp').2.symm

/-- A sent packet that the current slot still holds. -/
theorem Scan.slot_some {n : ℕ} {a : ℕ × List ℤ × UtpSocket} (h : Scan s base mask n a) {q : UInt16}
    {p : OutgoingPacket} (hp : a.2.2.kernel.outbuf.slot q = some p) : s.kernel.outbuf.slot q = some p := by
  rw [h.slots] at hp
  exact (Option.filter_eq_some_iff.1 hp).1

/-- The packet that a round skips because its slot is empty or it was never sent is not marked. -/
theorem Scan.none_marked (hr : s.kernel.Ring) {n : ℕ} {a : ℕ × List ℤ × UtpSocket}
    (h : Scan s base mask (n + 1) a)
    (hn : ((a.2.2.send.outbuf.get (base + ((n : ℤ) - 1))).filter fun p => 0 < p.transmissions) = none)
    {q : UInt16} {p : OutgoingPacket} (hp : s.kernel.outbuf.slot q = some p)
    (hsa : s.sacked base mask p) : bitOf base p + 1 ≠ n := by
  intro he
  obtain ⟨hq, ht, -, -⟩ := sacked_bit hsa he
  have hslot : a.2.2.kernel.outbuf.slot p.hdr.seqNr = some p := by
    rw [h.slots, hr.slot_seqNr hp, Option.filter_some, hsa, decide_eq_false (by omega)]
    rfl
  rw [get_eq_slot, ← hq] at hn
  have hslot : a.2.2.send.outbuf.slot p.hdr.seqNr = some p := hslot
  rw [hslot, Option.filter_some, decide_eq_true ht] at hn
  cases hn

theorem scan_step (hr : s.kernel.Ring) (hc : 0 < s.kernel.cur) (hm : mask.length ≤ 255) {n : ℕ}
    {a : ℕ × List ℤ × UtpSocket} (h : Scan s base mask (n + 1) a) :
    Scan s base mask n (eackStep env base mask a n) := by
  have hmarks := marks_pred s base mask n
  have hcount : a.1 = s.marks base mask n := h.count
  have hwin := h.place.inEackWindow (base + ((n : ℤ) - 1))
  unfold eackStep
  dsimp only
  split
  · rename_i hw
    rw [hwin] at hw
    rw [hw, Bool.and_true] at hmarks
    have hcount' : (if maskBit mask ((n : ℤ) - 1) then a.1 + 1 else a.1) = s.marks base mask (n - 1) := by
      rw [hmarks, ← hcount]
      split <;> rfl
    split
    · rename_i hn
      exact ⟨h.place, h.size, hcount', fun q => h.slot_skip fun p => h.none_marked hr hn, h.resends,
        h.length⟩
    · rename_i p hp
      rw [Option.filter_eq_some_iff, get_eq_slot] at hp
      have ht : 0 < p.transmissions := of_decide_eq_true hp.2
      have hslot := h.slot_some hp.1
      have hq := seqNr_of_eackWindow hr hc hw hslot
      split
      · rename_i hb
        rw [if_pos hb] at hcount'
        have hk := kernel_assert (a.2.2.send.outbuf.idx (base + ((n : ℤ) - 1)) ≠
          a.2.2.send.outbuf.idx a.2.2.headIdx) .eackHead a.2.2
        have hpl : SamePlace a.2.2 (a.2.2.assert (a.2.2.send.outbuf.idx (base + ((n : ℤ) - 1)) ≠
            a.2.2.send.outbuf.idx a.2.2.headIdx) .eackHead) :=
          .of_kernel env (r := true) (m := true) hk (beside_assert env _ _ rfl)
        generalize a.2.2.assert (a.2.2.send.outbuf.idx (base + ((n : ℤ) - 1)) ≠
          a.2.2.send.outbuf.idx a.2.2.headIdx) .eackHead = t at hk hpl ⊢
        have hcl := (ackPacket_acked env (s := t) (by rw [hk]; exact hp.1) ht).2.1
        refine ⟨h.place.trans (hpl.trans (samePlace_ackPacket env _ t)), ?_, hcount', ?_, h.resends,
          h.length⟩
        · rw [hcl, hk]
          exact h.size
        · intro q
          rw [hcl, hk]
          exact h.slot_clear hr hm hw hb hslot hq ht q
      · rename_i hb
        rw [if_neg hb] at hcount'
        have hskip (q : UInt16) := h.slot_skip (q := q) fun p _ hsa he => hb (sacked_bit hsa he).2.2.2
        split
        · rename_i hf
          unfold fastResend at hf
          rw [Bool.and_eq_true, decide_eq_true_eq, decide_eq_true_eq, hcount] at hf
          refine ⟨h.place, h.size, hcount', hskip, fun v hv => ?_, length_pushResend h.length _⟩
          rcases mem_pushResend hv with hv | rfl
          · exact h.resends v hv
          · exact ⟨n, rfl, hw, Bool.eq_false_iff.2 hb, hf.2, p, hslot, hq, ht⟩
        · exact ⟨h.place, h.size, hcount', hskip, h.resends, h.length⟩
  · rename_i hw
    rw [hwin] at hw
    rw [Bool.eq_false_iff.2 hw, Bool.and_false, if_neg Bool.false_ne_true, Nat.add_zero] at hmarks
    refine ⟨h.place, h.size, hcount.trans hmarks.symm, fun q => ?_, h.resends, h.length⟩
    exact h.slot_skip fun p _ hsa he => hw (sacked_bit hsa he).2.2.1

theorem scan_start (s : UtpSocket) (base : ℤ) (mask : Bytes) :
    Scan s base mask (8 * mask.length + 1) (0, [], s) where
  place := ⟨rfl, rfl, rfl⟩
  size := rfl
  count := (marks_top s base (le_refl _)).symm
  slots q := by
    cases hp : s.kernel.outbuf.slot q with
    | none => rfl
    | some p =>
      rw [Option.filter_some, if_pos]
      rw [Bool.not_eq_true', Bool.and_eq_false_iff, decide_eq_false_iff_not]
      refine or_iff_not_imp_left.2 fun hsa => ?_
      obtain ⟨m, he, hlt⟩ := maskBit_range (sacked_iff.1 (Bool.not_eq_false _ ▸ hsa)).2.2
      omega
  resends := nofun
  length := Nat.zero_le _

variable (base) in
/-- The scan after its first `m` rounds. -/
theorem scan_take (hr : s.kernel.Ring) (hc : 0 < s.kernel.cur) (hm : mask.length ≤ 255) {m : ℕ}
    (hle : m ≤ 8 * mask.length + 1) : Scan s base mask (8 * mask.length + 1 - m)
      (((List.range (8 * mask.length + 1)).reverse.take m).foldl (eackStep env base mask) (0, [], s)) := by
  induction m with
  | zero => exact scan_start s base mask
  | succ m ih =>
    have hlt : m < (List.range (8 * mask.length + 1)).reverse.length := by simpa using hle
    have h := ih (by omega)
    rw [show 8 * mask.length + 1 - m = 8 * mask.length + 1 - (m + 1) + 1 by omega] at h
    rw [← List.take_concat_get' _ _ hlt, List.foldl_append]
    have he : (List.range (8 * mask.length + 1)).reverse[m] = 8 * mask.length + 1 - (m + 1) := by
      simp
    rw [he]
    exact scan_step env hr hc hm h

variable (base) in
theorem scan_eackLoop (hr : s.kernel.Ring) (hc : 0 < s.kernel.cur) (hm : mask.length ≤ 255) :
    Scan s base mask 0 (s.eackLoop env base mask (8 * mask.length + 1) 0 []) := by
  have h := scan_take env base hr hc hm (le_refl _)
  rw [List.take_of_length_le (by simp), Nat.sub_self] at h
  rw [eackLoop_eq]
  exact h

end UtpSocket

end Utp
