import LibUtp.Invariant.EackResends

/-! The bytes that a packet acknowledges, as `process_acks` counts them, and the packets that leave
the ring in the same call. -/

namespace Utp

open Lts SequenceBuffer

namespace Kernel

variable {k k' : Kernel} {acts : List Act} {n i : ℕ}

/-- `j` numbers have left the window at its head, `n` of its packets being acknowledged. -/
structure Popped (n : ℕ) (k k' : Kernel) (j : ℕ) : Prop where
  le : j ≤ k.cur.toNat
  seqNr : k'.seqNr = k.seqNr
  cur : k'.cur.toNat = k.cur.toNat - j
  sent : ∀ i < j, i < n → ∀ p, k.outbuf.slot (k.nth i) = some p → 0 < p.transmissions
  empty : ∀ i < j, n ≤ i → k.outbuf.slot (k.nth i) = none
  stop : j < k.cur.toNat → ∃ p, k.outbuf.slot (k.nth j) = some p ∧ (j < n → p.transmissions = 0)
  slots : ∀ q, k'.outbuf.slot q =
    (k.outbuf.slot q).filter fun p => j ≤ (p.hdr.seqNr - k.head).toNat

/-- The head has left the ring as well. -/
def behead (k : Kernel) (b : SequenceBuffer OutgoingPacket) (f : ℕ) : Kernel :=
  { k.pop with outbuf := b, inFlight := f }

/-- Behind the head nothing has changed. -/
theorem slot_behead (hr : k.Ring) {b : SequenceBuffer OutgoingPacket} (f : ℕ)
    (hslot : ∀ q, b.slot q = (k.outbuf.slot q).filter fun p => p.hdr.seqNr ≠ k.head)
    (hi : i + 1 < k.cur.toNat) :
    (k.behead b f).outbuf.slot ((k.behead b f).nth i) = k.outbuf.slot (k.nth (i + 1)) := by
  show b.slot (k.pop.nth i) = _
  rw [nth_pop, hslot]
  cases hp : k.outbuf.slot (k.nth (i + 1)) with
  | none => rfl
  | some p =>
    have hoff := hr.offset_nth hi hp
    have hne : p.hdr.seqNr ≠ k.head := by
      intro he
      rw [he, show k.head - k.head = 0 by grind] at hoff
      exact absurd hoff (by simp)
    rw [Option.filter_some, decide_eq_true hne]
    rfl

/-- One number more has left in front of `j` others. -/
theorem Popped.cons {j : ℕ} {b : SequenceBuffer OutgoingPacket} {f : ℕ} (hr : k.Ring) (hc : 0 < k.cur)
    (hslot : ∀ q, b.slot q = (k.outbuf.slot q).filter fun p => p.hdr.seqNr ≠ k.head)
    (hs : n ≠ 0 → ∀ p, k.headSlot = some p → 0 < p.transmissions) (he : n = 0 → k.headSlot = none)
    (h : Popped (n - 1) (k.behead b f) k' j) : Popped n k k' (j + 1) := by
  have hpred := UtpSocket.toNat_pred hc
  have hcur : (k.behead b f).cur.toNat = k.cur.toNat - 1 := hpred
  have hpos : 0 < k.cur.toNat := UInt16.lt_iff_toNat_lt.1 hc
  have hle := h.le
  have hstep {i : ℕ} (hi : i + 1 < k.cur.toNat) := slot_behead hr f hslot hi
  refine ⟨by omega, h.seqNr, by rw [h.cur, hcur]; omega, fun i hi hn p hp => ?_, fun i hi hn => ?_,
    fun hj => ?_, fun q => ?_⟩
  · cases i with
    | zero =>
      rw [nth_zero] at hp
      exact hs (by omega) p hp
    | succ i =>
      rw [← hstep (by omega)] at hp
      exact h.sent i (by omega) (by omega) p hp
  · cases i with
    | zero =>
      rw [nth_zero]
      exact he (by omega)
    | succ i =>
      rw [← hstep (by omega)]
      exact h.empty i (by omega) (by omega)
  · obtain ⟨p, hp, ht⟩ := h.stop (by omega)
    rw [hstep hj] at hp
    exact ⟨p, hp, fun hn => ht (by omega)⟩
  · rw [h.slots, show (k.behead b f).outbuf.slot q = _ from hslot q]
    cases hp : k.outbuf.slot q with
    | none => rfl
    | some p =>
      have hhead : (k.behead b f).head = k.head + 1 := k.head_pop
      rw [Option.filter_some, Option.filter_some]
      by_cases heq : p.hdr.seqNr = k.head
      · rw [if_neg (by simpa using heq), if_neg]
        · rfl
        · rw [heq, show k.head - k.head = 0 by grind]
          simp
      · have hoff : (p.hdr.seqNr - k.head).toNat = (p.hdr.seqNr - (k.head + 1)).toNat + 1 := by
          have := UtpSocket.toNat_pred (a := p.hdr.seqNr - k.head) (by grind)
          rw [show p.hdr.seqNr - (k.head + 1) = p.hdr.seqNr - k.head - 1 by grind]
          have hpos' : 0 < (p.hdr.seqNr - k.head).toNat := by
            refine Nat.pos_of_ne_zero fun h0 => heq ?_
            have : p.hdr.seqNr - k.head = 0 := UInt16.toNat.inj h0
            grind
          omega
        rw [if_pos (by simpa using heq), Option.filter_some, hhead, hoff]
        simp only [Nat.add_le_add_iff_right]

/-- The advance takes out the packets at the head, up to the first that stays. -/
theorem Pops.popped (hp : Pops n k acts k') (hr : k.Ring) : ∃ j, Popped n k k' j := by
  induction hp with
  | done h =>
    refine ⟨0, Nat.zero_le _, rfl, rfl, nofun, nofun, fun hc => ?_, fun q => ?_⟩
    · rcases h with h | ⟨p, hp, ht⟩
      · rw [h] at hc
        exact absurd hc (by decide)
      · exact ⟨p, by rw [nth_zero]; exact hp, ht⟩
    · cases hq : SequenceBuffer.slot _ q with
      | none => rfl
      | some p => rfl
  | @acked n k p acts k' hcur hp ht _ ih =>
    obtain ⟨j, h⟩ := ih ((hr.clear hp ht).pop hcur (slot_setSlot_self _ _ _))
    refine ⟨j + 1, Popped.cons (f := k.freed p) (b := k.outbuf.setSlot k.head none) hr hcur (fun q => ?_)
      (fun _ p' hp' => ?_) nofun h⟩
    · rw [slot_setSlot]
      split
      · rename_i hs
        have hslot : k.outbuf.slot q = some p := hs.slot_eq.symm.trans hp
        have hq : p.hdr.seqNr = k.head := hr.seqNr_eq hp (by grind)
        rw [hslot, Option.filter_some, if_neg (by simpa using hq)]
      · rename_i hs
        cases hq : k.outbuf.slot q with
        | none => rfl
        | some p' =>
          have hne : p'.hdr.seqNr ≠ k.head := fun he => hs (he ▸ (hr.occupied q p' hq).2).symm
          rw [Option.filter_some, if_pos (by simpa using hne)]
    · rw [hp] at hp'
      cases hp'
      exact ht
  | @empty n k acts k' hcur hp _ ih =>
    obtain ⟨j, h⟩ := ih (hr.pop hcur hp)
    refine ⟨j + 1, Popped.cons (f := k.inFlight) (b := k.outbuf) hr hcur (fun q => ?_)
      (fun _ p' hp' => ?_) (fun _ => hp) h⟩
    · cases hq : k.outbuf.slot q with
      | none => rfl
      | some p' =>
        have hne : p'.hdr.seqNr ≠ k.head := by
          intro he
          have hsame := (hr.occupied q p' hq).2
          rw [he] at hsame
          rw [hsame.slot_eq, show k.outbuf.slot k.head = none from hp] at hq
          cases hq
        rw [Option.filter_some, if_pos (by simpa using hne)]
    · rw [hp] at hp'
      cases hp'
  | check _ _ ih => exact ih hr

end Kernel

namespace UtpSocket

variable (env : Env) {s t : UtpSocket} {base : ℤ} {mask : Bytes}

/-- The payload of a packet that meets `c`. -/
def payloadIf (c : OutgoingPacket → Bool) : Option OutgoingPacket → ℕ
  | none => 0
  | some p => if c p then p.payload else 0

theorem payloadIf_pos {c : OutgoingPacket → Bool} {p : OutgoingPacket} (h : c p) :
    payloadIf c (some p) = p.payload := if_pos h

theorem payloadIf_neg {c : OutgoingPacket → Bool} {p : OutgoingPacket} (h : ¬ c p) :
    payloadIf c (some p) = 0 := if_neg h

theorem payloadIf_congr {c d : OutgoingPacket → Bool} {p : OutgoingPacket} (h : c p = d p) :
    payloadIf c (some p) = payloadIf d (some p) := by
  show (if c p then p.payload else 0) = if d p then p.payload else 0
  rw [h]

/-- What the walk over the acknowledged packets adds up. -/
theorem ackedBytes_fst (now : UInt64) (n : ℕ) (seq : UInt16) (acked : ℕ) (minRtt : ℤ) (s : UtpSocket) :
    (s.ackedBytes now n seq acked minRtt).1 = acked + ∑ i ∈ Finset.range n,
      payloadIf (fun p => 0 < p.transmissions) (s.kernel.outbuf.slot (seq + UInt16.ofNat i)) := by
  induction n generalizing seq acked minRtt s with
  | zero => simp [ackedBytes]
  | succ n ih =>
    have hshift (i : ℕ) : seq + 1 + UInt16.ofNat i = seq + UInt16.ofNat (i + 1) := by
      rw [UInt16.ofNat_add]
      grind
    rw [Finset.sum_range_succ', slot_add_zero]
    unfold ackedBytes
    rw [show s.send.outbuf.get seq.toNat = s.kernel.outbuf.slot seq from rfl]
    cases hp : s.kernel.outbuf.slot seq with
    | none =>
      dsimp only
      rw [ih]
      simp only [hshift, payloadIf, Nat.add_zero]
    | some p =>
      dsimp only
      split
      · rename_i ht
        rw [ih]
        simp only [hshift, payloadIf, ht, lt_irrefl, decide_false, Bool.false_eq_true, if_false,
          Nat.add_zero]
      · rename_i ht
        have hk : ((s.assert (0 ≤ int32 p.payload) .ackedPayload).probeAck seq).kernel = s.kernel :=
          ((quiet_probeAck seq _).1).trans (kernel_assert _ _ s)
        rw [ih, hk]
        simp only [hshift, payloadIf, Nat.pos_of_ne_zero ht, decide_true, if_true]
        omega

/-- The payloads of the packets of the window that meet `c`. -/
def windowBytes (k : Kernel) (c : OutgoingPacket → Bool) : ℕ :=
  ∑ i ∈ Finset.range k.cur.toNat, payloadIf c (k.outbuf.slot (k.nth i))

/-- The packets that meet `c` are those that meet `a` and those that meet `b`. -/
theorem windowBytes_add {k : Kernel} {a b c : OutgoingPacket → Bool} (h : ∀ p, c p = (a p || b p))
    (hd : ∀ p, a p → b p = false) : windowBytes k c = windowBytes k a + windowBytes k b := by
  unfold windowBytes
  rw [← Finset.sum_add_distrib]
  refine Finset.sum_congr rfl fun i _ => ?_
  cases k.outbuf.slot (k.nth i) with
  | none => rfl
  | some p =>
    unfold payloadIf
    dsimp only
    rw [h]
    cases ha : a p with
    | false => simp
    | true => simp [hd p ha]

/-- The packet of the bit before `n`, as the sum over the window sees it. -/
theorem windowBytes_bit (hr : s.kernel.Ring) (hc : 0 < s.kernel.cur) (hm : mask.length ≤ 255) (n : ℕ) :
    windowBytes s.kernel (fun p => s.sacked base mask p && bitOf base p + 1 = n) =
      payloadIf (fun p => 0 < p.transmissions && s.inEackWindow (base + ((n : ℤ) - 1)) &&
        maskBit mask ((n : ℤ) - 1)) (s.kernel.outbuf.slot (UInt16.ofInt (base + ((n : ℤ) - 1)))) := by
  unfold windowBytes
  by_cases h : s.inEackWindow (base + ((n : ℤ) - 1)) ∧ maskBit mask ((n : ℤ) - 1)
  · obtain ⟨hw, hb⟩ := h
    have hq := (((inEackWindow_kernel _ s).1 hw).lt hc).1
    rw [Finset.sum_eq_single (UInt16.ofInt (base + ((n : ℤ) - 1)) - s.kernel.head).toNat]
    · rw [Kernel.nth_offset]
      cases hp : s.kernel.outbuf.slot (UInt16.ofInt (base + ((n : ℤ) - 1))) with
      | none => rfl
      | some p =>
        have hseq := hr.seqNr_eq hp hq
        obtain ⟨b, he, hlt⟩ := maskBit_range hb
        rw [he] at hseq hw hb
        have hbit : bitOf base p = b := bitOf_eq hseq (by omega)
        refine payloadIf_congr ?_
        unfold sacked
        rw [he, hbit, hw, hb, decide_eq_true (show b + 1 = n by omega), Bool.and_true]
    · intro i hi hne
      rw [Finset.mem_range] at hi
      cases hp : s.kernel.outbuf.slot (s.kernel.nth i) with
      | none => rfl
      | some p =>
        refine payloadIf_neg fun hc => ?_
        rw [Bool.and_eq_true, decide_eq_true_eq] at hc
        refine hne ?_
        rw [← (sacked_bit hc.1 hc.2).1]
        exact (hr.offset_nth hi hp).symm
    · intro hn
      exact absurd (Finset.mem_range.2 (UInt16.lt_iff_toNat_lt.1 hq)) hn
  · rw [Finset.sum_eq_zero]
    · symm
      cases s.kernel.outbuf.slot (UInt16.ofInt (base + ((n : ℤ) - 1))) with
      | none => rfl
      | some p =>
        refine payloadIf_neg fun hc => ?_
        rw [Bool.and_eq_true, Bool.and_eq_true] at hc
        exact h ⟨hc.1.2, hc.2⟩
    · intro i _
      cases s.kernel.outbuf.slot (s.kernel.nth i) with
      | none => rfl
      | some p =>
        refine payloadIf_neg fun hc => ?_
        rw [Bool.and_eq_true, decide_eq_true_eq] at hc
        obtain ⟨-, -, hw, hb⟩ := sacked_bit hc.1 hc.2
        exact h ⟨hw, hb⟩

/-- What the scan of the bitmap adds up. -/
theorem eackBytesLoop_fst (hr : s.kernel.Ring) (hc : 0 < s.kernel.cur) (hm : mask.length ≤ 255)
    (now : UInt64) (n acked : ℕ) (minRtt : ℤ) {t : UtpSocket} (ht : t.kernel = s.kernel) :
    (t.eackBytesLoop base mask now n acked minRtt).1 = acked +
      windowBytes s.kernel (fun p => s.sacked base mask p && bitOf base p + 1 < n) := by
  induction n generalizing acked minRtt t with
  | zero =>
    have h0 : windowBytes s.kernel (fun p => s.sacked base mask p && bitOf base p + 1 < 0) = 0 := by
      refine Finset.sum_eq_zero fun i _ => ?_
      cases s.kernel.outbuf.slot (s.kernel.nth i) <;> simp [payloadIf]
    rw [h0]
    rfl
  | succ n ih =>
    have hsum : windowBytes s.kernel (fun p => s.sacked base mask p && bitOf base p + 1 < n + 1) =
        windowBytes s.kernel (fun p => s.sacked base mask p && bitOf base p + 1 < n) +
          windowBytes s.kernel (fun p => s.sacked base mask p && bitOf base p + 1 = n) := by
      refine windowBytes_add (fun p => ?_) fun p h => ?_
      · cases s.sacked base mask p with
        | false => rfl
        | true =>
          simp only [Bool.true_and, ← Bool.decide_or, decide_eq_decide]
          omega
      · rw [Bool.and_eq_true, decide_eq_true_eq] at h
        rw [decide_eq_false (by omega), Bool.and_false]
    rw [hsum, windowBytes_bit hr hc hm]
    have hget : t.send.outbuf.get (base + ((n : ℤ) - 1)) =
        s.kernel.outbuf.slot (UInt16.ofInt (base + ((n : ℤ) - 1))) := by
      rw [get_eq_slot, ← ht]
      rfl
    have hwin : t.inEackWindow (base + ((n : ℤ) - 1)) = s.inEackWindow (base + ((n : ℤ) - 1)) := by
      rw [Bool.eq_iff_iff, inEackWindow_kernel, inEackWindow_kernel, ht]
    unfold eackBytesLoop
    dsimp only
    rw [hget, hwin]
    cases hp : s.kernel.outbuf.slot (UInt16.ofInt (base + ((n : ℤ) - 1))) with
    | none =>
      rw [Option.filter_none]
      dsimp only
      rw [ih _ _ ht]
      rfl
    | some p =>
      rw [Option.filter_some]
      by_cases hpos : 0 < p.transmissions
      · rw [if_pos (decide_eq_true hpos)]
        dsimp only
        split
        · rename_i hb
          have hk : (t.assert (0 ≤ int32 p.payload) .ackedPayload).kernel = s.kernel :=
            (kernel_assert _ _ t).trans ht
          rw [ih _ _ hk, payloadIf_pos (by rw [decide_eq_true hpos, Bool.true_and]; exact hb)]
          omega
        · rename_i hb
          rw [ih _ _ ht, payloadIf_neg (by rw [decide_eq_true hpos, Bool.true_and]; exact hb)]
          rfl
      · rw [if_neg (by simpa using hpos), payloadIf_neg (by simp [hpos])]
        dsimp only
        rw [ih _ _ ht]
        rfl

theorem ofInt_toNat (q : UInt16) : UInt16.ofInt (q.toNat : ℤ) = q := by simpa using ofInt_add q 0

/-- The packet was sent, lies behind the head of the window and is marked by the bitmap of `pp`. -/
def sackedBy (k : Kernel) (pp : ParsedPacket) (p : OutgoingPacket) : Bool :=
  match pp.selack with
  | none => false
  | some mask => 0 < p.transmissions && decide (k.seqNr - p.hdr.seqNr - 1 < k.cur - 1) &&
      maskBit mask (p.hdr.seqNr - (pp.ackNr + 2)).toNat

theorem sacked_eq {pp : ParsedPacket} (hs : pp.selack = some mask)
    (hb : UInt16.ofInt base = pp.ackNr + 2) (p : OutgoingPacket) :
    s.sacked base mask p = sackedBy s.kernel pp p := by
  unfold sacked sackedBy inEackWindow
  rw [hs, ofInt_bitOf]
  unfold bitOf
  rw [hb]
  rfl

/-- The delay the peer reports. -/
def actualDelay (pp : ParsedPacket) : UInt32 := if pp.replyMicro.toNat = INT_MAX then 0 else pp.replyMicro

/-- `acked_bytes` as `process_acks` computes it. -/
def ackedCount (s : UtpSocket) (pp : ParsedPacket) (acks : ℕ) : ℕ :=
  let r := s.asked.ackedBytes (env.microseconds s.tick) acks s.windowStart 0 (2 ^ 63 - 1)
  match pp.selack with
  | some mask => (r.2.2.selectiveAckBytes env (pp.ackNr + 2).toNat mask r.1 r.2.1).1
  | none => r.1

/-- The smallest round trip `process_acks` finds, and the socket it comes to the control of the window
with: the delays of the packet are taken in. -/
def measured (s : UtpSocket) (pp : ParsedPacket) (acks : ℕ) (time : UInt64) : ℤ × UtpSocket :=
  let r := s.asked.ackedBytes (env.microseconds s.tick) acks s.windowStart 0 (2 ^ 63 - 1)
  let r := match pp.selack with
    | some mask => r.2.2.selectiveAckBytes env (pp.ackNr + 2).toNat mask r.1 r.2.1
    | none => r
  let theirDelay := if pp.timestamp = 0 then 0 else (time - pp.timestamp.toUInt64).toUInt32
  let t := (r.2.2.setTiming { r.2.2.timing with
    lastMeasuredDelay := r.2.2.currentMs
    replyMicro := theirDelay }).theirSample theirDelay
  (r.2.1, (t.ourSample (actualDelay pp)).capDelay r.2.1)

/-- The count is what the congestion control is given. -/
theorem processAcks_controls (pp : ParsedPacket) (acks : ℕ) (time : UInt64) (s : UtpSocket) :
    s.processAcks env pp acks time =
      let m := s.measured env pp acks time
      if actualDelay pp ≠ 0 ∧ 1 ≤ s.ackedCount env pp acks then
        m.2.controlWindow (s.ackedCount env pp acks) m.1 else m.2 := by
  unfold processAcks ackedCount measured
  dsimp only
  cases pp.selack <;> rfl

/-- Where a packet stands in the window. -/
def offset (k : Kernel) (p : OutgoingPacket) : ℕ := (p.hdr.seqNr - k.head).toNat

/-- The packets that process_acks counts: the sent ones of the acknowledged numbers, and the marked
ones. -/
theorem ackedCount_eq (pp : ParsedPacket) {acks : ℕ} (hr : s.kernel.Ring)
    (ha : acks ≤ s.kernel.cur.toNat) (hm : ∀ mask, pp.selack = some mask → mask.length ≤ 255) :
    s.ackedCount env pp acks =
      windowBytes s.kernel (fun p => 0 < p.transmissions && offset s.kernel p < acks) +
        windowBytes s.kernel (sackedBy s.kernel pp) := by
  have hcum (now : UInt64) : (s.asked.ackedBytes now acks s.windowStart 0 (2 ^ 63 - 1)).1 =
      windowBytes s.kernel (fun p => 0 < p.transmissions && offset s.kernel p < acks) := by
    rw [ackedBytes_fst, Nat.zero_add]
    unfold windowBytes
    rw [← Finset.sum_subset (Finset.range_subset_range.2 ha)]
    · refine Finset.sum_congr rfl fun i hi => ?_
      rw [Finset.mem_range] at hi
      show payloadIf _ (s.kernel.outbuf.slot (s.kernel.nth i)) = _
      cases hp : s.kernel.outbuf.slot (s.kernel.nth i) with
      | none => rfl
      | some p =>
        refine payloadIf_congr ?_
        unfold offset
        rw [hr.offset_nth (hi.trans_le ha) hp, decide_eq_true hi, Bool.and_true]
    · intro i hi hn
      rw [Finset.mem_range] at hi hn
      cases hp : s.kernel.outbuf.slot (s.kernel.nth i) with
      | none => rfl
      | some p =>
        refine payloadIf_neg ?_
        unfold offset
        rw [hr.offset_nth hi hp, decide_eq_false hn, Bool.and_false]
        exact Bool.false_ne_true
  unfold ackedCount
  have hk := (quiet_ackedBytes (env.microseconds s.tick) acks s.windowStart 0 (2 ^ 63 - 1) s.asked).1
  have hfst := hcum (env.microseconds s.tick)
  generalize s.asked.ackedBytes (env.microseconds s.tick) acks s.windowStart 0 (2 ^ 63 - 1) = r
    at hk hfst ⊢
  dsimp only
  have hk : r.2.2.kernel = s.kernel := hk
  cases hs : pp.selack with
  | none =>
    have h0 : windowBytes s.kernel (sackedBy s.kernel pp) = 0 := by
      refine Finset.sum_eq_zero fun i _ => ?_
      cases s.kernel.outbuf.slot (s.kernel.nth i) with
      | none => rfl
      | some p =>
        refine payloadIf_neg ?_
        unfold sackedBy
        rw [hs]
        exact Bool.false_ne_true
    rw [h0]
    exact hfst
  | some mask =>
    dsimp only
    have hcur : r.2.2.send.curWindowPackets = s.kernel.cur := congrArg Kernel.cur hk
    unfold selectiveAckBytes
    rw [hcur]
    by_cases hc : s.kernel.cur = 0
    · rw [if_pos hc]
      unfold windowBytes at hfst ⊢
      rw [hc] at hfst ⊢
      exact hfst
    · have hk : r.2.2.asked.kernel = s.kernel := hk
      rw [if_neg hc, eackBytesLoop_fst hr (by grind) (hm mask hs) _ _ _ _ hk, hfst]
      congr 1
      refine Finset.sum_congr rfl fun i hi => ?_
      cases hp : s.kernel.outbuf.slot (s.kernel.nth i) with
      | none => rfl
      | some p =>
        refine payloadIf_congr ?_
        rw [← sacked_eq hs (ofInt_toNat (pp.ackNr + 2))]
        cases hsa : s.sacked ((pp.ackNr + 2).toNat : ℤ) mask p with
        | false => rfl
        | true =>
          obtain ⟨b, he, hlt⟩ := maskBit_range (sacked_iff.1 hsa).2.2
          rw [decide_eq_true (by omega)]
          rfl

/-! What leaves the ring. -/

theorem popped_ackLoop (pp : ParsedPacket) (hr : s.kernel.Ring) :
    ∃ j, Kernel.Popped (s.kernel.ackCount pp) s.kernel
      ((((s.peerWindow pp.windowsize).ackState pp (s.kernel.ackCount pp)
        ).raiseFastResend pp).ackLoop env (s.kernel.ackCount pp)).finishAdvance.kernel j := by
  have hk₁ := (quiet_peerWindow pp.windowsize s).1
  generalize s.peerWindow pp.windowsize = t at hk₁ ⊢
  have hk₂ := kernel_ackState pp t
  rw [hk₁] at hk₂
  generalize t.ackState pp (s.kernel.ackCount pp) = u at hk₂ ⊢
  have hk₃ := (quiet_raiseFastResend pp u).1
  generalize u.raiseFastResend pp = v at hk₃ ⊢
  have hkv : v.kernel = s.kernel.ackState pp := hk₃.trans hk₂
  obtain ⟨st, f, he⟩ := s.kernel.ackState_eq pp
  have hn : s.kernel.ackCount pp ≤ v.kernel.cur.toNat := by
    rw [hkv, he]
    exact s.kernel.ackCount_le pp
  obtain ⟨acts, hp, -⟩ := pops_ackLoop env hn
  rw [hkv] at hp
  obtain ⟨j, h⟩ := hp.popped (hr.ackState pp)
  rw [he] at h
  exact ⟨j, h.le, h.seqNr, h.cur, h.sent, h.empty, h.stop, h.slots⟩

/-- Only the packet at the head may have been sent once more. -/
def HeadSent (k k' : Kernel) : Prop :=
  k.Resent k' ∧ ∀ q p, k.outbuf.slot q = some p → p.hdr.seqNr ≠ k.head → k'.outbuf.slot q = some p

theorem HeadSent.refl (k : Kernel) : HeadSent k k := ⟨.refl k, fun _ _ hp _ => hp⟩

theorem HeadSent.trans {k k' k'' : Kernel} (h : HeadSent k k') (h' : HeadSent k' k'') :
    HeadSent k k'' := by
  have hhead : k'.head = k.head := by
    unfold Kernel.head
    rw [h.1.seqNr, h.1.cur]
  refine ⟨h.1.trans h'.1, fun q p hp hne => h'.2 q p (h.2 q p hp hne) ?_⟩
  rw [hhead]
  exact hne

theorem headSent_sendPacket (hr : s.kernel.Ring) {i : ℤ} (hi : UInt16.ofInt i = s.kernel.head) :
    HeadSent s.kernel (s.sendPacket env i).kernel := by
  refine ⟨resent_sendPacket env i s, fun q p hp hne => ?_⟩
  cases hi' : s.send.outbuf.get i with
  | none =>
    unfold sendPacket
    rw [hi']
    exact hp
  | some p₀ =>
    obtain ⟨p', flags, l, -, hk, -⟩ := sendPacket_spec env hi'
    rw [hk, hi]
    show (s.kernel.outbuf.setSlot s.kernel.head (some p')).slot q = some p
    rw [slot_setSlot, if_neg]
    · exact hp
    · intro hs
      have h₀ : s.kernel.outbuf.slot s.kernel.head = some p₀ := by
        rw [← hi]
        exact (get_eq_slot _ _).symm.trans hi'
      have hq := hs.slot_eq
      rw [h₀, hp] at hq
      cases hq
      obtain ⟨hw, hsame⟩ := hr.occupied q p hp
      exact hne (hr.same_eq (hsame.symm.trans hs.symm) hw (by grind))

theorem ofInt_headIdx (s : UtpSocket) : UInt16.ofInt s.headIdx = s.kernel.head := by
  unfold headIdx
  rw [ofInt_sub]
  rfl

theorem headSent_sendLast (hr : s.kernel.Ring) : HeadSent s.kernel (s.sendLast env).kernel := by
  unfold sendLast
  split
  · rename_i hc
    split
    · split
      · refine headSent_sendPacket env hr ?_
        rw [ofInt_sub_one]
        show s.send.seqNr - 1 = s.send.seqNr - s.send.curWindowPackets
        rw [hc]
      · exact .refl _
    · exact .refl _
  · exact .refl _

theorem headSent_fastTimeout (hr : s.kernel.Ring) : HeadSent s.kernel (s.fastTimeout env).kernel := by
  unfold fastTimeout
  split
  · split
    · exact .refl _
    · split
      · split
        · exact headSent_sendPacket env (s := s.setTiming { s.timing with
            fastResendSeqNr := s.timing.fastResendSeqNr + 1 }) hr (ofInt_headIdx s)
        · exact .refl _
      · exact .refl _
  · exact .refl _

theorem resent_resendLoop (vs : List ℤ) (i : ℕ) (backOff : Bool) (s : UtpSocket) :
    s.kernel.Resent (s.resendLoop env vs i backOff).2.kernel := by
  induction vs generalizing i backOff s with
  | nil => exact .refl _
  | cons v vs ih =>
    unfold resendLoop
    split
    · dsimp only
      split
      · exact resent_sendPacket env v s
      · exact (resent_sendPacket env v s).trans (ih (i - 1) true ((s.sendPacket env v).setTiming
          { (s.sendPacket env v).timing with fastResendSeqNr := UInt16.ofInt (v + 1) }))
    · exact ih _ _ s

/-- The bitmap takes out the marked packets, and nothing else leaves. -/
theorem slot_selectiveAckOf {pp : ParsedPacket} (hr : s.kernel.Ring)
    (hm : ∀ mask, pp.selack = some mask → mask.length ≤ 255) (q : UInt16) :
    (s.selectiveAckOf env pp).kernel.outbuf.slot q = none ↔
      ∀ p, s.kernel.outbuf.slot q = some p → sackedBy s.kernel pp p := by
  unfold selectiveAckOf
  cases hs : pp.selack with
  | none =>
    have hn (p : OutgoingPacket) : sackedBy s.kernel pp p = false := by
      unfold sackedBy
      rw [hs]
    dsimp only
    cases s.kernel.outbuf.slot q <;> simp [hn]
  | some mask =>
    dsimp only
    unfold selectiveAck
    split
    · rename_i h0
      have hnone : s.kernel.outbuf.slot q = none := by
        by_contra hne
        obtain ⟨p, hp⟩ := Option.ne_none_iff_exists'.1 hne
        have hlt := (hr.occupied q p hp).1
        rw [show s.kernel.cur = 0 from h0] at hlt
        exact absurd hlt (by simp)
      simp [hnone]
    · rename_i h0
      have hc : 0 < s.kernel.cur := by
        have h0 : s.kernel.cur ≠ 0 := h0
        grind
      have ha := scan_eackLoop env (pp.ackNr.toNat + 2) hr hc (hm mask hs)
      generalize s.eackLoop env (pp.ackNr.toNat + 2) mask (8 * mask.length + 1) 0 [] = a at ha ⊢
      dsimp only
      generalize (if a.2.2.fastResend ((pp.ackNr.toNat : ℤ) + 2 - 1) a.1 then
        a.2.1 ++ [((pp.ackNr.toNat : ℤ) + 2 - 1) % 2 ^ 16] else a.2.1) = vs
      have hres := resent_resendLoop env vs.reverse 4 false a.2.2
      generalize a.2.2.resendLoop env vs.reverse 4 false = b at hres ⊢
      have hk : ((if b.1 then b.2.setCc (b.2.cc.maybeDecayWin b.2.currentMs) else b.2).setDuplicateAck
          (UInt8.ofNat a.1)).kernel = b.2.kernel := by
        have hq : Quiet b.2 (if b.1 then b.2.setCc (b.2.cc.maybeDecayWin b.2.currentMs) else b.2) :=
          .ite (fun _ => quiet_setCc (curWindow_maybeDecayWin _ _)) (fun _ => .refl _)
        exact (quiet_setDuplicateAck _ _).1.trans hq.1
      rw [hk]
      have hnone : b.2.kernel.outbuf.slot q = none ↔ a.2.2.kernel.outbuf.slot q = none := by
        refine ⟨fun h => ?_, hres.empty q⟩
        by_contra hne
        obtain ⟨p, hp⟩ := Option.ne_none_iff_exists'.1 hne
        obtain ⟨p', hp', -⟩ := hres.packets q p hp
        rw [h] at hp'
        cases hp'
      have hbase : UInt16.ofInt ((pp.ackNr.toNat : ℤ) + 2) = pp.ackNr + 2 := ofInt_add pp.ackNr 2
      rw [hnone, ha.slots, Option.filter_eq_none_iff]
      refine forall_congr' fun p => ?_
      rw [sacked_eq hs hbase, decide_eq_true (Nat.zero_le _), Bool.and_true]
      simp

theorem sackedBy_congr {k k' : Kernel} {pp : ParsedPacket} {p : OutgoingPacket}
    (h : k'.InEackWindow p.hdr.seqNr ↔ k.InEackWindow p.hdr.seqNr) :
    sackedBy k' pp p = sackedBy k pp p := by
  unfold sackedBy
  cases pp.selack with
  | none => rfl
  | some mask =>
    dsimp only
    rw [show decide (k'.seqNr - p.hdr.seqNr - 1 < k'.cur - 1) =
      decide (k.seqNr - p.hdr.seqNr - 1 < k.cur - 1) from decide_eq_decide.2 h]

theorem sackedBy_window {k : Kernel} {pp : ParsedPacket} {p : OutgoingPacket} (h : sackedBy k pp p) :
    k.InEackWindow p.hdr.seqNr := by
  unfold sackedBy at h
  cases hs : pp.selack with
  | none =>
    rw [hs] at h
    cases h
  | some mask =>
    rw [hs] at h
    dsimp only at h
    rw [Bool.and_eq_true, Bool.and_eq_true, decide_eq_true_eq, decide_eq_true_eq] at h
    exact h.1.2

/-- No packet is acknowledged both ways. -/
theorem sackedBy_behind {k : Kernel} {pp : ParsedPacket} {p : OutgoingPacket} (hr : k.Ring)
    (hm : ∀ mask, pp.selack = some mask → mask.length ≤ 255) (h : sackedBy k pp p) :
    k.ackCount pp ≤ offset k p := by
  by_contra hlt
  unfold sackedBy at h
  cases hs : pp.selack with
  | none =>
    rw [hs] at h
    cases h
  | some mask =>
    rw [hs] at h
    dsimp only at h
    rw [Bool.and_eq_true] at h
    obtain ⟨b, he, hb⟩ := maskBit_range h.2
    have hlen := hm mask hs
    have hcur := hr.length_le
    have hd : p.hdr.seqNr - (pp.ackNr + 2) =
        p.hdr.seqNr - k.head - (pp.ackNr - (k.seqNr - 1 - k.cur)) - 1 := by
      unfold Kernel.head
      grind
    have hle := k.ackCount_le pp
    unfold Kernel.ackCount at hlt hle
    unfold offset at hlt
    dsimp only at hlt hle
    split at hlt
    · omega
    · rw [if_neg ‹_›] at hle
      rw [hd] at he
      generalize pp.ackNr - (k.seqNr - 1 - k.cur) = x at he hlt hle
      generalize p.hdr.seqNr - k.head = y at he hlt
      rw [UInt16.toNat_sub, UInt16.toNat_sub, UInt16.toNat_one] at he
      have := x.toNat_lt
      omega

/-- Which packets of the window are gone when the bitmap was worked off. -/
theorem gone_iff {k k' k₂ k₃ : Kernel} {pp : ParsedPacket} {n j : ℕ} (hr : k.Ring)
    (hp : Kernel.Popped n k k' j) (hs : HeadSent k' k₂)
    (h₃ : ∀ q, k₃.outbuf.slot q = none ↔ ∀ p, k₂.outbuf.slot q = some p → sackedBy k₂ pp p)
    {q : UInt16} {p : OutgoingPacket} (hq : k.outbuf.slot q = some p) :
    k₃.outbuf.slot q = none ↔ offset k p < j ∨ j < offset k p ∧ sackedBy k pp p := by
  have hlt : offset k p < k.cur.toNat := UInt16.lt_iff_toNat_lt.1 (hr.occupied q p hq).1
  have hslot := hp.slots q
  rw [hq, Option.filter_some, show (p.hdr.seqNr - k.head).toNat = offset k p from rfl] at hslot
  rw [h₃]
  by_cases hj : offset k p < j
  · rw [if_neg (by simpa using hj)] at hslot
    simp [hs.1.empty q hslot, hj]
  rw [if_pos (by simpa using hj)] at hslot
  -- the window has moved by `j`
  have hcur' := hp.cur
  have hcur₂ : k₂.cur = k'.cur := hs.1.cur
  have hhead' : k'.head = k.nth j := by
    unfold Kernel.head Kernel.nth
    have hle := hp.le
    have hc : k'.cur = k.cur - UInt16.ofNat j := by
      apply UInt16.toNat.inj
      have := k.cur.toNat_lt
      rw [UInt16.toNat_sub, UInt16.toNat_ofNat', Nat.mod_eq_of_lt (a := j) (by omega), hcur']
      omega
    rw [hp.seqNr, hc, Kernel.head]
    grind
  have hhead₂ : k₂.head = k'.head := by
    unfold Kernel.head
    rw [hs.1.seqNr, hs.1.cur]
  have hc₂ : 0 < k₂.cur := by
    rw [hcur₂, UInt16.lt_iff_toNat_lt, hcur', UInt16.toNat_zero]
    omega
  by_cases he : offset k p = j
  · have hseq : p.hdr.seqNr = k₂.head := by
      rw [hhead₂, hhead', ← he]
      exact (k.nth_offset _).symm
    obtain ⟨p', hp', hn, -⟩ := hs.1.packets q p hslot
    have hnot : ¬ sackedBy k₂ pp p' := fun h =>
      ((sackedBy_window h).lt hc₂).2 (hn.trans hseq)
    simp [hp', hnot, he]
  · have hne : p.hdr.seqNr ≠ k'.head := by
      intro h
      refine he ?_
      unfold offset
      rw [h, hhead', Kernel.toNat_nth]
      have := k.cur.toNat_lt
      omega
    have hin : k₂.InEackWindow p.hdr.seqNr ↔ k.InEackWindow p.hdr.seqNr := by
      refine iff_of_true (Kernel.inEackWindow_of_lt ?_ (by rw [hhead₂]; exact hne))
        (Kernel.inEackWindow_of_lt (hr.occupied q p hq).1 ?_)
      · have hoff : p.hdr.seqNr - k₂.head = p.hdr.seqNr - k.head - UInt16.ofNat j := by
          rw [hhead₂, hhead']
          unfold Kernel.nth
          grind
        rw [UInt16.lt_iff_toNat_lt, hoff, hcur₂, hcur', UInt16.toNat_sub, UInt16.toNat_ofNat']
        unfold offset at *
        have := k.cur.toNat_lt
        omega
      · intro h
        unfold offset at *
        rw [h, show k.head - k.head = 0 by grind] at hj he
        simp at hj he
        omega
    have hjo : j < offset k p := by omega
    simp [hs.2 q p hslot hne, sackedBy_congr hin, hj, hjo]

/-- The packet was sent and its number is acknowledged. -/
def ackedBy (k : Kernel) (pp : ParsedPacket) (p : OutgoingPacket) : Bool :=
  0 < p.transmissions && offset k p < k.ackCount pp

/-- The packet is gone when the window has moved by `j`. -/
def goneAt (k : Kernel) (pp : ParsedPacket) (j : ℕ) (p : OutgoingPacket) : Bool :=
  offset k p < j || (j < offset k p && sackedBy k pp p)

/-- Where counting and removing agree: no acknowledged packet with data lies behind one that was
never sent; and if all acknowledged packets were sent, none that is marked and carries data comes
to stand at the head of the window. -/
structure CountsExactly (k : Kernel) (pp : ParsedPacket) : Prop where
  ordered : ∀ q p q' p', k.outbuf.slot q = some p → k.outbuf.slot q' = some p' → 0 < p.payload →
    ackedBy k pp p → p'.transmissions = 0 → offset k p ≤ offset k p'
  head : ∀ q p, k.outbuf.slot q = some p → 0 < p.payload → sackedBy k pp p →
    (∀ q' p', k.outbuf.slot q' = some p' → offset k p' < k.ackCount pp → 0 < p'.transmissions) →
    ∃ q' p', k.outbuf.slot q' = some p' ∧ k.ackCount pp ≤ offset k p' ∧ offset k p' < offset k p

/-- The packet is counted but stays: it lies behind the place where the window stopped, or there. -/
def Miscounted (k : Kernel) (pp : ParsedPacket) (j : ℕ) (p : OutgoingPacket) : Prop :=
  ackedBy k pp p ∧ j < offset k p ∨ sackedBy k pp p ∧ offset k p = j

theorem ackedBy_iff {k : Kernel} {pp : ParsedPacket} {p : OutgoingPacket} :
    ackedBy k pp p ↔ 0 < p.transmissions ∧ offset k p < k.ackCount pp := by
  unfold ackedBy
  rw [Bool.and_eq_true, decide_eq_true_eq, decide_eq_true_eq]

section

variable {k k' : Kernel} {pp : ParsedPacket} {j : ℕ} {p : OutgoingPacket} {q : UInt16}

theorem slot_offset (hr : k.Ring) (hq : k.outbuf.slot q = some p) :
    offset k p < k.cur.toNat ∧ k.outbuf.slot (k.nth (offset k p)) = some p := hr.slot_nth hq

/-- A packet in front of the place where the window stopped is acknowledged. -/
theorem ackedBy_front (hr : k.Ring) (hp : Kernel.Popped (k.ackCount pp) k k' j)
    (hq : k.outbuf.slot q = some p) (h : offset k p < j) : ackedBy k pp p := by
  obtain ⟨hlt, hslot⟩ := slot_offset hr hq
  have hn : offset k p < k.ackCount pp := by
    by_contra hn
    have := hp.empty _ h (not_lt.1 hn)
    rw [hslot] at this
    cases this
  exact ackedBy_iff.2 ⟨hp.sent _ h hn p hslot, hn⟩

/-- The packet at the place where the window stopped is not. -/
theorem not_ackedBy_stop (hr : k.Ring) (hp : Kernel.Popped (k.ackCount pp) k k' j)
    (hq : k.outbuf.slot q = some p) (h : offset k p = j) : ¬ ackedBy k pp p := by
  intro ha
  obtain ⟨ht, hn⟩ := ackedBy_iff.1 ha
  obtain ⟨hlt, hslot⟩ := slot_offset hr hq
  rw [h] at hlt hslot hn
  obtain ⟨p', hp', ht'⟩ := hp.stop hlt
  rw [hslot] at hp'
  cases hp'
  rw [ht' hn] at ht
  exact absurd ht (lt_irrefl 0)

/-- A packet counts for no less than what is removed, and for more exactly if it is miscounted. -/
theorem payload_balance (hr : k.Ring) (hm : ∀ mask, pp.selack = some mask → mask.length ≤ 255)
    (hp : Kernel.Popped (k.ackCount pp) k k' j) (hq : k.outbuf.slot q = some p) :
    payloadIf (goneAt k pp j) (some p) ≤
        payloadIf (ackedBy k pp) (some p) + payloadIf (sackedBy k pp) (some p) ∧
      (payloadIf (goneAt k pp j) (some p) =
        payloadIf (ackedBy k pp) (some p) + payloadIf (sackedBy k pp) (some p) ↔
          (0 < p.payload → ¬ Miscounted k pp j p)) := by
  have hfront := ackedBy_front hr hp hq
  have hstop := not_ackedBy_stop hr hp hq
  have hboth : ackedBy k pp p → ¬ sackedBy k pp p := fun ha hs =>
    absurd (sackedBy_behind hr hm hs) (not_le.2 (ackedBy_iff.1 ha).2)
  unfold Miscounted
  unfold payloadIf goneAt
  dsimp only
  generalize ackedBy k pp p = a at hfront hstop hboth ⊢
  generalize sackedBy k pp p = b at hboth ⊢
  generalize offset k p = o at hfront hstop ⊢
  rcases lt_trichotomy o j with h | h | h
  · have ha := hfront h
    have hb := hboth ha
    simp [ha, hb, h, h.ne, not_lt.2 h.le]
  · have ha := hstop h
    subst h
    cases b <;> simp [ha]
    omega
  · cases a <;> cases b <;> simp_all [h.not_gt, h.ne']
    omega

/-- The condition says that no packet with data is miscounted. -/
theorem countsExactly_iff (hr : k.Ring) (hm : ∀ mask, pp.selack = some mask → mask.length ≤ 255)
    (hp : Kernel.Popped (k.ackCount pp) k k' j) : CountsExactly k pp ↔
      ∀ q p, k.outbuf.slot q = some p → 0 < p.payload → ¬ Miscounted k pp j p := by
  have hn := k.ackCount_le pp
  constructor
  · rintro ⟨hord, hhead⟩ q p hq hpay (⟨ha, hj⟩ | ⟨hs, hj⟩)
    · have hlt := (slot_offset hr hq).1
      obtain ⟨p', hp', ht⟩ := hp.stop (hj.trans hlt)
      have ho : offset k p' = j := hr.offset_nth (hj.trans hlt) hp'
      have := hord q p _ p' hq hp' hpay ha (ht (hj.trans (ackedBy_iff.1 ha).2))
      omega
    · have hbehind := sackedBy_behind hr hm hs
      obtain ⟨q', p', hq', hle, hlt⟩ := hhead q p hq hpay hs fun q' p' hq' hlt =>
        hp.sent _ (by omega) hlt p' (slot_offset hr hq').2
      have := hp.empty _ (by omega) hle
      rw [(slot_offset hr hq').2] at this
      cases this
  · intro h
    have hfirst {q' : UInt16} {p' : OutgoingPacket} (hq' : k.outbuf.slot q' = some p')
        (ho : offset k p' < j) : offset k p' < k.ackCount pp ∧ 0 < p'.transmissions :=
      (ackedBy_iff.1 (ackedBy_front hr hp hq' ho)).symm
    refine ⟨fun q p q' p' hq hq' hpay ha ht => ?_, fun q p hq hpay hs hsent => ?_⟩
    · by_contra hlt
      by_cases ho : offset k p' < j
      · have := (hfirst hq' ho).2
        omega
      · exact h q p hq hpay (.inl ⟨ha, by omega⟩)
    · by_contra hno
      push Not at hno
      have hbehind := sackedBy_behind hr hm hs
      have hlt := (slot_offset hr hq).1
      refine h q p hq hpay (.inr ⟨hs, ?_⟩)
      by_contra hne
      rcases Nat.lt_or_gt_of_ne hne with ho | ho
      · exact absurd (hfirst hq ho).1 (not_lt.2 hbehind)
      · obtain ⟨p', hp', ht⟩ := hp.stop (ho.trans hlt)
        have hj : offset k p' = j := hr.offset_nth (ho.trans hlt) hp'
        by_cases hjn : j < k.ackCount pp
        · have := hsent _ p' hp' (by omega)
          rw [ht hjn] at this
          exact absurd this (lt_irrefl 0)
        · have := hno _ p' hp' (by omega)
          omega

/-- What is counted is what is removed exactly if no packet is miscounted. -/
theorem windowBytes_balance (hr : k.Ring) (hm : ∀ mask, pp.selack = some mask → mask.length ≤ 255)
    (hp : Kernel.Popped (k.ackCount pp) k k' j) :
    windowBytes k (ackedBy k pp) + windowBytes k (sackedBy k pp) = windowBytes k (goneAt k pp j) ↔
      CountsExactly k pp := by
  have hbal := fun q p => payload_balance (q := q) (p := p) hr hm hp
  unfold windowBytes
  rw [← Finset.sum_add_distrib, eq_comm, Finset.sum_eq_sum_iff_of_le, countsExactly_iff hr hm hp]
  · constructor
    · intro h q p hq
      obtain ⟨hlt, hslot⟩ := slot_offset hr hq
      have := h _ (Finset.mem_range.2 hlt)
      rw [hslot] at this
      exact (hbal q p hq).2.1 this
    · intro h i _
      cases hq : k.outbuf.slot (k.nth i) with
      | none => rfl
      | some p => exact (hbal _ p hq).2.2 (h _ p hq)
  · intro i _
    cases hq : k.outbuf.slot (k.nth i) with
    | none => exact le_refl _
    | some p => exact (hbal _ p hq).1

end

/-- The payloads of the packets of the window of `s` that have left the ring in `t`. -/
def removedBytes (s t : UtpSocket) : ℕ :=
  ∑ i ∈ Finset.range s.send.curWindowPackets.toNat,
    payloadIf (fun _ => (t.send.outbuf.get (s.windowStart.toNat + i)).isNone)
      (s.send.outbuf.get (s.windowStart.toNat + i))

theorem removedBytes_eq (pp : ParsedPacket) (j : ℕ)
    (h : ∀ q p, s.kernel.outbuf.slot q = some p →
      (t.kernel.outbuf.slot q = none ↔ goneAt s.kernel pp j p)) :
    s.removedBytes t = windowBytes s.kernel (goneAt s.kernel pp j) := by
  refine Finset.sum_congr rfl fun i _ => ?_
  have hget (u : UtpSocket) : u.send.outbuf.get (s.windowStart.toNat + i) =
      u.kernel.outbuf.slot (s.kernel.nth i) := by
    rw [get_eq_slot, ofInt_add]
    rfl
  rw [hget, hget]
  cases hq : s.kernel.outbuf.slot (s.kernel.nth i) with
  | none => rfl
  | some p =>
    refine payloadIf_congr ?_
    rw [Bool.eq_iff_iff, Option.isNone_iff_eq_none]
    exact h _ p hq

/-- The window moves, and then only its head may be sent once more. -/
theorem popped_advanced {pp : ParsedPacket} (time : UInt64) (hw : s.kernel.Window)
    (hsyn : s.kernel.state = .synSent → s.kernel.ackNr = pp.seqNr - 1) :
    ∃ j k', Kernel.Popped (s.kernel.ackCount pp) s.kernel k' j ∧
      HeadSent k' (s.advanced env pp time).kernel := by
  have hq : Quiet s ((s.countDuplicate pp).processAcks env pp (s.kernel.ackCount pp) time) :=
    (quiet_countDuplicate pp s).trans (quiet_processAcks env pp _ time _)
  unfold advanced
  dsimp only
  rw [show s.ackCount pp = s.kernel.ackCount pp by rfl]
  generalize (s.countDuplicate pp).processAcks env pp (s.kernel.ackCount pp) time = t at hq ⊢
  rw [← hq.1] at hsyn hw ⊢
  obtain ⟨j, hp⟩ := popped_ackLoop env pp hw.toRing
  have hwa := window_runs (runs_of_advanced (advanced_advanceSendWindow env pp hsyn)) hw
  refine ⟨j, _, hp, ?_⟩
  rw [advanceSendWindow_eq env (t.kernel.ackCount_le pp), advance_eq]
  generalize ((((t.peerWindow pp.windowsize).ackState pp (t.kernel.ackCount pp)
    ).raiseFastResend pp).ackLoop env (t.kernel.ackCount pp)).finishAdvance = u at hwa ⊢
  have hku := kernel_assert u.headPresent .advanceHead u
  generalize u.assert u.headPresent .advanceHead = v at hku ⊢
  rw [← hku] at hwa ⊢
  have hwl := window_runs (runs_sendLast (x := .nothing) env v) hwa
  exact (headSent_sendLast env hwa.toRing).trans (headSent_fastTimeout env hwl.toRing)

/-- One packet, from the count to the end of the bitmap. -/
theorem acked_balance {pp : ParsedPacket} (time : UInt64) (hw : s.kernel.Window)
    (hsyn : s.kernel.state = .synSent → s.kernel.ackNr = pp.seqNr - 1)
    (hm : ∀ mask, pp.selack = some mask → mask.length ≤ 255) :
    (s.countDuplicate pp).ackedCount env pp (s.ackCount pp) =
      s.removedBytes ((s.advanced env pp time).selectiveAckOf env pp) ↔ CountsExactly s.kernel pp := by
  have hr := hw.toRing
  have hk₁ := (quiet_countDuplicate pp s).1
  have hcount : (s.countDuplicate pp).ackedCount env pp (s.ackCount pp) =
      windowBytes s.kernel (ackedBy s.kernel pp) + windowBytes s.kernel (sackedBy s.kernel pp) := by
    have h := ackedCount_eq env (s := s.countDuplicate pp) pp (by rw [hk₁]; exact hr)
      (show s.kernel.ackCount pp ≤ _ by rw [hk₁]; exact s.kernel.ackCount_le pp) hm
    rw [hk₁] at h
    exact h
  have hwa := window_advanced env time hw hsyn
  obtain ⟨j, k', hp, hs⟩ := popped_advanced env time hw hsyn
  rw [hcount, removedBytes_eq pp j, windowBytes_balance hr hm hp]
  intro q p hq
  rw [gone_iff hr hp hs (slot_selectiveAckOf env hwa.toRing hm) hq]
  simp [goneAt]

theorem countsExactly_expect (k : Kernel) (pp : ParsedPacket) :
    CountsExactly (k.expect pp) pp ↔ CountsExactly k pp := by
  unfold Kernel.expect
  split
  · exact ⟨fun h => ⟨h.ordered, h.head⟩, fun h => ⟨h.ordered, h.head⟩⟩
  · exact Iff.rfl

/-- In every run, a packet that is not discarded is worked off as `takePacket` does it, the bytes counted as
acknowledged are what the congestion control is given, and they are those that leave the ring exactly under
the condition. -/
theorem ackedBytes_exact {targetDelay rcvbuf sndbuf : ℕ} {calls : List Call} {s : UtpSocket}
    (h : Run targetDelay rcvbuf sndbuf calls s) (ms : UInt64) (tick : ℕ) {b : Bytes} {pp : ParsedPacket}
    (hp : (parseBytes b s.conn.extensions).1 = some pp) (ha : (s.lend ms tick).Accepts pp) :
    let u := (s.lend ms tick).openPacket env b pp
    let v := u.countDuplicate pp
    let time := env.microseconds (((s.lend ms tick).refreshClock env).parsePacket b).2.tick
    let acked := v.ackedCount env pp (u.ackCount pp)
    let m := v.measured env pp (u.ackCount pp) time
    (s.lend ms tick).processIncoming env b false = u.takePacket env pp time ∧
      v.processAcks env pp (u.ackCount pp) time =
        (if actualDelay pp ≠ 0 ∧ 1 ≤ acked then m.2.controlWindow acked m.1 else m.2) ∧
      (acked = u.removedBytes ((u.advanced env pp time).selectiveAckOf env pp) ↔
        CountsExactly s.kernel pp) := by
  intro u v time acked m
  obtain ⟨hk, -⟩ := unmoved_opened env b pp (s.lend ms tick)
  refine ⟨processIncoming_accepted env hp ha, processAcks_controls env pp _ time v, ?_⟩
  have hw : u.kernel.Window := by
    rw [hk]
    exact (window_run h).1.expect pp
  rw [acked_balance env time hw (by rw [hk]; exact Kernel.expect_synSent pp)
    fun mask hm => length_selack hp hm, hk]
  exact countsExactly_expect s.kernel pp

/-- Two empty packets and one of a byte are in flight, and a fourth waits. -/
def laden : UtpSocket :=
  perform stillHost dialled [.processIncoming (statePacket 100 0), .writev [], .writev [], .writev [],
    .writev [[1]], .writev []]

/-- An EACK that marks the byte, with a delay. -/
def delayedEack : Bytes :=
  { freshHdr ST_STATE with
    seqNr := 100, ackNr := 0, replyMicro := 5, windowsize := 65536, ext := 1 : PacketFormatV1 }.toBytes ++
    [0, 4, 2, 0, 0, 0]

def parsedDelayed : ParsedPacket := { stateParsed 100 0 (some [2, 0, 0, 0]) with replyMicro := 5 }

/-- The byte is counted, given to the congestion control and taken out of the ring. -/
theorem ackedBytes_exact_laden :
    let u := (laden.lend 0 0).openPacket stillHost delayedEack parsedDelayed
    let v := u.countDuplicate parsedDelayed
    let m := v.measured stillHost parsedDelayed 0 0
    v.processAcks stillHost parsedDelayed 0 0 = m.2.controlWindow 1 m.1 ∧
      u.removedBytes ((u.advanced stillHost parsedDelayed 0).selectiveAckOf stillHost parsedDelayed) = 1 ∧
      CountsExactly laden.kernel parsedDelayed := by
  intro u v m
  obtain ⟨calls, h⟩ : ∃ calls, Run CCONTROL_TARGET 4096 4096 calls laden := run_performed (by simp [Op.Enabled])
  have hparse : (parseBytes delayedEack laden.conn.extensions).1 = some parsedDelayed := by decide +kernel
  obtain ⟨-, hgiven, hcount⟩ := ackedBytes_exact stillHost h 0 0 hparse (by decide +kernel)
  have hacks : u.ackCount parsedDelayed = 0 := by decide +kernel
  have hacked : v.ackedCount stillHost parsedDelayed 0 = 1 := by decide +kernel
  have hgone : u.removedBytes ((u.advanced stillHost parsedDelayed 0).selectiveAckOf stillHost
      parsedDelayed) = 1 := by decide +kernel
  rw [hacks, hacked] at hgiven hcount
  exact ⟨hgiven.trans (if_pos (by decide)), hgone, hcount.1 hgone.symm⟩

/-- The head is acknowledged, the hole behind it leaves as well, and the marked packet becomes the
head: its byte is counted, but it stays. -/
theorem ackedBytes_inflated : ¬ ∀ targetDelay rcvbuf sndbuf calls s b pp,
    Run targetDelay rcvbuf sndbuf calls s → (parseBytes b s.conn.extensions).1 = some pp →
    (s.lend 0 0).Accepts pp →
    let u := (s.lend 0 0).openPacket stillHost b pp
    (u.countDuplicate pp).ackedCount stillHost pp (u.ackCount pp) =
      u.removedBytes ((u.advanced stillHost pp 0).selectiveAckOf stillHost pp) := by
  intro hall
  obtain ⟨calls, h⟩ := run_holed
  have he := hall _ _ _ calls holed (eackPacket 100 1 [1, 0, 0, 0])
    (stateParsed 100 1 (some [1, 0, 0, 0])) h (by decide +kernel) (by decide +kernel)
  exact absurd he (by decide +kernel)

end UtpSocket

end Utp
