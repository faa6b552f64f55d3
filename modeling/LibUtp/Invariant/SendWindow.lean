import LibUtp.Kernel.Run

/-! The send window: its length, its slots and its bytes in flight agree in every
state a socket can reach. Every kernel step preserves `Ring`, and only the advance
empties the head for a moment. -/

namespace Utp

open Lts SequenceBuffer

namespace Kernel

/-- The window without its head. -/
structure Ring (k : Kernel) : Prop where
  length_le : k.cur.toNat ≤ 1024
  length_lt : k.finSent = false → k.cur.toNat < 1024
  length_size : k.cur.toNat ≤ k.outbuf.size
  occupied : ∀ q p, k.outbuf.slot q = some p →
    p.hdr.seqNr - k.head < k.cur ∧ k.outbuf.Same q p.hdr.seqNr
  inFlight : k.inFlight = k.outstanding
  unused : k.state = .uninitialized → k.cur = 0 ∧ k.finSent = false

/-- The window: while it is not empty its head is a packet. -/
structure Window (k : Kernel) : Prop extends Ring k where
  head_some : k.cur ≠ 0 → k.headSlot.isSome

theorem mem_window_iff (r q c : UInt16) : r - (q - c) < c ↔ q - 1 - r < c := by
  grind

theorem Ring.same_eq {k : Kernel} (h : k.Ring) {q r : UInt16} (hs : k.outbuf.Same q r)
    (hq : q - k.head < k.cur) (hr : r - k.head < k.cur) : q = r := by
  have hsize := h.length_size
  refine hs.eq (s := k.head) ?_ ?_
  · exact (UInt16.lt_iff_toNat_lt.1 hq).trans_le hsize
  · exact (UInt16.lt_iff_toNat_lt.1 hr).trans_le hsize

/-- What lies behind the head lies in the window. -/
theorem InEackWindow.lt {k : Kernel} {q : UInt16} (hc : 0 < k.cur) (h : k.InEackWindow q) :
    q - k.head < k.cur ∧ q ≠ k.head := by
  unfold InEackWindow at h
  refine ⟨(mem_window_iff q k.seqNr k.cur).2 (by grind), ?_⟩
  rintro rfl
  unfold head at h
  grind

theorem inEackWindow_of_lt {k : Kernel} {q : UInt16} (h : q - k.head < k.cur) (hq : q ≠ k.head) : k.InEackWindow q := by
  unfold InEackWindow head at *
  grind

/-- The packet in the slot of a number of the window has that number. -/
theorem Ring.seqNr_eq {k : Kernel} (h : k.Ring) {q : UInt16} {p : OutgoingPacket} (hp : k.outbuf.slot q = some p)
    (hq : q - k.head < k.cur) : p.hdr.seqNr = q :=
  (h.same_eq (h.occupied q p hp).2 hq (h.occupied q p hp).1).symm

/-- The `i`-th number of the window. -/
def nth (k : Kernel) (i : ℕ) : UInt16 := k.head + UInt16.ofNat i

/-- The head has left. -/
theorem head_pop (k : Kernel) : k.pop.head = k.head + 1 := by
  unfold head pop
  grind

theorem nth_pop (k : Kernel) (i : ℕ) : k.pop.nth i = k.nth (i + 1) := by
  unfold nth
  rw [head_pop, UInt16.ofNat_add]
  grind

theorem toNat_nth (k : Kernel) {i : ℕ} (hi : i < 2 ^ 16) : (k.nth i - k.head).toNat = i :=
  toNat_offset k.head hi

theorem nth_mem (k : Kernel) {i : ℕ} (hi : i < k.cur.toNat) : k.nth i - k.head < k.cur := by
  rw [UInt16.lt_iff_toNat_lt, toNat_nth k (hi.trans k.cur.toNat_lt)]
  exact hi

theorem nth_offset (k : Kernel) (q : UInt16) : k.nth (q - k.head).toNat = q := by
  unfold nth
  rw [UInt16.ofNat_toNat]
  grind

theorem Ring.offset_nth {k : Kernel} (h : k.Ring) {i : ℕ} (hi : i < k.cur.toNat) {p : OutgoingPacket}
    (hp : k.outbuf.slot (k.nth i) = some p) : (p.hdr.seqNr - k.head).toNat = i := by
  rw [h.seqNr_eq hp (k.nth_mem hi), toNat_nth k (hi.trans k.cur.toNat_lt)]

theorem nth_zero (k : Kernel) : k.nth 0 = k.head := by
  unfold nth
  rw [show UInt16.ofNat 0 = 0 from rfl]
  grind

/-- The `i`-th number of the window, counted from its end. -/
theorem mem_window_back (k : Kernel) {i : ℕ} (hi : i < k.cur.toNat) :
    k.seqNr - 1 - UInt16.ofNat i - k.head < k.cur := by
  refine (mem_window_iff _ k.seqNr k.cur).2 (UInt16.lt_iff_toNat_lt.2 ?_)
  have h : k.seqNr - 1 - (k.seqNr - 1 - UInt16.ofNat i) = UInt16.ofNat i := by grind
  have hlt := k.cur.toNat_lt
  rw [h, UInt16.toNat_ofNat']
  exact (Nat.mod_le _ _).trans_lt hi

theorem toNat_back (k : Kernel) {i : ℕ} (hi : i < k.cur.toNat) :
    (k.seqNr - 1 - (k.seqNr - 1 - UInt16.ofNat i)).toNat = i := by
  have h : k.seqNr - 1 - (k.seqNr - 1 - UInt16.ofNat i) = UInt16.ofNat i := by grind
  have hlt := k.cur.toNat_lt
  rw [h, UInt16.toNat_ofNat', Nat.mod_eq_of_lt (by omega)]

/-! The bytes in flight. -/

/-- The sum over the window changes by the slot that changes. -/
theorem outstanding_setSlot {k : Kernel} (h : k.Ring) {r : UInt16} (hr : r - k.head < k.cur)
    (x : Option OutgoingPacket) :
    outstanding { k with outbuf := k.outbuf.setSlot r x } + UtpSocket.flightOf (k.outbuf.slot r) =
      k.outstanding + UtpSocket.flightOf x := by
  have hr' := (mem_window_iff r k.seqNr k.cur).1 hr
  set j := (k.seqNr - 1 - r).toNat with hj
  have hjc : j < k.cur.toNat := UInt16.lt_iff_toNat_lt.1 hr'
  have hrj : k.seqNr - 1 - UInt16.ofNat j = r := by
    rw [hj, UInt16.ofNat_toNat]
    grind
  have hmem : j ∈ Finset.range k.cur.toNat := Finset.mem_range.2 hjc
  have hrest : ∀ i ∈ (Finset.range k.cur.toNat).erase j,
      UtpSocket.flightOf ((k.outbuf.setSlot r x).slot (k.seqNr - 1 - UInt16.ofNat i)) =
        UtpSocket.flightOf (k.outbuf.slot (k.seqNr - 1 - UInt16.ofNat i)) := by
    intro i hi
    obtain ⟨hne, hi⟩ := Finset.mem_erase.1 hi
    rw [slot_setSlot, if_neg]
    intro hs
    have hi := Finset.mem_range.1 hi
    rw [hj, h.same_eq hs hr (k.mem_window_back hi), k.toNat_back hi] at hne
    exact hne rfl
  unfold outstanding
  rw [← Finset.add_sum_erase _ _ hmem, ← Finset.add_sum_erase (Finset.range k.cur.toNat) (fun i =>
    UtpSocket.flightOf (k.outbuf.slot (k.seqNr - 1 - UInt16.ofNat i))) hmem]
  dsimp only
  rw [Finset.sum_congr rfl hrest, hrj, slot_setSlot_self]
  omega

/-- The head's share of the sum. -/
theorem outstanding_pop {k : Kernel} (hc : 0 < k.cur) :
    k.outstanding = k.pop.outstanding + UtpSocket.flightOf k.headSlot := by
  have hpred := UtpSocket.toNat_pred hc
  have hpos : 0 < k.cur.toNat := UInt16.lt_iff_toNat_lt.1 hc
  have hlast : k.seqNr - 1 - UInt16.ofNat (k.cur.toNat - 1) = k.head := by
    rw [← hpred, UInt16.ofNat_toNat]
    unfold head
    grind
  have hsucc : k.cur.toNat = (k.cur - 1).toNat + 1 := by omega
  unfold outstanding
  rw [hsucc, Finset.sum_range_succ, hpred, hlast]
  unfold pop
  dsimp only
  rw [hpred]
  rfl

/-- A packet's bytes are part of the sum. -/
theorem flightOf_le {k : Kernel} {r : UInt16} (hr : r - k.head < k.cur) :
    UtpSocket.flightOf (k.outbuf.slot r) ≤ k.outstanding := by
  have hr' := (mem_window_iff r k.seqNr k.cur).1 hr
  have hmem : (k.seqNr - 1 - r).toNat ∈ Finset.range k.cur.toNat :=
    Finset.mem_range.2 (UInt16.lt_iff_toNat_lt.1 hr')
  have hback : k.seqNr - 1 - UInt16.ofNat (k.seqNr - 1 - r).toNat = r := by
    rw [UInt16.ofNat_toNat]
    grind
  have := Finset.single_le_sum (f := fun i =>
    UtpSocket.flightOf (k.outbuf.slot (k.seqNr - 1 - UInt16.ofNat i))) (fun _ _ => Nat.zero_le _) hmem
  rwa [hback] at this

theorem flightOf_sent {p : OutgoingPacket} (ht : 0 < p.transmissions) (hn : p.needResend = false) :
    UtpSocket.flightOf (some p) = p.payload :=
  if_neg (by simp [ht.ne', hn])

theorem flightOf_idle {p : OutgoingPacket} (h : p.transmissions = 0 ∨ p.needResend = true) :
    UtpSocket.flightOf (some p) = 0 := if_pos h

/-! A slot of the window changes. -/

namespace Ring

variable {k : Kernel} {q : UInt16} {p : OutgoingPacket}

theorem slot_seqNr (h : k.Ring) (hp : k.outbuf.slot q = some p) :
    k.outbuf.slot p.hdr.seqNr = some p := by
  rw [← (h.occupied q p hp).2.slot_eq, hp]

/-- A packet is in the slot of its place in the window. -/
theorem slot_nth (h : k.Ring) (hp : k.outbuf.slot q = some p) :
    (p.hdr.seqNr - k.head).toNat < k.cur.toNat ∧
      k.outbuf.slot (k.nth (p.hdr.seqNr - k.head).toNat) = some p := by
  refine ⟨UInt16.lt_iff_toNat_lt.1 (h.occupied q p hp).1, ?_⟩
  rw [nth_offset]
  exact h.slot_seqNr hp

/-- A slot takes another packet of the same number, or none, and the sum follows. -/
theorem replace (h : k.Ring) (hp : k.outbuf.slot q = some p) {x : Option OutgoingPacket}
    (hx : ∀ p', x = some p' → p'.hdr.seqNr = p.hdr.seqNr) {n : ℕ}
    (hn : n + UtpSocket.flightOf (some p) = k.inFlight + UtpSocket.flightOf x) :
    Ring { k with outbuf := k.outbuf.setSlot q x, inFlight := n } := by
  obtain ⟨hwin, hsame⟩ := h.occupied q p hp
  have hsum := outstanding_setSlot h hwin x
  rw [h.slot_seqNr hp, ← h.inFlight, ← hsame.setSlot_eq] at hsum
  refine ⟨h.length_le, h.length_lt, h.length_size, fun r p' hr => ?_, ?_, h.unused⟩
  · rw [slot_setSlot] at hr
    split at hr
    · rename_i hqr
      rw [hx p' hr]
      exact ⟨hwin, hqr.symm.trans hsame⟩
    · exact h.occupied r p' hr
  · show n = outstanding { k with outbuf := k.outbuf.setSlot q x }
    omega

/-- An acknowledged packet leaves its slot. -/
theorem clear (h : k.Ring) (hp : k.outbuf.slot q = some p) (ht : 0 < p.transmissions) :
    (k.clear q p).Ring := by
  refine h.replace hp (x := none) (by simp) ?_
  have hle := flightOf_le (h.occupied q p hp).1
  rw [h.slot_seqNr hp, ← h.inFlight] at hle
  unfold freed
  split
  · rw [flightOf_idle (.inr ‹_›)]
    rfl
  · rename_i hn
    rw [flightOf_sent ht (Bool.eq_false_iff.2 hn)] at hle ⊢
    show _ = k.inFlight + 0
    omega

/-- `remove_in_flight` finds the bytes of a packet in flight. -/
theorem removal (h : k.Ring) (hp : k.outbuf.slot q = some p) (ht : 0 < p.transmissions) :
    k.removal p = [] := by
  have hle := flightOf_le (h.occupied q p hp).1
  rw [h.slot_seqNr hp, ← h.inFlight] at hle
  unfold Kernel.removal
  rw [if_pos]
  by_cases hn : p.needResend
  · exact .inl hn
  · rw [flightOf_sent ht (Bool.eq_false_iff.2 hn)] at hle
    exact .inr hle

/-- An empty head slot leaves the window. -/
theorem pop (h : k.Ring) (hc : 0 < k.cur) (hp : k.headSlot = none) : k.pop.Ring := by
  have hpred := UtpSocket.toNat_pred hc
  have hle := h.length_le
  have hsize := h.length_size
  have hsum := outstanding_pop hc
  rw [hp, ← h.inFlight] at hsum
  refine ⟨?_, fun hf => ?_, ?_, fun r p hr => ?_, hsum, fun hs => ?_⟩
  · show (k.cur - 1).toNat ≤ 1024
    omega
  · have := h.length_lt hf
    show (k.cur - 1).toNat < 1024
    omega
  · show (k.cur - 1).toNat ≤ k.outbuf.size
    omega
  · obtain ⟨hwin, hsame⟩ := h.occupied r p hr
    refine ⟨?_, hsame⟩
    have hne : p.hdr.seqNr ≠ k.head := by
      intro he
      rw [he] at hsame
      have := hsame.slot_eq
      rw [show k.outbuf.slot r = some p from hr, show k.outbuf.slot k.head = none from hp] at this
      cases this
    unfold head at *
    show p.hdr.seqNr - (k.seqNr - (k.cur - 1)) < k.cur - 1
    grind
  · have h0 := (h.unused hs).1
    rw [h0] at hc
    exact absurd hc (by decide)

theorem toNat_succ {c : UInt16} (h : c.toNat < 1024) : (c + 1).toNat = c.toNat + 1 := by
  rw [UInt16.toNat_add, UInt16.toNat_one]
  omega

/-- The slots of the window are the same in the ring that has grown for one more packet. -/
theorem slot_queue (h : k.Ring) {r : UInt16} (hr : r - k.head < k.cur) :
    (k.queue p).outbuf.slot r = k.outbuf.slot r := by
  obtain ⟨hge, hlt⟩ := k.outbuf.size_ensureSize k.seqNr.toNat k.cur
  have hr' := UInt16.lt_iff_toNat_lt.1 hr
  have hsize := h.length_size
  have hseq : k.seqNr - k.head = k.cur := by
    unfold head
    grind
  show ((k.outbuf.ensureSize k.seqNr.toNat k.cur).setSlot k.seqNr (some p)).slot r = _
  rw [slot_setSlot, if_neg]
  · exact k.outbuf.slot_ensureSize k.seqNr k.cur r (hr'.trans_le hsize)
  · intro hs
    have := hs.eq (s := k.head) (by rw [hseq]; exact hlt) (by omega)
    rw [← this, hseq] at hr
    exact absurd hr (by grind)

/-- A packet is queued behind the window; `fin` and `closing` are the flags afterwards. -/
theorem queue (h : k.Ring) (hs : p.hdr.seqNr = k.seqNr) (ht : p.transmissions = 0)
    (hu : k.state ≠ .uninitialized) (hc : k.cur.toNat < 1024) {fin closing : Bool}
    (hfin : fin = false → k.cur.toNat < 1023) :
    Ring { k.queue p with finSent := fin, closeRequested := closing } := by
  obtain ⟨hge, hlt⟩ := k.outbuf.size_ensureSize k.seqNr.toNat k.cur
  have hsucc := toNat_succ hc
  have hhead : (k.seqNr + 1) - (k.cur + 1) = k.head := by
    unfold head
    grind
  refine ⟨?_, fun hf => ?_, ?_, fun q p' hq => ?_, ?_, fun hst => absurd hst hu⟩
  · show (k.cur + 1).toNat ≤ 1024
    omega
  · have := hfin hf
    show (k.cur + 1).toNat < 1024
    omega
  · show (k.cur + 1).toNat ≤ (k.outbuf.ensureSize k.seqNr.toNat k.cur).size
    omega
  · show p'.hdr.seqNr - ((k.seqNr + 1) - (k.cur + 1)) < k.cur + 1 ∧
      (k.outbuf.ensureSize k.seqNr.toNat k.cur).Same q p'.hdr.seqNr
    rw [hhead]
    have hq : ((k.outbuf.ensureSize k.seqNr.toNat k.cur).setSlot k.seqNr (some p)).slot q =
      some p' := hq
    rw [slot_setSlot] at hq
    split at hq
    · rename_i hsame
      obtain rfl : p = p' := Option.some.inj hq
      rw [hs]
      refine ⟨?_, hsame.symm⟩
      refine UInt16.lt_iff_toNat_lt.2 ?_
      rw [show k.seqNr - k.head = k.cur by unfold head; grind]
      omega
    · obtain ⟨r, hr, hqr, hslot⟩ := exists_of_slot_ensureSize hq
      obtain ⟨hwin, hsame⟩ := h.occupied r p' hslot
      have hwin' := UInt16.lt_iff_toNat_lt.1 hwin
      have hrp := hsame.eq (s := k.head) hr (hwin'.trans_le h.length_size)
      rw [hrp] at hqr
      exact ⟨UInt16.lt_iff_toNat_lt.2 (by omega), hqr⟩
  · show k.inFlight = outstanding (k.queue p)
    rw [h.inFlight]
    have hback (i : ℕ) : (k.seqNr + 1) - 1 - UInt16.ofNat (i + 1) = k.seqNr - 1 - UInt16.ofNat i := by
      rw [UInt16.ofNat_add]
      grind
    have hlast : (k.queue p).outbuf.slot k.seqNr = some p := slot_setSlot_self _ _ _
    unfold outstanding
    show _ = ∑ i ∈ Finset.range (k.cur + 1).toNat,
      UtpSocket.flightOf ((k.queue p).outbuf.slot ((k.seqNr + 1) - 1 - UInt16.ofNat i))
    rw [hsucc, Finset.sum_range_succ']
    simp only [hback]
    have hzero : (k.seqNr + 1) - 1 - UInt16.ofNat 0 = k.seqNr := by
      rw [show UInt16.ofNat 0 = 0 from rfl]
      grind
    rw [hzero, hlast, flightOf_idle (.inl ht), Nat.add_zero]
    refine Finset.sum_congr rfl fun i hi => ?_
    rw [h.slot_queue (k.mem_window_back (Finset.mem_range.1 hi))]

end Ring

/-! The steps. -/

/-- The assertions on the window. -/
def onWindow : Assertion → Bool
  | .incomingHead | .timeoutHead | .timeoutResend | .advanceHead | .invariantInFlight
  | .advanceInFlight | .idleInFlight | .removeInFlight | .eackHead => true
  | _ => false

variable {k k' : Kernel} {acts : List Act}

/-- The window empties from its head; it stops where the head is a packet again. -/
theorem Pops.ring {n : ℕ} (h : Pops n k acts k') (hk : k.Ring) :
    k'.Window ∧ ∀ a ∈ acts, ∀ e ∈ a.effects, False := by
  induction h with
  | @done n k h =>
    refine ⟨⟨hk, fun hc => ?_⟩, by simp⟩
    rcases h with h | ⟨p, hp, -⟩
    · exact absurd h hc
    · rw [hp]
      rfl
  | @acked n k p acts k' hcur hp ht h ih =>
    rw [hk.removal hp ht]
    refine ih ((hk.clear hp ht).pop hcur ?_)
    exact slot_setSlot_self _ _ _
  | empty hcur hp h ih => exact ih (hk.pop hcur hp)
  | @check n k acts k' h hr ih =>
    refine absurd (fun h0 : k.cur = 0 => ?_) h
    rw [hk.inFlight]
    unfold outstanding
    rw [h0]
    rfl

theorem Ring.ackState (h : k.Ring) (pp : ParsedPacket) : (k.ackState pp).Ring := by
  have hst : (k.ackState pp).state = .uninitialized → k.state = .uninitialized := by
    unfold Kernel.ackState
    dsimp only
    split_ifs <;> simp
  obtain ⟨st, f, he⟩ := k.ackState_eq pp
  rw [he] at hst ⊢
  exact ⟨h.length_le, h.length_lt, h.length_size, h.occupied, h.inFlight, fun hs => h.unused (hst hs)⟩

/-- The watched assertions on the window hold. -/
theorem Window.asserted (h : k.Window) {a : Assertion} (ha : onWindow a) : k.Asserted a := by
  have hhead : k.cur = 0 ∨ k.headSlot.isSome := or_iff_not_imp_left.2 h.head_some
  have hidle : k.cur = 0 → k.inFlight = 0 := by
    intro h0
    rw [h.inFlight]
    unfold outstanding
    rw [h0]
    rfl
  cases a <;> first | exact hhead | exact hidle | exact h.inFlight.symm | trivial

/-- Fields the window does not look at. -/
theorem Window.congr (h : k.Window) (hq : k'.seqNr = k.seqNr) (hw : k'.cur = k.cur)
    (hb : k'.outbuf = k.outbuf) (hf : k'.inFlight = k.inFlight) (hfin : k'.finSent = k.finSent)
    (hst : k'.state = .uninitialized → k.state = .uninitialized) : k'.Window := by
  have hhead : k'.head = k.head := by
    unfold head
    rw [hq, hw]
  refine ⟨⟨?_, ?_, ?_, ?_, ?_, ?_⟩, ?_⟩
  · rw [hw]
    exact h.length_le
  · rw [hw, hfin]
    exact h.length_lt
  · rw [hw, hb]
    exact h.length_size
  · rw [hw, hb, hhead]
    exact h.occupied
  · rw [hf, h.inFlight]
    unfold outstanding
    rw [hq, hw, hb]
  · rw [hw, hfin]
    exact fun hs => h.unused (hst hs)
  · unfold headSlot
    rw [hw, hb, hhead]
    exact h.head_some

/-- A packet takes the place of one with its number. -/
theorem Window.replace (h : k.Window) {q : UInt16} {p r : OutgoingPacket}
    (hp : k.outbuf.slot q = some p) (hs : r.hdr.seqNr = p.hdr.seqNr) {n : ℕ}
    (hn : n + UtpSocket.flightOf (some p) = k.inFlight + UtpSocket.flightOf (some r)) :
    Window { k with outbuf := k.outbuf.setSlot q (some r), inFlight := n } := by
  refine ⟨h.toRing.replace hp (by rintro _ ⟨⟩; exact hs) hn, fun hc => ?_⟩
  show ((k.outbuf.setSlot q (some r)).slot k.head).isSome
  rw [slot_setSlot]
  split
  · rfl
  · exact h.head_some hc

/-- A window that was empty, or has its head in place, stays so behind a queued packet. -/
theorem Window.queue (h : k.Window) {p : OutgoingPacket} (hs : p.hdr.seqNr = k.seqNr)
    (ht : p.transmissions = 0) (hu : k.state ≠ .uninitialized) (hc : k.cur.toNat < 1024)
    {f c : Bool} (hfin : f = false → k.cur.toNat < 1023) :
    Window { k.queue p with finSent := f, closeRequested := c } := by
  refine ⟨h.toRing.queue hs ht hu hc hfin, fun _ => ?_⟩
  have hhead : (k.seqNr + 1) - (k.cur + 1) = k.head := by
    unfold head
    grind
  show ((k.queue p).outbuf.slot ((k.seqNr + 1) - (k.cur + 1))).isSome
  rw [hhead]
  by_cases h0 : k.cur = 0
  · have : k.head = k.seqNr := by
      unfold head
      rw [h0]
      grind
    rw [this]
    show ((SequenceBuffer.setSlot _ k.seqNr (some p)).slot k.seqNr).isSome
    rw [slot_setSlot_self]
    rfl
  · rw [h.toRing.slot_queue]
    · exact h.head_some h0
    · have : k.head - k.head = 0 := by grind
      rw [this]
      grind

/-- Sending a packet counts it once. -/
theorem Window.transmit (h : k.Window) {q : UInt16} {p p' : OutgoingPacket} {k₀ : Kernel}
    (hp : k.outbuf.slot q = some p) (hp' : k₀.Sent p p') : (k.transmit q p p').Window := by
  refine h.replace hp hp'.seqNr ?_
  rw [flightOf_sent (by rw [hp'.transmissions]; omega) hp'.needResend]
  have hpay : p'.payload = p.payload := by
    unfold OutgoingPacket.payload
    rw [hp'.body]
  rw [hpay]
  split
  · rw [flightOf_idle ‹_›]
    rfl
  · rename_i hn
    push Not at hn
    rw [flightOf_sent (Nat.pos_of_ne_zero hn.1) (Bool.eq_false_iff.2 hn.2)]

theorem window_dial (h : k.Window) (hu : k.state = .uninitialized) (seed : UInt32) (seq : UInt16) :
    (k.dial seed seq).Window := by
  obtain ⟨h0, hf⟩ := h.unused hu
  refine ⟨⟨h.length_le, h.length_lt, h.length_size, fun q p hp => ?_, ?_, fun hs => by cases hs⟩,
    fun hc => absurd h0 hc⟩
  · have := (h.occupied q p hp).1
    rw [h0] at this
    exact absurd this (by grind)
  · rw [show (k.dial seed seq).inFlight = k.inFlight from rfl, h.inFlight]
    unfold outstanding
    rw [show (k.dial seed seq).cur = k.cur from rfl, h0]
    rfl

theorem watched_of_onWindow : ∀ a, onWindow a → a.watched := by
  intro a ha
  cases a <;> first | rfl | cases ha

/-- The drain of the reorder buffer leaves the send window alone. -/
theorem Drains.window (hd : Drains k acts k') (h : k.Window) :
    k'.Window ∧ ∀ a ∈ acts, ∀ e ∈ a.effects, Spares onWindow e := by
  induction hd with
  | eof he => exact ⟨h.congr rfl rfl rfl rfl rfl id, spares_eof⟩
  | idle he hr => exact ⟨h, by simp⟩
  | @release k p acts k' he hr hp hd ih =>
    obtain ⟨h1, h2⟩ := ih (h.congr rfl rfl rfl rfl rfl id)
    exact ⟨h1, spares_append (spares_readAct k _) h2⟩

theorem ne_uninitialized {st : ConnState} (h : k.state = st) (hst : st ≠ .uninitialized) :
    k.state ≠ .uninitialized := by
  rw [h]
  exact hst

theorem IsOpen.ne_uninitialized (h : k.IsOpen) : k.state ≠ .uninitialized := by
  rcases h with h | h <;> rw [h] <;> simp

/-- Every step keeps the window and fails none of its assertions. -/
theorem window_micro {x : Input} (h : k.Window) (hm : Micro x k acts k') :
    k'.Window ∧ ∀ a ∈ acts, ∀ e ∈ a.effects, Spares onWindow e := by
  cases hm with
  | silent hq =>
    exact ⟨h, spares_quiet watched_of_onWindow hq⟩
  | fail ha =>
    exact ⟨h, spares_fail (Bool.eq_false_iff.2 fun hw => ha (h.asserted hw))⟩
  | failBehind => exact ⟨h, spares_fail rfl⟩
  | failGap => exact ⟨h, spares_fail rfl⟩
  | writable hs => exact ⟨h.congr rfl rfl rfl rfl rfl (by simp), by simp⟩
  | full hs => exact ⟨h.congr rfl rfl rfl rfl rfl (by simp), by simp⟩
  | destroy => exact ⟨h.congr rfl rfl rfl rfl rfl (by simp), by simp⟩
  | timeout =>
    exact ⟨h.congr rfl rfl rfl rfl rfl (by simp [k.gaveUp_ne]), spares_error _⟩
  | broken =>
    refine ⟨h.congr rfl rfl rfl rfl rfl ?_, spares_error _⟩
    dsimp only
    split <;> simp
  | readShutdown => exact ⟨h.congr rfl rfl rfl rfl rfl id, by simp⟩
  | closeAgain hf ho =>
    refine ⟨h.congr rfl rfl rfl rfl rfl ?_, by simp⟩
    dsimp only
    split
    · simp
    · exact id
  | @accept k id seq peer hu =>
    have hd := window_dial h hu 0 seq
    exact ⟨hd.congr rfl rfl rfl rfl rfl (by simp), by simp⟩
  | @connect k seed seq p p' flags hu hp hp' =>
    obtain ⟨h0, -⟩ := h.unused hu
    have h0' : (k.dial seed seq).cur.toNat = 0 := congrArg UInt16.toNat h0
    have hq := (window_dial h hu seed seq).queue (f := k.finSent) (c := k.closeRequested)
      hp.seqNr hp.transmissions (by simp [dial]) (by omega) (by omega)
    refine ⟨Window.transmit (k := (k.dial seed seq).queue p) hq ?_ hp', spares_send _ _⟩
    exact slot_setSlot_self _ _ _
  | transmit hp hp' => exact ⟨h.transmit hp hp', spares_send _ _⟩
  | queue hs hf hc hp =>
    have hlt := UInt16.lt_iff_toNat_lt.1 hc
    exact ⟨h.queue (f := k.finSent) (c := k.closeRequested) hp.seqNr hp.transmissions
      (ne_uninitialized hs (by simp)) (lt_trans hlt (by decide)) (fun _ => hlt), spares_take _⟩
  | extend hs hf hc hp ht hp' =>
    refine ⟨h.replace hp hp'.seqNr (n := k.inFlight) ?_, spares_take _⟩
    rw [flightOf_idle (.inl ht), flightOf_idle (.inl (hp'.transmissions.trans ht))]
  | queueFin ho hf hp hb =>
    exact ⟨h.queue hp.seqNr hp.transmissions ho.ne_uninitialized (h.length_lt hf) (by simp),
      by simp⟩
  | rewind => exact ⟨h.congr rfl rfl rfl rfl rfl id, by simp⟩
  | @mark k q p hc hp ht hn =>
    rw [h.removal hp ht]
    refine ⟨h.replace hp (r := { p with needResend := true }) rfl ?_, by simp⟩
    have hle := flightOf_le (h.occupied q p hp).1
    rw [h.slot_seqNr hp, ← h.inFlight] at hle
    rw [flightOf_sent ht hn] at hle ⊢
    rw [flightOf_idle (.inr rfl)]
    omega
  | scan => exact ⟨h.congr rfl rfl rfl rfl rfl id, by simp⟩
  | advance hs hp =>
    obtain ⟨h1, h2⟩ := hp.ring (h.toRing.ackState _)
    exact ⟨h1, fun a ha e he => (h2 a ha e he).elim⟩
  | @failEack x k v hc hw hs =>
    obtain ⟨hv, hne⟩ := hw.lt hc
    exact absurd (h.same_eq hs hv (by grind)) hne
  | @sack pp k mask bits v p hm hb hc hv hw hp ht =>
    rw [h.removal hp ht]
    refine ⟨⟨h.clear hp ht, fun _ => ?_⟩, by simp⟩
    obtain ⟨hv, hne⟩ := hw.lt hc
    show ((k.outbuf.setSlot v none).slot k.head).isSome
    rw [slot_setSlot, if_neg]
    · exact h.head_some (by grind)
    · exact fun hs => hne (h.same_eq hs hv (by grind))
  | state => exact ⟨h, spares_send _ _⟩
  | keepAlive => exact ⟨h, spares_send _ _⟩
  | synSentAck hs => exact ⟨h.congr rfl rfl rfl rfl rfl id, by simp⟩
  | noteFin => exact ⟨h.congr rfl rfl rfl rfl rfl id, by simp⟩
  | @deliver pp k acts k' ho hd ht hf hdr =>
    obtain ⟨h1, h2⟩ := hdr.window (h.congr rfl rfl rfl rfl rfl id)
    exact ⟨h1, spares_append (spares_readAct k _) h2⟩
  | clearReorder => exact ⟨h.congr rfl rfl rfl rfl rfl id, by simp⟩
  | growInbuf => exact ⟨h.congr rfl rfl rfl rfl rfl id, by simp⟩
  | failStore => exact ⟨h, spares_fail rfl⟩
  | store => exact ⟨h.congr rfl rfl rfl rfl rfl id, by simp⟩

theorem Window.expect (h : k.Window) (pp : ParsedPacket) : (k.expect pp).Window := by
  unfold Kernel.expect
  split
  · exact h.congr rfl rfl rfl rfl rfl id
  · exact h

theorem expect_synSent (pp : ParsedPacket) (h : (k.expect pp).state = .synSent) :
    (k.expect pp).ackNr = pp.seqNr - 1 := by
  unfold Kernel.expect at *
  split at h
  · rw [if_pos ‹_›]
  · exact absurd h ‹_›

theorem initial_window : initial.Window where
  length_le := Nat.zero_le _
  length_lt := fun _ => Nat.zero_lt_succ _
  length_size := Nat.zero_le _
  occupied q p h := by
    rw [show initial.outbuf.slot q = none from get_initialized _ _ _ _] at h
    cases h
  inFlight := rfl
  unused := fun _ => ⟨rfl, rfl⟩
  head_some := fun h => absurd rfl h

end Kernel

namespace UtpSocket

/-- The send window as the source describes it. -/
structure WindowOk (s : UtpSocket) : Prop where
  length : s.send.curWindowPackets.toNat ≤ min OUTGOING_BUFFER_MAX_SIZE s.send.outbuf.size
  occupied : ∀ i p, s.send.outbuf.get i = some p →
    p.hdr.seqNr - s.windowStart < s.send.curWindowPackets ∧
      s.send.outbuf.idx i = s.send.outbuf.idx p.hdr.seqNr.toNat
  head : s.headPresent
  inFlight : s.cc.curWindow = s.outstandingBytes

theorem windowOk_of_window {s : UtpSocket} (h : s.kernel.Window) : s.WindowOk where
  length := le_min h.length_le h.length_size
  occupied i p hp := by
    rw [get_eq_slot] at hp
    obtain ⟨h1, h2⟩ := h.occupied _ p hp
    exact ⟨h1, (idx_ofInt _ i).trans ((idx_eq_iff_same _ _ _).2 h2)⟩
  head := (headPresent_kernel s).2 (or_iff_not_imp_left.2 h.head_some)
  inFlight := h.inFlight.trans (outstandingBytes_kernel s).symm

theorem window_runs {x : Input} {b : Bytes} {s t : UtpSocket} (h : Runs x b s t) (hs : s.kernel.Window) :
    t.kernel.Window := by
  obtain ⟨acts, ht, -⟩ := h
  exact ht.invariant (fun _ _ _ hk hm => (Kernel.window_micro hk hm).1) hs

theorem window_run {targetDelay rcvbuf sndbuf : ℕ} {calls : List Call} {s : UtpSocket}
    (h : Run targetDelay rcvbuf sndbuf calls s) :
    s.kernel.Window ∧ ∀ c ∈ calls, ∀ e ∈ c.effects, Kernel.Spares Kernel.onWindow e :=
  run_invariant (G := fun _ => True) (fun x k acts k' _ hk hm => (Kernel.window_micro hk hm).1)
    (fun x k acts k' _ hk hm => (Kernel.window_micro hk hm).2) h (fun _ _ _ _ => trivial)
    (by rw [kernel_new]; exact Kernel.initial_window)

/-- In every run, whatever the peer sends, the send window is well formed after each
call and no assertion on it ever fails. -/
theorem sendWindow_invariant {targetDelay rcvbuf sndbuf : ℕ} {calls : List Call} {s : UtpSocket}
    (h : Run targetDelay rcvbuf sndbuf calls s) :
    s.WindowOk ∧ ∀ c ∈ calls, ∀ a, Kernel.onWindow a → Effect.assertFailed a ∉ c.effects := by
  obtain ⟨hw, hs⟩ := window_run h
  refine ⟨windowOk_of_window hw, fun c hc a ha hmem => ?_⟩
  have := hs c hc _ hmem a rfl
  rw [ha] at this
  cases this

/-- Two empty packets and one of a byte are in flight, and the second is acknowledged by an EACK. -/
def holed : UtpSocket :=
  perform stillHost dialled [.processIncoming (statePacket 100 0), .writev [], .writev [], .writev [],
    .writev [[1]], .writev [], .processIncoming (eackPacket 100 0 [1, 0, 0, 0])]

theorem run_holed : ∃ calls, Run CCONTROL_TARGET 4096 4096 calls holed := run_performed (by simp [Op.Enabled])

/-- A window of four packets with a hole, the last one not yet sent. -/
theorem sendWindow_invariant_holed :
    (holed.send.curWindowPackets = 4 ∧ (holed.send.outbuf.get 2).isNone ∧ holed.cc.curWindow = 1) ∧
      holed.WindowOk ∧ ∃ calls, Run CCONTROL_TARGET 4096 4096 calls holed ∧
        ∀ c ∈ calls, ∀ a, Kernel.onWindow a → Effect.assertFailed a ∉ c.effects := by
  obtain ⟨calls, h⟩ := run_holed
  obtain ⟨hw, ha⟩ := sendWindow_invariant h
  exact ⟨by decide +kernel, hw, calls, h, ha⟩

end UtpSocket

end Utp
