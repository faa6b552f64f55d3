import LibUtp.Kernel.Run

/-! The reorder buffer: while the end of the stream has not been reached, its count,
its slots and the next expected number agree, whatever the peer sends. -/

namespace Utp

open Lts SequenceBuffer

namespace Kernel

/-- The buffer holds payloads of packets from `R`, at least `m` and at most the mask
past the last number in order. -/
structure Reorder (R : ParsedPacket → Prop) (m : ℕ) (k : Kernel) : Prop where
  count : k.reorderCount.toNat = k.inbuf.occupied
  stored : ∀ q x, k.inbuf.slot q = some x → ∃ pp, R pp ∧ x.data = pp.payload ∧
    k.inbuf.Same q pp.seqNr ∧ m ≤ (pp.seqNr - k.ackNr).toNat ∧
      (pp.seqNr - k.ackNr).toNat ≤ k.inbuf.mask

/-- The buffer until the end of the stream. Before a connection is set up it is empty. -/
structure Buffer (R : ParsedPacket → Prop) (k : Kernel) : Prop where
  reorder : k.gotFinReached = false → k.Reorder R 2
  early : k.state = .uninitialized ∨ k.state = .synSent →
    k.reorderCount = 0 ∧ k.gotFinReached = false

variable {R : ParsedPacket → Prop} {m : ℕ} {k k' : Kernel} {acts : List Act}

theorem mask_lt_size {α : Type} (b : SequenceBuffer α) : b.mask < b.size := by
  have := b.size_pos
  unfold mask
  omega

/-- The distance of a packet, as a number past the last one in order. -/
theorem toNat_distance {pp : ParsedPacket} (hz : (k.seqDistance pp).toNat + 1 < k.inbuf.size) :
    (pp.seqNr - k.ackNr).toNat = (k.seqDistance pp).toNat + 1 := by
  have hle := k.inbuf.size_le
  have he : pp.seqNr - k.ackNr = k.seqDistance pp + 1 := by
    unfold seqDistance
    grind
  rw [he, UInt16.toNat_add, UInt16.toNat_one]
  omega

/-- A packet out of order does not share the slot of the next one in order. -/
theorem not_same_gap {pp : ParsedPacket} (hd : k.seqDistance pp ≠ 0)
    (hz : (k.seqDistance pp).toNat + 1 < k.inbuf.size) :
    ¬ k.inbuf.Same pp.seqNr (k.ackNr + 1) := by
  intro hs
  have hdist := toNat_distance hz
  have hpos : (k.seqDistance pp).toNat ≠ 0 := fun h0 => hd (UInt16.toNat.inj h0)
  have h1 : (k.ackNr + 1 - k.ackNr).toNat = 1 := by
    rw [show k.ackNr + 1 - k.ackNr = 1 by grind]
    rfl
  have := hs.eq (s := k.ackNr) (by omega) (by omega)
  rw [this, h1] at hdist
  omega

namespace Reorder

/-- Nothing is stored nearer than `m`. -/
theorem slot_none (h : k.Reorder R m) {q : UInt16} (hq : (q - k.ackNr).toNat < m) :
    k.inbuf.slot q = none := by
  by_contra hne
  obtain ⟨x, hx⟩ := Option.ne_none_iff_exists'.1 hne
  obtain ⟨pp, -, -, hs, h1, h2⟩ := h.stored q x hx
  have hlt := mask_lt_size k.inbuf
  have := hs.eq (s := k.ackNr) (by omega) (by omega)
  rw [this] at hq
  omega

theorem gapSlot (h : k.Reorder R 2) : k.gapSlot = none := by
  refine h.slot_none ?_
  have : k.ackNr + 1 - k.ackNr = 1 := by grind
  rw [this]
  decide

theorem congr (h : k.Reorder R m) (hc : k'.reorderCount = k.reorderCount)
    (hb : k'.inbuf = k.inbuf) (ha : k'.ackNr = k.ackNr) : k'.Reorder R m := by
  refine ⟨by rw [hc, hb]; exact h.count, ?_⟩
  rw [hb, ha]
  exact h.stored

/-- The buffer is empty when nothing is counted. -/
theorem empty (h : k.Reorder R m) (h0 : k.reorderCount = 0) (q : UInt16) :
    k.inbuf.slot q = none := by
  refine slot_of_occupied_zero ?_ q
  rw [← h.count, h0]
  rfl

/-- An empty buffer is in order with any expected number. -/
theorem of_empty (h0 : k.reorderCount = 0) (h : k.inbuf.occupied = 0) : k.Reorder R m := by
  refine ⟨by rw [h0, h]; rfl, fun q x hx => ?_⟩
  rw [slot_of_occupied_zero h] at hx
  cases hx

theorem toNat_sub_succ {s a : UInt16} (h : 1 ≤ (s - a).toNat) :
    (s - (a + 1)).toNat = (s - a).toNat - 1 := by
  have hpos : 0 < s - a := UInt16.lt_iff_toNat_lt.2 h
  rw [← UtpSocket.toNat_pred hpos]
  congr 1
  grind

/-- One more packet came in order. -/
theorem succ (h : k.Reorder R (m + 1)) : Reorder R m { k with ackNr := k.ackNr + 1 } := by
  refine ⟨h.count, fun q x hx => ?_⟩
  obtain ⟨pp, hR, hd, hs, h1, h2⟩ := h.stored q x hx
  have := toNat_sub_succ (s := pp.seqNr) (a := k.ackNr) (by omega)
  refine ⟨pp, hR, hd, hs, ?_, ?_⟩
  · show m ≤ (pp.seqNr - (k.ackNr + 1)).toNat
    omega
  · show (pp.seqNr - (k.ackNr + 1)).toNat ≤ k.inbuf.mask
    omega

/-- When the gap is empty nothing lies next to the last number in order. -/
theorem two (h : k.Reorder R 1) (hg : k.reorderCount = 0 ∨ k.gapSlot = none) : k.Reorder R 2 := by
  refine ⟨h.count, fun q x hx => ?_⟩
  obtain ⟨pp, hR, hd, hs, h1, h2⟩ := h.stored q x hx
  refine ⟨pp, hR, hd, hs, ?_, h2⟩
  rcases hg with hg | hg
  · rw [h.empty hg q] at hx
    cases hx
  · by_contra hlt
    have h1' : pp.seqNr - k.ackNr = 1 := UInt16.toNat.inj (by
      rw [UInt16.toNat_one]
      omega)
    have hseq : pp.seqNr = k.ackNr + 1 := by grind
    rw [hs.slot_eq, hseq] at hx
    rw [show k.inbuf.slot (k.ackNr + 1) = none from hg] at hx
    cases hx

theorem release (h : k.Reorder R 1) {p : InboundPacket} (hr : k.reorderCount ≠ 0)
    (hp : k.gapSlot = some p) : k.release.Reorder R 1 := by
  have hocc := k.inbuf.occupied_setSlot (k.ackNr + 1) none
  rw [show k.inbuf.slot (k.ackNr + 1) = some p from hp] at hocc
  have hpred := UtpSocket.toNat_pred (a := k.reorderCount) (by grind)
  have hcount := h.count
  simp only [Option.isSome_some, if_true, Option.isSome_none, Bool.false_eq_true, if_false] at hocc
  have hr' : Reorder R 2 { k with
      inbuf := k.inbuf.setSlot (k.ackNr + 1) none
      reorderCount := k.reorderCount - 1 } := by
    refine two ⟨?_, fun q x hx => ?_⟩ (.inr (slot_setSlot_self _ _ _))
    · show (k.reorderCount - 1).toNat = (k.inbuf.setSlot (k.ackNr + 1) none).occupied
      omega
    · have hx : (k.inbuf.setSlot (k.ackNr + 1) none).slot q = some x := hx
      rw [slot_setSlot] at hx
      split at hx
      · cases hx
      · exact h.stored q x hx
  exact hr'.succ

/-- The ring grows for a packet at distance `d` from the expected one. -/
theorem grow (h : k.Reorder R 2) {s : UInt16} :
    Reorder R 2 { k with
      inbuf := k.inbuf.ensureSize (s + 1).toNat (s - k.ackNr - 1 + 1) } := by
  have hstart : s + 1 - (s - k.ackNr - 1 + 1) = k.ackNr + 1 := by grind
  have hsize := (k.inbuf.size_ensureSize (s + 1).toNat (s - k.ackNr - 1 + 1)).1
  refine ⟨h.count.trans (occupied_ensureSize _ _ _).symm, fun q x hx => ?_⟩
  obtain ⟨r, hr, hqr, hslot⟩ := exists_of_slot_ensureSize hx
  rw [hstart] at hr
  obtain ⟨pp, hR, hd, hs, h1, h2⟩ := h.stored r x hslot
  have hlt := mask_lt_size k.inbuf
  have hsub := toNat_sub_succ (s := pp.seqNr) (a := k.ackNr) (by omega)
  have hrp := hs.eq (s := k.ackNr + 1) hr (by omega)
  rw [hrp] at hqr
  refine ⟨pp, hR, hd, hqr, h1, ?_⟩
  have h2 : (pp.seqNr - k.ackNr).toNat ≤ k.inbuf.size - 1 := h2
  show (pp.seqNr - k.ackNr).toNat ≤
    (k.inbuf.ensureSize (s + 1).toNat (s - k.ackNr - 1 + 1)).size - 1
  omega

/-- A packet is stored. -/
theorem store (h : k.Reorder R 2) {pp : ParsedPacket} (hR : R pp) (hd : k.seqDistance pp ≠ 0)
    (hz : (k.seqDistance pp).toNat + 1 < k.inbuf.size) (hn : k.inbuf.slot pp.seqNr = none) :
    Reorder R 2 { k with
      inbuf := k.inbuf.setSlot pp.seqNr (some ⟨pp.payload⟩)
      reorderCount := k.reorderCount + 1 } := by
  have hocc := k.inbuf.occupied_setSlot pp.seqNr (some ⟨pp.payload⟩)
  rw [hn] at hocc
  simp only [Option.isSome_some, if_true, Option.isSome_none, Bool.false_eq_true, if_false] at hocc
  have hdist := toNat_distance hz
  have hgap := not_same_gap hd hz
  refine ⟨?_, fun q x hx => ?_⟩
  · show (k.reorderCount + 1).toNat = (k.inbuf.setSlot pp.seqNr (some ⟨pp.payload⟩)).occupied
    have hfree : (k.inbuf.setSlot pp.seqNr (some ⟨pp.payload⟩)).slot (k.ackNr + 1) = none := by
      rw [slot_setSlot, if_neg hgap]
      exact h.gapSlot
    have hlt := occupied_lt hfree
    have hle := k.inbuf.size_le
    rw [size_setSlot] at hlt
    have hcount := h.count
    rw [UInt16.toNat_add, UInt16.toNat_one]
    omega
  · have hx : (k.inbuf.setSlot pp.seqNr (some ⟨pp.payload⟩)).slot q = some x := hx
    rw [slot_setSlot] at hx
    split at hx
    · rename_i hs
      have hpos : (k.seqDistance pp).toNat ≠ 0 := fun h0 => hd (UInt16.toNat.inj h0)
      obtain rfl : (⟨pp.payload⟩ : InboundPacket) = x := Option.some.inj hx
      refine ⟨pp, hR, rfl, hs.symm, ?_, ?_⟩
      · show 2 ≤ (pp.seqNr - k.ackNr).toNat
        omega
      · show (pp.seqNr - k.ackNr).toNat ≤ k.inbuf.size - 1
        omega
    · exact h.stored q x hx

end Reorder

/-! The steps. -/

/-- The assertions on the reorder buffer, but for that of `check_invariant`. -/
def onBuffer : Assertion → Bool
  | .eackGap | .storeFree | .storeGap | .drainCount => true
  | _ => false

theorem watched_of_onBuffer : ∀ a, onBuffer a → a.watched := by
  intro a ha
  cases a <;> first | rfl | cases ha

/-- The drain ends with nothing next to the last number in order, or at the end of the stream. -/
theorem Drains.reorder (hd : Drains k acts k') (h : k.gotFinReached = false → k.Reorder R 1)
    (hf : k'.gotFinReached = false) : k'.Reorder R 2 := by
  induction hd with
  | eof he => cases hf
  | idle he hr => exact (h hf).two hr
  | release he hr hp hd ih => exact ih (fun hf => (h hf).release hr hp) hf

theorem Drains.spares {bad : Assertion → Bool} (hd : Drains k acts k') :
    ∀ a ∈ acts, ∀ e ∈ a.effects, Spares bad e := by
  induction hd with
  | eof he => exact spares_eof
  | idle he hr => simp
  | @release k p acts k' he hr hp hd ih => exact spares_append (spares_readAct k _) ih

/-- What a step reports of the assertions on the reorder buffer. -/
theorem Micro.spares {bad : Assertion → Bool} {x : Input} (hw : ∀ a, bad a → a.watched)
    (hr : bad .removeInFlight = false) (hadv : bad .advanceInFlight = false)
    (heack : bad .eackHead = false) (hfail : ∀ a, bad a → k.Asserted a)
    (hbehind : bad .eackGap → k.behind.Asserted .eackGap)
    (hgap : bad .invariantGap → x = .host → k.GapFree) (hm : Micro x k acts k') :
    ∀ a ∈ acts, ∀ e ∈ a.effects, Spares bad e := by
  cases hm with
  | silent hq => exact spares_quiet hw hq
  | fail ha => exact spares_fail (Bool.eq_false_iff.2 fun hb => ha (hfail _ hb))
  | failBehind ha => exact spares_fail (Bool.eq_false_iff.2 fun hb => ha (hbehind hb))
  | failGap ha => exact spares_fail (Bool.eq_false_iff.2 fun hb => ha (hgap hb rfl))
  | failEack hc hw hs => exact spares_fail heack
  | failStore hd hz hs => exact absurd hs (not_same_gap hd hz)
  | connect hu hp hp' => exact spares_send _ _
  | transmit hp hp' => exact spares_send _ _
  | state => exact spares_send _ _
  | keepAlive => exact spares_send _ _
  | queue hs hf hc hp => exact spares_take _
  | extend hs hf hc hp ht hp' => exact spares_take _
  | mark hc hp ht hn => exact spares_removal hr _ _
  | sack hm hb hc hv hw hp ht => exact spares_removal hr _ _
  | advance hs hp => exact hp.spares hr hadv
  | deliver ho hd ht hf hdr => exact spares_append (spares_readAct k _) hdr.spares
  | timeout => exact spares_error _
  | broken => exact spares_error _
  | _ => simp

namespace Buffer

theorem congr (h : k.Buffer R) (hc : k'.reorderCount = k.reorderCount) (hb : k'.inbuf = k.inbuf)
    (ha : k'.ackNr = k.ackNr) (hf : k'.gotFinReached = k.gotFinReached)
    (hs : k'.state = .uninitialized ∨ k'.state = .synSent →
      k.state = .uninitialized ∨ k.state = .synSent) : k'.Buffer R := by
  refine ⟨fun hr => ?_, fun he => ?_⟩
  · rw [hf] at hr
    exact (h.reorder hr).congr hc hb ha
  · rw [hc, hf]
    exact h.early (hs he)

/-- Before a connection is set up the expected number may change. -/
theorem restart (h : k.Buffer R) (hs : k.state = .uninitialized ∨ k.state = .synSent)
    (hc : k'.reorderCount = k.reorderCount) (hb : k'.inbuf = k.inbuf)
    (hf : k'.gotFinReached = k.gotFinReached) : k'.Buffer R := by
  obtain ⟨h0, hr⟩ := h.early hs
  refine ⟨fun _ => .of_empty (hc.trans h0) ?_, fun _ => ⟨hc.trans h0, hf.trans hr⟩⟩
  rw [hb, ← (h.reorder hr).count, h0]
  rfl

end Buffer

theorem IsOpen.not_early (h : k.IsOpen) : ¬ (k.state = .uninitialized ∨ k.state = .synSent) := by
  rcases h with h | h <;> rw [h] <;> simp

theorem ackState_early (pp : ParsedPacket)
    (h : (k.ackState pp).state = .uninitialized ∨ (k.ackState pp).state = .synSent) :
    k.state = .uninitialized ∨ k.state = .synSent := by
  unfold ackState at h
  dsimp only at h
  split_ifs at h <;> simp_all

/-- Every step keeps the buffer. -/
theorem buffer_micro {x : Input} (h : k.Buffer R) (hG : ∀ pp, x = .packet pp → R pp)
    (hm : Micro x k acts k') : k'.Buffer R := by
  cases hm with
  | writable hs => exact h.congr rfl rfl rfl rfl (by simp)
  | full hs => exact h.congr rfl rfl rfl rfl (by simp)
  | destroy => exact h.congr rfl rfl rfl rfl (by simp)
  | timeout =>
    exact h.congr rfl rfl rfl rfl (by simp [k.gaveUp_ne])
  | broken =>
    refine h.congr rfl rfl rfl rfl ?_
    dsimp only
    split <;> simp
  | closeAgain hf ho =>
    refine h.congr rfl rfl rfl rfl ?_
    dsimp only
    split
    · simp
    · exact id
  | accept hu => exact h.restart (.inl hu) rfl rfl rfl
  | connect hu hp hp' => exact h.restart (.inl hu) rfl rfl rfl
  | synSentAck hs => exact h.restart (.inr hs) rfl rfl rfl
  | @advance pp k acts k' hs hp =>
    have hk : (k.ackState pp).Buffer R := by
      have he := ackState_early (k := k) pp
      obtain ⟨st, f, heq⟩ := k.ackState_eq pp
      rw [heq] at he ⊢
      exact h.congr rfl rfl rfl rfl he
    obtain ⟨q, w, c, o, f, rfl⟩ := hp.frame
    exact hk.congr rfl rfl rfl rfl id
  | @deliver pp k acts k' ho hd ht hf hdr =>
    refine ⟨hdr.reorder fun hr => (h.reorder hr).succ, fun he => ?_⟩
    rw [hdr.state] at he
    exact absurd he ho.not_early
  | @clearReorder pp k hr =>
    refine ⟨fun hf => ?_, fun he => ⟨rfl, (h.early he).2⟩⟩
    have hf : k.gotFinReached = false := hf
    rw [hr] at hf
    cases hf
  | growInbuf hd => exact ⟨fun hf => (h.reorder hf).grow, h.early⟩
  | store ho hd hd' ht hf he hz hn =>
    exact ⟨fun hr => (h.reorder hr).store (hG _ rfl) hd hz hn, fun hs => absurd hs ho.not_early⟩
  | _ => exact h.congr rfl rfl rfl rfl id

theorem Buffer.asserted (h : k.Buffer R) {a : Assertion} (ha : onBuffer a) : k.Asserted a := by
  cases a with
  | eackGap => exact fun _ hf => (h.reorder hf).gapSlot
  | _ => trivial

/-- A keep-alive acknowledges one number too few: its slots are free too. -/
theorem Buffer.behind (h : k.Buffer R) : k.behind.Asserted .eackGap := by
  intro _ hf
  have hack : k.ackNr - 1 + 1 = k.ackNr := by grind
  show k.inbuf.slot (k.ackNr - 1 + 1) = none
  rw [hack]
  exact (h.reorder hf).slot_none (by simp)

theorem initial_buffer : initial.Buffer R :=
  ⟨fun _ => .of_empty rfl (occupied_initialized _ _ _), fun _ => ⟨rfl, rfl⟩⟩

/-- The end of the stream is only reached by a packet. -/
theorem Micro.gotFinReached {x : Input} (hm : Micro x k acts k') (hx : x = .host ∨ x = .nothing) :
    k'.gotFinReached = k.gotFinReached := by
  cases hm <;> first | rfl | (rcases hx with hx | hx <;> cases hx)

end Kernel

namespace UtpSocket

/-- The reorder buffer as the source describes it, with the datagrams of the run. -/
structure ReorderOk (calls : List Call) (s : UtpSocket) : Prop where
  count : s.recv.reorderCount.toNat = s.recv.inbuf.occupied
  stored : ∀ i x, s.recv.inbuf.get i = some x → ∃ pp, Receives calls pp ∧ x.data = pp.payload ∧
    s.recv.inbuf.idx i = s.recv.inbuf.idx pp.seqNr.toNat ∧
      2 ≤ (pp.seqNr - s.recv.ackNr).toNat ∧ (pp.seqNr - s.recv.ackNr).toNat ≤ s.recv.inbuf.mask
  ackSlot : s.recv.inbuf.get s.recv.ackNr.toNat = none
  gapSlot : s.recv.inbuf.get (s.recv.ackNr.toNat + 1) = none

theorem reorderOk_of_reorder {calls : List Call} {s : UtpSocket}
    (h : s.kernel.Reorder (Receives calls) 2) : s.ReorderOk calls where
  count := h.count
  stored i x hx := by
    rw [get_eq_slot] at hx
    obtain ⟨pp, hR, hd, hs, h1, h2⟩ := h.stored _ x hx
    exact ⟨pp, hR, hd, (idx_ofInt _ i).trans ((idx_eq_iff_same _ _ _).2 hs), h1, h2⟩
  ackSlot := h.slot_none (q := s.recv.ackNr) (by
    show (s.recv.ackNr - s.recv.ackNr).toNat < 2
    simp)
  gapSlot := (gapSlot_kernel s).trans h.gapSlot

theorem takes_host {op : Op} {x : Input} (h : op.Takes .host) (hx : op.Takes x) :
    x = .host ∨ x = .nothing := by
  cases op <;> cases x <;> first
    | exact .inl rfl | exact .inr rfl | (cases hx; done) | cases h

/-- In a call that starts before the end of the stream, `check_invariant` finds the gap empty. -/
theorem step_gap {R : ParsedPacket → Prop} {s s' : UtpSocket} {c : Call} (h : Step s [c] s')
    (hb : s.kernel.Buffer R) (hG : ∀ pp, c.op.Takes (.packet pp) → R pp)
    (hr : s.kernel.gotFinReached = false) : Effect.assertFailed .invariantGap ∉ c.effects := by
  obtain ⟨c', acts, hc, -, ht, he, -⟩ := step_kernel h
  obtain rfl : c = c' := List.singleton_inj.1 hc
  have hstep : ∀ k l k', (k.Buffer R ∧ (c.op.Takes .host → k.gotFinReached = false)) →
      c.op.Micro k l k' → k'.Buffer R ∧ (c.op.Takes .host → k'.gotFinReached = false) := by
    rintro k l k' ⟨hk, hf⟩ ⟨x, hx, hm⟩
    refine ⟨Kernel.buffer_micro hk (fun pp hp => hG pp (hp ▸ hx)) hm, fun ha => ?_⟩
    rw [hm.gotFinReached (takes_host ha hx)]
    exact hf ha
  have hlab := ht.forall_labels
    (P := fun a => ∀ e ∈ a.effects, Kernel.Spares (fun a => a = .invariantGap) e) hstep (by
      rintro k l k' ⟨hk, hf⟩ ⟨x, hx, hm⟩
      refine hm.spares (by simp [Assertion.watched]) rfl rfl rfl (fun a ha => ?_) (by simp)
        (fun _ hxa _ => ?_)
      · obtain rfl : a = .invariantGap := of_decide_eq_true ha
        trivial
      · rw [hxa] at hx
        exact (hk.reorder (hf hx)).gapSlot) ⟨hb, fun _ => hr⟩
  intro hmem
  rw [he] at hmem
  obtain ⟨a, ha, hae⟩ := List.mem_flatMap.1 hmem
  have := hlab a ha _ hae _ rfl
  simp at this

/-- In every run, as long as the end of the stream has not been reached, the reorder
buffer is well formed after each call and the next call fails no assertion of
`check_invariant` on it; those of `send_ack` and `deliver_data` never fail. -/
theorem reorderBuffer_invariant {targetDelay rcvbuf sndbuf : ℕ} {calls : List Call} {s : UtpSocket}
    (h : Run targetDelay rcvbuf sndbuf calls s) :
    (s.recv.gotFinReached = false → s.ReorderOk calls ∧
      ∀ c s', Step s [c] s' → Effect.assertFailed .invariantGap ∉ c.effects) ∧
      ∀ c ∈ calls, ∀ a, Kernel.onBuffer a → Effect.assertFailed a ∉ c.effects := by
  have hI {R : ParsedPacket → Prop} (hR : ∀ c ∈ calls, ∀ x, c.op.Takes x → ∀ pp, x = .packet pp → R pp) :
      s.kernel.Buffer R ∧ ∀ c ∈ calls, ∀ e ∈ c.effects, Kernel.Spares Kernel.onBuffer e := by
    refine run_invariant (G := fun x => ∀ pp, x = .packet pp → R pp)
      (fun x k acts k' hG hk hm => Kernel.buffer_micro hk hG hm)
      (fun x k acts k' _ hk hm => hm.spares Kernel.watched_of_onBuffer rfl rfl rfl
        (fun _ => hk.asserted) (fun _ => hk.behind) (by simp [Kernel.onBuffer])) h hR ?_
    rw [kernel_new]
    exact Kernel.initial_buffer
  obtain ⟨hb, hs⟩ := hI (R := Receives calls) (by
    rintro c hc x hx pp rfl
    exact given_of_takes hc hx)
  refine ⟨fun hr => ⟨reorderOk_of_reorder (hb.reorder hr), fun c s' hst => ?_⟩, fun c hc a ha hmem => ?_⟩
  · exact step_gap hst (hI (R := fun _ => True) (by simp)).1 (fun _ _ => trivial) hr
  · have := hs c hc _ hmem a rfl
    rw [ha] at this
    cases this

/-- The packet 101 is missing, 102 is held. -/
def holding : UtpSocket :=
  perform stillHost dialled [.processIncoming (statePacket 101 0), .processIncoming (dataPacket 102 [7])]

theorem run_holding : ∃ calls, Run CCONTROL_TARGET 4096 4096 calls holding := run_performed (by simp [Op.Enabled])

theorem reorderBuffer_invariant_holding : holding.recv.reorderCount = 1 ∧
    holding.recv.gotFinReached = false ∧ ∃ calls, holding.ReorderOk calls := by
  have hf : holding.recv.gotFinReached = false := by decide +kernel
  obtain ⟨calls, h⟩ := run_holding
  exact ⟨by decide +kernel, hf, calls, ((reorderBuffer_invariant h).1 hf).1⟩

end UtpSocket

end Utp
