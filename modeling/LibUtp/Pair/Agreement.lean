import LibUtp.Pair.Delivery

/-! What the two ends of a connection agree on at every moment: the numbers of their windows, the payload
under each number, what an acknowledgement stands for, and the end of the stream. -/

namespace Utp

open Relation Lts SequenceBuffer Numbering Kernel

namespace UtpSocket

/-- The number `q` of the peer, whose window begins at `base`, has come. -/
def HasCome (s : UtpSocket) (base q : UInt16) : Prop :=
  q - base < s.recv.ackNr + 1 - base ∨ s.recv.gotFinReached = false ∧
    (q - s.recv.ackNr).toNat ≤ s.recv.inbuf.mask ∧ (s.recv.inbuf.get q.toNat).isSome

variable {n n' : Network} {i j : Side} {d d' : Datagram} {g : Side → Sending} {R base : Side → ℕ} {q : UInt16}
  {bits bits' : Bytes} {pp pp' : ParsedPacket}

/-- Once one side can transfer data the connection has been set up. -/
theorem Phase.linked_of_open (h : Phase n) (ho : (n.ends j).socket.kernel.IsOpen) :
    ∃ g R base, Linked n n.kernels g R base ∧ ∀ i, n.Answered i := by
  have hnot (hi : (n.ends .initiator).socket.kernel.IsOpen → False)
      (ha : (n.ends .acceptor).socket.kernel.IsOpen → False) : False := by
    cases j with
    | initiator => exact hi ho
    | acceptor => exact ha ho
  have hblank {e : Endpoint} (hb : e.Blank) (ho : e.socket.kernel.IsOpen) : False :=
    ho.ne_uninitialized hb.state
  cases h with
  | fresh hi hf => exact (hnot (hblank (hi _)) (hblank (hi _))).elim
  | dialling ha hb hf => exact (hnot ha.kernel.closed (hblank hb)).elim
  | waiting ha hb hpos hf => exact (hnot ha.kernel.closed hb.kernel.closed).elim
  | linked h hs => exact ⟨_, _, _, h, hs⟩
  | lost ha hb hf =>
    refine (hnot ha.kernel.closed ?_).elim
    rcases hb with hb | hb
    · exact hblank hb
    · exact hb.kernel.closed

namespace Linked

variable (h : Linked n n.kernels g R base)

include h

theorem windowStart_eq (i : Side) : (n.ends i).socket.windowStart = UInt16.ofNat (g i).head :=
  (h.half i).ships.head_eq

theorem span (i : Side) : (g i).next = (g i).head + (n.ends i).socket.send.curWindowPackets.toNat :=
  (h.half i).ships.span

theorem gathers (i : Side) : Gathers (g i) (R i.other) 2 (n.ends i.other).socket.kernel := by
  have := (h.half i.other).gathers
  rw [Side.other_other] at this
  exact this

theorem expected (i : Side) : (n.ends i.other).socket.recv.ackNr + 1 = UInt16.ofNat (R i.other + 1) := by
  have : (n.ends i.other).socket.recv.ackNr = UInt16.ofNat (R i.other) := (h.gathers i).ackNr
  rw [this, ofNat_succ]

/-- How far the number that the peer expects lies in the window. -/
theorem expected_sub (i : Side) :
    ((n.ends i.other).socket.recv.ackNr + 1 - (n.ends i).socket.windowStart).toNat = R i.other + 1 - (g i).head := by
  have hle := (h.half i).covered.head_le
  have hlt := (h.gathers i).lt_next
  have hnext := (h.half i).next_le
  rw [h.expected, h.windowStart_eq]
  exact toNat_sub_of_le hle (by omega)

/-- A number of the window, counted. -/
theorem inWindow (i : Side) (hq : q - (n.ends i).socket.windowStart < (n.ends i).socket.send.curWindowPackets) :
    ∃ m, (g i).head ≤ m ∧ m < (g i).next ∧ q = UInt16.ofNat m := by
  have hlt := UInt16.lt_iff_toNat_lt.1 hq
  have hspan := h.span i
  rw [h.windowStart_eq] at hlt
  exact ⟨_, Nat.le_add_right _ _, by omega, ofNat_add_toNat.symm⟩

theorem sub_windowStart (i : Side) {m : ℕ} (h1 : (g i).head ≤ m) (h2 : m < (g i).next) :
    (UInt16.ofNat m - (n.ends i).socket.windowStart).toNat = m - (g i).head := by
  have hnext := (h.half i).next_le
  rw [h.windowStart_eq]
  exact toNat_sub_of_le h1 (by omega)

/-- A number that has come, as the socket shows it. -/
theorem hasCome (i : Side) {m : ℕ} (h1 : (g i).head ≤ m) (h2 : m < (g i).next)
    (hh : (n.kernels i.other).Has (R i.other) m) :
    (n.ends i.other).socket.HasCome (n.ends i).socket.windowStart (UInt16.ofNat m) := by
  rcases hh with hle | ⟨hf, hlt, hmask, hs⟩
  · left
    rw [UInt16.lt_iff_toNat_lt, h.sub_windowStart i h1 h2, h.expected_sub]
    omega
  · right
    refine ⟨hf, ?_, hs⟩
    have hack : (n.ends i.other).socket.recv.ackNr = UInt16.ofNat (R i.other) := (h.gathers i).ackNr
    have hnear := (h.gathers i).near
    rw [hack, toNat_sub_of_le hlt.le (by omega)]
    have : (n.kernels i.other).inbuf.mask = (n.ends i.other).socket.recv.inbuf.mask := rfl
    omega

/-- What waits in the reorder buffer is a packet of the peer past what has come in order. -/
theorem waiting (i : Side) {x : InboundPacket} (hf : (n.ends i.other).socket.recv.gotFinReached = false)
    (hm : (q - (n.ends i.other).socket.recv.ackNr).toNat ≤ (n.ends i.other).socket.recv.inbuf.mask)
    (hx : (n.ends i.other).socket.recv.inbuf.get q.toNat = some x) :
    ∃ m, R i.other + 2 ≤ m ∧ q = UInt16.ofNat m ∧ (g i).sent m ∧ x.data = (g i).body m := by
  have hack : (n.ends i.other).socket.recv.ackNr = UInt16.ofNat (R i.other) := (h.gathers i).ackNr
  have hpos : 2 ≤ (q - (n.ends i.other).socket.recv.ackNr).toNat := by
    by_contra hlt
    have hnone := ((h.gathers i).queue hf).slot_none (q := q) (not_le.1 hlt)
    exact Option.some_ne_none x (hx.symm.trans hnone)
  -- the number of the slot, counted without wrapping
  have hq : UInt16.ofNat (R i.other + (q - (n.ends i.other).socket.recv.ackNr).toNat) = q := by
    rw [hack]
    exact ofNat_add_toNat
  generalize (q - (n.ends i.other).socket.recv.ackNr).toNat = e at hm hq hpos
  subst hq
  obtain ⟨hs, hdata, -⟩ := (h.gathers i).stored hf (by omega) (by
    show R i.other + e ≤ R i.other + (n.ends i.other).socket.recv.inbuf.mask
    omega) hx
  exact ⟨_, by omega, rfl, hs, hdata⟩

end Linked

/-- The number a side expects next lies in the window of its peer or just behind it, and what waits in its
reorder buffer lies in the window, with the payload that the window still holds under that number. -/
theorem windows_agree {targetDelay rcvbuf sndbuf : Side → ℕ} (h : n.Reachable targetDelay rcvbuf sndbuf)
    (ho : (n.ends j).socket.kernel.IsOpen) (i : Side) :
    (n.ends i.other).socket.recv.ackNr + 1 - (n.ends i).socket.windowStart ≤
        (n.ends i).socket.send.curWindowPackets ∧
      ∀ (q : UInt16) (x : InboundPacket), (n.ends i.other).socket.recv.gotFinReached = false →
        (q - (n.ends i.other).socket.recv.ackNr).toNat ≤ (n.ends i.other).socket.recv.inbuf.mask →
        (n.ends i.other).socket.recv.inbuf.get q.toNat = some x →
        q - (n.ends i).socket.windowStart < (n.ends i).socket.send.curWindowPackets ∧
          ∀ p, (n.ends i).socket.send.outbuf.get q.toNat = some p → p.body = x.data := by
  obtain ⟨g, R, base, hl, -⟩ := (phase_reachable h).linked_of_open ho
  have hle := (hl.half i).covered.head_le
  have hlt := (hl.gathers i).lt_next
  have hspan := hl.span i
  refine ⟨?_, fun q x hf hm hx => ?_⟩
  · rw [UInt16.le_iff_toNat_le, hl.expected_sub]
    omega
  · obtain ⟨e, hpos, rfl, hs, hdata⟩ := hl.waiting i hf hm hx
    have hnext := (hl.gathers i).sent_lt _ hs
    refine ⟨?_, fun p hp => ?_⟩
    · rw [UInt16.lt_iff_toNat_lt, hl.sub_windowStart i (by omega) hnext]
      omega
    · rw [hdata]
      exact ((hl.half i).ships.packet _ p (by omega) hnext hp).1

theorem windows_agree_heldPair :
    (Network.heldPair.ends .acceptor).socket.recv.inbuf.get 2 = some ⟨[4]⟩ ∧
    (Network.heldPair.ends .acceptor).socket.recv.ackNr + 1 - (Network.heldPair.ends .initiator).socket.windowStart ≤
      (Network.heldPair.ends .initiator).socket.send.curWindowPackets ∧
    ∀ p, (Network.heldPair.ends .initiator).socket.send.outbuf.get 2 = some p → p.body = [4] := by
  obtain ⟨hexpected, hheld⟩ := windows_agree Network.reachable_heldPair (j := .initiator) (.inl (by decide +kernel))
    .initiator
  exact ⟨by decide +kernel, hexpected, (hheld 2 ⟨[4]⟩ (by decide +kernel) (by decide +kernel) (by decide +kernel)).2⟩

/-- What a datagram of the side `i` says of a payload: its number, in the window or not far behind. -/
theorem Linked.segment (h : Linked n n.kernels g R base) (hd : d ∈ n.flight) (hf : n.Fresh d) (ht : d.type ≠ ST_SYN)
    (hp : (parseBytes d.bytes bits).1 = some pp) (hst : pp.type ≠ ST_STATE) :
    ∃ m, (g d.sender).sent m ∧ (g d.sender).next + 1024 ≤ m + 2 ^ 16 ∧ pp.seqNr = UInt16.ofNat m ∧
      pp.payload = (g d.sender).body m ∧ (pp.type = ST_FIN → (g d.sender).fin ∧ m + 1 = (g d.sender).next) := by
  obtain ⟨-, hheard⟩ := h.truth (i := d.sender.other) hd d.sender.other_other.symm hf ht hp
  rw [Side.other_other] at hheard
  exact hheard.data hst

/-- A datagram of the side `i` in flight carries `b` under the number `q`. -/
def Network.InFlight (n : Network) (i : Side) (q : UInt16) (b : Bytes) : Prop :=
  ∃ d ∈ n.flight, d.sender = i ∧ n.Fresh d ∧ d.type ≠ ST_SYN ∧ ∃ bits pp, (parseBytes d.bytes bits).1 = some pp ∧
    pp.type ≠ ST_STATE ∧ pp.seqNr = q ∧ pp.payload = b

/-- The window of the side `i` holds `b` under the number `q`. -/
def Network.InWindow (n : Network) (i : Side) (q : UInt16) (b : Bytes) : Prop :=
  ∃ p, (n.ends i).socket.send.outbuf.get q.toNat = some p ∧ p.hdr.seqNr = q ∧ p.body = b

/-- The reorder buffer of its peer holds `b` under the number `q`. -/
def Network.InBuffer (n : Network) (i : Side) (q : UInt16) (b : Bytes) : Prop :=
  (n.ends i.other).socket.recv.gotFinReached = false ∧
    (q - (n.ends i.other).socket.recv.ackNr).toNat ≤ (n.ends i.other).socket.recv.inbuf.mask ∧
    (n.ends i.other).socket.recv.inbuf.get q.toNat = some ⟨b⟩

/-- The number `q` of the side `i` stands for `b`. -/
def Network.Stands (n : Network) (i : Side) (q : UInt16) (b : Bytes) : Prop :=
  n.InFlight i q b ∨ n.InWindow i q b ∨ n.InBuffer i q b

/-- Wherever a payload stands, it is the one of its number, which is not far behind. -/
theorem Linked.stands (h : Linked n n.kernels g R base) {b : Bytes} (hb : n.Stands i q b) :
    ∃ m, m < (g i).next ∧ (g i).next + 1024 ≤ m + 2 ^ 16 ∧ q = UInt16.ofNat m ∧ b = (g i).body m := by
  have hgot := (h.half i).covered.head_le
  have hlt := (h.gathers i).lt_next
  have hnext := (h.half i).next_le
  rcases hb with ⟨d, hd, rfl, hf, ht, bits, pp, hp, hst, rfl, rfl⟩ | ⟨p, hslot, hseq, rfl⟩ | ⟨hr, hm, hx⟩
  · obtain ⟨m, hsent, hnear, hseq, hpay, -⟩ := h.segment hd hf ht hp hst
    exact ⟨m, (h.half d.sender).ships.sent_lt m hsent, hnear, hseq, hpay⟩
  · obtain ⟨m, h1, h2, hseq', -⟩ := (h.half i).ships.number (h.half i).window.toRing hslot
    have hq : q = UInt16.ofNat m := hseq.symm.trans hseq'
    rw [hq] at hslot
    exact ⟨m, h2, by omega, hq, ((h.half i).ships.packet m p h1 h2 hslot).1⟩
  · obtain ⟨m, hle, hq, hsent, hdata⟩ := h.waiting i hr hm hx
    exact ⟨m, (h.half i).ships.sent_lt m hsent, by omega, hq, hdata⟩

/-- A number stands for one payload: in the datagrams of a side, however late they are, in its window and in
the reorder buffer of its peer. -/
theorem payload_unique {targetDelay rcvbuf sndbuf : Side → ℕ} (h : n.Reachable targetDelay rcvbuf sndbuf)
    (ho : (n.ends j).socket.kernel.IsOpen) {b b' : Bytes} (hb : n.Stands i q b) (hb' : n.Stands i q b') :
    b = b' := by
  obtain ⟨g, R, base, hl, -⟩ := (phase_reachable h).linked_of_open ho
  obtain ⟨m, hlt, hnear, hq, rfl⟩ := hl.stands hb
  obtain ⟨m', hlt', hnear', hq', rfl⟩ := hl.stands hb'
  rw [eq_of_ofNat_eq (hq.symm.trans hq') (by omega) (by omega)]

/-- What waits in the reorder buffer is in the window too. -/
theorem payload_unique_heldPair : Network.heldPair.InBuffer .initiator 2 [4] ∧
    Network.heldPair.InWindow .initiator 2 [4] := by
  have hb : Network.heldPair.InBuffer .initiator 2 [4] := ⟨by decide +kernel, by decide +kernel, by decide +kernel⟩
  have hread : ((Network.heldPair.ends .initiator).socket.send.outbuf.get 2).any (fun p => p.hdr.seqNr = 2) = true := by
    decide +kernel
  obtain ⟨p, hp, hq⟩ := (Option.any_eq_true _ _).1 hread
  exact ⟨hb, p, hp, of_decide_eq_true hq, payload_unique Network.reachable_heldPair (j := .initiator)
    (.inl (by decide +kernel)) (.inr (.inl ⟨p, hp, of_decide_eq_true hq, rfl⟩)) (.inr (.inr hb))⟩

/-- An acknowledgement tells the truth, however late it comes: a number of the window that it covers, or whose
bit it has set, has come. -/
theorem acknowledged_received {targetDelay rcvbuf sndbuf : Side → ℕ} (h : n.Reachable targetDelay rcvbuf sndbuf)
    (ho : (n.ends j).socket.kernel.IsOpen) (hd : d ∈ n.flight) (hs : d.sender = i.other) (hf : n.Fresh d)
    (ht : d.type ≠ ST_SYN) (hp : (parseBytes d.bytes bits).1 = some pp)
    (hq : q - (n.ends i).socket.windowStart < (n.ends i).socket.send.curWindowPackets)
    (hc : q - (n.ends i).socket.windowStart ≤ pp.ackNr - (n.ends i).socket.windowStart ∧
        pp.ackNr - (n.ends i).socket.windowStart < (n.ends i).socket.send.curWindowPackets ∨
      ∃ mask, pp.selack = some mask ∧ ∃ k : ℕ, maskBit mask k ∧ q = pp.ackNr + 2 + UInt16.ofNat k) :
    (n.ends i.other).socket.HasCome (n.ends i).socket.windowStart q := by
  obtain ⟨g, R, base, hl, -⟩ := (phase_reachable h).linked_of_open ho
  obtain ⟨⟨r, hr, hle, hnear, hbits⟩, -⟩ := hl.truth hd hs hf ht hp
  obtain ⟨m, h1, h2, rfl⟩ := hl.inWindow i hq
  have hspan := hl.span i
  have hstart := hl.windowStart_eq i
  have hgot := (hl.gathers i).lt_next
  have hnext := (hl.half i).next_le
  apply hl.hasCome i h1 h2
  rcases hc with ⟨hcov, hin⟩ | ⟨mask, hm, k, hk, hqk⟩
  · left
    rw [UInt16.le_iff_toNat_le, hl.sub_windowStart i h1 h2] at hcov
    rw [UInt16.lt_iff_toNat_lt] at hin
    rw [hr, hstart] at hcov hin
    rcases Nat.lt_or_ge r (g i).head with hlt | hge
    · -- it is older than the window
      rcases toNat_sub_of_lt hlt (by omega) with he | he <;> omega
    · rw [toNat_sub_of_le hge (by omega)] at hcov
      omega
  · obtain ⟨hlt, hhas⟩ := hbits mask hm k hk
    have hnum : UInt16.ofNat m = UInt16.ofNat (r + 2 + k) := by
      rw [hqk, hr, UInt16.ofNat_add, UInt16.ofNat_add]
      rfl
    rw [eq_of_ofNat_eq hnum (by omega) (by omega)]
    exact hhas

theorem acknowledged_received_ackingPair : (Network.ackingPair.ends .initiator).socket.send.curWindowPackets = 1 ∧
    (Network.ackingPair.ends .acceptor).socket.HasCome (Network.ackingPair.ends .initiator).socket.windowStart 1 := by
  obtain ⟨d, hd, hb, hs, hf, ht⟩ := Network.Arrives.datagram (n := Network.ackingPair) (i := .initiator) (k := 3)
    (by decide +kernel)
  have hread : (parseBytes (Network.ackingPair.bytesAt 3) []).1.any (fun pp => pp.ackNr = 1) = true := by
    decide +kernel
  rw [← hb] at hread
  obtain ⟨pp, hp, hpp⟩ := (Option.any_eq_true _ _).1 hread
  have hack : pp.ackNr = 1 := of_decide_eq_true hpp
  have h := acknowledged_received Network.reachable_ackingPair (i := .initiator) (j := .initiator) (q := 1)
    (.inl (by decide +kernel)) hd hs hf ht hp (by decide +kernel)
  rw [hack] at h
  exact ⟨by decide +kernel, h (.inl ⟨by decide +kernel, by decide +kernel⟩)⟩

/-- When the window of a side is empty its peer has been handed everything, unless it has shut down reading. -/
theorem drained_delivered {targetDelay rcvbuf sndbuf : Side → ℕ} (h : n.Reachable targetDelay rcvbuf sndbuf) (i : Side)
    (hr : (n.ends i.other).socket.recv.readShutdown = false) (hc : (n.ends i).socket.send.curWindowPackets = 0) :
    (n.ends i.other).delivered = (n.ends i).accepted := by
  rcases (phase_reachable h).silent_or_linked with hs | ⟨g, R, base, hl⟩
  · exact (hs i.other).delivered.trans (hs i).accepted.symm
  · have hdel := hl.delivered i.other
    rw [Side.other_other] at hdel
    obtain ⟨m, -, hD, hall⟩ := hdel
    obtain rfl := hall hr
    have hspan := hl.span i
    rw [hc] at hspan
    have hlt := (hl.gathers i).lt_next
    have hle := (hl.half i).covered.head_le
    have hend : R i.other + 1 = (g i).next := by
      simp only [UInt16.toNat_zero, add_zero] at hspan
      omega
    rw [hD, hl.accepted, hend]
    rfl

theorem drained_delivered_ackedPair : (Network.ackedPair.ends .acceptor).delivered = [1, 2, 3] ∧
    (Network.ackedPair.ends .acceptor).delivered = (Network.ackedPair.ends .initiator).accepted :=
  ⟨by decide +kernel, drained_delivered Network.reachable_ackedPair .initiator (by decide +kernel) (by decide +kernel)⟩

end UtpSocket

end Utp
