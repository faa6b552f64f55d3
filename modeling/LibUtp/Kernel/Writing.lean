import LibUtp.Kernel.Sending

/-! Writing: the bytes that `write_outgoing_packet` gathers enter the window in
order, at the tail packet or in a new one, and a FIN closes it. -/

namespace Utp

open Lts SequenceBuffer

namespace UtpSocket

variable (env : Env) {x : Input}

/-! The gathering copy. -/

theorem gather_fst (n : ℕ) (iov : List Bytes) : (gather n iov).1 = iov.flatten.take n := by
  induction iov generalizing n with
  | nil => simp [gather]
  | cons v iov ih => simp [gather, ih, List.take_append]

theorem gather_snd (n : ℕ) (iov : List Bytes) :
    (gather n iov).2.flatten = iov.flatten.drop n := by
  induction iov generalizing n with
  | nil => simp [gather]
  | cons v iov ih => simp [gather, ih, List.drop_append]

theorem filled_gather {n : ℕ} {iov : List Bytes} (h : n ≤ iov.flatten.length) :
    filled n (gather n iov).1 = iov.flatten.take n := by
  rw [filled, gather_fst, List.length_take, min_eq_left h, Nat.sub_self, List.replicate_zero,
    List.append_nil]

/-! One round of `write_outgoing_packet`. -/

theorem type_fillHdr {flags : UInt8} (hf : flags = ST_DATA ∨ flags = ST_FIN) (s : UtpSocket)
    (hdr : PacketFormatV1) : (s.fillHdr flags hdr).type = flags := by
  have h : flags < 16 := by rcases hf with rfl | rfl <;> decide
  exact (hdr.setVersion 1).type_setType h

theorem version_fillHdr (flags : UInt8) (s : UtpSocket) (hdr : PacketFormatV1) :
    (s.fillHdr flags hdr).version = 1 := by
  show ((hdr.setVersion 1).setType flags).version = 1
  rw [PacketFormatV1.version_setType, PacketFormatV1.version_setVersion]
  decide

theorem quiet_queueStart (flags : UInt8) (added got : ℕ) (s : UtpSocket) :
    Quiet s ((s.addedAsserts flags added got).updateRcvWin env) :=
  (quiet_addedAsserts _ _ _ s).trans (quiet_updateRcvWin env _)

theorem kernel_enqueue (p : OutgoingPacket) (s : UtpSocket) :
    (s.enqueue p).kernel = s.kernel.queue p := by
  have h0 : UInt16.ofInt (s.send.seqNr.toNat : ℤ) = s.send.seqNr := by
    simpa using ofInt_add s.send.seqNr 0
  rw [enqueue, put_eq_setSlot, h0]
  rfl

theorem out_enqueue (p : OutgoingPacket) (s : UtpSocket) : (s.enqueue p).out = s.out := rfl

theorem out_putOutbuf (i : ℤ) (p : OutgoingPacket) (s : UtpSocket) :
    (s.putOutbuf i p).out = s.out := rfl

theorem fresh_fillHdr {flags : UInt8} (hf : flags = ST_DATA ∨ flags = ST_FIN) (b : Bytes)
    (s : UtpSocket) : s.kernel.Fresh flags
      { hdr := { s.fillHdr flags {} with seqNr := s.send.seqNr }, body := b } :=
  ⟨type_fillHdr hf s {}, version_fillHdr flags s {}, rfl, rfl, rfl, rfl, rfl⟩

theorem queuePacket_spec {flags : UInt8} (hf : flags = ST_DATA ∨ flags = ST_FIN) (added : ℕ)
    (iov : List Bytes) (s : UtpSocket) :
    ∃ p l, s.kernel.Fresh flags p ∧ p.body = filled added (gather added iov).1 ∧
      (s.queuePacket env flags added iov).kernel = s.kernel.queue p ∧
      (s.queuePacket env flags added iov).out = s.out ++ l ∧ ∀ e ∈ l, Effect.quiet e := by
  rw [queuePacket]
  obtain ⟨hk, l, ho, hl⟩ := quiet_queueStart env flags added (gather added iov).1.length s
  dsimp only
  generalize (s.addedAsserts flags added (gather added iov).1.length).updateRcvWin env = t at hk ho ⊢
  have hp := fresh_fillHdr hf (filled added (gather added iov).1) t
  rw [hk] at hp
  exact ⟨_, l, hp, rfl, by rw [kernel_enqueue, hk], by rw [out_enqueue, ho], hl⟩

/-- A round that queues data. -/
theorem runs_queuePacket {added : ℕ} {iov : List Bytes} {s : UtpSocket}
    (hs : s.kernel.state = .connected) (hf : s.kernel.finSent = false) (hc : s.kernel.cur < 1023)
    (hl : added ≤ iov.flatten.length) :
    Runs .api (iov.flatten.take added) s (s.queuePacket env ST_DATA added iov) := by
  obtain ⟨p, l, hp, hb, hk, ho, hq⟩ := queuePacket_spec env (.inl rfl) added iov s
  rw [filled_gather hl] at hb
  have hm := Kernel.Micro.queue hs hf hc hp
  rw [← hk] at hm
  have := runs_step (u := []) (v := l) hm (by simpa [Act.effects] using ho) (by simp)
    (.of_quiet hq)
  simpa [Act.taken, hb] using this

theorem ofInt_sub_one (q : UInt16) : UInt16.ofInt ((q.toNat : ℤ) - 1) = q - 1 :=
  ofInt_sub q 1

theorem openTail_spec {packetSize payload : ℕ} {s : UtpSocket} {p : OutgoingPacket}
    (h : s.openTail packetSize payload = some p) :
    0 < s.kernel.cur ∧ 0 < payload ∧ s.kernel.outbuf.slot (s.kernel.seqNr - 1) = some p ∧
      p.transmissions = 0 ∧ p.payload < packetSize := by
  unfold openTail at h
  split at h
  · rename_i hc
    rw [Option.filter_eq_some_iff] at h
    obtain ⟨hg, ht⟩ := h
    have ht' : p.transmissions = 0 ∧ p.payload < packetSize := by simpa using ht
    rw [get_eq_slot, ofInt_sub_one] at hg
    exact ⟨hc.1, hc.2, hg, ht'.1, ht'.2⟩
  · cases h

theorem quiet_growStart (flags : UInt8) (p : OutgoingPacket) (added got : ℕ) (s : UtpSocket) :
    Quiet s (((s.assert (p.needResend = false) .tailResend).addedAsserts flags added got
      ).updateRcvWin env) :=
  ((quiet_assert _ s rfl).trans (quiet_addedAsserts _ _ _ _)).trans (quiet_updateRcvWin env _)

theorem extended_fillHdr (p : OutgoingPacket) (b : Bytes) (s : UtpSocket) :
    s.kernel.Extended p b { p with body := p.body ++ b, hdr := s.fillHdr ST_DATA p.hdr } :=
  ⟨type_fillHdr (.inl rfl) s p.hdr, version_fillHdr ST_DATA s p.hdr, rfl, rfl, rfl, rfl, rfl, rfl⟩

/-- The tail packet grows by `b`. -/
theorem runs_extend {s t : UtpSocket} {p : OutgoingPacket} (b : Bytes) (hq : Quiet s t)
    (hs : s.kernel.state = .connected) (hf : s.kernel.finSent = false) (hc : 0 < s.kernel.cur)
    (hslot : s.kernel.outbuf.slot (s.kernel.seqNr - 1) = some p) (ht : p.transmissions = 0) :
    Runs .api b s (t.putOutbuf (t.send.seqNr.toNat - 1)
      { p with body := p.body ++ b, hdr := t.fillHdr ST_DATA p.hdr }) := by
  obtain ⟨hk, l, ho, hl⟩ := hq
  have hx := extended_fillHdr p b t
  have hseq : t.send.seqNr = s.kernel.seqNr := congrArg Kernel.seqNr hk
  rw [hk] at hx
  generalize { p with body := p.body ++ b, hdr := t.fillHdr ST_DATA p.hdr } = p' at hx ⊢
  have hm := Kernel.Micro.extend hs hf hc hslot ht hx
  have hk' : (t.putOutbuf (t.send.seqNr.toNat - 1) p').kernel =
      { s.kernel with outbuf := s.kernel.outbuf.setSlot (s.kernel.seqNr - 1) (some p') } := by
    rw [kernel_putOutbuf, ofInt_sub_one, hseq, hk]
  rw [← hk'] at hm
  have := runs_step (u := l) (v := []) hm (by simpa [Act.effects, out_putOutbuf] using ho)
    (.of_quiet hl) (by simp)
  simpa [Act.taken] using this

/-- A round that appends to the tail packet. -/
theorem runs_growTail {packetSize payload added : ℕ} {iov : List Bytes} {s : UtpSocket}
    {p : OutgoingPacket} (hs : s.kernel.state = .connected) (hf : s.kernel.finSent = false)
    (hp : s.openTail packetSize payload = some p) (hl : added ≤ iov.flatten.length) :
    Runs .api (iov.flatten.take added) s (s.growTail env ST_DATA p added iov) := by
  obtain ⟨hc, -, hslot, ht, -⟩ := openTail_spec hp
  rw [growTail, filled_gather hl]
  exact runs_extend _ (quiet_growStart env _ _ _ _ s) hs hf hc hslot ht

theorem kernel_growTail (flags : UInt8) (p : OutgoingPacket) (added : ℕ) (iov : List Bytes)
    (s : UtpSocket) : ∃ b, (s.growTail env flags p added iov).kernel = { s.kernel with outbuf := b } := by
  rw [growTail]
  obtain ⟨hk, -⟩ := quiet_growStart env flags p added (gather added iov).1.length s
  rw [kernel_putOutbuf, hk]
  exact ⟨_, rfl⟩

/-- The assertions at the start of a round. -/
theorem quiet_roundStart (flags : UInt8) (s : UtpSocket) :
    Quiet s ((s.assert (s.send.curWindowPackets.toNat < OUTGOING_BUFFER_MAX_SIZE) .windowPackets
      ).assert (flags = ST_DATA ∨ flags = ST_FIN) .packetFlags) :=
  (quiet_assert _ s rfl).trans (quiet_assert _ _ rfl)

/-- The rounds put the next `payload` bytes of the vectors into the window. -/
theorem runs_writeLoop (packetSize fuel : ℕ) {payload : ℕ} {iov : List Bytes} {s : UtpSocket}
    (hs : s.kernel.state = .connected) (hf : s.kernel.finSent = false) (hc : s.kernel.cur < 1023)
    (hfuel : payload < fuel) (hl : payload ≤ iov.flatten.length) :
    Runs .api (iov.flatten.take payload) s (s.writeLoop env packetSize ST_DATA fuel payload iov).2 ∧
      (s.writeLoop env packetSize ST_DATA fuel payload iov).1.flatten = iov.flatten.drop payload := by
  induction fuel generalizing payload iov s with
  | zero => omega
  | succ fuel ih =>
    rw [writeLoop]
    have hq := quiet_roundStart ST_DATA s
    generalize (s.assert (s.send.curWindowPackets.toNat < OUTGOING_BUFFER_MAX_SIZE) .windowPackets
      ).assert (ST_DATA = ST_DATA ∨ ST_DATA = ST_FIN) .packetFlags = t at hq ⊢
    rw [← hq.1] at hs hf hc
    dsimp only
    cases hp : t.openTail packetSize payload with
    | none =>
      exact ⟨.quiet_trans hq (runs_queuePacket env hs hf hc hl), gather_snd _ _⟩
    | some p =>
      dsimp only
      obtain ⟨-, hpos, -, -, hlt⟩ := openTail_spec hp
      set added := min (payload + p.payload) (max packetSize p.payload) - p.payload with hadded
      have h0 : 0 < added := by omega
      have h1 : added ≤ payload := by omega
      have hg := Runs.quiet_trans hq (runs_growTail env hs hf hp (h1.trans hl))
      obtain ⟨b, hk⟩ := kernel_growTail env ST_DATA p added iov t
      generalize t.growTail env ST_DATA p added iov = u at hg hk ⊢
      split
      · have : added = payload := by omega
        rw [← this]
        exact ⟨hg, gather_snd _ _⟩
      · have hl' : payload - added ≤ (gather added iov).2.flatten.length := by
          rw [gather_snd, List.length_drop]
          omega
        have hc' : u.kernel.cur < 1023 := by rw [hk]; exact hc
        have hi := @ih (payload - added) (gather added iov).2 u (by rw [hk]; exact hs) (by rw [hk]; exact hf) hc' (by omega) hl'
        rw [gather_snd] at hi
        have happ : iov.flatten.take added ++ (iov.flatten.drop added).take (payload - added) =
            iov.flatten.take payload := by
          rw [← List.take_add, Nat.add_sub_cancel' h1]
        refine ⟨happ ▸ hg.trans hi.1, ?_⟩
        rw [hi.2, List.drop_drop, Nat.add_sub_cancel' h1]

/-- What `write_outgoing_packet` does with an empty window. -/
def startRto (s : UtpSocket) : UtpSocket :=
  if s.send.curWindowPackets = 0 then
    (s.setCc (s.cc.setInitialRto s.currentMs)).assert (s.cc.curWindow = 0) .idleInFlight
  else s

theorem startRto_spec (s : UtpSocket) :
    s.startRto.kernel = s.kernel ∧ ∃ l, s.startRto.out = s.out ++ l ∧
      ∀ e ∈ l, e = .assertFailed .idleInFlight ∧ ¬ s.kernel.Asserted .idleInFlight := by
  unfold startRto
  split
  · rename_i hc
    refine ⟨by rw [kernel_assert, kernel_setCc]; rfl, _, by rw [out_assert, out_setCc], ?_⟩
    split
    · simp
    · rename_i hn
      intro e he
      exact ⟨List.mem_singleton.1 he, fun h => hn (h hc)⟩
  · exact ⟨rfl, [], by simp, by simp⟩

/-- The rounds of `write_outgoing_packet`, before its flush. -/
def queueRounds (payload : ℕ) (flags : UInt8) (iov : List Bytes) (s : UtpSocket) :
    List Bytes × UtpSocket :=
  s.startRto.writeLoop env s.startRto.getPacketSize flags (payload + 1) payload iov

theorem writeOutgoingPacket_eq (payload : ℕ) (flags : UInt8) (iov : List Bytes) (s : UtpSocket) :
    s.writeOutgoingPacket env payload flags iov = ((s.queueRounds env payload flags iov).1,
      ((s.queueRounds env payload flags iov).2.flushPackets env).2) := rfl

theorem runs_startRto (s : UtpSocket) : Runs x [] s s.startRto := by
  obtain ⟨hk, l, ho, hl⟩ := startRto_spec s
  obtain ⟨acts, ht, he, hb⟩ := trace_effects (x := x) (k := s.kernel) (l := l) fun e he =>
    .inr ⟨_, (hl e he).1, .fail (hl e he).2⟩
  exact ⟨acts, by rw [hk]; exact ht, by rw [ho, he], hb⟩

theorem frame_writeLoop (packetSize fuel : ℕ) (flags : UInt8) (payload : ℕ) (iov : List Bytes)
    (hf : flags = ST_DATA ∨ flags = ST_FIN) (s : UtpSocket) :
    s.kernel.Frame (s.writeLoop env packetSize flags fuel payload iov).2.kernel := by
  induction fuel generalizing payload iov s with
  | zero => exact .refl _
  | succ fuel ih =>
    rw [writeLoop]
    have hk := (quiet_roundStart flags s).1
    generalize (s.assert (s.send.curWindowPackets.toNat < OUTGOING_BUFFER_MAX_SIZE) .windowPackets
      ).assert (flags = ST_DATA ∨ flags = ST_FIN) .packetFlags = t at hk ⊢
    rw [← hk]
    dsimp only
    cases t.openTail packetSize payload with
    | none =>
      obtain ⟨p, l, -, -, hk', -⟩ := queuePacket_spec env hf payload iov t
      dsimp only
      rw [hk']
      exact ⟨_, _, _, _, _, rfl⟩
    | some p =>
      dsimp only
      obtain ⟨b, hk'⟩ := kernel_growTail env flags p
        (min (payload + p.payload) (max packetSize p.payload) - p.payload) iov t
      generalize t.growTail env flags p
        (min (payload + p.payload) (max packetSize p.payload) - p.payload) iov = u at hk' ⊢
      have hu : t.kernel.Frame u.kernel := by
        rw [hk']
        exact ⟨_, _, _, _, _, rfl⟩
      split
      · exact hu
      · exact hu.trans (ih _ _ u)

theorem frame_writeOutgoingPacket {flags : UInt8} (hf : flags = ST_DATA ∨ flags = ST_FIN)
    (payload : ℕ) (iov : List Bytes) (s : UtpSocket) :
    s.kernel.Frame (s.writeOutgoingPacket env payload flags iov).2.kernel := by
  rw [writeOutgoingPacket_eq, queueRounds, ← (startRto_spec s).1]
  exact (frame_writeLoop env _ _ flags payload iov hf _).trans (frame_flushPackets env _)

theorem runs_queueRounds {payload : ℕ} {iov : List Bytes} {s : UtpSocket}
    (hs : s.kernel.state = .connected) (hf : s.kernel.finSent = false) (hc : s.kernel.cur < 1023)
    (hl : payload ≤ iov.flatten.length) :
    Runs .api (iov.flatten.take payload) s (s.queueRounds env payload ST_DATA iov).2 ∧
      (s.queueRounds env payload ST_DATA iov).1.flatten = iov.flatten.drop payload := by
  unfold queueRounds
  have hr := runs_startRto (x := .api) s
  have hk := (startRto_spec s).1
  generalize s.startRto = t at hr hk ⊢
  rw [← hk] at hs hf hc
  obtain ⟨h1, h2⟩ := runs_writeLoop env t.getPacketSize (payload + 1) hs hf hc (Nat.lt_succ_self _) hl
  exact ⟨hr.trans h1, h2⟩

theorem runs_writeOutgoingPacket {payload : ℕ} {iov : List Bytes} {s : UtpSocket}
    (hs : s.kernel.state = .connected) (hf : s.kernel.finSent = false) (hc : s.kernel.cur < 1023)
    (hl : payload ≤ iov.flatten.length) :
    Runs .api (iov.flatten.take payload) s (s.writeOutgoingPacket env payload ST_DATA iov).2 ∧
      (s.writeOutgoingPacket env payload ST_DATA iov).1.flatten = iov.flatten.drop payload := by
  rw [writeOutgoingPacket_eq]
  obtain ⟨h1, h2⟩ := runs_queueRounds env hs hf hc hl
  exact ⟨h1.trans_nil (runs_flushPackets env _), h2⟩

/-! `writev` and the FIN. -/

/-- What a round of `writev` knows when the window is not full. -/
theorem cur_lt_of_windowFull {b : ℤ} {s : UtpSocket} (h : s.windowFull b = false) :
    s.kernel.cur < 1023 := by
  rw [windowFull, Bool.or_eq_false_iff, decide_eq_false_iff_not, not_le] at h
  exact UInt16.lt_iff_toNat_lt.2 h.1

theorem runs_writevLoop (packetSize fuel : ℕ) {bytes : ℕ} (sent : ℕ) {iov : List Bytes}
    {s : UtpSocket} (hs : s.kernel.state = .connected) (hf : s.kernel.finSent = false)
    (hb : bytes = iov.flatten.length) :
    ∃ n ≤ bytes, (s.writevLoop env packetSize fuel bytes sent iov).1.1 = sent + n ∧
      Runs .api (iov.flatten.take n) s (s.writevLoop env packetSize fuel bytes sent iov).2 ∧
      s.kernel.Frame (s.writevLoop env packetSize fuel bytes sent iov).2.kernel := by
  induction fuel generalizing bytes sent iov s with
  | zero => exact ⟨0, Nat.zero_le _, rfl, .refl s, .refl _⟩
  | succ fuel ih =>
    rw [writevLoop]
    set num := min bytes packetSize with hnum
    have hq := quiet_isFull (int32 num) s
    by_cases hfull : (s.isFull (int32 num)).1
    · dsimp only
      rw [if_pos hfull]
      refine ⟨0, Nat.zero_le _, rfl, .of_quiet hq, ?_⟩
      rw [hq.1]
      exact .refl _
    have hcur : s.kernel.cur < 1023 := by
      refine cur_lt_of_windowFull (b := int32 num) ?_
      unfold isFull at hfull
      split at hfull
      · exact absurd rfl hfull
      · exact Bool.eq_false_iff.2 ‹_›
    dsimp only
    rw [if_neg hfull]
    generalize (s.isFull (int32 num)).2 = t at hq ⊢
    rw [← hq.1] at hs hf hcur ⊢
    have hle : num ≤ iov.flatten.length := by omega
    obtain ⟨hw, hrest⟩ := runs_writeOutgoingPacket env hs hf hcur hle
    have hfr := frame_writeOutgoingPacket env (.inl rfl) num iov t
    generalize t.writeOutgoingPacket env num ST_DATA iov = w at hw hrest hfr ⊢
    split
    · exact ⟨num, by omega, rfl, .quiet_trans hq hw, hfr⟩
    · obtain ⟨n, hn, h1, h2, h3⟩ := @ih (bytes - num) (sent + num) w.1 w.2
        (hfr.state.trans hs) (hfr.finSent.trans hf) (by rw [hrest, List.length_drop, hb])
      have happ : iov.flatten.take num ++ w.1.flatten.take n = iov.flatten.take (num + n) := by
        rw [hrest, ← List.take_add]
      refine ⟨num + n, by omega, by rw [h1, add_assoc], ?_, hfr.trans h3⟩
      rw [← happ]
      exact .quiet_trans hq (hw.trans h2)

theorem take_flatten_take {n m : ℕ} {iov : List Bytes} (h : n ≤ (iov.take m).flatten.length) :
    (iov.take m).flatten.take n = iov.flatten.take n := by
  conv_rhs => rw [← List.take_append_drop m iov]
  rw [List.flatten_append, List.take_append_of_le_length h]

/-- `writev` takes the first bytes of the vectors, as many as it reports. -/
theorem runs_writev (iov : List Bytes) (s : UtpSocket) :
    Runs .api (iov.flatten.take (s.writev env iov).1) s (s.writev env iov).2 := by
  rw [writev]
  dsimp only
  split
  · exact .refl s
  · rename_i hw
    push Not at hw
    have hq := quiet_refreshClock env s
    have hst : s.kernel.state = .connected := by
      have hw := hw.1
      show s.conn.state = .connected
      unfold writable at hw
      split at hw
      · assumption
      · exact absurd rfl hw
    have hf : s.kernel.finSent = false := Bool.eq_false_iff.2 hw.2
    generalize s.refreshClock env = t at hq ⊢
    rw [← hq.1] at hst hf
    obtain ⟨n, hle, hn, hr, hfr⟩ := runs_writevLoop env t.getPacketSize
      (totalLength (iov.take UTP_IOV_MAX) + 1) 0 hst hf
      (show totalLength (iov.take UTP_IOV_MAX) = _ by rw [totalLength, List.length_flatten])
    rw [totalLength, ← List.length_flatten] at hle
    rw [take_flatten_take hle] at hr
    generalize t.writevLoop env t.getPacketSize (totalLength (iov.take UTP_IOV_MAX) + 1)
      (totalLength (iov.take UTP_IOV_MAX)) 0 (iov.take UTP_IOV_MAX) = r at hn hr hfr ⊢
    rw [zero_add] at hn
    have hr' := Runs.quiet_trans hq hr
    split
    · rw [hn]
      exact hr'
    · have hq' := quiet_isFull (-1) r.2
      generalize r.2.isFull (-1) = f at hq' ⊢
      dsimp only
      rw [hn]
      refine .ite (fun _ => ?_) (fun _ => hr'.trans_quiet hq')
      refine (hr'.trans_quiet hq').trans_nil (.micro (l := []) (.full ?_) (by simp))
      rw [hq'.1]
      exact hfr.state.trans hst

/-- The FIN is queued; `c` is whether the socket was closed in the same call. -/
theorem runs_queueFin {s₀ s : UtpSocket} {c : Bool} (ho : s₀.kernel.IsOpen)
    (hf : s₀.kernel.finSent = false)
    (hk : s.kernel = { s₀.kernel with closeRequested := s₀.kernel.closeRequested || c })
    (hout : s.out = s₀.out) : Runs .api [] s₀
      ((s.setSend { s.send with finSent := true }).queueRounds env 0 ST_FIN []).2 := by
  unfold queueRounds
  set t := s.setSend { s.send with finSent := true } with ht
  have htk : t.kernel = { s₀.kernel with
      finSent := true
      closeRequested := s₀.kernel.closeRequested || c } := by
    rw [ht, kernel_setSend]
    show { s.kernel with finSent := true } = _
    rw [hk]
  obtain ⟨hk₁, l₁, ho₁, hl₁⟩ := startRto_spec t
  generalize t.startRto = u at hk₁ ho₁ ⊢
  rw [writeLoop]
  obtain ⟨hk₂, l₂, ho₂, hl₂⟩ := quiet_roundStart ST_FIN u
  generalize (u.assert (u.send.curWindowPackets.toNat < OUTGOING_BUFFER_MAX_SIZE) .windowPackets
      ).assert (ST_FIN = ST_DATA ∨ ST_FIN = ST_FIN) .packetFlags = v at hk₂ ho₂ ⊢
  have hnone : v.openTail u.getPacketSize 0 = none := by
    rw [openTail, if_neg (by simp)]
  dsimp only
  rw [hnone]
  dsimp only
  obtain ⟨p, l₃, hp, hb, hk₃, ho₃, hl₃⟩ := queuePacket_spec env (.inr rfl) 0 [] v
  have hkv : v.kernel = { s₀.kernel with
      finSent := true
      closeRequested := s₀.kernel.closeRequested || c } := by rw [hk₂, hk₁, htk]
  have hp' : s₀.kernel.Fresh ST_FIN p := by
    rw [hkv] at hp
    exact ⟨hp.1, hp.2, hp.3, hp.4, hp.5, hp.6, hp.7⟩
  have hm : Kernel.Micro .api s₀.kernel [] { s₀.kernel.queue p with
      finSent := true
      closeRequested := s₀.kernel.closeRequested || c } := .queueFin ho hf hp' (by rw [hb]; rfl)
  have hk₄ : (v.queuePacket env ST_FIN 0 []).kernel = { s₀.kernel.queue p with
      finSent := true
      closeRequested := s₀.kernel.closeRequested || c } := by
    rw [hk₃, hkv]
    rfl
  rw [← hk₄] at hm
  refine runs_step (u := l₁ ++ l₂) (v := l₃) hm ?_ (fun e he => ?_) (.of_quiet hl₃)
  · rw [ho₃, ho₂, ho₁, ht, out_setSend, hout]
    simp
  · rcases List.mem_append.1 he with he | he
    · refine .inr ⟨_, (hl₁ e he).1, .fail ?_⟩
      have := (hl₁ e he).2
      rw [htk] at this
      exact this
    · exact .inl (hl₂ e he)

theorem runs_sendFin {s₀ s : UtpSocket} {c : Bool} (ho : s₀.kernel.IsOpen)
    (hf : s₀.kernel.finSent = false)
    (hk : s.kernel = { s₀.kernel with closeRequested := s₀.kernel.closeRequested || c })
    (hout : s.out = s₀.out) : Runs .api [] s₀ (s.sendFin env) := by
  rw [sendFin, writeOutgoingPacket_eq]
  exact (runs_queueFin env ho hf hk hout).trans_nil (runs_flushPackets env _)

end UtpSocket

end Utp
