import LibUtp.Kernel.ConnView

/-! Every operation of a socket is a sequence of the steps of `ConnStep`. -/

namespace Utp

open Lts SequenceBuffer

namespace UtpSocket

variable (env : Env) {a : Scope} {s : UtpSocket}

/-! Acknowledgements that arrive. -/

theorem connSteps_ackTiming (p : OutgoingPacket) (s : UtpSocket) : ConnSteps a s (s.ackTiming env p) := by
  unfold ackTiming
  exact .ite (fun _ => (connSteps_asked s).trans (connSteps_setCc _ _)) fun _ => connSteps_setCc _ s

theorem connSteps_ackPacket (seq : UInt16) (s : UtpSocket) : ConnSteps a s (s.ackPacket env seq).2 := by
  unfold ackPacket
  split
  · exact .refl s
  · rename_i p hp
    split
    · exact .refl s
    · dsimp only
      have h := (connSteps_setSend (a := a) { s.send with outbuf := (s.send.outbuf.take seq.toNat).2 } s).trans
        (connSteps_ackTiming env p _)
      generalize (s.setSend { s.send with outbuf := (s.send.outbuf.take seq.toNat).2 }).ackTiming env p = t at h ⊢
      have h' := h.trans (.ite (c := p.needResend) (fun _ => .refl t) fun _ => connSteps_removeInFlight p.payload t)
      exact h'.trans (connSteps_setCc _ _)

theorem connSteps_probeAck (seq : UInt16) (s : UtpSocket) : ConnSteps a s (s.probeAck seq) :=
  (ConnSteps.assert _ _ s).trans (connSteps_setMtu _ _)

theorem connSteps_ackedBytes (now : UInt64) (n : ℕ) (seq : UInt16) (acked : ℕ) (minRtt : ℤ) (s : UtpSocket) :
    ConnSteps a s (s.ackedBytes now n seq acked minRtt).2.2 := by
  induction n generalizing seq acked minRtt s with
  | zero => exact .refl s
  | succ n ih =>
    unfold ackedBytes
    split
    · exact ih _ _ _ s
    · split
      · exact ih _ _ _ s
      · exact ((ConnSteps.assert _ _ s).trans (connSteps_probeAck _ _)).trans (ih _ _ _ _)

theorem connSteps_eackBytesLoop (base : ℤ) (mask : Bytes) (now : UInt64) (n acked : ℕ) (minRtt : ℤ) (s : UtpSocket) :
    ConnSteps a s (s.eackBytesLoop base mask now n acked minRtt).2.2 := by
  induction n generalizing acked minRtt s with
  | zero => exact .refl s
  | succ n ih =>
    unfold eackBytesLoop
    dsimp only
    split
    · split
      · exact (ConnSteps.assert _ _ s).trans (ih _ _ _)
      · exact ih _ _ s
    · exact ih _ _ s

theorem connSteps_selectiveAckBytes (base : ℤ) (mask : Bytes) (acked : ℕ) (minRtt : ℤ) (s : UtpSocket) :
    ConnSteps a s (s.selectiveAckBytes env base mask acked minRtt).2.2 := by
  unfold selectiveAckBytes
  split
  · exact .refl s
  · exact (connSteps_asked s).trans (connSteps_eackBytesLoop _ _ _ _ _ _ _)

theorem connSteps_theirSample (theirDelay : UInt32) (s : UtpSocket) : ConnSteps a s (s.theirSample theirDelay) := by
  have h : ConnSteps a s (if theirDelay ≠ 0 then
      s.setCc { s.cc with theirHist := s.cc.theirHist.addSample theirDelay s.currentMs }
    else s) := .ite (fun _ => connSteps_setCc _ s) fun _ => .refl s
  exact h.trans (.ite (fun _ => connSteps_setCc _ _) fun _ => .refl _)

theorem connSteps_ourSample (actualDelay : UInt32) (s : UtpSocket) : ConnSteps a s (s.ourSample actualDelay) := by
  unfold ourSample
  refine .ite (fun _ => ?_) fun _ => .refl s
  exact (connSteps_setCc _ s).trans ((ConnSteps.assert _ _ _).trans (connSteps_setCc _ _))

theorem connSteps_capDelay (minRtt : ℤ) (s : UtpSocket) : ConnSteps a s (s.capDelay minRtt) :=
  (ConnSteps.assert _ _ s).trans (.ite (fun _ => connSteps_setCc _ _) fun _ => .refl _)

theorem connSteps_controlWindow (acked : ℕ) (minRtt : ℤ) (s : UtpSocket) : ConnSteps a s (s.controlWindow acked minRtt) :=
  ((ConnSteps.assert _ _ s).trans (connSteps_setCc _ _)).trans ((ConnSteps.emit rfl _).trans (connSteps_asked _))

theorem connSteps_takeSamples (pp : ParsedPacket) (time : UInt64) (r : ℕ × ℤ × UtpSocket) :
    ConnSteps a r.2.2 (takeSamples env pp time r) := by
  unfold takeSamples
  have h {b : ℕ × ℤ × UtpSocket} (hb : ConnSteps a r.2.2 b.2.2) (ms : UInt64) (their our : UInt32) :
      ConnSteps a r.2.2 ((((b.2.2.setTiming { b.2.2.timing with
        lastMeasuredDelay := ms
        replyMicro := their }).theirSample their).ourSample our).capDelay b.2.1) :=
    ((hb.trans (connSteps_setTiming _ _)).trans (connSteps_theirSample _ _)).trans
      ((connSteps_ourSample _ _).trans (connSteps_capDelay _ _))
  cases pp.selack with
  | some mask =>
    have hb := @connSteps_selectiveAckBytes env a (pp.ackNr + 2).toNat mask r.1 r.2.1 r.2.2
    exact .ite (fun _ => (h hb _ _ _).trans (connSteps_controlWindow _ _ _)) fun _ => h hb _ _ _
  | none =>
    have hb : ConnSteps a r.2.2 r.2.2 := .refl _
    exact .ite (fun _ => (h hb _ _ _).trans (connSteps_controlWindow _ _ _)) fun _ => h hb _ _ _

theorem connSteps_processAcks (pp : ParsedPacket) (acks : ℕ) (time : UInt64) (s : UtpSocket) :
    ConnSteps a s (s.processAcks env pp acks time) := by
  rw [processAcks_eq]
  exact ((connSteps_asked s).trans (connSteps_ackedBytes _ _ _ _ _ _)).trans (connSteps_takeSamples env _ _ _)

theorem connSteps_peerWindow (windowsize : UInt32) (s : UtpSocket) : ConnSteps a s (s.peerWindow windowsize) := by
  unfold peerWindow
  have h : ConnSteps a s (s.setSend { s.send with maxWindowUser := windowsize.toNat }) := connSteps_setSend _ _
  dsimp only
  generalize s.setSend { s.send with maxWindowUser := windowsize.toNat } = t at h ⊢
  exact .ite (fun _ => h.trans (connSteps_setCc _ t)) fun _ => h

/-- The end of the handshake is told only to the side that has dialled. -/
theorem connSteps_ackState (pp : ParsedPacket) (acks : ℕ) (s : UtpSocket) : ConnSteps a s (s.ackState pp acks) := by
  unfold ackState
  have h : ConnSteps a s (if pp.type = ST_DATA ∧ s.conn.state = .synRecv then s.setState .connected else s) := by
    refine .ite (fun hc => connSteps_setState ?_) fun _ => .refl s
    rw [hc.2]
    exact .opens
  generalize (if pp.type = ST_DATA ∧ s.conn.state = .synRecv then s.setState .connected else s) = t at h ⊢
  dsimp only
  refine h.trans (.ite (fun hc => ?_) fun _ => .ite (fun _ => ?_) fun _ => .refl t)
  · exact .single (t := (t.setState .connected).emit .onConnect) (.connected hc.2) rfl
  · exact (connSteps_setSend _ _).trans (.ite (fun _ => connSteps_destroy _) fun _ => .refl _)

theorem connSteps_raiseFastResend (pp : ParsedPacket) (s : UtpSocket) : ConnSteps a s (s.raiseFastResend pp) :=
  .ite (fun _ => connSteps_setTiming _ s) fun _ => .refl s

theorem connSteps_shrinkWindow (s : UtpSocket) : ConnSteps a s s.shrinkWindow := connSteps_setSend _ _

theorem connSteps_ackLoop (n : ℕ) (s : UtpSocket) : ConnSteps a s (s.ackLoop env n) := by
  induction n generalizing s with
  | zero => exact .refl s
  | succ n ih =>
    unfold ackLoop
    have h := connSteps_ackPacket env (a := a) s.windowStart s
    generalize s.ackPacket env s.windowStart = r at h ⊢
    dsimp only
    split
    · exact h
    · exact (h.trans (connSteps_shrinkWindow _)).trans (ih _)

theorem connSteps_skipLoop (n : ℕ) (s : UtpSocket) : ConnSteps a s (s.skipLoop n) := by
  induction n generalizing s with
  | zero => exact .refl s
  | succ n ih =>
    unfold skipLoop
    exact .ite (fun _ => (connSteps_shrinkWindow s).trans (ih _)) fun _ => .refl s

theorem connSteps_advance (acks : ℕ) (s : UtpSocket) : ConnSteps a s (s.advance env acks) := by
  unfold advance
  exact ((connSteps_ackLoop env _ s).trans (.assert _ _ _)).trans
    (((connSteps_skipLoop _ _).trans (.assert _ _ _)).trans (.assert _ _ _))

theorem connSteps_sendLast (s : UtpSocket) : ConnSteps a s (s.sendLast env) := by
  unfold sendLast
  refine .ite (fun _ => ?_) fun _ => .refl s
  split
  · exact .ite (fun _ => connSteps_sendPacket env _ s) fun _ => .refl s
  · exact .refl s

theorem connSteps_fastTimeout (s : UtpSocket) : ConnSteps a s (s.fastTimeout env) := by
  unfold fastTimeout
  refine .ite (fun _ => .ite (fun _ => connSteps_setTiming _ s) fun _ => ?_) fun _ => .refl s
  split
  · refine .ite (fun _ => ?_) fun _ => .refl s
    exact (connSteps_setTiming _ s).trans (connSteps_sendPacket env _ _)
  · exact .refl s

theorem connSteps_advanceSendWindow (pp : ParsedPacket) (acks : ℕ) (s : UtpSocket) :
    ConnSteps a s (s.advanceSendWindow env pp acks) := by
  unfold advanceSendWindow
  refine .ite (fun _ => ?_) fun _ => .refl s
  exact (((connSteps_peerWindow _ s).trans (connSteps_ackState _ _ _)).trans
    (connSteps_raiseFastResend pp _)).trans (((connSteps_advance env _ _).trans
      (connSteps_sendLast env _)).trans (connSteps_fastTimeout env _))

theorem connSteps_eackLoop (base : ℤ) (mask : Bytes) (n count : ℕ) (resends : List ℤ) (s : UtpSocket) :
    ConnSteps a s (s.eackLoop env base mask n count resends).2.2 := by
  induction n generalizing count resends s with
  | zero => exact .refl s
  | succ n ih =>
    unfold eackLoop
    dsimp only
    split
    · split
      · exact ih _ _ s
      · split
        · exact ((ConnSteps.assert _ _ s).trans (connSteps_ackPacket env _ _)).trans (ih _ _ _)
        · split
          · exact ih _ _ s
          · exact ih _ _ s
    · exact ih _ _ s

theorem connSteps_resendLoop (vs : List ℤ) (i : ℕ) (backOff : Bool) (s : UtpSocket) :
    ConnSteps a s (s.resendLoop env vs i backOff).2 := by
  induction vs generalizing i backOff s with
  | nil => exact .refl s
  | cons v vs ih =>
    unfold resendLoop
    split
    · have h := (connSteps_sendPacket env (a := a) v s).trans (connSteps_setTiming
        { (s.sendPacket env v).timing with fastResendSeqNr := UInt16.ofInt (v + 1) } _)
      dsimp only
      split
      · exact h
      · exact h.trans (ih _ _ _)
    · exact ih _ _ s

theorem connSteps_selectiveAck (base : ℤ) (mask : Bytes) (s : UtpSocket) : ConnSteps a s (s.selectiveAck env base mask) := by
  unfold selectiveAck
  refine .ite (fun _ => .refl s) fun _ => ?_
  have h := connSteps_eackLoop env (a := a) base mask (8 * mask.length + 1) 0 [] s
  generalize s.eackLoop env base mask (8 * mask.length + 1) 0 [] = r at h ⊢
  dsimp only
  generalize (if r.2.2.fastResend (base - 1) r.1 then r.2.1 ++ [(base - 1) % 2 ^ 16]
    else r.2.1).reverse = vs
  have h' := h.trans (connSteps_resendLoop env (a := a) vs 4 false r.2.2)
  generalize r.2.2.resendLoop env vs 4 false = b at h' ⊢
  exact (h'.trans (.ite (fun _ => connSteps_setCc _ b.2) fun _ => .refl b.2)).trans (connSteps_setDuplicateAck _ _)

theorem connSteps_selectiveAckOf (pp : ParsedPacket) (s : UtpSocket) : ConnSteps a s (s.selectiveAckOf env pp) := by
  unfold selectiveAckOf
  split
  · exact connSteps_selectiveAck env _ _ s
  · exact .refl s

theorem state_isFull (bytes : ℤ) (s : UtpSocket) : (s.isFull bytes).2.conn.state = s.conn.state :=
  congrArg Kernel.state (kernel_isFull bytes s)

theorem connSteps_becomeWritable (s : UtpSocket) : ConnSteps a s s.becomeWritable := by
  unfold becomeWritable
  refine .ite (fun hc => ?_) fun _ => .refl s
  have h := connSteps_isFull (a := a) (-1) s
  have hst := state_isFull (-1) s
  generalize s.isFull (-1) = r at h hst ⊢
  refine .ite (fun _ => h) fun _ => h.trans ?_
  exact .single (t := (r.2.setState .connected).emit (.onStateChange .writable)) (.writable (hst.trans hc)) rfl

theorem connSteps_probeLoss (s : UtpSocket) : ConnSteps a s s.probeLoss := (ConnSteps.assert _ _ s).trans (connSteps_setMtu _ _)

theorem connSteps_dupAckProbe (pp : ParsedPacket) (s : UtpSocket) : ConnSteps a s (s.dupAckProbe pp) :=
  .ite (fun _ => .ite (fun _ => connSteps_probeLoss s) fun _ => connSteps_setMtu _ s) fun _ => .refl s

theorem connSteps_countDuplicate (pp : ParsedPacket) (s : UtpSocket) : ConnSteps a s (s.countDuplicate pp) := by
  unfold countDuplicate
  refine .ite (fun _ => .ite (fun _ => ?_) fun _ => connSteps_setDuplicateAck _ s) fun _ => .refl s
  exact (connSteps_setDuplicateAck _ s).trans (connSteps_dupAckProbe _ _)

theorem connSteps_processAck (pp : ParsedPacket) (time : UInt64) (s : UtpSocket) :
    ConnSteps a s (s.processAck env pp time) := by
  unfold processAck
  exact (((connSteps_countDuplicate pp s).trans (connSteps_processAcks env _ _ _ _)).trans
    (connSteps_advanceSendWindow env pp _ _)).trans (((connSteps_selectiveAckOf env pp _).trans
      (.assert _ _ _)).trans (connSteps_becomeWritable _))

theorem connSteps_synSentAck (pp : ParsedPacket) (s : UtpSocket) : ConnSteps a s (s.synSentAck pp) :=
  .ite (fun hc => .silent (.expect (.inl hc)) rfl) fun _ => .refl s

/-! Delivery. -/

theorem connSteps_onRead (ha : a.delivers) (ho : s.connView.IsOpen) (b : Bytes) : ConnSteps a s (s.onRead b) :=
  .ite (fun _ => .single (t := s.emit (.onRead b)) (.hand ha ho rfl) rfl) fun _ => .refl s

theorem connView_onRead (b : Bytes) (s : UtpSocket) : (s.onRead b).connView = s.connView := by
  unfold onRead
  split <;> rfl

theorem connSteps_reachEof (ha : a.delivers) (ho : s.connView.IsOpen) :
    ConnSteps a s (s.reachEof env) ∧ (s.reachEof env).connView.state = s.connView.state := by
  unfold reachEof
  split
  · dsimp only
    have h : ConnSteps a s ((s.setRecv { s.recv with gotFinReached := true }).setCc { s.cc with
        rtoTimeout := s.currentMs + (min (s.cc.rto * 3) 60).toUInt64 }) := .of_eq rfl rfl
    have hd : ((s.setRecv { s.recv with gotFinReached := true }).setCc { s.cc with
        rtoTimeout := s.currentMs + (min (s.cc.rto * 3) 60).toUInt64 }).connView = s.connView := rfl
    generalize (s.setRecv { s.recv with gotFinReached := true }).setCc { s.cc with
      rtoTimeout := s.currentMs + (min (s.cc.rto * 3) 60).toUInt64 } = t at h hd ⊢
    have hot : t.connView.IsOpen := ho.of_state (congrArg ConnView.state hd)
    have he : ConnSteps a t (t.emit (.onStateChange .eof)) := .single (.hand ha hot rfl) rfl
    have hack := connSteps_sendAck env (a := a) false (t.emit (.onStateChange .eof))
    obtain ⟨-, -, -, -, -, hview, -⟩ := sendAck_connSteps env false (t.emit (.onStateChange .eof))
    generalize (t.emit (.onStateChange .eof)).sendAck env false = u at hack hview ⊢
    have ht : t.connView.state = s.connView.state := congrArg ConnView.state hd
    have hstate : u.connView.state = s.connView.state := by
      rw [hview]
      exact ht
    exact ⟨((h.trans he).trans hack).trans (connSteps_setRecv rfl), hstate⟩
  · exact ⟨.refl s, rfl⟩

theorem connSteps_advanceAckNr (ha : a.delivers) (ho : s.connView.IsOpen) : ConnSteps a s s.advanceAckNr :=
  .silent (.advance ha ho) rfl

theorem connSteps_drainLoop (ha : a.delivers) (n : ℕ) (ho : s.connView.IsOpen) : ConnSteps a s (s.drainLoop env n) := by
  induction n generalizing s with
  | zero => exact .refl s
  | succ n ih =>
    unfold drainLoop
    obtain ⟨h, hstate⟩ := connSteps_reachEof env ha ho
    generalize s.reachEof env = t at h hstate ⊢
    have hot : t.connView.IsOpen := ho.of_state hstate
    dsimp only
    split
    · exact h
    · split
      · exact h.trans (connSteps_setRecv rfl)
      · rename_i p hp
        have htake : ConnSteps a t t.takeInbuf := connSteps_setRecv rfl
        have hread := htake.trans (connSteps_onRead ha (s := t.takeInbuf) hot p.data)
        have hview : (t.takeInbuf.onRead p.data).connView = t.connView := connView_onRead _ _
        generalize t.takeInbuf.onRead p.data = u at hread hview ⊢
        have hou : u.connView.IsOpen := hot.of_state (congrArg ConnView.state hview)
        have hw : ConnSteps a u (u.advanceAckNr.assert (0 < u.advanceAckNr.recv.reorderCount) .drainCount) :=
          (connSteps_advanceAckNr ha hou).trans (.assert _ _ _)
        have hstate' : (u.advanceAckNr.assert (0 < u.advanceAckNr.recv.reorderCount) .drainCount).connView.state =
            u.connView.state := by
          rw [connView_assert]
          rfl
        generalize u.advanceAckNr.assert (0 < u.advanceAckNr.recv.reorderCount) .drainCount = v at hw hstate' ⊢
        have hset : ConnSteps a v (v.setRecv { v.recv with reorderCount := v.recv.reorderCount - 1 }) :=
          connSteps_setRecv rfl
        exact (((h.trans hread).trans hw).trans hset).trans (ih (hou.of_state hstate'))

theorem connSteps_noteFin (pp : ParsedPacket) (s : UtpSocket) : ConnSteps a s (s.noteFin pp) :=
  .ite (fun _ => connSteps_setRecv rfl) fun _ => .refl s

theorem connView_noteFin (pp : ParsedPacket) (s : UtpSocket) : (s.noteFin pp).connView = s.connView := by
  unfold noteFin
  split <;> rfl

theorem connSteps_storeOutOfOrder (pp : ParsedPacket) (seqnr : UInt16) (s : UtpSocket) :
    ConnSteps a s (s.storeOutOfOrder pp seqnr) := by
  unfold storeOutOfOrder
  refine .ite (fun _ => .refl s) fun _ => .ite (fun _ => .refl s) fun _ => ?_
  have hg : ConnSteps a s (s.growInbuf pp seqnr) := connSteps_setRecv rfl
  refine .ite (fun _ => hg) fun _ => hg.trans ?_
  exact (((ConnSteps.assert _ _ _).trans (.assert _ _ _)).trans (connSteps_setRecv rfl)).trans
    (connSteps_scheduleAck _)

/-- What comes next in order is handed over, and then an acknowledgement is due. -/
theorem connSteps_deliverInOrder (ha : a.delivers) (pp : ParsedPacket) (ho : s.connView.IsOpen) : ∃ t, ConnSteps a s t ∧
    s.deliverInOrder env pp = t.scheduleAck := by
  refine ⟨_, ?_, rfl⟩
  have h := connSteps_onRead ha ho pp.payload
  have hd := connView_onRead pp.payload s
  generalize s.onRead pp.payload = t at h hd ⊢
  have hot : t.connView.IsOpen := ho.of_state (congrArg ConnView.state hd)
  exact (h.trans (connSteps_advanceAckNr ha hot)).trans (connSteps_drainLoop env ha _ hot)

/-- A packet in order is delivered, and the others leave the acknowledgement number. -/
theorem connSteps_deliverData (ha : a.delivers) (pp : ParsedPacket) (seqnr : UInt16) (ho : s.connView.IsOpen) :
    ∃ t, ConnSteps a s t ∧ (s.deliverData env pp seqnr = t.scheduleAck ∨
      ConnSteps { a with delivers := false } s (s.deliverData env pp seqnr)) := by
  unfold deliverData
  have hd := connView_noteFin pp s
  dsimp only
  split
  · have h := connSteps_noteFin (a := a) pp s
    generalize s.noteFin pp = u at h hd ⊢
    obtain ⟨t, ht, he⟩ := connSteps_deliverInOrder env ha pp (s := u) (ho.of_state (congrArg ConnView.state hd))
    exact ⟨t, h.trans ht, .inl he⟩
  · exact ⟨s, .refl s, .inr ((connSteps_noteFin pp s).trans (connSteps_storeOutOfOrder _ _ _))⟩

theorem connSteps_openPacket (pp : ParsedPacket) (s : UtpSocket) : ConnSteps a s
    (((s.assert (pp.type ≠ ST_RESET) .incomingReset).synSentAck pp).setTiming
      { ((s.assert (pp.type ≠ ST_RESET) .incomingReset).synSentAck pp).timing with
        lastGotPacket := ((s.assert (pp.type ≠ ST_RESET) .incomingReset).synSentAck pp).currentMs }) :=
  ((ConnSteps.assert _ _ s).trans (connSteps_synSentAck pp _)).trans (connSteps_setTiming _ _)

/-- Whatever the datagram, the acknowledgement number moves on only by delivery, which leaves an acknowledgement due. -/
theorem connSteps_processIncoming (ha : a.delivers) (b : Bytes) (syn : Bool) (s : UtpSocket) : ∃ t, ConnSteps a s t ∧
    (s.processIncoming env b syn = t.scheduleAck ∨
      ConnSteps { a with delivers := false } s (s.processIncoming env b syn)) := by
  unfold processIncoming
  have h {a : Scope} : ConnSteps a s ((s.refreshClock env).parsePacket b).2 :=
    (connSteps_refreshClock env s).trans (.of_eq rfl rfl)
  generalize (s.refreshClock env).parsePacket b = r at h ⊢
  dsimp only
  split
  · exact ⟨s, .refl s, .inr h⟩
  · rename_i pp hp
    have h' {a : Scope} : ConnSteps a s r.2.asked := h.trans (connSteps_asked r.2)
    split
    · exact ⟨s, .refl s, .inr h'⟩
    · unfold processValid
      have ho {a : Scope} := h'.trans (connSteps_openPacket (a := a) pp r.2.asked)
      dsimp only
      generalize ((r.2.asked.assert (pp.type ≠ ST_RESET) .incomingReset).synSentAck pp).setTiming _ = u at ho ⊢
      split
      · exact ⟨s, .refl s, .inr ho⟩
      · split
        · refine ⟨s, .refl s, .inr (ho.trans ?_)⟩
          exact .ite (fun _ => connSteps_scheduleAck u) fun _ => .refl u
        · have hack {a : Scope} := ho.trans (connSteps_processAck env (a := a) pp (env.microseconds r.2.tick) u)
          generalize u.processAck env pp (env.microseconds r.2.tick) = v at hack ⊢
          split
          · exact ⟨s, .refl s, .inr hack⟩
          · split
            · exact ⟨s, .refl s, .inr hack⟩
            · rename_i hopen
              have hov : v.connView.IsOpen := by
                rw [not_and_or, not_not, not_not] at hopen
                exact hopen
              obtain ⟨t, ht, he⟩ := connSteps_deliverData env ha pp (u.seqDistance pp) hov
              exact ⟨t, hack.trans ht, he.imp id hack.trans⟩

theorem connSteps_received (ha : a.delivers) (b : Bytes) (syn : Bool) (s : UtpSocket) :
    ConnSteps a s (s.processIncoming env b syn) := by
  obtain ⟨t, ht, he | he⟩ := connSteps_processIncoming env ha b syn s
  · rw [he]
    exact ht.trans (connSteps_scheduleAck t)
  · exact he.mono

/-! Timers. -/

theorem connSteps_checkInvariant (s : UtpSocket) : ConnSteps a s s.checkInvariant := by
  unfold checkInvariant
  exact (ConnSteps.assert _ _ s).trans (.assert _ _ _)

theorem connSteps_markLoop (n i : ℕ) (s : UtpSocket) : ConnSteps a s (s.markLoop n i) := by
  induction n generalizing i s with
  | zero => exact .refl s
  | succ n ih =>
    unfold markLoop
    dsimp only
    split
    · exact ih _ s
    · split
      · exact ih _ s
      · exact ((connSteps_setSend _ s).trans (connSteps_removeInFlight _ _)).trans (ih _ _)

theorem connSteps_markWindow (s : UtpSocket) : ConnSteps a s s.markWindow :=
  (connSteps_markLoop _ _ s).trans (connSteps_setSend _ _)

theorem connSteps_probeTimeout (s : UtpSocket) : ConnSteps a s s.probeTimeout.2 :=
  (ConnSteps.assert _ _ s).trans (connSteps_setMtu _ _)

theorem connSteps_timeOut {st : ConnState} (h : s.conn.state.Leads st) : ConnSteps a s (s.timeOut st) :=
  (connSteps_setState h).trans (.emit rfl _)

theorem connSteps_backOff (ignoreLoss : Bool) (s : UtpSocket) : ConnSteps a s (s.backOff ignoreLoss) := by
  unfold backOff
  dsimp only
  refine .ite (fun _ => connSteps_setCc _ s) fun _ => ?_
  exact ((connSteps_setCc _ s).trans (connSteps_setDuplicateAck _ _)).trans (connSteps_setCc _ _)

theorem connSteps_resendHead (s : UtpSocket) : ConnSteps a s (s.resendHead env) := by
  unfold resendHead
  refine .ite (fun _ => ?_) fun _ => .refl s
  have h : ConnSteps a s ((s.setCc { s.cc with retransmitCount := s.cc.retransmitCount + 1 }).setTiming
      { s.timing with fastTimeout := true, timeoutSeqNr := s.send.seqNr }) := .of_eq rfl rfl
  dsimp only
  generalize (s.setCc { s.cc with retransmitCount := s.cc.retransmitCount + 1 }).setTiming
    { s.timing with fastTimeout := true, timeoutSeqNr := s.send.seqNr } = t at h ⊢
  exact h.trans ((ConnSteps.assert _ _ t).trans (connSteps_sendPacket env _ _))

theorem connSteps_rtoExpired (s : UtpSocket) : ConnSteps a s (s.rtoExpired env).2 := by
  unfold rtoExpired
  have h := connSteps_probeTimeout (a := a) s
  generalize s.probeTimeout = r at h ⊢
  dsimp only
  split_ifs
  · exact h.trans (connSteps_timeOut .destroy)
  · exact h.trans (connSteps_timeOut .destroy)
  · exact h.trans (connSteps_timeOut .breaks)
  · exact (h.trans (connSteps_backOff _ _)).trans ((connSteps_markWindow _).trans (connSteps_resendHead env _))

theorem connSteps_keepAlive (hk : a.keepsAlive) (s : UtpSocket) : ConnSteps a s (s.keepAlive env) :=
  .ite (fun _ => connSteps_sendKeepAlive env hk s) fun _ => .refl s

theorem connSteps_checkTimeouts (hk : a.keepsAlive) (s : UtpSocket) : ConnSteps a s (s.checkTimeouts env) := by
  unfold checkTimeouts
  have h₁ : ConnSteps a s (s.checkInvariant.assert s.headPresent .timeoutHead) :=
    (connSteps_checkInvariant s).trans (.assert _ _ _)
  generalize s.checkInvariant.assert s.headPresent .timeoutHead = t at h₁ ⊢
  have h₂ : ConnSteps a t (if t.conn.state ≠ .destroy then (t.flushPackets env).2 else t) :=
    .ite (fun _ => connSteps_flushPackets env t) fun _ => .refl t
  dsimp only
  generalize (if t.conn.state ≠ .destroy then (t.flushPackets env).2 else t) = u at h₂ ⊢
  refine (h₁.trans h₂).trans (.ite (fun _ => ?_) fun _ => .refl u)
  have h₃ : ConnSteps a u u.reopenWindow := .ite (fun _ => connSteps_setSend _ _) fun _ => .refl u
  generalize u.reopenWindow = v at h₃ ⊢
  have h₄ : ConnSteps a v (if v.cc.isRtoExpired v.currentMs then v.rtoExpired env else (false, v)).2 := by
    split
    · exact connSteps_rtoExpired env v
    · exact .refl v
  generalize (if v.cc.isRtoExpired v.currentMs then v.rtoExpired env else (false, v)) = w at h₄ ⊢
  refine h₃.trans (h₄.trans (.ite (fun _ => .refl _) fun _ => ?_))
  exact (connSteps_becomeWritable _).trans (connSteps_keepAlive env hk _)

/-! The application. -/

theorem connSteps_writevLoop (packetSize fuel bytes sent : ℕ) (iov : List Bytes) (s : UtpSocket) :
    ConnSteps a s (s.writevLoop env packetSize fuel bytes sent iov).2 := by
  induction fuel generalizing bytes sent iov s with
  | zero => exact .refl s
  | succ fuel ih =>
    unfold writevLoop
    dsimp only
    generalize min bytes packetSize = num
    have h := connSteps_isFull (a := a) (int32 num) s
    generalize s.isFull (int32 num) = r at h ⊢
    split
    · exact h
    · have hw := h.trans (connSteps_writeOutgoingPacket env (a := a) num ST_DATA iov r.2)
      generalize r.2.writeOutgoingPacket env num ST_DATA iov = w at hw ⊢
      split
      · exact hw
      · exact hw.trans (ih _ _ _ _)

theorem connSteps_writev (iov : List Bytes) (s : UtpSocket) : ConnSteps a s (s.writev env iov).2 := by
  unfold writev
  dsimp only
  split
  · exact .refl s
  · rename_i hc
    have h := (connSteps_refreshClock env (a := a) s).trans (connSteps_writevLoop env
      (s.refreshClock env).getPacketSize (totalLength (iov.take UTP_IOV_MAX) + 1)
      (totalLength (iov.take UTP_IOV_MAX)) 0 (iov.take UTP_IOV_MAX) _)
    rw [not_or, Bool.not_eq_false, Bool.not_eq_true] at hc
    have hconn : s.conn.state = .connected := by
      cases hs : s.conn.state <;> simp [hs, writable] at hc ⊢
    obtain ⟨-, -, -, -, hfr⟩ := runs_writevLoop env (s := s.refreshClock env) (s.refreshClock env).getPacketSize
      (totalLength (iov.take UTP_IOV_MAX) + 1) 0 hconn hc.2
      (show totalLength (iov.take UTP_IOV_MAX) = _ by rw [totalLength, List.length_flatten])
    generalize (s.refreshClock env).writevLoop env (s.refreshClock env).getPacketSize
      (totalLength (iov.take UTP_IOV_MAX) + 1) (totalLength (iov.take UTP_IOV_MAX)) 0
      (iov.take UTP_IOV_MAX) = r at h hfr ⊢
    split
    · exact h
    · have h' := h.trans (connSteps_isFull (-1) r.2)
      have hst' := state_isFull (-1) r.2
      generalize r.2.isFull (-1) = w at h' hst' ⊢
      refine .ite (fun _ => h'.trans (connSteps_setState ?_)) fun _ => h'
      have hfull : r.2.conn.state = .connected := hfr.state.trans hconn
      rw [hst', hfull]
      exact .fill

theorem connSteps_readDrained (s : UtpSocket) : ConnSteps a s (s.readDrained env) := by
  unfold readDrained
  have h : ConnSteps a s (s.assert (s.conn.state ≠ .uninitialized) .readDrainedState) := .assert _ _ s
  generalize s.assert (s.conn.state ≠ .uninitialized) .readDrainedState = t at h ⊢
  have h' := h.trans (connSteps_askRcvWindow env t)
  dsimp only
  refine .ite (fun _ => h) fun _ => .ite (fun _ => .ite (fun _ => ?_) fun _ => ?_) fun _ => h'
  · exact h'.trans (connSteps_sendAck env _ _)
  · exact h'.trans ((connSteps_refreshClock env _).trans (connSteps_scheduleAck _))

theorem connSteps_backoffRtoForClose (s : UtpSocket) : ConnSteps a s (s.backoffRtoForClose env) := .of_eq rfl rfl

theorem connSteps_markReadShutdown (s : UtpSocket) : ConnSteps a s s.markReadShutdown := connSteps_setRecv rfl

theorem connSteps_closeConnected (s : UtpSocket) : ConnSteps a s (s.closeConnected env) := by
  unfold closeConnected
  have h : ConnSteps a s s.markReadShutdown.requestClose :=
    (connSteps_markReadShutdown s).trans (connSteps_setSend _ _)
  generalize s.markReadShutdown.requestClose = t at h ⊢
  exact h.trans (.ite (fun _ => connSteps_sendFin env t) fun _ => .ite (fun _ => connSteps_destroy t) fun _ => .refl t)

theorem connSteps_close (s : UtpSocket) : ConnSteps a s (s.close env) := by
  unfold close
  have h : ConnSteps a s (s.assert (s.conn.state ≠ .uninitialized ∧ s.conn.state ≠ .destroy) .closeState) :=
    .assert _ _ s
  generalize s.assert (s.conn.state ≠ .uninitialized ∧ s.conn.state ≠ .destroy) .closeState = t at h ⊢
  dsimp only
  split
  · exact h.trans (connSteps_closeConnected env t)
  · exact h.trans (connSteps_closeConnected env t)
  · exact h.trans ((connSteps_backoffRtoForClose env t).trans (connSteps_destroy _))
  · exact h.trans (connSteps_destroy t)

theorem connSteps_shutdown (how : ShutdownHow) (s : UtpSocket) : ConnSteps a s (s.shutdown env how) := by
  unfold shutdown
  have h : ConnSteps a s (s.assert (s.conn.state ≠ .uninitialized ∧ s.conn.state ≠ .destroy) .closeState) :=
    .assert _ _ s
  generalize s.assert (s.conn.state ≠ .uninitialized ∧ s.conn.state ≠ .destroy) .closeState = t at h ⊢
  have h' : ConnSteps a t (if how ≠ .wr then t.markReadShutdown else t) :=
    .ite (fun _ => connSteps_markReadShutdown t) fun _ => .refl t
  dsimp only
  generalize (if how ≠ .wr then t.markReadShutdown else t) = u at h' ⊢
  refine (h.trans h').trans ?_
  split
  · exact .ite (fun _ => connSteps_sendFin env u) fun _ => .refl u
  · exact .ite (fun _ => connSteps_sendFin env u) fun _ => .refl u
  · exact .ite (fun _ => connSteps_backoffRtoForClose env u) fun _ => .refl u
  · exact .refl u

theorem connSteps_breakDown (s : UtpSocket) : ConnSteps a s (s.setState s.brokenState) := by
  refine connSteps_setState ?_
  unfold brokenState
  split
  · exact .destroy
  · exact .breaks

theorem connSteps_onReset (s : UtpSocket) : ConnSteps a s s.onReset := (connSteps_breakDown s).trans (.emit rfl _)

theorem connSteps_onIcmpError (s : UtpSocket) : ConnSteps a s s.onIcmpError :=
  .ite (fun _ => .refl s) fun _ => (connSteps_breakDown s).trans (.emit rfl _)

theorem connSteps_onIcmpFragmentation (nextHopMtu : UInt16) (s : UtpSocket) :
    ConnSteps a s (s.onIcmpFragmentation nextHopMtu) :=
  .ite (fun _ => (ConnSteps.assert _ _ s).trans (connSteps_setMtu _ _))
    fun _ => (ConnSteps.assert _ _ s).trans (connSteps_setMtu _ _)

theorem connSteps_connectAgain (s : UtpSocket) : ConnSteps a s s.connectAgain :=
  (ConnSteps.assert _ _ s).trans (connSteps_destroy _)

/-! Setting up. -/

theorem connSteps_initializeSocket (hu : a.setsUp) (addr : Address) (seed idRecv idSend : UInt32)
    (hs : s.conn.state = .uninitialized) : ConnSteps a s (s.initializeSocket env addr seed idRecv idSend) ∧
      (s.initializeSocket env addr seed idRecv idSend).conn.state = .idle := by
  refine ⟨?_, congrArg Kernel.state (initializeSocket_spec env addr seed idRecv idSend s).1⟩
  unfold initializeSocket
  have hmove : s.connView.state.SetsUp .idle := by
    show s.conn.state.SetsUp .idle
    rw [hs]
    exact .enter
  have h₀ : ConnSteps a s { s with conn := { s.conn with
      state := .idle
      connSeed := seed
      connIdRecv := idRecv
      connIdSend := idSend
      addr := addr } } := .silent (.setUp hu hmove) rfl
  generalize ({ s with conn := { s.conn with
    state := .idle
    connSeed := seed
    connIdRecv := idRecv
    connIdSend := idSend
    addr := addr } } : UtpSocket) = t at h₀ ⊢
  have h₁ := h₀.trans (connSteps_refreshClock env t)
  dsimp only
  generalize t.refreshClock env = u at h₁ ⊢
  have h₂ := h₁.trans (connSteps_setTiming { u.timing with
    lastGotPacket := u.currentMs
    lastSentPacket := u.currentMs
    lastMeasuredDelay := u.currentMs + 0x70000000 } u)
  generalize u.setTiming { u.timing with
    lastGotPacket := u.currentMs
    lastSentPacket := u.currentMs
    lastMeasuredDelay := u.currentMs + 0x70000000 } = v at h₂ ⊢
  exact ((h₂.trans (connSteps_setCc _ v)).trans (connSteps_mtuReset env _ _)).trans
    ((connSteps_setMtu _ _).trans (connSteps_setCc _ _))

theorem connSteps_armSyn (s : UtpSocket) : ConnSteps a s s.armSyn := by
  unfold armSyn
  exact connSteps_setCc _ s

theorem connSteps_drawSeqNr (s : UtpSocket) : ConnSteps a s (s.drawSeqNr env) := by
  unfold drawSeqNr
  exact (connSteps_asked s).trans (connSteps_setSend _ _)

theorem connSteps_readySyn (hu : a.setsUp) (hs : s.conn.state = .idle) : ConnSteps a s (s.readySyn env) := by
  unfold readySyn
  have h₁ : ConnSteps a s (s.assert (s.send.curWindowPackets = 0) .connectWindow) := .assert _ _ s
  have hs₁ := connView_assert (s.send.curWindowPackets = 0) .connectWindow s
  dsimp only
  generalize s.assert (s.send.curWindowPackets = 0) .connectWindow = t at h₁ hs₁ ⊢
  have h₂ : ConnSteps a t (t.assert (t.send.outbuf.get t.send.seqNr.toNat).isNone .connectSlot) := .assert _ _ t
  have hs₂ := connView_assert (t.send.outbuf.get t.send.seqNr.toNat).isNone .connectSlot t
  generalize t.assert (t.send.outbuf.get t.send.seqNr.toNat).isNone .connectSlot = u at h₂ hs₂ ⊢
  have hui : u.connView.state = .idle := (congrArg ConnView.state (hs₂.trans hs₁)).trans hs
  have hdial : ConnSteps a u (u.setState .synSent) := by
    refine .silent (.setUp hu ?_) rfl
    rw [hui]
    exact .dial
  have hclock : ConnSteps a (u.setState .synSent) ((u.setState .synSent).refreshClock env).armSyn :=
    (connSteps_refreshClock env _).trans (connSteps_armSyn _)
  have hwin := (hdial.trans hclock).trans (connSteps_updateRcvWin env _)
  generalize ((u.setState .synSent).refreshClock env).armSyn.updateRcvWin env = v at hwin ⊢
  exact ((h₁.trans h₂).trans hwin).trans (connSteps_drawSeqNr env v)

theorem connSteps_sendSyn (hu : a.setsUp) (hs : s.conn.state = .idle) : ConnSteps a s (s.sendSyn env) := by
  rw [sendSyn_eq]
  have h := connSteps_readySyn env hu hs
  generalize s.readySyn env = t at h ⊢
  have hq : ConnSteps a t t.queueSyn := by
    unfold queueSyn
    exact connSteps_enqueue _ t
  generalize t.queueSyn = u at hq ⊢
  exact (h.trans hq).trans (connSteps_sendPacket env _ u)

theorem connSteps_connectWith (hu : a.setsUp) (addr : Address) (seed : UInt32) (hs : s.conn.state = .uninitialized) :
    ConnSteps a s (s.connectWith env addr seed) := by
  unfold connectWith
  obtain ⟨h, hidle⟩ := connSteps_initializeSocket env hu addr seed seed (seed + 1) hs
  exact h.trans (connSteps_sendSyn env hu hidle)

theorem connSteps_acceptSyn (hu : a.setsUp) (peerSeq : UInt16) (hs : s.conn.state = .idle) :
    ConnSteps a s (s.acceptSyn env peerSeq) := by
  unfold acceptSyn
  have h₁ : ConnSteps a s (s.setRecv { s.recv with ackNr := peerSeq }) := .silent (.expect (.inr hs)) rfl
  have hs₁ : (s.setRecv { s.recv with ackNr := peerSeq }).conn.state = .idle := hs
  generalize s.setRecv { s.recv with ackNr := peerSeq } = t at h₁ hs₁ ⊢
  have h₂ := connSteps_drawSeqNr env (a := a) t
  have hs₂ : (t.drawSeqNr env).conn.state = .idle := hs₁
  dsimp only
  generalize t.drawSeqNr env = u at h₂ hs₂ ⊢
  have h₃ := connSteps_setTiming (a := a) { u.timing with fastResendSeqNr := u.send.seqNr } u
  refine ((h₁.trans h₂).trans h₃).trans (.silent (.setUp hu ?_) rfl)
  show ConnState.SetsUp u.conn.state .synRecv
  rw [hs₂]
  exact .accept

theorem connSteps_acceptWith (hu : a.setsUp) (ha : a.delivers) (addr : Address) (b : Bytes)
    (hs : s.conn.state = .uninitialized) : ConnSteps a s (s.acceptWith env addr b) := by
  unfold acceptWith
  obtain ⟨h₁, hidle⟩ := connSteps_initializeSocket env hu addr (PacketFormatV1.ofBytes b).connid.toUInt32
    ((PacketFormatV1.ofBytes b).connid.toUInt32 + 1) (PacketFormatV1.ofBytes b).connid.toUInt32 hs
  dsimp only
  generalize s.initializeSocket env addr (PacketFormatV1.ofBytes b).connid.toUInt32
    ((PacketFormatV1.ofBytes b).connid.toUInt32 + 1) (PacketFormatV1.ofBytes b).connid.toUInt32 = t at h₁ hidle ⊢
  have h₂ := h₁.trans (connSteps_acceptSyn env hu (PacketFormatV1.ofBytes b).seqNr hidle)
  generalize t.acceptSyn env (PacketFormatV1.ofBytes b).seqNr = u at h₂ ⊢
  exact (h₂.trans (connSteps_received env ha b true u)).trans (connSteps_sendAck env true _)

theorem connSteps_setOption (opt : SocketOption) (val : ℤ) (s : UtpSocket) : ConnSteps a s (s.setOption opt val) := by
  cases opt with
  | sndbuf => exact (ConnSteps.assert _ _ s).trans (connSteps_setSend _ _)
  | rcvbuf => exact (ConnSteps.assert _ _ s).trans (connSteps_setRecv (by rw [recv_assert]))
  | targetDelay => exact .of_eq rfl rfl

/-- Only a new socket is set up, only datagrams are delivered, and the timer keeps the connection alive. -/
def Op.scope (s : UtpSocket) : Op → Scope
  | .connect _ _ => { setsUp := s.conn.state = .uninitialized }
  | .accept _ _ => { setsUp := true, delivers := true }
  | .processIncoming _ => { delivers := true }
  | .checkTimeouts => { keepsAlive := true }
  | _ => {}

theorem connSteps_connect (addr : Address) (seed : UInt32) (s : UtpSocket) :
    ConnSteps (Op.scope s (.connect addr seed)) s (Op.run env s (.connect addr seed)) := by
  show ConnSteps _ s (if s.conn.state = .uninitialized then s.connectWith env addr seed else s.connectAgain)
  split
  · exact connSteps_connectWith env (by simpa [Op.scope]) addr seed ‹_›
  · exact connSteps_connectAgain s

/-- Every call is a sequence of such steps within its scope. -/
theorem connSteps_run {op : Op} (ho : op.Enabled s) : ConnSteps (op.scope s) s (op.run env s) := by
  cases op with
  | connect addr seed => exact connSteps_connect env addr seed s
  | accept addr syn => exact connSteps_acceptWith env rfl rfl addr syn ho
  | setOption opt val => exact connSteps_setOption opt val s
  | writev iov => exact connSteps_writev env iov s
  | readDrained => exact connSteps_readDrained env s
  | close => exact connSteps_close env s
  | shutdown how => exact connSteps_shutdown env how s
  | sendAck => exact connSteps_sendAck env false s
  | processIncoming b => exact connSteps_received env rfl b false s
  | onReset => exact connSteps_onReset s
  | onIcmpError => exact connSteps_onIcmpError s
  | onIcmpFragmentation nextHopMtu => exact connSteps_onIcmpFragmentation nextHopMtu s
  | checkTimeouts => exact connSteps_checkTimeouts env rfl s

end UtpSocket

end Utp
