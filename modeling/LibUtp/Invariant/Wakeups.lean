import LibUtp.Timing.VanishedPeer

/-! The way out of `CS_CONNECTED_FULL`: back to `CS_CONNECTED` only with the callback, and whenever
the timer finds the window open. -/

namespace Utp

open Lts SequenceBuffer

namespace UtpSocket

variable (env : Env) {s t u : UtpSocket}

/-! The parts of a call that leave the state as it is. -/

theorem state_ackPacket (seq : UInt16) (s : UtpSocket) :
    (s.ackPacket env seq).2.kernel.state = s.kernel.state := by
  cases hp : s.kernel.outbuf.slot seq with
  | none => rw [ackPacket_missing env hp]
  | some p =>
    rcases Nat.eq_zero_or_pos p.transmissions with h0 | h0
    · rw [ackPacket_unsent env hp h0]
    · rw [(ackPacket_acked env hp h0).2.1]
      rfl

theorem state_sendLast (s : UtpSocket) : (s.sendLast env).kernel.state = s.kernel.state := by
  unfold sendLast
  split
  · split
    · split
      · exact (frame_sendPacket env _ s).state
      · rfl
    · rfl
  · rfl

theorem state_fastTimeout (s : UtpSocket) : (s.fastTimeout env).kernel.state = s.kernel.state := by
  unfold fastTimeout
  split
  · split
    · rfl
    · split
      · split
        · exact (frame_sendPacket env _ _).state
        · rfl
      · rfl
  · rfl

theorem state_eackLoop (base : ℤ) (mask : Bytes) (n count : ℕ) (resends : List ℤ) (s : UtpSocket) :
    (s.eackLoop env base mask n count resends).2.2.kernel.state = s.kernel.state := by
  induction n generalizing count resends s with
  | zero => rfl
  | succ n ih =>
    unfold eackLoop
    dsimp only
    split
    · split
      · exact ih _ _ _
      · split
        · rw [ih, state_ackPacket]
          exact congrArg Kernel.state (kernel_assert _ _ s)
        · split <;> exact ih _ _ _
    · exact ih _ _ _

theorem state_resendLoop (vs : List ℤ) (i : ℕ) (backOff : Bool) (s : UtpSocket) :
    (s.resendLoop env vs i backOff).2.kernel.state = s.kernel.state := by
  induction vs generalizing i backOff s with
  | nil => rfl
  | cons v vs ih =>
    have hsend := (frame_sendPacket env v s).state
    unfold resendLoop
    split
    · dsimp only
      split
      · exact hsend
      · rw [ih]
        exact hsend
    · exact ih _ _ _

theorem state_selectiveAck (base : ℤ) (mask : Bytes) (s : UtpSocket) :
    (s.selectiveAck env base mask).kernel.state = s.kernel.state := by
  unfold selectiveAck
  split
  · rfl
  · have he := state_eackLoop env base mask (8 * mask.length + 1) 0 [] s
    generalize s.eackLoop env base mask (8 * mask.length + 1) 0 [] = r at he ⊢
    dsimp only
    generalize (if r.2.2.fastResend (base - 1) r.1 then r.2.1 ++ [(base - 1) % 2 ^ 16] else r.2.1) = vs
    have hr := state_resendLoop env vs.reverse 4 false r.2.2
    generalize r.2.2.resendLoop env vs.reverse 4 false = w at hr ⊢
    rw [kernel_setDuplicateAck, ← he, ← hr]
    split
    · rw [kernel_setCc]
    · rfl

theorem state_selectiveAckOf (pp : ParsedPacket) (s : UtpSocket) :
    (s.selectiveAckOf env pp).kernel.state = s.kernel.state := by
  unfold selectiveAckOf
  split
  · exact state_selectiveAck env _ _ s
  · rfl

theorem state_sendAck (synack : Bool) (s : UtpSocket) :
    (s.sendAck env synack).kernel.state = s.kernel.state :=
  congrArg Kernel.state (sendAck_spec env synack s).1

theorem state_reachEof (s : UtpSocket) : (s.reachEof env).kernel.state = s.kernel.state := by
  unfold reachEof
  split
  · exact state_sendAck env false _
  · rfl

theorem state_onRead (b : Bytes) (s : UtpSocket) : (s.onRead b).kernel.state = s.kernel.state := by
  unfold onRead
  split <;> rfl

theorem state_drainLoop (n : ℕ) (s : UtpSocket) : (s.drainLoop env n).kernel.state = s.kernel.state := by
  induction n generalizing s with
  | zero => rfl
  | succ n ih =>
    have heof := state_reachEof env s
    unfold drainLoop
    dsimp only
    generalize s.reachEof env = t at heof ⊢
    rw [← heof]
    split
    · rfl
    · split
      · rfl
      · rename_i p _
        rw [ih]
        exact (congrArg Kernel.state (kernel_assert _ _ _)).trans (state_onRead p.data t.takeInbuf)

theorem state_deliverData (pp : ParsedPacket) (seqnr : UInt16) (s : UtpSocket) :
    (s.deliverData env pp seqnr).kernel.state = s.kernel.state := by
  have hfin : (s.noteFin pp).kernel.state = s.kernel.state := by
    unfold noteFin
    split <;> rfl
  unfold deliverData
  dsimp only
  generalize s.noteFin pp = t at hfin ⊢
  rw [← hfin]
  split
  · exact (state_drainLoop env _ _).trans (state_onRead pp.payload t)
  · unfold storeOutOfOrder
    split
    · rfl
    · split
      · rfl
      · dsimp only
        split
        · rfl
        · unfold storeAsserts
          show (UtpSocket.assert _ _ _).kernel.state = _
          rw [kernel_assert, kernel_assert]
          rfl

end UtpSocket

/-- No write is taken: the window was full, or the connection is over. -/
def Kernel.Blocked (k : Kernel) : Prop := k.state = .connectedFull ∨ k.Dead

namespace Kernel

variable {k k' : Kernel}

theorem Blocked.of_state (h : k.Blocked) (hs : k'.state = k.state) : k'.Blocked := by
  unfold Blocked Dead at *
  rwa [hs]

/-- An acknowledgement opens no blocked connection. -/
theorem Blocked.ackState (h : k.Blocked) (pp : ParsedPacket) : (k.ackState pp).Blocked := by
  have hr : k.state ≠ .synRecv := by
    rcases h with h | h | h <;> rw [h] <;> simp
  have hs : k.state ≠ .synSent := by
    rcases h with h | h | h <;> rw [h] <;> simp
  have hr : ¬ (pp.type = ST_DATA ∧ k.state = .synRecv) := fun hc => hr hc.2
  have hs : ¬ (pp.type = ST_STATE ∧ k.state = .synSent) := fun hc => hs hc.2
  unfold Kernel.ackState
  dsimp only
  rw [if_neg hr, if_neg hs]
  split
  · cases k.closeRequested
    · exact h
    · exact .inr (.inr rfl)
  · exact h

end Kernel

namespace UtpSocket

variable (env : Env) {s t u : UtpSocket}

/-- A blocked connection is still blocked, unless the callback was made. -/
def Wakes (s t : UtpSocket) : Prop :=
  (∃ l, t.out = s.out ++ l) ∧
    (s.kernel.Blocked → t.kernel.Blocked ∨ .onStateChange .writable ∈ t.out)

namespace Wakes

theorem refl (s : UtpSocket) : Wakes s s := ⟨⟨[], by simp⟩, .inl⟩

theorem trans (h : Wakes s t) (h' : Wakes t u) : Wakes s u := by
  obtain ⟨⟨l, ho⟩, hb⟩ := h
  obtain ⟨⟨l', ho'⟩, hb'⟩ := h'
  refine ⟨⟨l ++ l', by rw [ho', ho, List.append_assoc]⟩, fun hs => ?_⟩
  rcases hb hs with ht | hw
  · exact hb' ht
  · refine .inr ?_
    rw [ho']
    exact List.mem_append_left _ hw

theorem ite {c : Prop} [Decidable c] (h : c → Wakes s t) (h' : ¬ c → Wakes s u) :
    Wakes s (if c then t else u) := by
  split
  · exact h ‹_›
  · exact h' ‹_›

theorem of_runs {x : Input} {b : Bytes} (h : Runs x b s t) (hb : s.kernel.Blocked → t.kernel.Blocked) :
    Wakes s t := by
  obtain ⟨acts, -, ho, -⟩ := h
  exact ⟨⟨_, ho⟩, fun hs => .inl (hb hs)⟩

theorem of_state {x : Input} {b : Bytes} (h : Runs x b s t) (hs : t.kernel.state = s.kernel.state) :
    Wakes s t := of_runs h fun hb => hb.of_state hs

theorem of_quiet (h : Quiet s t) : Wakes s t :=
  of_state (x := .nothing) (.of_quiet h) (congrArg Kernel.state h.1)

end Wakes

theorem wakes_becomeWritable (s : UtpSocket) : Wakes s s.becomeWritable := by
  obtain ⟨acts, -, ho, -⟩ := runs_becomeWritable (x := .nothing) s
  refine ⟨⟨_, ho⟩, fun hs => ?_⟩
  unfold becomeWritable
  split
  · have hk := kernel_isFull (-1) s
    generalize s.isFull (-1) = r at hk ⊢
    dsimp only
    split
    · exact .inl (hk ▸ hs)
    · exact .inr (List.mem_append_right _ (List.mem_singleton.2 rfl))
  · exact .inl hs

theorem blocked_advanceSendWindow (pp : ParsedPacket) (hs : s.kernel.Blocked) :
    (s.advanceSendWindow env pp (s.kernel.ackCount pp)).kernel.Blocked := by
  rw [advanceSendWindow_eq env (s.kernel.ackCount_le pp)]
  refine Kernel.Blocked.of_state ?_ (state_fastTimeout env _)
  refine Kernel.Blocked.of_state ?_ (state_sendLast env _)
  have hk : (((s.peerWindow pp.windowsize).ackState pp (s.kernel.ackCount pp)).raiseFastResend pp).kernel =
      s.kernel.ackState pp := by
    have hp := (quiet_peerWindow pp.windowsize s).1
    rw [(quiet_raiseFastResend pp _).1, ← hp, kernel_ackState]
  generalize ((s.peerWindow pp.windowsize).ackState pp (s.kernel.ackCount pp)).raiseFastResend pp = t at hk ⊢
  have hn : s.kernel.ackCount pp ≤ t.kernel.cur.toNat := by
    obtain ⟨st, f, he⟩ := s.kernel.ackState_eq pp
    rw [hk, he]
    exact s.kernel.ackCount_le pp
  obtain ⟨acts, hpops, -⟩ := pops_ackLoop env hn
  rw [advance_eq]
  refine Kernel.Blocked.of_state (hs.ackState pp) ?_
  rw [kernel_assert, hpops.frame.state, hk]

theorem wakes_processAck (pp : ParsedPacket) (time : UInt64)
    (hs : s.kernel.state = .synSent → s.kernel.ackNr = pp.seqNr - 1) :
    Wakes s (s.processAck env pp time) := by
  obtain ⟨t, u, ⟨-, l, hq, -⟩, ⟨pre, acts, -, -, -, ho⟩, acts', -, ho', -⟩ := processAck_spec env pp time hs
  refine ⟨⟨l ++ (pre ++ acts.flatMap Act.effects) ++ acts'.flatMap Act.effects, ?_⟩, fun hb => ?_⟩
  · rw [ho', ho, hq]
    simp
  · unfold processAck
    refine (wakes_becomeWritable _).2 ?_
    have hq' : Quiet s ((s.countDuplicate pp).processAcks env pp (s.kernel.ackCount pp) time) :=
      (quiet_countDuplicate pp s).trans (quiet_processAcks env pp _ time _)
    rw [show s.ackCount pp = s.kernel.ackCount pp by rfl]
    generalize (s.countDuplicate pp).processAcks env pp (s.kernel.ackCount pp) time = v at hq' ⊢
    rw [← hq'.1] at hb ⊢
    refine Kernel.Blocked.of_state (blocked_advanceSendWindow env pp hb) ?_
    rw [kernel_assert]
    exact state_selectiveAckOf env pp _

theorem wakes_processValid (pp : ParsedPacket) (time : UInt64) (s : UtpSocket) :
    Wakes s (s.processValid env pp time false) := by
  unfold processValid
  have hr : Expecting pp s ((s.assert (pp.type ≠ ST_RESET) .incomingReset).synSentAck pp) :=
    .quiet_trans (quiet_assert _ s rfl) (expecting_synSentAck pp _)
  generalize (s.assert (pp.type ≠ ST_RESET) .incomingReset).synSentAck pp = t at hr ⊢
  have hr := hr.trans_quiet (quiet_setTiming { t.timing with lastGotPacket := t.currentMs } t)
  dsimp only
  generalize t.setTiming { t.timing with lastGotPacket := t.currentMs } = u at hr ⊢
  have hstate : u.kernel.state = s.kernel.state := by
    rw [hr.1]
    unfold Kernel.expect
    split <;> rfl
  have hsyn : u.kernel.state = .synSent → u.kernel.ackNr = pp.seqNr - 1 := by
    rw [hr.1]
    unfold Kernel.expect
    split
    · exact fun _ => rfl
    · exact fun h => absurd h ‹_›
  refine (Wakes.of_state hr.runs hstate).trans ?_
  rw [if_neg (by simp)]
  refine .ite (fun _ => .ite (fun _ => .of_quiet (quiet_scheduleAck u)) (fun _ => .refl u)) fun hd => ?_
  have hack := wakes_processAck env pp time hsyn
  have hnr : (u.processAck env pp time).kernel.ackNr = u.kernel.ackNr := by
    obtain ⟨v, w, hq, ha, hrun⟩ := processAck_spec env pp time hsyn
    exact (ackNr_of_eack hrun).trans (ha.ackNr.trans (congrArg Kernel.ackNr hq.1))
  generalize u.processAck env pp time = v at hack hnr ⊢
  refine hack.trans (.ite (fun _ => .refl v) fun ht => .ite (fun _ => .refl v) fun hst => ?_)
  have hopen : v.kernel.IsOpen := by
    by_contra hc
    exact hst ⟨fun h => hc (.inl h), fun h => hc (.inr h)⟩
  have hsd : u.kernel.seqDistance pp = v.kernel.seqDistance pp := by
    unfold Kernel.seqDistance
    rw [hnr]
  have hd : (v.kernel.seqDistance pp).toNat < 1024 := by
    rw [← hsd]
    exact not_le.1 hd
  have hdel := (delivered_deliverData env hopen hd ht).runs
  rw [← hsd] at hdel
  exact .of_state hdel (state_deliverData env pp _ v)

theorem wakes_processIncoming (b : Bytes) (s : UtpSocket) :
    Wakes s (s.processIncoming env b false) := by
  unfold processIncoming
  have hq : Quiet s ((s.refreshClock env).parsePacket b).2 :=
    (quiet_refreshClock env s).trans (quiet_parsePacket b _)
  generalize (s.refreshClock env).parsePacket b = r at hq ⊢
  dsimp only
  split
  · exact .of_quiet hq
  · have hq := hq.trans (quiet_asked r.2)
    exact .ite (fun _ => .of_quiet hq) fun _ => (Wakes.of_quiet hq).trans (wakes_processValid env _ _ _)

/-! The timer. -/

theorem blocked_rtoExpired (hs : s.kernel.Blocked) : (s.rtoExpired env).2.kernel.Blocked := by
  unfold rtoExpired
  have hk := (quiet_probeTimeout s).1
  generalize s.probeTimeout = p at hk ⊢
  rw [← hk] at hs
  dsimp only
  split
  · exact .inr (.inr rfl)
  · split
    · show Kernel.Blocked { p.2.kernel with state := _ }
      split
      · exact .inr (.inr rfl)
      · exact .inr (.inl rfl)
    · refine hs.of_state ((state_resendHead env _).trans ?_)
      unfold markWindow
      exact (state_markLoop _ _ _).trans (congrArg Kernel.state (quiet_backOff p.1 p.2).1)

theorem wakes_endTimeouts (r : Bool × UtpSocket) : Wakes r.2 (endTimeouts env r) := by
  unfold endTimeouts
  refine .ite (fun _ => .refl r.2) fun _ => (wakes_becomeWritable r.2).trans ?_
  exact .of_state (runs_keepAlive env _) (congrArg Kernel.state (kernel_keepAlive env _))

theorem wakes_checkTimeouts (s : UtpSocket) : Wakes s (s.checkTimeouts env) := by
  have hb := Wakes.of_state (runs_beginTimeouts env s) (state_beginTimeouts env s)
  rw [checkTimeouts_eq]
  refine hb.trans (.ite (fun ha => ?_) fun _ => .refl _)
  have hq := quiet_reopenWindow (s.beginTimeouts env)
  have ha : timeoutActive (s.beginTimeouts env).kernel.state := ha
  rw [← hq.1] at ha
  generalize (s.beginTimeouts env).reopenWindow = t at hq ha ⊢
  refine (Wakes.of_quiet hq).trans (Wakes.trans ?_ (wakes_endTimeouts env _))
  split
  · exact .of_runs (runs_rtoExpired env ha) fun h => blocked_rtoExpired env h
  · exact .refl t

/-! The other calls. -/

theorem state_sendFin (s : UtpSocket) : (s.sendFin env).kernel.state = s.kernel.state :=
  (frame_writeOutgoingPacket env (.inr rfl) 0 [] _).state

theorem blocked_close (hs : s.kernel.Blocked) : (s.close env).kernel.Blocked := by
  unfold close
  have hk := kernel_assert (s.conn.state ≠ .uninitialized ∧ s.conn.state ≠ .destroy) .closeState s
  generalize s.assert (s.conn.state ≠ .uninitialized ∧ s.conn.state ≠ .destroy) .closeState = t at hk ⊢
  rw [← hk] at hs
  have hclose : (t.closeConnected env).kernel.Blocked := by
    unfold closeConnected
    dsimp only
    split
    · exact hs.of_state (state_sendFin env _)
    · split
      · exact .inr (.inr rfl)
      · exact hs
  dsimp only
  split
  · exact hclose
  · exact hclose
  · exact .inr (.inr rfl)
  · exact .inr (.inr rfl)

theorem state_shutdown (how : ShutdownHow) (s : UtpSocket) :
    (s.shutdown env how).kernel.state = s.kernel.state := by
  unfold shutdown
  have hk := kernel_assert (s.conn.state ≠ .uninitialized ∧ s.conn.state ≠ .destroy) .closeState s
  generalize s.assert (s.conn.state ≠ .uninitialized ∧ s.conn.state ≠ .destroy) .closeState = t at hk ⊢
  rw [← hk]
  have hm : (if how ≠ .wr then t.markReadShutdown else t).kernel.state = t.kernel.state := by
    split <;> rfl
  dsimp only
  generalize (if how ≠ .wr then t.markReadShutdown else t) = u at hm ⊢
  rw [← hm]
  have hfin : (if how ≠ .rd ∧ u.send.finSent = false then u.sendFin env else u).kernel.state =
      u.kernel.state := by
    split
    · exact state_sendFin env u
    · rfl
  split
  · exact hfin
  · exact hfin
  · split <;> rfl
  · rfl

theorem state_readDrained (s : UtpSocket) : (s.readDrained env).kernel.state = s.kernel.state := by
  unfold readDrained
  have hk := congrArg Kernel.state (kernel_assert (s.conn.state ≠ .uninitialized) .readDrainedState s)
  generalize s.assert (s.conn.state ≠ .uninitialized) .readDrainedState = t at hk ⊢
  have hq := (congrArg Kernel.state (quiet_askRcvWindow env t).1).trans hk
  dsimp only
  generalize t.askRcvWindow env = u at hq ⊢
  split
  · exact hk
  · split
    · split
      · exact (state_sendAck env false u).trans hq
      · have hs := ((quiet_refreshClock env u).trans (quiet_scheduleAck _)).1
        exact (congrArg Kernel.state hs).trans hq
    · exact hq

/-- Every call leaves a blocked connection blocked or makes the callback. -/
theorem wakes_op {op : Op} (h : op.Enabled s) : Wakes s (op.run env s) := by
  obtain ⟨acts, -, ho, -⟩ := runs_op env h
  refine ⟨⟨_, ho⟩, fun hs => ?_⟩
  have hne : s.conn.state ≠ .uninitialized := by
    intro h0
    have h0 : s.kernel.state = .uninitialized := h0
    rcases hs with hs | hs | hs <;> rw [hs] at h0 <;> cases h0
  cases op with
  | connect addr seed =>
    simp only [Op.run]
    rw [if_neg hne]
    exact .inl (.inr (.inr rfl))
  | accept addr syn => exact absurd h hne
  | setOption opt val => exact .inl (hs.of_state (congrArg Kernel.state (quiet_setOption opt val s).1))
  | writev iov =>
    refine .inl ?_
    simp only [Op.run]
    rw [writev_refused env iov ?_]
    · exact hs
    · show writable s.kernel.state = false
      rcases hs with hs | hs | hs <;> rw [hs] <;> rfl
  | readDrained => exact .inl (hs.of_state (state_readDrained env s))
  | close => exact .inl (blocked_close env hs)
  | shutdown how => exact .inl (hs.of_state (state_shutdown env how s))
  | sendAck => exact .inl (hs.of_state (state_sendAck env false s))
  | processIncoming b => exact (wakes_processIncoming env b s).2 hs
  | onReset =>
    refine .inl (.inr ?_)
    show Kernel.Dead { s.kernel with state := s.brokenState }
    unfold brokenState
    split
    · exact .inr rfl
    · exact .inl rfl
  | onIcmpError =>
    refine .inl ?_
    simp only [Op.run]
    unfold onIcmpError
    split
    · exact hs
    · refine .inr ?_
      show Kernel.Dead { s.kernel with state := s.brokenState }
      unfold brokenState
      split
      · exact .inr rfl
      · exact .inl rfl
  | onIcmpFragmentation m => exact .inl (hs.of_state (congrArg Kernel.state (quiet_onIcmpFragmentation m s).1))
  | checkTimeouts => exact (wakes_checkTimeouts env s).2 hs

/-- As long as no callback was made, a socket whose window was full takes no write. -/
theorem blocked_until_writable {calls : List Call} (h : Trace Step s calls t) (hs : s.kernel.Blocked) :
    t.kernel.Blocked ∨ ∃ c ∈ calls, .onStateChange .writable ∈ c.effects := by
  induction h with
  | refl => exact .inl hs
  | @head s _ _ _ _ h₁ _ ih =>
    cases h₁ with
    | call env ms tick op hop =>
      have hop := hop.lend ms tick
      rcases (wakes_op env hop).2 hs with hb | hw
      · exact (ih hb).imp_right fun ⟨c, hc, he⟩ => ⟨c, List.mem_append_right _ hc, he⟩
      · exact .inr ⟨_, List.mem_append_left _ (List.mem_singleton.2 rfl), hw⟩

/-! The timer finds every open window. -/

/-- What `is_full` looks at. -/
def fullness (s : UtpSocket) : MtuDiscovery × LedbatController × SendState := (s.mtu, s.cc, s.send)

theorem windowFull_congr (h : t.fullness = s.fullness) (b : ℤ) : t.windowFull b = s.windowFull b := by
  have hm : t.mtu = s.mtu := congrArg Prod.fst h
  have hc : t.cc = s.cc := congrArg (fun x => x.2.1) h
  have hs : t.send = s.send := congrArg (fun x => x.2.2) h
  unfold windowFull getPacketSize
  rw [hm, hc, hs]

theorem fullness_assert (c : Prop) [Decidable c] (a : Assertion) (s : UtpSocket) :
    (s.assert c a).fullness = s.fullness := by
  unfold assert
  split <;> rfl

theorem fullness_setRecv (r : ReceiveState) (s : UtpSocket) : (s.setRecv r).fullness = s.fullness := rfl

theorem fullness_emit (e : Effect) (s : UtpSocket) : (s.emit e).fullness = s.fullness := rfl

theorem fullness_sendData (b : Bytes) (flags : UInt32) (s : UtpSocket) :
    (s.sendData b flags).fullness = s.fullness := rfl

theorem fullness_eackAsserts (synack : Bool) (s : UtpSocket) :
    (s.eackAsserts synack).fullness = s.fullness :=
  (fullness_assert _ _ _).trans (fullness_assert _ _ s)

theorem fullness_sendAck (synack : Bool) (s : UtpSocket) :
    (s.sendAck env synack).fullness = s.fullness := by
  unfold sendAck
  have h : (s.updateRcvWin env).fullness = s.fullness := by
    unfold updateRcvWin askRcvWindow
    rw [fullness_setRecv, fullness_assert]
    rfl
  dsimp only
  generalize s.updateRcvWin env = t at h ⊢
  rw [fullness_emit]
  split
  · unfold sendEack
    rw [fullness_sendData, fullness_eackAsserts, h]
  · unfold sendPlainAck
    rw [fullness_sendData, h]

theorem fullness_keepAlive (s : UtpSocket) : (s.keepAlive env).fullness = s.fullness := by
  unfold keepAlive sendKeepAlive
  split
  · exact (fullness_setRecv _ _).trans ((fullness_sendAck env false _).trans (fullness_setRecv _ s))
  · rfl

/-- What is still waiting for room after the look of `check_timeouts` has none. -/
theorem becomeWritable_full (hs : s.becomeWritable.kernel.state = .connectedFull) :
    s.becomeWritable.windowFull (-1) = true := by
  unfold becomeWritable at hs ⊢
  split at hs
  · rename_i h
    rw [if_pos h]
    unfold isFull at hs ⊢
    cases hw : s.windowFull (-1) with
    | true => exact hw
    | false =>
      rw [hw] at hs
      cases hs
  · rename_i h
    exact absurd hs h

/-- A socket that is still waiting for room after `check_timeouts` has none. -/
theorem checkTimeouts_full (hs : (s.checkTimeouts env).kernel.state = .connectedFull) :
    (s.checkTimeouts env).windowFull (-1) = true := by
  rw [checkTimeouts_eq] at hs ⊢
  by_cases ha : timeoutActive (s.beginTimeouts env).conn.state = true
  · rw [if_pos ha] at hs ⊢
    generalize (s.beginTimeouts env).reopenWindow = t at hs ⊢
    have hend {w : UtpSocket} (hw : (endTimeouts env (false, w)).kernel.state = .connectedFull) :
        (endTimeouts env (false, w)).windowFull (-1) = true :=
      (windowFull_congr (fullness_keepAlive env _) (-1)).trans
        (becomeWritable_full ((congrArg Kernel.state (kernel_keepAlive env _)).symm.trans hw))
    split at hs
    · rename_i hx
      rw [if_pos hx]
      -- a connection that was given up is not waiting
      unfold rtoExpired at hs ⊢
      dsimp only at hs ⊢
      split at hs
      · cases hs
      · split at hs
        · have hs : (if t.probeTimeout.2.send.closeRequested then ConnState.destroy else .reset) =
              .connectedFull := hs
          split at hs <;> cases hs
        · rename_i h₁ h₂
          rw [if_neg h₁, if_neg h₂]
          exact hend hs
    · rename_i hx
      rw [if_neg hx]
      exact hend hs
  · rw [if_neg ha] at hs
    have hs : (s.beginTimeouts env).conn.state = .connectedFull := hs
    rw [hs] at ha
    exact absurd rfl ha

/-- Once the timer finds the window open, the callback has been made, or the connection is over. -/
theorem writable_raised {calls : List Call} (h : Trace Step s calls t) (hs : s.kernel.Blocked) (ms : UInt64)
    (tick : ℕ) (hopen : ((t.lend ms tick).checkTimeouts env).windowFull (-1) = false) :
    ((t.lend ms tick).checkTimeouts env).kernel.Dead ∨
      .onStateChange .writable ∈ ((t.lend ms tick).checkTimeouts env).out ∨
      ∃ c ∈ calls, .onStateChange .writable ∈ c.effects := by
  rcases blocked_until_writable h hs with hb | hw
  · have hb : (t.lend ms tick).kernel.Blocked := hb
    rcases (wakes_checkTimeouts env (t.lend ms tick)).2 hb with (hfull | hdead) | hw
    · rw [checkTimeouts_full env hfull] at hopen
      cases hopen
    · exact .inl hdead
    · exact .inr (.inl hw)
  · exact .inr (.inr hw)

end UtpSocket

end Utp
