import LibUtp.Kernel.Basic
import LibUtp.Lib.Trace

/-! The operations as sequences of kernel steps, first those that leave the
kernel alone: clocks, callbacks, congestion control and MTU discovery. -/

namespace Utp

open Lts

/-- `s'` comes out of `s` by kernel steps that take `b` into the window. -/
def Runs (x : Input) (b : Bytes) (s s' : UtpSocket) : Prop :=
  ∃ acts, Trace (Kernel.Micro x) s.kernel acts s'.kernel ∧
    s'.out = s.out ++ acts.flatMap Act.effects ∧ acts.flatMap Act.taken = b

/-- `s'` has the kernel of `s` and has only sent quiet effects. -/
def Quiet (s s' : UtpSocket) : Prop :=
  s'.kernel = s.kernel ∧ ∃ l, s'.out = s.out ++ l ∧ ∀ e ∈ l, Effect.quiet e

namespace Quiet

theorem refl (s : UtpSocket) : Quiet s s := ⟨rfl, [], by simp, by simp⟩

theorem trans {s t u : UtpSocket} (h : Quiet s t) (h' : Quiet t u) : Quiet s u := by
  obtain ⟨hk, l, ho, hq⟩ := h
  obtain ⟨hk', l', ho', hq'⟩ := h'
  refine ⟨hk'.trans hk, l ++ l', by rw [ho', ho, List.append_assoc], ?_⟩
  intro e he
  rcases List.mem_append.1 he with he | he
  · exact hq e he
  · exact hq' e he

/-- Fields outside the kernel have changed. -/
theorem of_eq {s t : UtpSocket} (hk : t.kernel = s.kernel) (ho : t.out = s.out) : Quiet s t :=
  ⟨hk, [], by rw [ho, List.append_nil], by simp⟩

theorem ite {s t u : UtpSocket} {c : Prop} [Decidable c] (h : c → Quiet s t) (h' : ¬ c → Quiet s u) :
    Quiet s (if c then t else u) := by
  split
  · exact h ‹_›
  · exact h' ‹_›

end Quiet

namespace Runs

variable {x : Input} {b b' : Bytes} {s t u : UtpSocket}

theorem refl (s : UtpSocket) : Runs x [] s s := ⟨[], .refl _, by simp, rfl⟩

theorem trans (h : Runs x b s t) (h' : Runs x b' t u) : Runs x (b ++ b') s u := by
  obtain ⟨l, ht, ho, hb⟩ := h
  obtain ⟨l', ht', ho', hb'⟩ := h'
  refine ⟨l ++ l', ht.trans ht', ?_, by rw [List.flatMap_append, hb, hb']⟩
  rw [ho', ho, List.flatMap_append, List.append_assoc]

/-- One kernel step. -/
theorem micro {l : List Act} (h : Kernel.Micro x s.kernel l t.kernel)
    (ho : t.out = s.out ++ l.flatMap Act.effects) : Runs x (l.flatMap Act.taken) s t :=
  ⟨l, .single h, ho, rfl⟩

theorem of_quiet (h : Quiet s t) : Runs x [] s t := by
  obtain ⟨hk, l, ho, hq⟩ := h
  refine ⟨[.silent l], .single ?_, by simpa [Act.effects] using ho, rfl⟩
  rw [hk]
  exact .silent hq

theorem quiet_trans (h : Quiet s t) (h' : Runs x b t u) : Runs x b s u :=
  trans (of_quiet h) h'

theorem trans_quiet (h : Runs x b s t) (h' : Quiet t u) : Runs x b s u := by
  have := trans h (of_quiet (x := x) h')
  rwa [List.append_nil] at this

theorem trans_nil (h : Runs x b s t) (h' : Runs x [] t u) : Runs x b s u := by
  have := trans h h'
  rwa [List.append_nil] at this

theorem ite {c : Prop} [Decidable c] (h : c → Runs x b s t) (h' : ¬ c → Runs x b s u) :
    Runs x b s (if c then t else u) := by
  split
  · exact h ‹_›
  · exact h' ‹_›

end Runs

namespace UtpSocket

variable (env : Env) {x : Input}

/-! The kernel under the setters. -/

@[simp] theorem kernel_asked (s : UtpSocket) : s.asked.kernel = s.kernel := rfl

@[simp] theorem kernel_emit (e : Effect) (s : UtpSocket) : (s.emit e).kernel = s.kernel := rfl

@[simp] theorem kernel_setTiming (t : TimingState) (s : UtpSocket) :
    (s.setTiming t).kernel = s.kernel := rfl

@[simp] theorem kernel_setDuplicateAck (n : UInt8) (s : UtpSocket) :
    (s.setDuplicateAck n).kernel = s.kernel := rfl

@[simp] theorem kernel_setMtu (m : MtuDiscovery) (s : UtpSocket) :
    (s.setMtu m).kernel = s.kernel := rfl

@[simp] theorem kernel_setCc (c : LedbatController) (s : UtpSocket) :
    (s.setCc c).kernel = { s.kernel with inFlight := c.curWindow } := rfl

@[simp] theorem kernel_setState (st : ConnState) (s : UtpSocket) :
    (s.setState st).kernel = { s.kernel with state := st } := rfl

@[simp] theorem kernel_setSend (y : SendState) (s : UtpSocket) :
    (s.setSend y).kernel = { s.kernel with
      seqNr := y.seqNr
      cur := y.curWindowPackets
      finSent := y.finSent
      finSentAcked := y.finSentAcked
      closeRequested := y.closeRequested
      cursor := y.flushScanStart
      outbuf := y.outbuf } := rfl

@[simp] theorem kernel_setRecv (y : ReceiveState) (s : UtpSocket) :
    (s.setRecv y).kernel = { s.kernel with
      ackNr := y.ackNr
      reorderCount := y.reorderCount
      eofPkt := y.eofPkt
      gotFin := y.gotFin
      gotFinReached := y.gotFinReached
      readShutdown := y.readShutdown
      inbuf := y.inbuf } := rfl

@[simp] theorem out_emit (e : Effect) (s : UtpSocket) : (s.emit e).out = s.out ++ [e] := rfl

@[simp] theorem out_asked (s : UtpSocket) : s.asked.out = s.out := rfl

@[simp] theorem out_setSend (y : SendState) (s : UtpSocket) : (s.setSend y).out = s.out := rfl

@[simp] theorem out_setRecv (y : ReceiveState) (s : UtpSocket) : (s.setRecv y).out = s.out := rfl

@[simp] theorem out_setCc (c : LedbatController) (s : UtpSocket) : (s.setCc c).out = s.out := rfl

@[simp] theorem out_setState (st : ConnState) (s : UtpSocket) : (s.setState st).out = s.out := rfl

/-! The kernel's fields on the socket itself. -/

/-- Sockets with the same kernel agree on the send fields it holds. -/
theorem fields_of_kernel {s t : UtpSocket} (h : t.kernel = s.kernel) :
    t.conn.state = s.conn.state ∧ t.send.seqNr = s.send.seqNr ∧
      t.send.curWindowPackets = s.send.curWindowPackets ∧ t.send.outbuf = s.send.outbuf ∧
      t.send.finSent = s.send.finSent ∧ t.send.closeRequested = s.send.closeRequested ∧
      t.recv.ackNr = s.recv.ackNr ∧ t.recv.inbuf = s.recv.inbuf := by
  simp only [kernel, Kernel.mk.injEq] at h
  tauto

theorem quiet_asked (s : UtpSocket) : Quiet s s.asked := .of_eq rfl rfl

theorem quiet_setMtu (m : MtuDiscovery) (s : UtpSocket) : Quiet s (s.setMtu m) := .of_eq rfl rfl

theorem quiet_setTiming (t : TimingState) (s : UtpSocket) : Quiet s (s.setTiming t) :=
  .of_eq rfl rfl

theorem quiet_setDuplicateAck (n : UInt8) (s : UtpSocket) : Quiet s (s.setDuplicateAck n) :=
  .of_eq rfl rfl

/-- The controller changes, but not its bytes in flight. -/
theorem quiet_setCc {c : LedbatController} {s : UtpSocket} (h : c.curWindow = s.cc.curWindow) :
    Quiet s (s.setCc c) :=
  .of_eq (by rw [kernel_setCc, h]; rfl) rfl

theorem quiet_emit {e : Effect} (h : e.quiet) (s : UtpSocket) : Quiet s (s.emit e) :=
  ⟨rfl, [e], rfl, by simpa using h⟩

theorem quiet_assert (c : Prop) [Decidable c] {a : Assertion} (s : UtpSocket)
    (h : a.watched = false) : Quiet s (s.assert c a) := by
  unfold assert
  exact .ite (fun _ => .refl s) (fun _ => quiet_emit (by simp [Effect.quiet, h]) s)

/-- A watched assertion is a step that may fail. -/
theorem runs_assert (c : Prop) [Decidable c] (a : Assertion) (s : UtpSocket)
    (h : ¬ c → Kernel.Micro x s.kernel [.fail a] s.kernel) : Runs x [] s (s.assert c a) := by
  unfold assert
  refine .ite (fun _ => .refl s) (fun hc => ?_)
  exact .micro (t := s.emit (.assertFailed a)) (h hc) (by simp [Act.effects])

@[simp] theorem kernel_assert (c : Prop) [Decidable c] (a : Assertion) (s : UtpSocket) :
    (s.assert c a).kernel = s.kernel := by
  unfold assert
  split <;> rfl

theorem out_assert (c : Prop) [Decidable c] (a : Assertion) (s : UtpSocket) :
    (s.assert c a).out = s.out ++ if c then [] else [.assertFailed a] := by
  unfold assert
  split
  · rw [List.append_nil]
  · rfl

@[simp] theorem cc_assert (c : Prop) [Decidable c] (a : Assertion) (s : UtpSocket) :
    (s.assert c a).cc = s.cc := by
  unfold assert
  split <;> rfl

@[simp] theorem send_assert (c : Prop) [Decidable c] (a : Assertion) (s : UtpSocket) :
    (s.assert c a).send = s.send := by
  unfold assert
  split <;> rfl

@[simp] theorem recv_assert (c : Prop) [Decidable c] (a : Assertion) (s : UtpSocket) :
    (s.assert c a).recv = s.recv := by
  unfold assert
  split <;> rfl

theorem mtu_assert (c : Prop) [Decidable c] (a : Assertion) (s : UtpSocket) :
    (s.assert c a).mtu = s.mtu := by
  unfold assert
  split <;> rfl

/-! Operations that leave the kernel alone. -/

theorem quiet_refreshClock (s : UtpSocket) : Quiet s (s.refreshClock env) := .of_eq rfl rfl

theorem quiet_askRcvWindow (s : UtpSocket) : Quiet s (s.askRcvWindow env) := by
  unfold askRcvWindow
  exact (quiet_asked s).trans (quiet_assert _ _ rfl)

theorem quiet_updateRcvWin (s : UtpSocket) : Quiet s (s.updateRcvWin env) := by
  rw [updateRcvWin]
  refine (quiet_askRcvWindow env s).trans (.of_eq ?_ (out_setRecv _ _))
  rw [kernel_setRecv, (quiet_askRcvWindow env s).1]
  rfl

@[simp] theorem kernel_updateRcvWin (s : UtpSocket) : (s.updateRcvWin env).kernel = s.kernel :=
  (quiet_updateRcvWin env s).1

theorem quiet_isFull (bytes : ℤ) (s : UtpSocket) : Quiet s (s.isFull bytes).2 := by
  unfold isFull
  split
  · exact quiet_setCc rfl
  · exact .refl s

@[simp] theorem kernel_isFull (bytes : ℤ) (s : UtpSocket) : (s.isFull bytes).2.kernel = s.kernel :=
  (quiet_isFull bytes s).1

theorem quiet_scheduleAck (s : UtpSocket) : Quiet s s.scheduleAck := quiet_emit rfl s

theorem quiet_mtuReset (ms : UInt64) (s : UtpSocket) : Quiet s (s.mtuReset env ms) :=
  ((quiet_asked s).trans (quiet_assert _ _ rfl)).trans (quiet_setMtu _ _)

theorem curWindow_updateRtt (c : LedbatController) (ertt : UInt32) (ms : UInt64) :
    (c.updateRtt ertt ms).curWindow = c.curWindow := by
  unfold LedbatController.updateRtt
  dsimp only
  split <;> rfl

theorem quiet_ackTiming (p : OutgoingPacket) (s : UtpSocket) : Quiet s (s.ackTiming env p) := by
  unfold ackTiming
  refine .ite (fun _ => (quiet_asked s).trans (quiet_setCc ?_)) (fun _ => quiet_setCc rfl)
  exact curWindow_updateRtt _ _ _

theorem quiet_probeAck (seq : UInt16) (s : UtpSocket) : Quiet s (s.probeAck seq) :=
  (quiet_assert _ s rfl).trans (quiet_setMtu _ _)

theorem quiet_ackedBytes (now : UInt64) (n : ℕ) (seq : UInt16) (acked : ℕ) (minRtt : ℤ)
    (s : UtpSocket) : Quiet s (s.ackedBytes now n seq acked minRtt).2.2 := by
  induction n generalizing seq acked minRtt s with
  | zero => exact .refl s
  | succ n ih =>
    unfold ackedBytes
    split
    · exact ih _ _ _ s
    · split
      · exact ih _ _ _ s
      · exact ((quiet_assert _ s rfl).trans (quiet_probeAck _ _)).trans (ih _ _ _ _)

theorem quiet_eackBytesLoop (base : ℤ) (mask : Bytes) (now : UInt64) (n acked : ℕ) (minRtt : ℤ)
    (s : UtpSocket) : Quiet s (s.eackBytesLoop base mask now n acked minRtt).2.2 := by
  induction n generalizing acked minRtt s with
  | zero => exact .refl s
  | succ n ih =>
    unfold eackBytesLoop
    dsimp only
    split
    · split
      · exact (quiet_assert _ s rfl).trans (ih _ _ _)
      · exact ih _ _ s
    · exact ih _ _ s

theorem quiet_selectiveAckBytes (base : ℤ) (mask : Bytes) (acked : ℕ) (minRtt : ℤ)
    (s : UtpSocket) : Quiet s (s.selectiveAckBytes env base mask acked minRtt).2.2 := by
  unfold selectiveAckBytes
  split
  · exact .refl s
  · exact (quiet_asked s).trans (quiet_eackBytesLoop _ _ _ _ _ _ _)

theorem quiet_theirSample (theirDelay : UInt32) (s : UtpSocket) :
    Quiet s (s.theirSample theirDelay) := by
  have h : Quiet s (if theirDelay ≠ 0 then
      s.setCc { s.cc with theirHist := s.cc.theirHist.addSample theirDelay s.currentMs }
    else s) := .ite (fun _ => quiet_setCc rfl) (fun _ => .refl s)
  exact h.trans (.ite (fun _ => quiet_setCc rfl) (fun _ => .refl _))

theorem curWindow_updateDelayAverage (c : LedbatController) (d : UInt32) (ms : UInt64) :
    (c.updateDelayAverage d ms).curWindow = c.curWindow := by
  rw [LedbatController.updateDelayAverage, apply_ite LedbatController.curWindow]
  exact ite_self _

theorem quiet_ourSample (actualDelay : UInt32) (s : UtpSocket) :
    Quiet s (s.ourSample actualDelay) := by
  refine .ite (fun _ => ?_) (fun _ => .refl s)
  have h : Quiet s (s.setCc { s.cc with
      ourHist := s.cc.ourHist.addSample actualDelay s.currentMs }) := quiet_setCc rfl
  refine h.trans ((quiet_assert _ _ rfl).trans (quiet_setCc ?_))
  rw [cc_assert]
  exact curWindow_updateDelayAverage _ _ _

theorem quiet_capDelay (minRtt : ℤ) (s : UtpSocket) : Quiet s (s.capDelay minRtt) :=
  (quiet_assert _ s rfl).trans (.ite (fun _ => quiet_setCc rfl) (fun _ => .refl _))

theorem curWindow_applyCcontrol (c : LedbatController) (acked : ℕ) (minRtt : ℤ) (ms : UInt64)
    (snd target size : ℕ) : (c.applyCcontrol acked minRtt ms snd target size).2.curWindow =
      c.curWindow := by
  rw [LedbatController.applyCcontrol, LedbatController.stepWindow]
  dsimp only
  split_ifs <;> rfl

theorem quiet_controlWindow (acked : ℕ) (minRtt : ℤ) (s : UtpSocket) :
    Quiet s (s.controlWindow acked minRtt) :=
  ((quiet_assert _ s rfl).trans (quiet_setCc (curWindow_applyCcontrol _ _ _ _ _ _ _))).trans
    ((quiet_emit rfl _).trans (quiet_asked _))

/-- The rest of `process_acks` behind the walk over the acknowledged packets. -/
def takeSamples (pp : ParsedPacket) (time : UInt64) (r : ℕ × ℤ × UtpSocket) : UtpSocket :=
  let r := match pp.selack with
    | some mask => r.2.2.selectiveAckBytes env (pp.ackNr + 2).toNat mask r.1 r.2.1
    | none => r
  let s := r.2.2
  let theirDelay := if pp.timestamp = 0 then 0 else (time - pp.timestamp.toUInt64).toUInt32
  let s := (s.setTiming { s.timing with
    lastMeasuredDelay := s.currentMs
    replyMicro := theirDelay }).theirSample theirDelay
  let actualDelay := if pp.replyMicro.toNat = INT_MAX then 0 else pp.replyMicro
  let s := (s.ourSample actualDelay).capDelay r.2.1
  if actualDelay ≠ 0 ∧ 1 ≤ r.1 then s.controlWindow r.1 r.2.1 else s

theorem processAcks_eq (pp : ParsedPacket) (acks : ℕ) (time : UInt64) (s : UtpSocket) :
    s.processAcks env pp acks time = takeSamples env pp time
      (s.asked.ackedBytes (env.microseconds s.tick) acks s.windowStart 0 (2 ^ 63 - 1)) := rfl

theorem quiet_takeSamples (pp : ParsedPacket) (time : UInt64) (r : ℕ × ℤ × UtpSocket) :
    Quiet r.2.2 (takeSamples env pp time r) := by
  unfold takeSamples
  have h : Quiet r.2.2 (match pp.selack with
      | some mask => r.2.2.selectiveAckBytes env (pp.ackNr + 2).toNat mask r.1 r.2.1
      | none => r).2.2 := by
    split
    · exact quiet_selectiveAckBytes env _ _ _ _ _
    · exact .refl _
  set r' := (match pp.selack with
      | some mask => r.2.2.selectiveAckBytes env (pp.ackNr + 2).toNat mask r.1 r.2.1
      | none => r)
  dsimp only
  have h' (t : TimingState) (their our : UInt32) : Quiet r.2.2
      ((((r'.2.2.setTiming t).theirSample their).ourSample our).capDelay r'.2.1) :=
    ((h.trans (quiet_setTiming _ _)).trans (quiet_theirSample _ _)).trans
      ((quiet_ourSample _ _).trans (quiet_capDelay _ _))
  exact .ite (fun _ => (h' _ _ _).trans (quiet_controlWindow _ _ _)) (fun _ => h' _ _ _)

theorem quiet_processAcks (pp : ParsedPacket) (acks : ℕ) (time : UInt64) (s : UtpSocket) :
    Quiet s (s.processAcks env pp acks time) := by
  rw [processAcks_eq]
  exact ((quiet_asked s).trans (quiet_ackedBytes _ _ _ _ _ _)).trans (quiet_takeSamples env _ _ _)

theorem quiet_peerWindow (windowsize : UInt32) (s : UtpSocket) :
    Quiet s (s.peerWindow windowsize) := by
  have h : Quiet s (s.setSend { s.send with maxWindowUser := windowsize.toNat }) := .of_eq rfl rfl
  exact .ite (fun _ => h.trans (quiet_setCc rfl)) (fun _ => h)

theorem quiet_raiseFastResend (pp : ParsedPacket) (s : UtpSocket) :
    Quiet s (s.raiseFastResend pp) := by
  unfold raiseFastResend
  exact .ite (fun _ => quiet_setTiming _ _) (fun _ => .refl s)

theorem quiet_dupAckProbe (pp : ParsedPacket) (s : UtpSocket) : Quiet s (s.dupAckProbe pp) := by
  unfold dupAckProbe
  refine .ite (fun _ => .ite (fun _ => ?_) (fun _ => quiet_setMtu _ _)) (fun _ => .refl s)
  exact (quiet_assert _ s rfl).trans (quiet_setMtu _ _)

theorem quiet_countDuplicate (pp : ParsedPacket) (s : UtpSocket) :
    Quiet s (s.countDuplicate pp) := by
  unfold countDuplicate
  refine .ite (fun _ => .ite (fun _ => ?_) (fun _ => quiet_setDuplicateAck _ _)) (fun _ => .refl s)
  exact (quiet_setDuplicateAck _ _).trans (quiet_dupAckProbe pp _)

theorem curWindow_maybeDecayWin (c : LedbatController) (ms : UInt64) :
    (c.maybeDecayWin ms).curWindow = c.curWindow := by
  unfold LedbatController.maybeDecayWin
  split <;> rfl

theorem curWindow_onRtoTimeout (c : LedbatController) (size : ℕ) (cur : UInt16) :
    (c.onRtoTimeout size cur).curWindow = c.curWindow := by
  rw [LedbatController.onRtoTimeout]
  split <;> rfl

theorem quiet_probeTimeout (s : UtpSocket) : Quiet s s.probeTimeout.2 :=
  (quiet_assert _ s rfl).trans (quiet_setMtu _ _)

theorem quiet_backOff (ignoreLoss : Bool) (s : UtpSocket) : Quiet s (s.backOff ignoreLoss) := by
  rw [backOff]
  refine .ite (fun _ => quiet_setCc rfl) (fun _ => ?_)
  refine (Quiet.trans (quiet_setCc rfl) (quiet_setDuplicateAck _ _)).trans (quiet_setCc ?_)
  exact curWindow_onRtoTimeout _ _ _

theorem quiet_reopenWindow (s : UtpSocket) : Quiet s s.reopenWindow := by
  rw [reopenWindow]
  exact .ite (fun _ => .of_eq rfl rfl) (fun _ => .refl s)

theorem quiet_backoffRtoForClose (s : UtpSocket) : Quiet s (s.backoffRtoForClose env) :=
  (quiet_asked s).trans (quiet_setCc rfl)

theorem quiet_parsePacket (b : Bytes) (s : UtpSocket) : Quiet s (s.parsePacket b).2 :=
  .of_eq rfl rfl

theorem quiet_setOption (opt : SocketOption) (val : ℤ) (s : UtpSocket) :
    Quiet s (s.setOption opt val) := by
  cases opt with
  | sndbuf =>
    refine (quiet_assert _ s rfl).trans (.of_eq ?_ rfl)
    simp only [setOption, kernel_setSend, kernel_assert]
    rfl
  | rcvbuf =>
    refine (quiet_assert _ s rfl).trans (.of_eq ?_ rfl)
    simp only [setOption, kernel_setRecv, kernel_assert]
    rfl
  | targetDelay => exact .of_eq rfl rfl

theorem quiet_onIcmpFragmentation (nextHopMtu : UInt16) (s : UtpSocket) :
    Quiet s (s.onIcmpFragmentation nextHopMtu) := by
  unfold onIcmpFragmentation
  exact .ite (fun _ => (quiet_assert _ s rfl).trans (quiet_setMtu _ _))
    (fun _ => (quiet_assert _ s rfl).trans (quiet_setMtu _ _))

theorem quiet_addedAsserts (flags : UInt8) (added got : ℕ) (s : UtpSocket) :
    Quiet s (s.addedAsserts flags added got) := by
  unfold addedAsserts
  exact .ite (fun _ => .refl s) (fun _ => (quiet_assert _ s rfl).trans (quiet_assert _ _ rfl))

end UtpSocket

end Utp
