import LibUtp.Kernel.Operations
import LibUtp.Socket.Run
import LibUtp.Lib.Trace

/-! What a socket tells its peer and its application: the state of the connection and the
acknowledgement number. `ConnStep` lists the steps by which these change, each with the effects it has;
every operation is a sequence of them. -/

namespace Utp

open Lts SequenceBuffer

/-- Effects that tell of neither the stream nor the connection. -/
def Effect.plain : Effect → Bool
  | .onError _ | .onDelaySample _ | .assertFailed _ => true
  | _ => false

/-- The state changes that no callback tells. -/
inductive ConnState.Leads : ConnState → ConnState → Prop
  | opens : Leads .synRecv .connected
  | fill : Leads .connected .connectedFull
  | breaks {st} : Leads st .reset
  | destroy {st} : Leads st .destroy

/-- The state changes that set a socket up. -/
inductive ConnState.SetsUp : ConnState → ConnState → Prop
  | enter : SetsUp .uninitialized .idle
  | dial : SetsUp .idle .synSent
  | accept : SetsUp .idle .synRecv

/-- What a call may do besides: set the socket up, deliver, send a keep-alive. -/
structure Scope where
  setsUp : Bool := false
  delivers : Bool := false
  keepsAlive : Bool := false

/-- The state of the connection with the acknowledgement number. -/
structure ConnView where
  state : ConnState
  ackNr : UInt16

def UtpSocket.connView (s : UtpSocket) : ConnView := ⟨s.conn.state, s.recv.ackNr⟩

/-- The connection can transfer data. -/
def ConnView.IsOpen (d : ConnView) : Prop := d.state = .connected ∨ d.state = .connectedFull

theorem ConnView.IsOpen.of_state {d d' : ConnView} (h : d.IsOpen) (hs : d'.state = d.state) : d'.IsOpen := by
  unfold ConnView.IsOpen at h ⊢
  rw [hs]
  exact h

/-- The steps with their effects. -/
inductive ConnStep (a : Scope) : ConnView → List Effect → ConnView → Prop
  | say {d : ConnView} {e : Effect} (h : e.plain) : ConnStep a d [e] d
  | schedule {d : ConnView} : ConnStep a d [.scheduleAck] d
  -- what is sent
  | ack {d : ConnView} {hdr : PacketFormatV1} {rest : Bytes} (h : hdr.ackNr = d.ackNr) :
      ConnStep a d [.sendTo (hdr.toBytes ++ rest) 0, .removeAck, .removeAck] d
  | keepAlive {d : ConnView} {hdr : PacketFormatV1} {rest : Bytes} (hk : a.keepsAlive) :
      ConnStep a d [.sendTo (hdr.toBytes ++ rest) 0, .removeAck, .removeAck] d
  | transmit {d : ConnView} {p : OutgoingPacket} {flags : UInt32} (h : p.hdr.ackNr = d.ackNr) :
      ConnStep a d [.sendTo (p.hdr.toBytes ++ p.body) flags, .removeAck] d
  -- the connection
  | move {d : ConnView} {st : ConnState} (h : d.state.Leads st) : ConnStep a d [] { d with state := st }
  | setUp {d : ConnView} {st : ConnState} (hu : a.setsUp) (h : d.state.SetsUp st) : ConnStep a d [] { d with state := st }
  | connected {d : ConnView} (h : d.state = .synSent) : ConnStep a d [.onConnect] { d with state := .connected }
  | writable {d : ConnView} (h : d.state = .connectedFull) :
      ConnStep a d [.onStateChange .writable] { d with state := .connected }
  -- what has come
  | expect {d : ConnView} {q : UInt16} (h : d.state = .synSent ∨ d.state = .idle) : ConnStep a d [] { d with ackNr := q }
  | hand {d : ConnView} {e : Effect} (ha : a.delivers) (ho : d.IsOpen) (he : e.delivers) : ConnStep a d [e] d
  | advance {d : ConnView} (ha : a.delivers) (ho : d.IsOpen) : ConnStep a d [] { d with ackNr := d.ackNr + 1 }

/-- `t` comes out of `s` by such steps. -/
def ConnSteps (a : Scope) (s t : UtpSocket) : Prop :=
  ∃ l, Trace (ConnStep a) s.connView l t.connView ∧ t.out = s.out ++ l

namespace ConnSteps

variable {a : Scope} {s t u : UtpSocket}

theorem of_eq (hd : t.connView = s.connView) (ho : t.out = s.out) : ConnSteps a s t := by
  refine ⟨[], ?_, by rw [ho, List.append_nil]⟩
  rw [hd]
  exact .refl _

theorem refl (s : UtpSocket) : ConnSteps a s s := .of_eq rfl rfl

theorem trans (h : ConnSteps a s t) (h' : ConnSteps a t u) : ConnSteps a s u := by
  obtain ⟨l, ht, ho⟩ := h
  obtain ⟨l', ht', ho'⟩ := h'
  exact ⟨l ++ l', ht.trans ht', by rw [ho', ho, List.append_assoc]⟩

theorem ite {c : Prop} [Decidable c] (h : c → ConnSteps a s t) (h' : ¬ c → ConnSteps a s u) :
    ConnSteps a s (if c then t else u) := by
  split
  · exact h ‹_›
  · exact h' ‹_›

theorem single {l : List Effect} (h : ConnStep a s.connView l t.connView) (ho : t.out = s.out ++ l) : ConnSteps a s t :=
  ⟨l, .single h, ho⟩

theorem silent (h : ConnStep a s.connView [] t.connView) (ho : t.out = s.out) : ConnSteps a s t :=
  .single h (by rw [ho, List.append_nil])

/-- What may be delivered need not be. -/
theorem mono (h : ConnSteps { a with delivers := false } s t) : ConnSteps a s t := by
  obtain ⟨l, ht, ho⟩ := h
  refine ⟨l, ht.mono fun d l d' hd => ?_, ho⟩
  cases hd with
  | hand ha => cases ha
  | advance ha => cases ha
  | say h => exact .say h
  | schedule => exact .schedule
  | ack h => exact .ack h
  | keepAlive hk => exact .keepAlive hk
  | transmit h => exact .transmit h
  | move h => exact .move h
  | setUp hu h => exact .setUp hu h
  | connected h => exact .connected h
  | writable h => exact .writable h
  | expect h => exact .expect h

theorem emit {e : Effect} (h : e.plain) (s : UtpSocket) : ConnSteps a s (s.emit e) :=
  .single (t := s.emit e) (.say h) rfl

theorem assert (c : Prop) [Decidable c] (x : Assertion) (s : UtpSocket) : ConnSteps a s (s.assert c x) :=
  .ite (fun _ => .refl s) fun _ => .emit rfl s

end ConnSteps

namespace UtpSocket

variable (env : Env) {a : Scope} {s : UtpSocket}

@[simp] theorem connView_assert (c : Prop) [Decidable c] (x : Assertion) (s : UtpSocket) :
    (s.assert c x).connView = s.connView := by
  unfold assert
  split <;> rfl

@[simp] theorem connView_asked (s : UtpSocket) : s.asked.connView = s.connView := rfl

@[simp] theorem connView_setCc (c : LedbatController) (s : UtpSocket) : (s.setCc c).connView = s.connView := rfl

@[simp] theorem connView_setMtu (m : MtuDiscovery) (s : UtpSocket) : (s.setMtu m).connView = s.connView := rfl

@[simp] theorem connView_setSend (y : SendState) (s : UtpSocket) : (s.setSend y).connView = s.connView := rfl

/-! Setters. -/

theorem connSteps_asked (s : UtpSocket) : ConnSteps a s s.asked := .of_eq rfl rfl

theorem connSteps_setCc (c : LedbatController) (s : UtpSocket) : ConnSteps a s (s.setCc c) := .of_eq rfl rfl

theorem connSteps_setMtu (m : MtuDiscovery) (s : UtpSocket) : ConnSteps a s (s.setMtu m) := .of_eq rfl rfl

theorem connSteps_setTiming (y : TimingState) (s : UtpSocket) : ConnSteps a s (s.setTiming y) := .of_eq rfl rfl

theorem connSteps_setDuplicateAck (n : UInt8) (s : UtpSocket) : ConnSteps a s (s.setDuplicateAck n) := .of_eq rfl rfl

theorem connSteps_refreshClock (s : UtpSocket) : ConnSteps a s (s.refreshClock env) := .of_eq rfl rfl

theorem connSteps_setSend (y : SendState) (s : UtpSocket) : ConnSteps a s (s.setSend y) := .of_eq rfl rfl

theorem connSteps_setRecv {y : ReceiveState} (h : y.ackNr = s.recv.ackNr) : ConnSteps a s (s.setRecv y) := by
  refine .of_eq ?_ rfl
  unfold connView setRecv
  dsimp only
  rw [h]

theorem connSteps_setState {st : ConnState} (h : s.conn.state.Leads st) : ConnSteps a s (s.setState st) :=
  .silent (.move h) rfl

theorem connSteps_destroy (s : UtpSocket) : ConnSteps a s (s.setState .destroy) := connSteps_setState .destroy

/-! Clocks, acknowledgements, sending. -/

theorem connSteps_askRcvWindow (s : UtpSocket) : ConnSteps a s (s.askRcvWindow env) := (connSteps_asked s).trans (.assert _ _ _)

/-- What an assertion reports is plain. -/
theorem reports_assert (c : Prop) [Decidable c] (x : Assertion) (s : UtpSocket) :
    ∃ l, (s.assert c x).out = s.out ++ l ∧ ∀ e ∈ l, Effect.plain e := by
  refine ⟨_, out_assert c x s, ?_⟩
  split <;> simp [Effect.plain]

theorem connView_updateRcvWin (s : UtpSocket) : (s.updateRcvWin env).connView = s.connView := by
  unfold updateRcvWin askRcvWindow assert
  split <;> rfl

theorem reports_updateRcvWin (s : UtpSocket) :
    ∃ l, (s.updateRcvWin env).out = s.out ++ l ∧ ∀ e ∈ l, Effect.plain e := by
  obtain ⟨l, ho, hl⟩ := reports_assert (0 ≤ int32 (env.readBufferSize s.tick)) .rcvWindow s.asked
  refine ⟨l, ?_, hl⟩
  unfold updateRcvWin askRcvWindow
  rw [out_setRecv, ho, out_asked]

theorem plain_append {l m : List Effect} (h : ∀ e ∈ l, Effect.plain e) (h' : ∀ e ∈ m, Effect.plain e) :
    ∀ e ∈ l ++ m, Effect.plain e := by
  intro e he
  rcases List.mem_append.1 he with he | he
  · exact h e he
  · exact h' e he

theorem trace_plain {d : ConnView} {l : List Effect} (h : ∀ e ∈ l, Effect.plain e) : Trace (ConnStep a) d l d := by
  induction l with
  | nil => exact .refl d
  | cons e l ih =>
    exact .head (a := [e]) (.say (h e List.mem_cons_self)) (ih fun e' he => h e' (List.mem_cons_of_mem e he))

theorem connSteps_updateRcvWin (s : UtpSocket) : ConnSteps a s (s.updateRcvWin env) := by
  obtain ⟨l, ho, hl⟩ := reports_updateRcvWin env s
  refine ⟨l, ?_, ho⟩
  rw [connView_updateRcvWin]
  exact trace_plain hl

/-- A STATE packet is a header with the number of the socket. -/
theorem sendState_connSteps (synack : Bool) (s : UtpSocket) : ∃ l hdr rest, (∀ e ∈ l, Effect.plain e) ∧
    hdr.ackNr = s.recv.ackNr ∧
    (if s.recv.reorderCount ≠ 0 ∧ s.recv.gotFinReached = false then (s.eackAsserts synack).sendEack env
      else s.sendPlainAck env).connView = s.connView ∧
    (if s.recv.reorderCount ≠ 0 ∧ s.recv.gotFinReached = false then (s.eackAsserts synack).sendEack env
      else s.sendPlainAck env).out = s.out ++ l ++ [.sendTo (PacketFormatV1.toBytes hdr ++ rest) 0, .removeAck] := by
  split
  · obtain ⟨l₁, ho₁, hl₁⟩ := reports_assert (synack = false) .synackEack s
    have hd₁ := connView_assert (synack = false) .synackEack s
    unfold eackAsserts
    generalize s.assert (synack = false) .synackEack = t at ho₁ hd₁ ⊢
    obtain ⟨l₂, ho₂, hl₂⟩ := reports_assert ((s.recv.inbuf.get (s.recv.ackNr.toNat + 1)).isNone) .eackGap t
    have hd₂ := connView_assert ((s.recv.inbuf.get (s.recv.ackNr.toNat + 1)).isNone) .eackGap t
    generalize t.assert ((s.recv.inbuf.get (s.recv.ackNr.toNat + 1)).isNone) .eackGap = u at ho₂ hd₂ ⊢
    have hd : u.connView = s.connView := hd₂.trans hd₁
    refine ⟨l₁ ++ l₂, u.stamp env { u.ackHdr with ext := 1 }, [0, 4] ++ eackBytes u.eackMask,
      plain_append hl₁ hl₂, ?_, hd, ?_⟩
    · exact congrArg ConnView.ackNr hd
    · unfold sendEack
      rw [out_sendData, ho₂, ho₁]
      simp only [List.append_assoc]
  · refine ⟨[], s.stamp env s.ackHdr, [], by simp, rfl, rfl, ?_⟩
    unfold sendPlainAck
    rw [out_sendData, List.append_nil, List.append_nil]

theorem sendAck_connSteps (synack : Bool) (s : UtpSocket) : ∃ l hdr rest, (∀ e ∈ l, Effect.plain e) ∧
    hdr.ackNr = s.recv.ackNr ∧ (s.sendAck env synack).connView = s.connView ∧
    (s.sendAck env synack).out = s.out ++ l ++
      [.sendTo (PacketFormatV1.toBytes hdr ++ rest) 0, .removeAck, .removeAck] := by
  have hd := connView_updateRcvWin env s
  obtain ⟨l, ho, hl⟩ := reports_updateRcvWin env s
  unfold sendAck
  generalize s.updateRcvWin env = t at hd ho ⊢
  have hack : t.recv.ackNr = s.recv.ackNr := congrArg ConnView.ackNr hd
  obtain ⟨l', hdr, rest, hl', ha, hd', ho'⟩ := sendState_connSteps env synack t
  dsimp only
  generalize (if t.recv.reorderCount ≠ 0 ∧ t.recv.gotFinReached = false then (t.eackAsserts synack).sendEack env
      else t.sendPlainAck env) = u at hd' ho' ⊢
  refine ⟨l ++ l', hdr, rest, plain_append hl hl', ha.trans hack, hd'.trans hd, ?_⟩
  rw [out_emit, ho', ho]
  simp

theorem connSteps_sendAck (synack : Bool) (s : UtpSocket) : ConnSteps a s (s.sendAck env synack) := by
  obtain ⟨l, hdr, rest, hl, ha, hd, ho⟩ := sendAck_connSteps env synack s
  refine ⟨l ++ [.sendTo (hdr.toBytes ++ rest) 0, .removeAck, .removeAck], ?_, by rw [ho, List.append_assoc]⟩
  rw [hd]
  exact (trace_plain hl).trans (.single (.ack ha))

/-- A keep-alive tells the number before. -/
theorem connSteps_sendKeepAlive (hk : a.keepsAlive) (s : UtpSocket) : ConnSteps a s (s.sendKeepAlive env) := by
  have h := sendAck_connSteps env false (s.setRecv { s.recv with ackNr := s.recv.ackNr - 1 })
  unfold sendKeepAlive
  generalize (s.setRecv { s.recv with ackNr := s.recv.ackNr - 1 }).sendAck env false = t at h ⊢
  obtain ⟨l, hdr, rest, hl, -, hd, ho⟩ := h
  have hd' : (t.setRecv { t.recv with ackNr := t.recv.ackNr + 1 }).connView = s.connView := by
    have hback : (t.setRecv { t.recv with ackNr := t.recv.ackNr + 1 }).connView =
        { t.connView with ackNr := t.connView.ackNr + 1 } := rfl
    have hround : s.recv.ackNr - 1 + 1 = s.recv.ackNr := by grind
    rw [hback, hd]
    simp only [connView, setRecv, hround]
  refine ⟨l ++ [.sendTo (hdr.toBytes ++ rest) 0, .removeAck, .removeAck], ?_, ?_⟩
  · rw [hd']
    exact (trace_plain hl).trans (.single (.keepAlive hk))
  · rw [out_setRecv, ho, List.append_assoc, out_setRecv]

theorem connSteps_scheduleAck (s : UtpSocket) : ConnSteps a s s.scheduleAck := .single .schedule rfl

theorem connSteps_removeInFlight (n : ℕ) (s : UtpSocket) : ConnSteps a s (s.removeInFlight n) :=
  (ConnSteps.assert _ _ s).trans (connSteps_setCc _ _)

theorem connSteps_mtuReset (ms : UInt64) (s : UtpSocket) : ConnSteps a s (s.mtuReset env ms) :=
  ((connSteps_asked s).trans (.assert _ _ _)).trans (connSteps_setMtu _ _)

theorem connView_countPacket (p : OutgoingPacket) (s : UtpSocket) : (s.countPacket p).connView = s.connView := by
  unfold countPacket addInFlight
  split
  · rw [connView_setCc]
  · rfl

theorem connView_rediscover (ms : UInt64) (s : UtpSocket) : (s.rediscover env ms).connView = s.connView := by
  unfold rediscover mtuReset
  split
  · rw [connView_setMtu, connView_assert, connView_asked]
  · rfl

theorem connView_startProbe (length : ℕ) (s : UtpSocket) : (s.startProbe length).connView = s.connView := by
  unfold startProbe
  rw [connView_assert, connView_assert, connView_setMtu]

theorem connSteps_startProbe (length : ℕ) (s : UtpSocket) : ConnSteps a s (s.startProbe length) :=
  ((connSteps_setMtu _ s).trans (.assert _ _ _)).trans (.assert _ _ _)

theorem connSteps_putOutbuf (i : ℤ) (p : OutgoingPacket) (s : UtpSocket) : ConnSteps a s (s.putOutbuf i p) := by
  unfold putOutbuf
  exact connSteps_setSend _ s

/-- A packet goes out with the number of the moment. -/
theorem connSteps_sendPacket (i : ℤ) (s : UtpSocket) : ConnSteps a s (s.sendPacket env i) := by
  unfold sendPacket
  split
  · exact .refl s
  · rename_i p hp
    dsimp only
    have hd₁ := connView_countPacket p s.asked
    have h₁ : ConnSteps a s (s.asked.countPacket p) :=
      (connSteps_asked s).trans (.ite (fun _ => connSteps_setCc _ _) fun _ => .refl _)
    generalize s.asked.countPacket p = t at hd₁ h₁ ⊢
    have hd₂ := connView_rediscover env (env.milliseconds s.tick) t.asked
    have h₂ : ConnSteps a t (t.asked.rediscover env (env.milliseconds s.tick)) :=
      (connSteps_asked t).trans (.ite (fun _ => connSteps_mtuReset env _ _) fun _ => .refl _)
    generalize t.asked.rediscover env (env.milliseconds s.tick) = u at hd₂ h₂ ⊢
    have hd₃ : (if u.probes p then u.startProbe p.length else u).connView = u.connView := by
      split
      · exact connView_startProbe _ _
      · rfl
    have h₃ : ConnSteps a u (if u.probes p then u.startProbe p.length else u) :=
      .ite (fun _ => connSteps_startProbe _ _) fun _ => .refl u
    generalize (if u.probes p then u.startProbe p.length else u) = v at hd₃ h₃ ⊢
    have hsent : (v.sentPacket env (env.microseconds t.tick) p).hdr.ackNr = v.connView.ackNr := rfl
    generalize v.sentPacket env (env.microseconds t.tick) p = p' at hsent ⊢
    refine (h₁.trans h₂).trans (h₃.trans ?_)
    generalize (if u.probes p then UTP_UDP_DONTFRAG else 0) = flags
    have hput : ConnSteps a v (v.putOutbuf i p') := connSteps_putOutbuf i p' v
    have hack : p'.hdr.ackNr = (v.putOutbuf i p').connView.ackNr := by
      unfold putOutbuf
      rw [connView_setSend]
      exact hsent
    generalize v.putOutbuf i p' = w at hput hack ⊢
    exact hput.trans (.single (t := w.sendData (p'.hdr.toBytes ++ p'.body) flags) (.transmit hack) (out_sendData _ _ w))

theorem connSteps_isFull (bytes : ℤ) (s : UtpSocket) : ConnSteps a s (s.isFull bytes).2 := by
  unfold isFull
  split
  · exact connSteps_setCc _ s
  · exact .refl s

theorem connSteps_moveCursor (inPrefix : Bool) (i : UInt16) (s : UtpSocket) :
    ConnSteps a s (s.moveCursor inPrefix i) :=
  .ite (fun _ => connSteps_setSend _ _) fun _ => .refl s

theorem connSteps_flushLoop (packetSize n : ℕ) (i : UInt16) (inPrefix : Bool) (s : UtpSocket) :
    ConnSteps a s (s.flushLoop env packetSize n i inPrefix).2 := by
  induction n generalizing i inPrefix s with
  | zero => exact .refl s
  | succ n ih =>
    unfold flushLoop
    split
    · exact (connSteps_moveCursor _ _ _).trans (ih _ _ _)
    · have h := connSteps_isFull (a := a) (-1) s
      generalize s.isFull (-1) = r at h ⊢
      dsimp only
      split_ifs
      · exact h
      · exact h.trans (((connSteps_sendPacket env _ _).trans (connSteps_moveCursor _ _ _)).trans (ih _ _ _))
      · exact h.trans (ih _ _ _)

theorem connSteps_flushPackets (s : UtpSocket) : ConnSteps a s (s.flushPackets env).2 := connSteps_flushLoop env _ _ _ _ s

theorem connSteps_addedAsserts (flags : UInt8) (added got : ℕ) (s : UtpSocket) :
    ConnSteps a s (s.addedAsserts flags added got) := by
  unfold addedAsserts
  exact .ite (fun _ => .refl s) fun _ => (ConnSteps.assert _ _ s).trans (.assert _ _ _)

theorem connSteps_growTail (flags : UInt8) (p : OutgoingPacket) (added : ℕ) (iov : List Bytes) (s : UtpSocket) :
    ConnSteps a s (s.growTail env flags p added iov) := by
  unfold growTail
  dsimp only
  exact ((ConnSteps.assert _ _ s).trans (connSteps_addedAsserts _ _ _ _)).trans
    ((connSteps_updateRcvWin env _).trans (connSteps_putOutbuf _ _ _))

theorem connSteps_enqueue (p : OutgoingPacket) (s : UtpSocket) : ConnSteps a s (s.enqueue p) := by
  unfold enqueue
  exact connSteps_setSend _ s

theorem connSteps_queuePacket (flags : UInt8) (added : ℕ) (iov : List Bytes) (s : UtpSocket) :
    ConnSteps a s (s.queuePacket env flags added iov) := by
  unfold queuePacket
  exact ((connSteps_addedAsserts _ _ _ s).trans (connSteps_updateRcvWin env _)).trans (connSteps_enqueue _ _)

theorem connSteps_writeLoop (packetSize : ℕ) (flags : UInt8) (fuel payload : ℕ) (iov : List Bytes) (s : UtpSocket) :
    ConnSteps a s (s.writeLoop env packetSize flags fuel payload iov).2 := by
  induction fuel generalizing payload iov s with
  | zero => exact .refl s
  | succ fuel ih =>
    unfold writeLoop
    have h : ConnSteps a s ((s.assert (s.send.curWindowPackets.toNat < OUTGOING_BUFFER_MAX_SIZE)
        .windowPackets).assert (flags = ST_DATA ∨ flags = ST_FIN) .packetFlags) :=
      (ConnSteps.assert _ _ s).trans (.assert _ _ _)
    generalize (s.assert (s.send.curWindowPackets.toNat < OUTGOING_BUFFER_MAX_SIZE)
        .windowPackets).assert (flags = ST_DATA ∨ flags = ST_FIN) .packetFlags = t at h ⊢
    dsimp only
    cases t.openTail packetSize payload with
    | none => exact h.trans (connSteps_queuePacket env _ _ _ _)
    | some p =>
      dsimp only
      have hg := h.trans (connSteps_growTail env (a := a) flags p
        (min (payload + p.payload) (max packetSize p.payload) - p.payload) iov t)
      generalize t.growTail env flags p
        (min (payload + p.payload) (max packetSize p.payload) - p.payload) iov = u at hg ⊢
      split
      · exact hg
      · exact hg.trans (ih _ _ _)

theorem connSteps_writeOutgoingPacket (payload : ℕ) (flags : UInt8) (iov : List Bytes) (s : UtpSocket) :
    ConnSteps a s (s.writeOutgoingPacket env payload flags iov).2 := by
  unfold writeOutgoingPacket
  have h : ConnSteps a s (if s.send.curWindowPackets = 0 then
      (s.setCc (s.cc.setInitialRto s.currentMs)).assert (s.cc.curWindow = 0) .idleInFlight
      else s) :=
    .ite (fun _ => (connSteps_setCc _ s).trans (.assert _ _ _)) fun _ => .refl s
  exact h.trans ((connSteps_writeLoop env _ _ _ _ _ _).trans (connSteps_flushPackets env _))

theorem connSteps_sendFin (s : UtpSocket) : ConnSteps a s (s.sendFin env) := by
  unfold sendFin
  have h : ConnSteps a s (s.setSend { s.send with finSent := true }) := connSteps_setSend _ _
  generalize s.setSend { s.send with finSent := true } = t at h ⊢
  exact h.trans (connSteps_writeOutgoingPacket env 0 ST_FIN [] t)

end UtpSocket

end Utp
