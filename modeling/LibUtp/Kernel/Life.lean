import LibUtp.Kernel.Beside
import LibUtp.Kernel.Run

/-! The life of a socket: its options, the call that sets it up, and then any calls.
What the set-up and the later calls do beside the kernel. -/

namespace Utp

open Lts Relation

namespace UtpSocket

/-- The calls that set a socket up. -/
def Op.SetsUp : Op → Prop
  | .connect _ _ | .accept _ _ => True
  | _ => False

/-- The calls the source permits on a socket that is not set up yet. A write is refused. -/
def Op.Early : Op → Prop
  | .setOption _ _ | .writev _ => True
  | _ => False

instance : (op : Op) → Decidable op.Early
  | .setOption _ _ | .writev _ => isTrue trivial
  | .connect _ _ | .accept _ _ | .readDrained | .close | .shutdown _ | .sendAck | .processIncoming _
  | .onReset | .onIcmpError | .onIcmpFragmentation _ | .checkTimeouts => isFalse id

/-- The life of a socket whose calls all meet `C`. -/
inductive Life (C : Env → UtpSocket → Op → Prop) (targetDelay rcvbuf sndbuf : ℕ) :
    List Call → UtpSocket → Prop
  | setUp {calls c s s'} (h : RunIf C targetDelay rcvbuf sndbuf calls s)
      (ho : ∀ c ∈ calls, c.op.Early) (hs : StepIf C s [c] s') (hc : c.op.SetsUp) :
      Life C targetDelay rcvbuf sndbuf (calls ++ [c]) s'
  | call {calls l s s'} (h : Life C targetDelay rcvbuf sndbuf calls s) (hs : StepIf C s l s') :
      Life C targetDelay rcvbuf sndbuf (calls ++ l) s'

theorem Life.run {C : Env → UtpSocket → Op → Prop} {targetDelay rcvbuf sndbuf : ℕ}
    {calls : List Call} {s : UtpSocket} (h : Life C targetDelay rcvbuf sndbuf calls s) :
    Run targetDelay rcvbuf sndbuf calls s := by
  induction h with
  | setUp h ho hs hc => exact h.run.trans (.single hs.step)
  | call h hs ih => exact ih.trans (.single hs.step)

theorem StepIf.mono {C C' : Env → UtpSocket → Op → Prop} (hC : ∀ env s op, C env s op → C' env s op)
    {s s' : UtpSocket} {l : List Call} (h : StepIf C s l s') : StepIf C' s l s' := by
  cases h with
  | call env ms tick op hop h => exact .call env ms tick op hop (hC _ _ _ h)

/-- A life under a condition is one under every weaker condition. -/
theorem Life.mono {C C' : Env → UtpSocket → Op → Prop} (hC : ∀ env s op, C env s op → C' env s op)
    {targetDelay rcvbuf sndbuf : ℕ} {calls : List Call} {s : UtpSocket}
    (h : Life C targetDelay rcvbuf sndbuf calls s) : Life C' targetDelay rcvbuf sndbuf calls s := by
  induction h with
  | setUp h ho hs hc => exact .setUp (Trace.mono (fun _ _ _ h => h.mono hC) h) ho (hs.mono hC) hc
  | call _ hs ih => exact .call ih (hs.mono hC)

theorem Life.perform {C : Env → UtpSocket → Op → Prop} {targetDelay rcvbuf sndbuf : ℕ}
    {calls : List Call} {s : UtpSocket} (h : Life C targetDelay rcvbuf sndbuf calls s) (env : Env)
    {l : List Op} (hl : ∀ op ∈ l, ∀ s, op.Enabled s ∧ C env s op) :
    ∃ calls, Life C targetDelay rcvbuf sndbuf calls (perform env s l) := by
  induction l generalizing calls s with
  | nil => exact ⟨calls, h⟩
  | cons op l ih =>
    obtain ⟨ho, hC⟩ := hl op List.mem_cons_self (s.lend 0 0)
    have ho : op.Enabled s := by cases op <;> exact ho
    exact ih (h.call (.call env 0 0 op ho hC)) fun op' h' => hl op' (List.mem_cons_of_mem _ h')

/-- The life of the socket that has just dialled. -/
theorem life_dialled {C : Env → UtpSocket → Op → Prop}
    (hC : C stillHost ((new CCONTROL_TARGET 4096 4096).lend 0 0) (.connect ⟨0, 0⟩ 7)) :
    ∃ calls, Life C CCONTROL_TARGET 4096 4096 calls dialled :=
  ⟨_, .setUp (.refl _) (by simp) (.call stillHost 0 0 (.connect ⟨0, 0⟩ 7) trivial hC) trivial⟩

/-- A socket that is not set up is as new but for its options. -/
structure Unset (s : UtpSocket) : Prop where
  state : s.conn.state = .uninitialized
  mtu : s.mtu = {}
  timing : s.timing = {}
  rto : s.cc.rtoTimeout = 0

theorem unset_new (targetDelay rcvbuf sndbuf : ℕ) : (new targetDelay rcvbuf sndbuf).Unset :=
  ⟨rfl, rfl, rfl, rfl⟩

theorem Unset.assert {s : UtpSocket} (h : s.Unset) (c : Prop) [Decidable c] (a : Assertion) :
    (s.assert c a).Unset := by
  unfold UtpSocket.assert
  split
  · exact h
  · exact ⟨h.state, h.mtu, h.timing, h.rto⟩

theorem Unset.setOption {s : UtpSocket} (h : s.Unset) (opt : SocketOption) (val : ℤ) :
    (s.setOption opt val).Unset := by
  cases opt with
  | sndbuf =>
    have h := h.assert (1 ≤ val) .optionValue
    exact ⟨h.state, h.mtu, h.timing, h.rto⟩
  | rcvbuf =>
    have h := h.assert (1 ≤ val) .optionValue
    exact ⟨h.state, h.mtu, h.timing, h.rto⟩
  | targetDelay => exact ⟨h.state, h.mtu, h.timing, h.rto⟩

/-- A socket that is not connected takes nothing. -/
theorem writev_refused (env : Env) (iov : List Bytes) {s : UtpSocket}
    (h : writable s.conn.state = false) : s.writev env iov = (0, s) := by
  unfold writev
  exact if_pos (.inl h)

theorem unset_early {C : Env → UtpSocket → Op → Prop} {s s' : UtpSocket} {calls : List Call}
    (h : Trace (StepIf C) s calls s') (ho : ∀ c ∈ calls, c.op.Early) (hs : s.Unset) :
    s'.Unset := by
  induction h with
  | refl => exact hs
  | head h₁ _ ih =>
    cases h₁ with
    | call env ms tick op hop hC =>
      refine ih (fun c hc => ho c (by simp [hc])) ?_
      have hset := ho _ (List.mem_append_left _ (List.mem_singleton.2 rfl))
      have hl : (UtpSocket.lend ms tick _).Unset := ⟨hs.state, hs.mtu, hs.timing, hs.rto⟩
      cases op with
      | setOption opt val => exact hl.setOption opt val
      | writev iov =>
        simp only [Op.run]
        rw [writev_refused env iov (by rw [hl.state]; rfl)]
        exact hl
      | _ => cases hset

variable (env : Env) {r f m : Bool}

/-! The set-up. -/

/-- The search of a freshly initialised socket. -/
def freshMtu (udpMtu : UInt16) (ms : UInt64) (m : MtuDiscovery) : MtuDiscovery :=
  (m.reset udpMtu.toUInt32 ms).setLastToCeiling

theorem outer_setCc (c : LedbatController) (s : UtpSocket) :
    (s.setCc c).outer = { s.outer with
      rtoTimeout := c.rtoTimeout
      retransmitCount := c.retransmitCount } := rfl

theorem outer_initTiming (now : UInt64) (s : UtpSocket) :
    (s.setCc ((s.cc.initTiming now).initDelayHistories now)).outer = s.outer := by
  rw [outer_setCc, LedbatController.initDelayHistories, LedbatController.initTiming]
  rfl

theorem outer_setMtu (m : MtuDiscovery) (s : UtpSocket) : (s.setMtu m).outer =
    { s.outer with search := { s.outer.search with mtu := m } } := rfl

theorem outer_refreshClock (s : UtpSocket) : (s.refreshClock env).outer =
    { s.outer with currentMs := env.milliseconds s.tick } := rfl

theorem outer_setTiming (y : TimingState) (s : UtpSocket) : (s.setTiming y).outer =
    { s.outer with fastResend := y.fastResendSeqNr } := rfl

/-- The identity of a connection. -/
theorem outer_identify (conn : ConnectionId) (s : UtpSocket) (h : conn.host = s.conn.host) :
    ({ s with conn := conn } : UtpSocket).outer = { s.outer with addr := conn.addr } := by
  unfold outer out currentMs
  rw [h]

theorem outer_initializeSocket (addr : Address) (seed idRecv idSend : UInt32) (s : UtpSocket) :
    ∃ n ms, (s.initializeSocket env addr seed idRecv idSend).outer = { s.outer with
      addr := addr
      currentMs := env.milliseconds s.tick
      search := ⟨freshMtu (env.udpMtu n) ms s.mtu, s.outer.search.fails ++
        failure (s.mtu.reset (env.udpMtu n).toUInt32 ms).boundsAssert .mtuReset⟩ } := by
  unfold initializeSocket
  have ht := outer_identify { s.conn with
    state := .idle
    connSeed := seed
    connIdRecv := idRecv
    connIdSend := idSend
    addr := addr } s rfl
  have htick : ({ s with conn := { s.conn with
    state := .idle
    connSeed := seed
    connIdRecv := idRecv
    connIdSend := idSend
    addr := addr } } : UtpSocket).tick = s.tick := rfl
  dsimp only at ht htick ⊢
  generalize ({ s with conn := { s.conn with
    state := .idle
    connSeed := seed
    connIdRecv := idRecv
    connIdSend := idSend
    addr := addr } } : UtpSocket) = t at ht htick ⊢
  have hu := outer_refreshClock env t
  rw [ht, htick] at hu
  generalize t.refreshClock env = u at hu ⊢
  have hv := outer_setTiming { u.timing with
    lastGotPacket := u.currentMs
    lastSentPacket := u.currentMs
    lastMeasuredDelay := u.currentMs + 0x70000000 } u
  generalize u.setTiming { u.timing with
    lastGotPacket := u.currentMs
    lastSentPacket := u.currentMs
    lastMeasuredDelay := u.currentMs + 0x70000000 } = v at hv ⊢
  have hv : v.outer = { s.outer with
      addr := addr
      currentMs := env.milliseconds s.tick } := hv.trans hu
  have hw := outer_initTiming u.currentMs v
  generalize v.setCc ((v.cc.initTiming u.currentMs).initDelayHistories u.currentMs) = w at hw ⊢
  rw [hv] at hw
  have hm : w.mtu = s.mtu := congrArg (fun x => x.search.mtu) hw
  obtain ⟨n, hn⟩ := outer_mtuReset env u.currentMs w
  rw [hw, hm] at hn
  refine ⟨n, u.currentMs, ?_⟩
  generalize w.mtuReset env u.currentMs = z at hn ⊢
  have hz : z.mtu = s.mtu.reset (env.udpMtu n).toUInt32 u.currentMs :=
    congrArg (fun x => x.search.mtu) hn
  rw [outer_setCc, outer_setMtu, hn, hz]
  have hrto : (z.setMtu (s.mtu.reset (env.udpMtu n).toUInt32 u.currentMs).setLastToCeiling
    ).cc.rtoTimeout = s.outer.rtoTimeout := congrArg OuterFields.rtoTimeout hn
  have hcount : (z.setMtu (s.mtu.reset (env.udpMtu n).toUInt32 u.currentMs).setLastToCeiling
    ).cc.retransmitCount = s.outer.retransmitCount := congrArg OuterFields.retransmitCount hn
  dsimp only
  rw [hrto, hcount]
  rfl

theorem beside_readySyn (s : UtpSocket) : Beside env true f m s (s.readySyn env) := by
  unfold readySyn
  have h₁ : Beside env true f m s ((s.assert (s.send.curWindowPackets = 0) .connectWindow).assert
      ((s.assert (s.send.curWindowPackets = 0) .connectWindow).send.outbuf.get
        (s.assert (s.send.curWindowPackets = 0) .connectWindow).send.seqNr.toNat).isNone
      .connectSlot) := (beside_assert env _ s rfl).trans (beside_assert env _ _ rfl)
  dsimp only
  generalize (s.assert (s.send.curWindowPackets = 0) .connectWindow).assert
    ((s.assert (s.send.curWindowPackets = 0) .connectWindow).send.outbuf.get
      (s.assert (s.send.curWindowPackets = 0) .connectWindow).send.seqNr.toNat).isNone
    .connectSlot = t at h₁ ⊢
  have h₂ : Beside env true f m t ((t.setState .synSent).refreshClock env).armSyn :=
    ((beside_setState env _ t).trans (beside_refreshClock env _)).trans (beside_setCc_rto env 3000 rfl)
  generalize ((t.setState .synSent).refreshClock env).armSyn = u at h₂ ⊢
  exact (h₁.trans h₂).trans ((beside_updateRcvWin env u).trans
    ((beside_asked env _).trans (beside_setSend env _ _)))

theorem beside_sendSyn (s : UtpSocket) : Beside env true f true s (s.sendSyn env) := by
  rw [sendSyn_eq]
  exact ((beside_readySyn env s).trans (beside_setSend env _ _)).trans (beside_sendPacket env _ _)

theorem beside_acceptSyn (peer : UInt16) (s : UtpSocket) :
    Beside env r true m s (s.acceptSyn env peer) := by
  unfold acceptSyn
  exact ((beside_setRecv env _ s).trans ((beside_asked env _).trans (beside_setSend env _ _))).trans
    ((beside_setTiming_fast env _ _).trans (beside_setState env _ _))

/-- The SYN is read only for its number. -/
theorem beside_processIncoming_syn (b : Bytes) (s : UtpSocket) :
    Beside env r f m s (s.processIncoming env b true) := by
  unfold processIncoming
  have h : Beside env r f m s ((s.refreshClock env).parsePacket b).2 :=
    (beside_refreshClock env s).trans (.of_eq rfl)
  generalize (s.refreshClock env).parsePacket b = a at h ⊢
  dsimp only
  split
  · exact h
  · rename_i pp hp
    have h' := h.trans (beside_asked env a.2)
    exact .ite (fun _ => h') (fun _ => h'.trans (beside_openPacket env pp _))

theorem beside_acceptWith (addr : Address) (b : Bytes) (s : UtpSocket) :
    ∃ t id, t = s.initializeSocket env addr id (id + 1) id ∧
      Beside env r true m t (s.acceptWith env addr b) := by
  refine ⟨_, (PacketFormatV1.ofBytes b).connid.toUInt32, rfl, ?_⟩
  unfold acceptWith
  exact (beside_acceptSyn env _ _).trans ((beside_processIncoming_syn env b _).trans
    (beside_sendAck env _ _))

/-! The other calls. -/

/-- The calls that neither set the socket up nor report an MTU. -/
def Op.Routine : Op → Prop
  | .connect _ _ | .accept _ _ | .onIcmpFragmentation _ => False
  | _ => True

theorem beside_run {op : Op} (h : op.Routine) (hf : f = false → ∀ b, op ≠ .processIncoming b)
    (s : UtpSocket) : Beside env true f true s (op.run env s) := by
  cases op with
  | connect => cases h
  | accept => cases h
  | onIcmpFragmentation => cases h
  | setOption opt val => exact beside_setOption env opt val s
  | writev iov =>
    have := beside_writev env (f := f) iov s
    exact this
  | readDrained => exact beside_readDrained env s
  | close => exact beside_close env s
  | shutdown how => exact beside_shutdown env how s
  | sendAck => exact beside_sendAck env false s
  | processIncoming b =>
    cases f with
    | false => exact absurd rfl (hf rfl b)
    | true => exact beside_processIncoming env b false s
  | onReset => exact beside_onReset env s
  | onIcmpError => exact beside_onIcmpError env s
  | checkTimeouts => exact beside_checkTimeouts env nofun

/-! Once set up, a socket stays so. -/

theorem state_connectWith (addr : Address) (seed : UInt32) (s : UtpSocket) :
    (s.connectWith env addr seed).kernel.state = .synSent := by
  obtain ⟨seq, p, p', flags, l, -, -, hk, -⟩ := dialled_connectWith env addr seed s
  rw [hk]
  rfl

theorem state_acceptWith (addr : Address) (b : Bytes) (s : UtpSocket) :
    (s.acceptWith env addr b).kernel.state = .synRecv := by
  obtain ⟨t, ⟨seq, l, hk, -⟩, he⟩ := acceptWith_spec env addr b s
  rw [he, (sendAck_spec env true t).1, hk]

theorem set_of_kernel {s : UtpSocket} {st : ConnState} (h : s.kernel.state = st)
    (hst : st ≠ .uninitialized) : s.conn.state ≠ .uninitialized := fun hu => hst (h.symm.trans hu)

theorem set_connectWith (addr : Address) (seed : UInt32) (s : UtpSocket) :
    (s.connectWith env addr seed).conn.state ≠ .uninitialized :=
  set_of_kernel (state_connectWith env addr seed s) (by simp)

theorem set_acceptWith (addr : Address) (b : Bytes) (s : UtpSocket) :
    (s.acceptWith env addr b).conn.state ≠ .uninitialized :=
  set_of_kernel (state_acceptWith env addr b s) (by simp)

theorem ids_connectWith (addr : Address) (seed : UInt32) (s : UtpSocket) :
    (s.connectWith env addr seed).kernel.idRecv = seed ∧
      (s.connectWith env addr seed).kernel.idSend = seed + 1 := by
  obtain ⟨seq, p, p', flags, l, -, -, hk, -⟩ := dialled_connectWith env addr seed s
  rw [hk]
  exact ⟨rfl, rfl⟩

theorem ids_acceptWith (addr : Address) (b : Bytes) (s : UtpSocket) :
    (s.acceptWith env addr b).kernel.idRecv = (PacketFormatV1.ofBytes b).connid.toUInt32 + 1 ∧
      (s.acceptWith env addr b).kernel.idSend = (PacketFormatV1.ofBytes b).connid.toUInt32 := by
  obtain ⟨t, ⟨seq, l, hk, -⟩, he⟩ := acceptWith_spec env addr b s
  rw [he, (sendAck_spec env true t).1, hk]
  exact ⟨rfl, rfl⟩

end UtpSocket

namespace Kernel

variable {x : Input} {k k' : Kernel} {acts : List Act}

/-- No step takes a socket back to `CS_UNINITIALIZED`. -/
theorem set_micro (h : k.state ≠ .uninitialized) (hm : Micro x k acts k') :
    k'.state ≠ .uninitialized := by
  cases hm with
  | broken =>
    dsimp only
    split <;> simp
  | closeAgain =>
    dsimp only
    split
    · simp
    · exact h
  | @advance pp k acts k' hs hp =>
    obtain ⟨q, w, c, o, f, rfl⟩ := hp.frame
    show (k.ackState pp).state ≠ .uninitialized
    unfold ackState
    dsimp only
    split_ifs <;> simp_all
  | deliver ho hd ht hf hdr =>
    rw [hdr.state]
    exact h
  | connect hu hp hp' => simp [transmit, queue, dial]
  | timeout => exact k.gaveUp_ne (by simp) (by simp)
  | _ => first | exact h | simp

theorem Drains.ids {k k' : Kernel} {acts : List Act} (h : Drains k acts k') :
    k'.idRecv = k.idRecv ∧ k'.idSend = k.idSend := by
  induction h with
  | eof => exact ⟨rfl, rfl⟩
  | idle => exact ⟨rfl, rfl⟩
  | release _ _ _ _ ih => exact ih

/-- The ids of a socket that is set up stay. -/
theorem ids_micro (h : k.state ≠ .uninitialized) (hm : Micro x k acts k') :
    k'.idRecv = k.idRecv ∧ k'.idSend = k.idSend := by
  cases hm with
  | @advance pp k acts k' hs hp =>
    obtain ⟨q, w, c, o, f, rfl⟩ := hp.frame
    show (k.ackState pp).idRecv = k.idRecv ∧ (k.ackState pp).idSend = k.idSend
    unfold ackState
    dsimp only
    split_ifs <;> exact ⟨rfl, rfl⟩
  | deliver ho hd ht hf hdr => exact hdr.ids
  | accept hu => exact absurd hu h
  | connect hu hp hp' => exact absurd hu h
  | _ => exact ⟨rfl, rfl⟩

end Kernel

namespace UtpSocket

variable (env : Env)

theorem set_step {s s' : UtpSocket} {l : List Call} (h : Step s l s')
    (hs : s.conn.state ≠ .uninitialized) : s'.conn.state ≠ .uninitialized := by
  obtain ⟨c, acts, -, -, ht, -⟩ := step_kernel h
  exact ht.invariant (I := fun k : Kernel => k.state ≠ .uninitialized)
    (fun _ _ _ hk ⟨_, _, hm⟩ => Kernel.set_micro hk hm) hs

theorem ids_step {s s' : UtpSocket} {l : List Call} (h : Step s l s')
    (hs : s.conn.state ≠ .uninitialized) :
    s'.conn.connIdRecv = s.conn.connIdRecv ∧ s'.conn.connIdSend = s.conn.connIdSend := by
  obtain ⟨c, acts, -, -, ht, -⟩ := step_kernel h
  obtain ⟨-, h1, h2⟩ := ht.invariant
    (I := fun k : Kernel => k.state ≠ .uninitialized ∧ k.idRecv = s.conn.connIdRecv ∧
      k.idSend = s.conn.connIdSend) (by
      rintro k l k' ⟨hk, h1, h2⟩ ⟨_, _, hm⟩
      obtain ⟨h3, h4⟩ := Kernel.ids_micro hk hm
      exact ⟨Kernel.set_micro hk hm, h3.trans h1, h4.trans h2⟩) ⟨hs, rfl, rfl⟩
  exact ⟨h1, h2⟩

theorem set_run_setUp {s : UtpSocket} {op : Op} (hc : op.SetsUp)
    (hs : s.conn.state = .uninitialized) : (op.run env s).kernel.state ≠ .uninitialized := by
  cases op with
  | connect addr seed =>
    simp only [Op.run, if_pos hs]
    rw [state_connectWith]
    simp
  | accept addr syn =>
    simp only [Op.run]
    rw [state_acceptWith]
    simp
  | _ => cases hc

theorem set_setUp {s s' : UtpSocket} {c : Call} (h : Step s [c] s') (hc : c.op.SetsUp)
    (hs : s.conn.state = .uninitialized) : s'.conn.state ≠ .uninitialized := by
  cases h with
  | call env ms tick op hop => exact set_run_setUp env hc hs

theorem Life.set {C : Env → UtpSocket → Op → Prop} {targetDelay rcvbuf sndbuf : ℕ}
    {calls : List Call} {s : UtpSocket} (h : Life C targetDelay rcvbuf sndbuf calls s) :
    s.conn.state ≠ .uninitialized := by
  induction h with
  | setUp h ho hs hc =>
    exact set_setUp hs.step hc (unset_early h ho (unset_new _ _ _)).state
  | call _ hs ih => exact set_step hs.step ih

/-! The identity of a socket: its address, its ids and its index. -/

theorem addr_beside {s t : UtpSocket} (h : Beside env r f m s t) :
    t.conn.addr = s.conn.addr ∧ t.ida = s.ida := ⟨h.addr, h.ida⟩

theorem addr_initializeSocket (addr : Address) (seed idRecv idSend : UInt32) (s : UtpSocket) :
    (s.initializeSocket env addr seed idRecv idSend).conn.addr = addr ∧
      (s.initializeSocket env addr seed idRecv idSend).ida = s.ida := by
  obtain ⟨n, ms, hs⟩ := outer_initializeSocket env addr seed idRecv idSend s
  generalize s.initializeSocket env addr seed idRecv idSend = t at hs ⊢
  exact ⟨congrArg OuterFields.addr hs, congrArg OuterFields.ida hs⟩

theorem addr_connectWith (addr : Address) (seed : UInt32) (s : UtpSocket) :
    (s.connectWith env addr seed).conn.addr = addr ∧
      (s.connectWith env addr seed).ida = s.ida := by
  obtain ⟨h1, h2⟩ := addr_initializeSocket env addr seed seed (seed + 1) s
  obtain ⟨h3, h4⟩ := addr_beside env (r := true) (f := true) (beside_sendSyn env
    (s.initializeSocket env addr seed seed (seed + 1)))
  unfold connectWith
  exact ⟨h3.trans h1, h4.trans h2⟩

theorem addr_acceptWith (addr : Address) (b : Bytes) (s : UtpSocket) :
    (s.acceptWith env addr b).conn.addr = addr ∧ (s.acceptWith env addr b).ida = s.ida := by
  obtain ⟨t, id, ht, hb⟩ := beside_acceptWith env (r := false) (m := true) addr b s
  obtain ⟨h1, h2⟩ := addr_initializeSocket env addr id (id + 1) id s
  rw [← ht] at h1 h2
  obtain ⟨h3, h4⟩ := addr_beside env hb
  exact ⟨h3.trans h1, h4.trans h2⟩

/-- A call that does not set the socket up leaves the address and the index. -/
theorem addr_run {op : Op} {s : UtpSocket} (ho : op.Enabled s)
    (hop : s.conn.state = .uninitialized → op.Early) :
    (op.run env s).conn.addr = s.conn.addr ∧ (op.run env s).ida = s.ida := by
  have hb (h : op.Routine) := beside_run env (f := true) h nofun s
  cases op with
  | connect addr seed =>
    have hu : s.conn.state ≠ .uninitialized := hop
    simp only [Op.run, if_neg hu]
    have hb := beside_connectAgain env (r := true) (f := true) (m := true) s
    exact ⟨hb.addr, hb.ida⟩
  | accept addr syn => exact (hop ho).elim
  | onIcmpFragmentation m =>
    have ha (c : Prop) [Decidable c] (a : Assertion) (m : MtuDiscovery) :
        ((s.assert c a).setMtu m).conn.addr = s.conn.addr ∧ ((s.assert c a).setMtu m).ida = s.ida := by
      unfold UtpSocket.assert
      split <;> exact ⟨rfl, rfl⟩
    simp only [Op.run]
    unfold onIcmpFragmentation
    split <;> exact ha _ _ _
  | _ => exact ⟨(hb trivial).addr, (hb trivial).ida⟩

/-- A call on a socket that is not set up does nothing but check its arguments. -/
theorem early_run {op : Op} (h : op.Early) {s : UtpSocket} (hu : s.conn.state = .uninitialized) :
    (op.run env s).conn.state = .uninitialized ∧
      ∃ l, (op.run env s).out = s.out ++ l ∧ ∀ e ∈ l, ∃ a, e = .assertFailed a := by
  have hset (c : Prop) [Decidable c] (a : Assertion) : (s.assert c a).conn.state = .uninitialized ∧
      ∃ l, (s.assert c a).out = s.out ++ l ∧ ∀ e ∈ l, ∃ a, e = .assertFailed a := by
    unfold UtpSocket.assert
    split
    · exact ⟨hu, [], (List.append_nil _).symm, by simp⟩
    · exact ⟨hu, [.assertFailed a], rfl, by simp⟩
  cases op with
  | setOption opt val =>
    cases opt with
    | sndbuf => exact hset (1 ≤ val) .optionValue
    | rcvbuf => exact hset (1 ≤ val) .optionValue
    | targetDelay => exact ⟨hu, [], (List.append_nil _).symm, by simp⟩
  | writev iov =>
    simp only [Op.run]
    rw [writev_refused env iov (by rw [hu]; rfl)]
    exact ⟨hu, [], (List.append_nil _).symm, by simp⟩
  | _ => cases h

/-- A call on a socket that is set up leaves it so, with its key. -/
theorem key_run {op : Op} {s : UtpSocket} (hs : s.conn.state ≠ .uninitialized) (ho : op.Enabled s)
    (ms : UInt64) (tick : ℕ) : (op.run env (s.lend ms tick)).conn.state ≠ .uninitialized ∧
      (op.run env (s.lend ms tick)).conn.addr = s.conn.addr ∧
      (op.run env (s.lend ms tick)).conn.connIdRecv = s.conn.connIdRecv ∧
      (op.run env (s.lend ms tick)).conn.connIdSend = s.conn.connIdSend ∧
      (op.run env (s.lend ms tick)).ida = s.ida := by
  have hstep := Step.call env ms tick op ho
  obtain ⟨h1, h2⟩ := ids_step hstep hs
  have ho' := ho.lend ms tick
  obtain ⟨h3, h4⟩ := addr_run env ho' fun h => absurd h hs
  exact ⟨set_step hstep hs, h3, h1, h2, h4⟩

end UtpSocket

end Utp
