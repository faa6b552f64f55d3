import LibUtp.Registry.Moves
import LibUtp.Kernel.States

/-! Half-open connections: a socket that has answered a SYN waits in `CS_SYN_RECV` with its
retransmission timer unarmed, so that the timer never removes it. -/

namespace Utp

open Lts Relation

namespace UtpSocket

variable (env : Env)

theorem nothing_runs {s t : UtpSocket} {b : Bytes} (h : Runs .nothing b s t) :
    t.kernel.cur = s.kernel.cur ∧ (s.kernel.state ≠ .connectedFull → t.kernel.state = s.kernel.state) := by
  obtain ⟨acts, ht, -⟩ := h
  refine ht.invariant (I := fun k : Kernel => k.cur = s.kernel.cur ∧
    (s.kernel.state ≠ .connectedFull → k.state = s.kernel.state)) ?_ ⟨rfl, fun _ => rfl⟩
  rintro k l k' ⟨h1, h2⟩ hm
  obtain ⟨h3, h4⟩ := Kernel.nothing_micro hm
  refine ⟨h3.trans h1, fun hs => ?_⟩
  rw [h4 (by rwa [h2 hs]), h2 hs]

/-- Before the handshake is over the timer is not armed. -/
def Dormant (s : UtpSocket) : Prop :=
  s.conn.state = .uninitialized ∨ s.conn.state = .synRecv → s.cc.rtoTimeout = 0

/-! A packet for a socket with nothing in flight. -/

theorem cur_advance_none {s : UtpSocket} (hc : s.kernel.cur = 0) :
    (s.advance env 0).kernel.cur = 0 := by
  have hl : s.ackLoop env 0 = s := rfl
  unfold advance
  rw [hl]
  have ha := kernel_assert (s.send.curWindowPackets = 0 → s.cc.curWindow = 0) .advanceInFlight s
  dsimp only
  generalize s.assert (s.send.curWindowPackets = 0 → s.cc.curWindow = 0) .advanceInFlight = t at ha ⊢
  have hz : t.send.curWindowPackets = 0 := by
    have : t.kernel.cur = 0 := by rw [ha, hc]
    exact this
  have hskip : t.skipLoop t.send.curWindowPackets.toNat = t := by
    rw [hz]
    rfl
  rw [hskip, kernel_assert, kernel_assert, ha]
  exact hc

theorem cur_ackState (pp : ParsedPacket) (acks : ℕ) (s : UtpSocket) :
    (s.ackState pp acks).kernel.cur = s.kernel.cur := by
  unfold ackState
  dsimp only
  split_ifs <;> rfl

theorem sendLast_none {s : UtpSocket} (hc : s.kernel.cur = 0) : s.sendLast env = s := by
  have hc : s.send.curWindowPackets = 0 := hc
  unfold sendLast
  rw [hc]
  rfl

theorem cur_advanceSendWindow_none (pp : ParsedPacket) {s : UtpSocket} (hc : s.kernel.cur = 0) :
    (s.advanceSendWindow env pp 0).kernel.cur = 0 := by
  unfold advanceSendWindow
  rw [if_pos (Nat.zero_le _)]
  have h₁ := (quiet_peerWindow pp.windowsize s).1
  dsimp only
  generalize s.peerWindow pp.windowsize = t at h₁ ⊢
  have h₂ := cur_ackState pp 0 t
  generalize t.ackState pp 0 = u at h₂ ⊢
  have h₃ := (quiet_raiseFastResend pp u).1
  generalize u.raiseFastResend pp = v at h₃ ⊢
  have h₄ := cur_advance_none env (s := v) (by rw [h₃, h₂, h₁, hc])
  generalize v.advance env 0 = w at h₄ ⊢
  rw [sendLast_none env h₄]
  exact (nothing_runs (runs_fastTimeout env w)).1.trans h₄

/-- Nothing is acknowledged, so the timer stays. -/
theorem beside_processAck_none (pp : ParsedPacket) (time : UInt64) {s : UtpSocket}
    (hc : s.kernel.cur = 0) : Beside env false true true s (s.processAck env pp time) := by
  have hacks : s.ackCount pp = 0 := by
    have h : s.ackCount pp ≤ s.kernel.cur.toNat := s.kernel.ackCount_le pp
    rw [hc] at h
    exact Nat.le_zero.1 h
  unfold processAck
  rw [hacks]
  have hb : Beside env false true true s ((s.countDuplicate pp).processAcks env pp 0 time) :=
    (beside_countDuplicate env pp s).trans (beside_processAcks env pp 0 time _)
  have hk : ((s.countDuplicate pp).processAcks env pp 0 time).kernel = s.kernel :=
    ((quiet_countDuplicate pp s).trans (quiet_processAcks env pp 0 time _)).1
  dsimp only
  generalize (s.countDuplicate pp).processAcks env pp 0 time = t at hb hk ⊢
  rw [← hk] at hc
  have hb' := beside_advanceSendWindow env (r := false) pp (fun _ => rfl) t
  have hc' := cur_advanceSendWindow_none env pp hc
  generalize t.advanceSendWindow env pp 0 = u at hb' hc' ⊢
  have heack : u.selectiveAckOf env pp = u := by
    have hz : u.send.curWindowPackets = 0 := hc'
    unfold selectiveAckOf
    split
    · unfold selectiveAck
      exact if_pos hz
    · rfl
  rw [heack]
  exact (hb.trans hb').trans ((beside_assert env _ _ rfl).trans (beside_becomeWritable env _))

theorem left_runs {x : Input} {b : Bytes} {s t : UtpSocket} (h : Runs x b s t)
    (hs : s.kernel.state ≠ .uninitialized ∧ s.kernel.state ≠ .synRecv) :
    t.kernel.state ≠ .synRecv := by
  obtain ⟨acts, ht, -⟩ := h
  exact (ht.invariant (I := fun k : Kernel => k.state ≠ .uninitialized ∧ k.state ≠ .synRecv)
    (fun _ _ _ hk hm => ⟨Kernel.set_micro hk.1 hm, Kernel.left_micro hk.1 hk.2 hm⟩) hs).2

/-- What `process_incoming` does behind the acceptance tests moves the timer of a half-open
connection only if the packet completes the handshake. -/
theorem halfOpen_deliver (pp : ParsedPacket) (time : UInt64) {s u : UtpSocket}
    (hc : s.kernel.cur = 0) (hs : s.kernel.state = .synRecv)
    (hd : (s.kernel.seqDistance pp).toNat < 1024) (hu : u = let t := s.processAck env pp time
      if pp.type = ST_STATE then t
      else if t.conn.state ≠ .connected ∧ t.conn.state ≠ .connectedFull then t
      else t.deliverData env pp (s.kernel.seqDistance pp)) :
    Beside env false true true s u ∨ u.kernel.state ≠ .synRecv := by
  have hb := beside_processAck_none env pp time hc
  obtain ⟨t', t₁, hq, ha, hr⟩ := processAck_spec env pp time (s := s) fun h => by
    rw [hs] at h
    cases h
  have hack := (ackNr_of_eack hr).trans (ha.ackNr.trans (congrArg Kernel.ackNr hq.1))
  generalize s.processAck env pp time = t at hb hack hu
  dsimp only at hu
  rw [hu]
  split_ifs with ht hst
  · exact .inl hb
  · exact .inl hb
  · right
    have hopen : t.kernel.IsOpen := by
      by_contra hc
      exact hst ⟨fun h => hc (.inl h), fun h => hc (.inr h)⟩
    have hsd : s.kernel.seqDistance pp = t.kernel.seqDistance pp := by
      unfold Kernel.seqDistance
      rw [hack]
    rw [hsd] at hd ⊢
    refine left_runs (delivered_deliverData env hopen hd ht).runs ?_
    rcases hopen with h | h <;>
    · rw [h]
      simp

theorem halfOpen_processValid (pp : ParsedPacket) (time : UInt64) {s : UtpSocket}
    (hc : s.kernel.cur = 0) (hs : s.kernel.state = .synRecv) :
    Beside env false true true s (s.processValid env pp time false) ∨
      (s.processValid env pp time false).kernel.state ≠ .synRecv := by
  unfold processValid
  have hb := beside_openPacket env (r := false) (f := true) (m := true) pp s
  have hk : (((s.assert (pp.type ≠ ST_RESET) .incomingReset).synSentAck pp).setTiming
      { ((s.assert (pp.type ≠ ST_RESET) .incomingReset).synSentAck pp).timing with
        lastGotPacket := ((s.assert (pp.type ≠ ST_RESET) .incomingReset).synSentAck pp).currentMs
        }).kernel = s.kernel := by
    rw [kernel_setTiming, kernel_synSentAck, kernel_assert, Kernel.expect, if_neg (by rw [hs]; simp)]
  dsimp only
  generalize ((s.assert (pp.type ≠ ST_RESET) .incomingReset).synSentAck pp).setTiming _ = t
    at hb hk ⊢
  rw [if_neg (by simp)]
  by_cases h : REORDER_BUFFER_MAX_SIZE ≤ (t.seqDistance pp).toNat
  · rw [if_pos h]
    exact .inl (hb.trans (.ite (fun _ => beside_scheduleAck env t) (fun _ => .refl t)))
  · rw [if_neg h]
    rw [← hk] at hc hs
    exact (halfOpen_deliver env pp time hc hs (not_le.1 h) rfl).imp_left hb.trans

theorem halfOpen_processIncoming (b : Bytes) {s : UtpSocket} (hc : s.kernel.cur = 0)
    (hs : s.kernel.state = .synRecv) : Beside env false true true s (s.processIncoming env b false) ∨
      (s.processIncoming env b false).kernel.state ≠ .synRecv := by
  unfold processIncoming
  have h : Beside env false true true s ((s.refreshClock env).parsePacket b).2 :=
    (beside_refreshClock env s).trans (.of_eq rfl)
  have hk : ((s.refreshClock env).parsePacket b).2.kernel = s.kernel := rfl
  generalize (s.refreshClock env).parsePacket b = a at h hk ⊢
  dsimp only
  split
  · exact .inl h
  · rename_i pp hp
    have h' := h.trans (beside_asked env a.2)
    have hk' : a.2.asked.kernel = s.kernel := hk
    generalize a.2.asked = t at h' hk' ⊢
    split
    · exact .inl h'
    · rw [← hk'] at hc hs
      exact (halfOpen_processValid env pp _ hc hs).imp_left h'.trans

/-- No call but one that ends it moves the timer of a half-open connection. -/
theorem halfOpen_run (op : Op) {s : UtpSocket} (hc : s.kernel.cur = 0)
    (hs : s.conn.state = .synRecv) (hr : s.cc.rtoTimeout = 0) :
    (op.run env s).cc.rtoTimeout = 0 ∨ (op.run env s).conn.state ≠ .synRecv := by
  have hb {t : UtpSocket} (h : Beside env false true true s t) : t.cc.rtoTimeout = 0 :=
    unarmed_beside env h rfl hr
  cases op with
  | connect addr seed =>
    simp only [Op.run, hs]
    exact .inl (hb (beside_connectAgain env s))
  | accept addr syn =>
    obtain ⟨t, id, ht, hb'⟩ := beside_acceptWith env (r := false) (m := true) addr syn s
    obtain ⟨n, ms, hi⟩ := outer_initializeSocket env addr id (id + 1) id s
    rw [← ht] at hi
    exact .inl ((hb'.rto rfl).trans ((congrArg OuterFields.rtoTimeout hi).trans hr))
  | setOption opt val => exact .inl (hb (beside_setOption env opt val s))
  | writev iov =>
    simp only [Op.run]
    rw [writev_refused env iov (by rw [hs]; rfl)]
    exact .inl hr
  | readDrained => exact .inl (hb (beside_readDrained env s))
  | close =>
    right
    have ha : (s.assert (s.conn.state ≠ .uninitialized ∧ s.conn.state ≠ .destroy) .closeState
        ).conn.state = .synRecv := (congrArg Kernel.state (kernel_assert _ _ s)).trans hs
    simp only [Op.run]
    unfold close
    dsimp only
    rw [ha]
    simp [setState]
  | shutdown how =>
    have ha := beside_assert env (r := false) (f := true) (m := true)
      (s.conn.state ≠ .uninitialized ∧ s.conn.state ≠ .destroy) (a := .closeState) s rfl
    have hst : (s.assert (s.conn.state ≠ .uninitialized ∧ s.conn.state ≠ .destroy) .closeState
        ).conn.state = .synRecv := (congrArg Kernel.state (kernel_assert _ _ s)).trans hs
    left
    simp only [Op.run]
    unfold shutdown
    generalize s.assert (s.conn.state ≠ .uninitialized ∧ s.conn.state ≠ .destroy) .closeState = t
      at ha hst ⊢
    have hm : (if how ≠ .wr then t.markReadShutdown else t).conn.state = .synRecv := by
      split <;> exact hst
    have hm' : Beside env false true true t (if how ≠ .wr then t.markReadShutdown else t) :=
      .ite (fun _ => beside_setRecv env _ t) (fun _ => .refl t)
    dsimp only
    generalize (if how ≠ .wr then t.markReadShutdown else t) = u at hm hm' ⊢
    rw [hm]
    exact hb (ha.trans hm')
  | sendAck => exact .inl (hb (beside_sendAck env false s))
  | processIncoming b => exact (halfOpen_processIncoming env b hc hs).imp_left hb
  | onReset => exact .inl (hb (beside_onReset env s))
  | onIcmpError => exact .inl (hb (beside_onIcmpError env s))
  | onIcmpFragmentation m =>
    have ha (c : Prop) [Decidable c] (a : Assertion) (m : MtuDiscovery) :
        ((s.assert c a).setMtu m).cc.rtoTimeout = s.cc.rtoTimeout := by
      unfold UtpSocket.assert
      split <;> rfl
    simp only [Op.run]
    unfold onIcmpFragmentation
    left
    split <;> exact (ha _ _ _).trans hr
  | checkTimeouts => exact .inl (hb (beside_checkTimeouts env fun _ => hr))

theorem left_step {s s' : UtpSocket} {l : List Call} (h : Step s l s')
    (hs : s.conn.state ≠ .uninitialized ∧ s.conn.state ≠ .synRecv) : s'.conn.state ≠ .synRecv := by
  obtain ⟨c, acts, -, -, ht, -⟩ := step_kernel h
  exact (ht.invariant (I := fun k : Kernel => k.state ≠ .uninitialized ∧ k.state ≠ .synRecv)
    (fun _ _ _ hk ⟨_, _, hm⟩ => ⟨Kernel.set_micro hk.1 hm, Kernel.left_micro hk.1 hk.2 hm⟩) hs).2

/-- A socket before its handshake is done: nothing in flight, and no timer. -/
structure Waits (s : UtpSocket) : Prop where
  idle : s.kernel.Idle
  dormant : s.Dormant

theorem waits_new (targetDelay rcvbuf sndbuf : ℕ) : (new targetDelay rcvbuf sndbuf).Waits :=
  ⟨fun _ => ⟨rfl, rfl⟩, fun _ => rfl⟩

theorem waits_run {op : Op} {s : UtpSocket} (hw : s.Waits) (ho : op.Enabled s)
    (hop : s.conn.state = .uninitialized → op.Early) (ms : UInt64) (tick : ℕ) :
    (op.run env (s.lend ms tick)).Waits := by
  have hstep := Step.call env ms tick op ho
  obtain ⟨c, acts, -, -, ht, -⟩ := step_kernel hstep
  refine ⟨ht.invariant (fun _ _ _ hk ⟨_, _, hm⟩ => Kernel.idle_micro hk hm) hw.idle, ?_⟩
  have hr := hw.dormant
  by_cases hu : s.conn.state = .uninitialized
  · have hr := hr (.inl hu)
    intro _
    have he := hop hu
    cases op with
    | setOption opt val =>
      exact unarmed_beside env (r := false) (f := false) (m := false)
        (beside_setOption env opt val (s.lend ms tick)) rfl hr
    | writev iov =>
      simp only [Op.run]
      rw [writev_refused env iov (by rw [show (s.lend ms tick).conn.state = _ from hu]; rfl)]
      exact hr
    | _ => cases he
  · have hset := set_step hstep hu
    by_cases hs : s.conn.state = .synRecv
    · have hc := (hw.idle (.inr hs)).1
      rcases halfOpen_run env op (s := s.lend ms tick) hc hs (hr (.inr hs)) with h | h
      · exact fun _ => h
      · exact fun h' => absurd h' (not_or.2 ⟨hset, h⟩)
    · exact fun h' => absurd h' (not_or.2 ⟨hset, left_step hstep ⟨hu, hs⟩⟩)

/-- The timer leaves a half-open connection as it is. -/
theorem halfOpen_checkTimeouts {s : UtpSocket} (hs : s.kernel.state = .synRecv)
    (hr : s.cc.rtoTimeout = 0) : (s.checkTimeouts env).kernel.state = .synRecv := by
  unfold checkTimeouts
  have h₁ : Beside env false true true s (s.checkInvariant.assert s.headPresent .timeoutHead) :=
    (beside_checkInvariant env s).trans (beside_assert env _ _ rfl)
  have hk₁ : (s.checkInvariant.assert s.headPresent .timeoutHead).kernel = s.kernel := by
    rw [kernel_assert, kernel_checkInvariant]
  generalize s.checkInvariant.assert s.headPresent .timeoutHead = t at h₁ hk₁ ⊢
  have h₂ : Beside env false true true t (if t.conn.state ≠ .destroy then (t.flushPackets env).2 else t) :=
    .ite (fun _ => beside_flushPackets env t) (fun _ => .refl t)
  have hk₂ : (if t.conn.state ≠ .destroy then (t.flushPackets env).2 else t).kernel.state =
      .synRecv := by
    rw [← hk₁] at hs
    split
    · rw [(nothing_runs (runs_flushPackets env t)).2 (by rw [hs]; simp), hs]
    · exact hs
  dsimp only
  generalize (if t.conn.state ≠ .destroy then (t.flushPackets env).2 else t) = u at h₂ hk₂ ⊢
  split
  · have h₃ := beside_reopenWindow env (r := false) (f := true) (m := true) u
    have hk₃ : u.reopenWindow.kernel.state = .synRecv := by rw [(quiet_reopenWindow u).1, hk₂]
    generalize u.reopenWindow = v at h₃ hk₃ ⊢
    have hv := unarmed_beside env ((h₁.trans h₂).trans h₃) rfl hr
    rw [isRtoExpired_unarmed hv, if_neg (by simp), if_neg (by simp)]
    have hw := (nothing_runs (runs_becomeWritable v)).2 (by rw [hk₃]; simp)
    dsimp only
    generalize v.becomeWritable = w at hw ⊢
    unfold keepAlive
    split
    · rw [kernel_sendKeepAlive, hw, hk₃]
    · rw [hw, hk₃]
  · exact hk₂

theorem Waits.setIda {s : UtpSocket} (h : s.Waits) (i : ℤ) : ({ s with ida := i } : UtpSocket).Waits :=
  ⟨h.idle, h.dormant⟩

theorem idle_runs {x : Input} {b : Bytes} {s t : UtpSocket} (h : Runs x b s t)
    (hs : s.kernel.Idle) : t.kernel.Idle := by
  obtain ⟨acts, ht, -⟩ := h
  exact ht.invariant (fun _ _ _ hk hm => Kernel.idle_micro hk hm) hs

theorem dormant_of_kernel {s : UtpSocket} (h : s.kernel.state = .synSent) : s.Dormant := by
  intro h'
  have h : s.conn.state = .synSent := h
  rw [h] at h'
  simp at h'

theorem waits_connectWith {s : UtpSocket} (h : s.Waits) (hu : s.conn.state = .uninitialized)
    (ms : UInt64) (tick : ℕ) (addr : Address) (seed : UInt32) :
    ((s.lend ms tick).connectWith env addr seed).Waits where
  idle := idle_runs (runs_connectWith env addr seed (s := s.lend ms tick) hu) h.idle
  dormant := dormant_of_kernel (state_connectWith env addr seed (s.lend ms tick))

theorem waits_acceptWith {s : UtpSocket} (h : s.Waits) (hu : s.conn.state = .uninitialized)
    (ms : UInt64) (tick : ℕ) (addr : Address) (b : Bytes) :
    ((s.lend ms tick).acceptWith env addr b).Waits := by
  refine ⟨idle_runs (runs_acceptWith env addr b (s := s.lend ms tick) hu) h.idle, fun _ => ?_⟩
  obtain ⟨t, id, htd, hb⟩ := beside_acceptWith env (r := false) (m := true) addr b (s.lend ms tick)
  obtain ⟨n, ms', hi⟩ := outer_initializeSocket env addr id (id + 1) id (s.lend ms tick)
  rw [← htd] at hi
  exact unarmed_beside env hb rfl ((congrArg OuterFields.rtoTimeout hi).trans (h.dormant (.inl hu)))

end UtpSocket

namespace UtpContext

variable {c d : UtpContext}

theorem Became.waits {P : Handle → UtpSocket.Op → Prop} {x : Handle} {t : UtpSocket}
    (h : Became P c x t) (hc : ∀ x s, c.heap x = some s → s.Waits) : t.Waits := by
  cases h with
  | same i hs => exact (hc x _ hs).setIda i
  | call env op i hs hP ho hop => exact (UtpSocket.waits_run env (hc x _ hs) ho hop _ _).setIda i
  | connect env addr seed i hs hu hseed hfree =>
    exact (UtpSocket.waits_connectWith env (hc x _ hs) hu _ _ addr seed).setIda i
  | accept env addr b i hx hfree =>
    exact (UtpSocket.waits_acceptWith env (UtpSocket.waits_new _ _ _) rfl _ _ addr b).setIda i
  | new => exact UtpSocket.waits_new _ _ _

theorem Reachable.waits (h : c.Reachable) : ∀ x s, c.heap x = some s → s.Waits :=
  h.invariant (by simp) fun _ _ hc hw hm _ _ ht => (hm.became hc ht).waits hw

/-- A socket that is not to be destroyed survives a move. -/
theorem Move.alive {P : Handle → UtpSocket.Op → Prop} (hc : c.Consistent) (h : Move P c d)
    {x : Handle} {s : UtpSocket} (hs : c.heap x = some s) (hst : s.conn.state ≠ .destroy) :
    ∃ t, d.heap x = some t := by
  have hcall {c : UtpContext} {h : Handle} {s₀ s : UtpSocket} (hs₀ : c.heap h = some s₀)
      (hs : c.heap x = some s) (f : UtpSocket → UtpSocket) : ∃ t, (c.call h f).heap x = some t := by
    by_cases hx : x = h
    · obtain ⟨i, hi⟩ := (frame_call hs₀ f).some (x := x)
        (s := f (s₀.lend c.currentMs c.tick)) (by rw [heap_absorb, if_pos hx])
      exact ⟨_, hi⟩
    · obtain ⟨i, hi⟩ := (frame_call hs₀ f).some (x := x) (s := s)
        (by rw [heap_absorb, if_neg hx, hs])
      exact ⟨_, hi⟩
  have hne : x ≠ c.nextHandle := by
    rintro rfl
    rw [hc.fresh _ le_rfl] at hs
    cases hs
  cases h with
  | host h =>
    rw [h.rest]
    exact ⟨s, hs⟩
  | create => exact ⟨s, by rw [heap_createSocket, if_neg hne, hs]⟩
  | call env op hs₀ => exact hcall hs₀ hs _
  | connect env addr seed hs₀ =>
    rw [heap_registerSocket]
    exact hcall hs₀ hs _
  | accept env addr b hfree =>
    have hs₀ : c.createSocket.2.heap c.nextHandle =
        some (.new c.targetDelay c.optRcvbuf c.optSndbuf) := by rw [heap_createSocket, if_pos rfl]
    show ∃ t, ((c.createSocket.2.call c.nextHandle (UtpSocket.acceptWith env addr b)
      ).registerSocket c.nextHandle).heap x = some t
    rw [heap_registerSocket]
    exact hcall hs₀ (s := s) (by rw [heap_createSocket, if_neg hne, hs]) _
  | cache hr => exact ⟨s, hs⟩
  | @destroy h s₀ hs₀ hd =>
    obtain ⟨-, -, -, hcore⟩ := hc.destroy hs₀ (by rw [hd]; simp)
    have hx := hcore x (by
      rintro rfl
      rw [hs₀] at hs
      cases hs
      exact hst hd)
    rw [hs, Option.map_some] at hx
    obtain ⟨t, ht, -⟩ := Option.map_eq_some_iff.1 hx
    exact ⟨t, ht⟩

/-- The socket waits in `CS_SYN_RECV`. -/
def HalfOpen (c : UtpContext) (x : Handle) : Prop :=
  ∃ s, c.heap x = some s ∧ s.conn.state = .synRecv

/-- The calls the context makes by itself leave a half-open connection as it is. -/
theorem HalfOpen.move {P : Handle → UtpSocket.Op → Prop} {x : Handle} (hc : c.Consistent)
    (hw : ∀ x s, c.heap x = some s → s.Waits) (hx : c.HalfOpen x)
    (hP : ∀ op, P x op → op = .sendAck ∨ op = .checkTimeouts) (h : Move P c d) : d.HalfOpen x := by
  obtain ⟨s, hs, hst⟩ := hx
  obtain ⟨t, ht⟩ := h.alive hc hs (by rw [hst]; simp)
  refine ⟨t, ht, ?_⟩
  have hne : x ≠ c.nextHandle := by
    rintro rfl
    rw [hc.fresh _ le_rfl] at hs
    cases hs
  cases h.became hc ht with
  | same i hs' =>
    rw [hs] at hs'
    cases hs'
    exact hst
  | call env op i hs' hP' ho hop =>
    rw [hs] at hs'
    cases hs'
    have hr := (hw x s hs).dormant (.inr hst)
    rcases hP op hP' with rfl | rfl
    · exact (congrArg Kernel.state (UtpSocket.sendAck_spec env false (s.lend c.currentMs c.tick)).1
        ).trans hst
    · exact UtpSocket.halfOpen_checkTimeouts env (s := s.lend c.currentMs c.tick) hst hr
  | connect env addr seed i hs' hu =>
    rw [hs] at hs'
    cases hs'
    rw [hu] at hst
    cases hst
  | accept env addr b i hx => exact absurd hx hne
  | new hx => exact absurd hx hne

/-- The datagram or the call is about socket `x`. -/
def Op.Concerns (c : UtpContext) (x : Handle) : Op → Prop
  | .connect h _ _ | .socket h _ => h = x
  | .processUdp b addr => c.udpSocket b addr = some x
  | .processIcmpFragmentation b addr _ | .processIcmpError b addr => c.icmpSocket b addr = some x
  | _ => False

theorem calls_aside {x : Handle} {op : Op} (h : ¬ op.Concerns c x) {op' : UtpSocket.Op}
    (hop : op.Calls c x op') : op' = .sendAck ∨ op' = .checkTimeouts := by
  cases op with
  | setOption | createSocket => cases hop
  | connect h' addr fuel => exact absurd hop.1.symm h
  | socket h' op => exact absurd hop.1.symm h
  | processUdp b addr => exact absurd hop.1 h
  | processIcmpFragmentation b addr m => exact absurd hop.1 h
  | processIcmpError b addr => exact absurd hop.1 h
  | issueDeferredAcks => exact .inl hop
  | checkTimeouts order => exact .inr hop

theorem HalfOpen.moves {P : Handle → UtpSocket.Op → Prop} {x : Handle} (hc : c.Consistent)
    (hw : ∀ x s, c.heap x = some s → s.Waits) (hx : c.HalfOpen x)
    (hP : ∀ op, P x op → op = .sendAck ∨ op = .checkTimeouts) (h : ReflTransGen (Move P) c d) :
    d.Consistent ∧ (∀ x s, d.heap x = some s → s.Waits) ∧ d.HalfOpen x := by
  induction h with
  | refl => exact ⟨hc, hw, hx⟩
  | tail _ hm ih =>
    obtain ⟨hc, hw, hx⟩ := ih
    exact ⟨hc.move hm, fun _ _ ht => (hm.became hc ht).waits hw, hx.move hc hw hP hm⟩

/-- A half-open connection has no timer, and no run that leaves it alone ever removes it:
whenever the timer sweeps, it stays registered in `CS_SYN_RECV`. -/
theorem halfOpen_stays {c : UtpContext} (h : c.Reachable) {x : Handle} {s : UtpSocket}
    (hs : c.heap x = some s) (hst : s.conn.state = .synRecv) {d : UtpContext}
    (hd : ReflTransGen (Step fun c op => ¬ op.Concerns c x) c d) :
    d.Registered x ∧ ∃ t, d.heap x = some t ∧ t.conn.state = .synRecv ∧ t.cc.rtoTimeout = 0 := by
  suffices d.Consistent ∧ (∀ x s, d.heap x = some s → s.Waits) ∧ d.HalfOpen x by
    obtain ⟨hc, hw, t, ht, htst⟩ := this
    refine ⟨hc.registered_iff.2 ⟨t, ht, by rw [htst]; simp⟩, t, ht, htst, ?_⟩
    exact (hw x t ht).dormant (.inr htst)
  induction hd with
  | refl => exact ⟨h.moves.1, h.waits, s, hs, hst⟩
  | tail _ hstep ih =>
    obtain ⟨hc, hw, hx⟩ := ih
    cases hstep with
    | call env op ho hQ hr =>
      exact hx.moves hc hw (fun op' => calls_aside hQ) (moves_run hc env ho hr)

theorem halfOpen_accept (c : UtpContext) (env : Env) (addr : Address) (b : Bytes) :
    ∃ s, (c.accept env addr b).heap c.nextHandle = some s ∧ s.conn.state = .synRecv := by
  obtain ⟨i, hi⟩ := heap_accept c env addr b
  refine ⟨_, hi, ?_⟩
  have h := UtpSocket.state_acceptWith env addr b
    ((UtpSocket.new c.targetDelay c.optRcvbuf c.optSndbuf).lend c.currentMs c.tick)
  generalize ((UtpSocket.new c.targetDelay c.optRcvbuf c.optSndbuf).lend c.currentMs c.tick
    ).acceptWith env addr b = t at h
  exact h

/-- A host eleven days later. -/
def lateHost : Env := { UtpSocket.stillHost with milliseconds := fun _ => 1000000000 }

theorem halfOpen_stays_answered : (answered.checkTimeouts lateHost [0]).Registered 0 := by
  obtain ⟨s, hs, hst⟩ := halfOpen_accept { tick := 1 } UtpSocket.stillHost ⟨0, 0⟩ (synPacket 7)
  have hh : HostOnly {} { tick := 1 } := ⟨rfl, [], rfl, by simp⟩
  have hsock := ((consistent_initial.host hh).accept UtpSocket.stillHost ⟨0, 0⟩ (synPacket 7) rfl).2
  have horder : [0].Perm (answered.sockets.map Prod.snd) := by
    unfold answered
    rw [hsock]
    exact .refl _
  exact (halfOpen_stays reachable_answered hs hst
    (.single (.call lateHost (.checkTimeouts [0]) horder (fun h => h) rfl))).1

/-- The socket made for a SYN has no timer. -/
theorem halfOpen_unarmed : ¬ ∀ c : UtpContext, c.Reachable → ∀ x s, c.heap x = some s →
    c.Registered x → s.conn.state = .synRecv → s.cc.rtoTimeout ≠ 0 := by
  intro h
  obtain ⟨s, hs, hst⟩ := halfOpen_accept { tick := 1 } UtpSocket.stillHost ⟨0, 0⟩ (synPacket 7)
  have hreg := reachable_answered.moves.1.registered_iff.2 ⟨s, hs, by rw [hst]; simp⟩
  exact h _ reachable_answered 0 s hs hreg hst
    ((reachable_answered.waits 0 s hs).dormant (.inr hst))

end UtpContext

end Utp
