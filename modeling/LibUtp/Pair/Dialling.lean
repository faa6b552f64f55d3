import LibUtp.Kernel.Arrival
import LibUtp.Kernel.States
import LibUtp.Pair.Exchange
import LibUtp.Pair.Network

/-! The side that has dialled, until it is answered: it sends nothing but its SYN and owes no
acknowledgement, and the first STATE packet of its peer tells it where the stream to it begins. -/

namespace Utp

open Lts SequenceBuffer Numbering

/-- Effects other than a deferred acknowledgement and a STATE packet. -/
def Effect.hushed : Effect → Bool
  | .scheduleAck => false
  | .sendTo b _ => (PacketFormatV1.ofBytes b).type ≠ ST_STATE
  | _ => true

namespace UtpSocket

variable (env : Env)

/-- From `s` to `t` nothing is acknowledged, as long as the window holds no STATE packet. -/
structure Hushed (s t : UtpSocket) : Prop where
  state : t.kernel.state = s.kernel.state
  each : (s.kernel.Each fun p => p.hdr.type ≠ ST_STATE) → t.kernel.Each fun p => p.hdr.type ≠ ST_STATE
  out : (s.kernel.Each fun p => p.hdr.type ≠ ST_STATE) → ∃ l, t.out = s.out ++ l ∧ ∀ e ∈ l, e.hushed

namespace Hushed

variable {s t u : UtpSocket}

theorem of_same (hs : t.kernel.state = s.kernel.state) (hb : t.kernel.outbuf = s.kernel.outbuf)
    (ho : t.out = s.out) : Hushed s t where
  state := hs
  each h := by
    unfold Kernel.Each
    rw [hb]
    exact h
  out _ := ⟨[], by rw [ho, List.append_nil], by simp⟩

theorem refl (s : UtpSocket) : Hushed s s := .of_same rfl rfl rfl

theorem trans (h : Hushed s t) (h' : Hushed t u) : Hushed s u where
  state := h'.state.trans h.state
  each he := h'.each (h.each he)
  out he := by
    obtain ⟨l, ho, hl⟩ := h.out he
    obtain ⟨l', ho', hl'⟩ := h'.out (h.each he)
    refine ⟨l ++ l', by rw [ho', ho, List.append_assoc], fun e hm => ?_⟩
    rcases List.mem_append.1 hm with hm | hm
    · exact hl e hm
    · exact hl' e hm

theorem ite {c : Prop} [Decidable c] (h : c → Hushed s t) (h' : ¬ c → Hushed s u) :
    Hushed s (if c then t else u) := by
  split
  · exact h ‹_›
  · exact h' ‹_›

theorem emit {e : Effect} (he : e.hushed) (s : UtpSocket) : Hushed s (s.emit e) where
  state := rfl
  each h := h
  out _ := ⟨[e], rfl, by simpa using he⟩

theorem assert (c : Prop) [Decidable c] (a : Assertion) (s : UtpSocket) : Hushed s (s.assert c a) :=
  .ite (fun _ => .refl s) fun _ => .emit rfl s

/-- A packet of the window goes out. -/
theorem send (h : Hushed s t) {i : ℤ} {p p' : OutgoingPacket} (hp : s.send.outbuf.get i = some p)
    (ht : p'.hdr.type = p.hdr.type) (flags : UInt32) :
    Hushed s ((t.putOutbuf i p').sendData (p'.hdr.toBytes ++ p'.body) flags) := by
  have htype (he : s.kernel.Each fun p => p.hdr.type ≠ ST_STATE) : p'.hdr.type ≠ ST_STATE := by
    rw [ht]
    exact he (UInt16.ofInt i) p ((get_eq_slot _ i).symm.trans hp)
  refine ⟨h.state, fun he => ?_, fun he => ?_⟩
  · have hk : ((t.putOutbuf i p').sendData (p'.hdr.toBytes ++ p'.body) flags).kernel =
        { t.kernel with outbuf := t.kernel.outbuf.setSlot (UInt16.ofInt i) (some p') } := kernel_putOutbuf i p' t
    rw [hk]
    exact (h.each he).replace t.kernel.inFlight (htype he)
  · obtain ⟨l, ho, hl⟩ := h.out he
    refine ⟨l ++ [.sendTo (p'.hdr.toBytes ++ p'.body) flags, .removeAck], ?_, fun e hm => ?_⟩
    · show t.out ++ [_] ++ [_] = _
      rw [ho]
      simp
    · rcases List.mem_append.1 hm with hm | hm
      · exact hl e hm
      · simp only [List.mem_cons, List.not_mem_nil, or_false] at hm
        rcases hm with rfl | rfl
        · simpa [Effect.hushed, PacketFormatV1.ofBytes_toBytes] using htype he
        · rfl

end Hushed

theorem hushed_asked (s : UtpSocket) : Hushed s s.asked := .of_same rfl rfl rfl

theorem hushed_setMtu (m : MtuDiscovery) (s : UtpSocket) : Hushed s (s.setMtu m) := .of_same rfl rfl rfl

theorem hushed_setCc (c : LedbatController) (s : UtpSocket) : Hushed s (s.setCc c) := .of_same rfl rfl rfl

theorem hushed_setTiming (y : TimingState) (s : UtpSocket) : Hushed s (s.setTiming y) := .of_same rfl rfl rfl

theorem hushed_mtuReset (ms : UInt64) (s : UtpSocket) : Hushed s (s.mtuReset env ms) :=
  ((hushed_asked s).trans (.assert _ _ _)).trans (hushed_setMtu _ _)

theorem hushed_sendPacket (i : ℤ) (s : UtpSocket) : Hushed s (s.sendPacket env i) := by
  cases hp : s.send.outbuf.get i with
  | none =>
    unfold sendPacket
    rw [hp]
    exact .refl s
  | some p =>
    unfold sendPacket
    rw [hp]
    dsimp only
    have h₁ : Hushed s (s.asked.countPacket p) :=
      .ite (fun _ => .of_same rfl rfl rfl) fun _ => .of_same rfl rfl rfl
    generalize s.asked.countPacket p = t at h₁ ⊢
    generalize env.microseconds t.tick = time
    have h₂ : Hushed s (t.asked.rediscover env (env.milliseconds s.tick)) :=
      h₁.trans ((hushed_asked t).trans (.ite (fun _ => hushed_mtuReset env _ t.asked) fun _ => .refl _))
    generalize t.asked.rediscover env (env.milliseconds s.tick) = u at h₂ ⊢
    have h₃ : Hushed s (if u.probes p = true then u.startProbe p.length else u) :=
      h₂.trans (.ite (fun _ => ((hushed_setMtu _ u).trans (.assert _ _ _)).trans (.assert _ _ _)) fun _ => .refl u)
    generalize (if u.probes p = true then u.startProbe p.length else u) = v at h₃ ⊢
    have ht := (sent_sentPacket env v time p).type
    generalize v.sentPacket env time p = p' at ht ⊢
    exact h₃.send hp ht _

theorem hushed_isFull (bytes : ℤ) (s : UtpSocket) : Hushed s (s.isFull bytes).2 := by
  unfold isFull
  split
  · exact .of_same rfl rfl rfl
  · exact .refl s

theorem hushed_moveCursor (inPrefix : Bool) (i : UInt16) (s : UtpSocket) : Hushed s (s.moveCursor inPrefix i) :=
  .ite (fun _ => .of_same rfl rfl rfl) fun _ => .refl s

theorem hushed_flushLoop (packetSize n : ℕ) (i : UInt16) (inPrefix : Bool) (s : UtpSocket) :
    Hushed s (s.flushLoop env packetSize n i inPrefix).2 := by
  induction n generalizing i inPrefix s with
  | zero => exact .refl s
  | succ n ih =>
    unfold flushLoop
    have hf := hushed_isFull (-1) s
    generalize s.isFull (-1) = r at hf ⊢
    dsimp only
    split
    · exact (hushed_moveCursor inPrefix i s).trans (ih _ _ _)
    · split
      · exact hf
      · split
        · exact ((hf.trans (hushed_sendPacket env _ _)).trans (hushed_moveCursor inPrefix i _)).trans (ih _ _ _)
        · exact hf.trans (ih _ _ _)

theorem hushed_markLoop (n i : ℕ) (s : UtpSocket) : Hushed s (s.markLoop n i) := by
  induction n generalizing i s with
  | zero => exact .refl s
  | succ n ih =>
    unfold markLoop
    dsimp only
    split
    · exact ih _ _
    · rename_i p hp
      split
      · exact ih _ _
      · refine Hushed.trans ?_ (ih _ _)
        have hput : Hushed s (s.setSend { s.send with
            outbuf := s.send.outbuf.put (s.send.seqNr.toNat - i - 1) (some { p with needResend := true }) }) := by
          refine ⟨rfl, fun he => ?_, fun _ => ⟨[], (List.append_nil _).symm, by simp⟩⟩
          have htype : p.hdr.type ≠ ST_STATE :=
            he (UInt16.ofInt (s.send.seqNr.toNat - i - 1)) p ((get_eq_slot _ _).symm.trans hp)
          rw [kernel_setSend, put_eq_setSlot]
          exact he.replace (p := { p with needResend := true }) s.kernel.inFlight htype
        exact (hput.trans (.assert _ _ _)).trans (hushed_setCc _ _)

theorem hushed_markWindow (s : UtpSocket) : Hushed s s.markWindow := by
  unfold markWindow
  have h := hushed_markLoop s.send.curWindowPackets.toNat 0 s
  dsimp only
  generalize s.markLoop s.send.curWindowPackets.toNat 0 = t at h ⊢
  exact h.trans (.of_same rfl rfl rfl)

theorem hushed_checkInvariant (s : UtpSocket) : Hushed s s.checkInvariant :=
  (Hushed.assert _ _ s).trans (.assert _ _ _)

theorem hushed_probeTimeout (s : UtpSocket) : Hushed s s.probeTimeout.2 :=
  (Hushed.assert _ _ s).trans (hushed_setMtu _ _)

theorem hushed_backOff (ignoreLoss : Bool) (s : UtpSocket) : Hushed s (s.backOff ignoreLoss) := by
  unfold backOff
  dsimp only
  exact .ite (fun _ => hushed_setCc _ s) fun _ => .of_same rfl rfl rfl

theorem hushed_resendHead (s : UtpSocket) : Hushed s (s.resendHead env) := by
  unfold resendHead
  refine .ite (fun _ => ?_) fun _ => .refl s
  have h : Hushed s ((s.setCc { s.cc with retransmitCount := s.cc.retransmitCount + 1 }).setTiming
      { s.timing with fastTimeout := true, timeoutSeqNr := s.send.seqNr }) :=
    (hushed_setCc _ s).trans (hushed_setTiming _ _)
  generalize (s.setCc { s.cc with retransmitCount := s.cc.retransmitCount + 1 }).setTiming
      { s.timing with fastTimeout := true, timeoutSeqNr := s.send.seqNr } = t at h ⊢
  have ha := h.trans (.assert (t.send.outbuf.get t.headIdx).isSome .timeoutResend t)
  dsimp only
  generalize t.assert (t.send.outbuf.get t.headIdx).isSome .timeoutResend = u at ha ⊢
  exact ha.trans (hushed_sendPacket env _ u)

/-- An expired RTO gives the connection up or only resends. -/
theorem hushed_rtoExpired (s : UtpSocket) : ((s.rtoExpired env).1 = false → Hushed s (s.rtoExpired env).2) ∧
    ((s.rtoExpired env).1 → (s.rtoExpired env).2.kernel.Dead) := by
  have hp := hushed_probeTimeout s
  unfold rtoExpired
  generalize s.probeTimeout = r at hp ⊢
  dsimp only
  split_ifs
  · exact ⟨by simp, fun _ => .inr rfl⟩
  · exact ⟨by simp, fun _ => .inr rfl⟩
  · exact ⟨by simp, fun _ => .inl rfl⟩
  · refine ⟨fun _ => ?_, by simp⟩
    have hb := hp.trans (hushed_backOff r.1 r.2)
    generalize r.2.backOff r.1 = u at hb ⊢
    have hm := hb.trans (hushed_markWindow u)
    generalize u.markWindow = v at hm ⊢
    exact hm.trans (hushed_resendHead env v)

theorem hushed_reopenWindow (s : UtpSocket) : Hushed s s.reopenWindow :=
  .ite (fun _ => .of_same rfl rfl rfl) fun _ => .refl s

/-- A socket that is not connected keeps nothing alive. -/
theorem keepAlive_idle {s : UtpSocket} (hs : s.kernel.state = .synSent) : s.becomeWritable.keepAlive env = s := by
  have hst : s.conn.state = .synSent := hs
  have hw : s.becomeWritable = s := if_neg (by rw [hst]; simp)
  have hd : s.keepAliveDue = false := by
    unfold keepAliveDue
    rw [hst]
    rfl
  rw [hw]
  exact if_neg (by rw [hd]; simp)

/-- The timer of a side that has dialled gives the connection up or only resends. -/
theorem hushed_checkTimeouts {s : UtpSocket} (hs : s.kernel.state = .synSent) :
    Hushed s (s.checkTimeouts env) ∨ (s.checkTimeouts env).kernel.Dead := by
  unfold checkTimeouts
  have h₁ := (hushed_checkInvariant s).trans (.assert s.headPresent .timeoutHead _)
  dsimp only
  generalize s.checkInvariant.assert s.headPresent .timeoutHead = t at h₁ ⊢
  have h₂ : Hushed s (if t.conn.state ≠ .destroy then (t.flushPackets env).2 else t) :=
    h₁.trans (.ite (fun _ => hushed_flushLoop env _ _ _ _ t) fun _ => .refl t)
  generalize (if t.conn.state ≠ .destroy then (t.flushPackets env).2 else t) = u at h₂ ⊢
  by_cases ha : timeoutActive u.conn.state
  · rw [if_pos ha]
    have h₃ := h₂.trans (hushed_reopenWindow u)
    generalize u.reopenWindow = v at h₃ ⊢
    have hr := hushed_rtoExpired env v
    by_cases he : v.cc.isRtoExpired v.currentMs
    · rw [if_pos he]
      generalize v.rtoExpired env = r at hr ⊢
      by_cases hd : r.1
      · rw [if_pos hd]
        exact .inr (hr.2 hd)
      · have hq := h₃.trans (hr.1 (Bool.eq_false_iff.2 hd))
        rw [if_neg hd, keepAlive_idle env (hq.state.trans hs)]
        exact .inl hq
    · rw [if_neg he, if_neg Bool.false_ne_true, keepAlive_idle env (h₃.state.trans hs)]
      exact .inl h₃
  · rw [if_neg ha]
    exact .inl h₂

theorem hushed_setOption (opt : SocketOption) (val : ℤ) (s : UtpSocket) : Hushed s (s.setOption opt val) := by
  cases opt with
  | sndbuf => exact (Hushed.assert (1 ≤ val) .optionValue s).trans (.of_same rfl (by rw [kernel_assert]; rfl) rfl)
  | rcvbuf => exact (Hushed.assert (1 ≤ val) .optionValue s).trans (.of_same rfl rfl rfl)
  | targetDelay => exact .of_same rfl rfl rfl

/-- The calls that a side makes before it is answered give the connection up, or acknowledge nothing. -/
theorem hushed_local {op : Op} {s : UtpSocket} (hl : op.Local s) (hs : s.kernel.state = .synSent) :
    Hushed s (op.run env s) ∨ (op.run env s).kernel.Dead := by
  have hst : s.conn.state = .synSent := hs
  cases op with
  | setOption opt val => exact .inl (hushed_setOption opt val s)
  | writev iov =>
    left
    have hw : s.writev env iov = (0, s) := writev_refused env iov (by rw [hst]; rfl)
    simp only [Op.run, hw]
    exact .refl s
  | readDrained => exact absurd hst hl.2
  | close =>
    right
    simp only [Op.run, close]
    have hk := kernel_assert (s.conn.state ≠ .uninitialized ∧ s.conn.state ≠ .destroy) .closeState s
    generalize s.assert (s.conn.state ≠ .uninitialized ∧ s.conn.state ≠ .destroy) .closeState = t at hk ⊢
    have ht : t.conn.state = .synSent := (fields_of_kernel hk).1.trans hst
    simp only [ht]
    exact .inr rfl
  | shutdown how =>
    left
    simp only [Op.run, shutdown]
    have hq := Hushed.assert (s.conn.state ≠ .uninitialized ∧ s.conn.state ≠ .destroy) .closeState s
    generalize s.assert (s.conn.state ≠ .uninitialized ∧ s.conn.state ≠ .destroy) .closeState = t at hq ⊢
    have hm : Hushed s (if how ≠ .wr then t.markReadShutdown else t) :=
      hq.trans (.ite (fun _ => .of_same rfl rfl rfl) fun _ => .refl t)
    generalize (if how ≠ .wr then t.markReadShutdown else t) = u at hm ⊢
    have hu : u.conn.state = .synSent := hm.state.trans hs
    simp only [hu]
    exact hm.trans (.ite (fun _ => .of_same rfl rfl rfl) fun _ => .refl u)
  | onReset =>
    right
    simp only [Op.run, onReset_eq]
    show s.brokenState = .reset ∨ s.brokenState = .destroy
    unfold brokenState
    split <;> simp
  | onIcmpError =>
    right
    simp only [Op.run, onIcmpError]
    rw [if_neg (by rw [hst]; simp)]
    show s.brokenState = .reset ∨ s.brokenState = .destroy
    unfold brokenState
    split <;> simp
  | onIcmpFragmentation m =>
    left
    simp only [Op.run, onIcmpFragmentation]
    exact .ite (fun _ => (Hushed.assert _ _ s).trans (hushed_setMtu _ _))
      fun _ => (Hushed.assert _ _ s).trans (hushed_setMtu _ _)
  | checkTimeouts => exact hushed_checkTimeouts env hs
  | _ => exact absurd hl (by simp [Op.Local])

end UtpSocket

namespace Kernel

variable {g g' : Sending} {k k' : Kernel} {acts : List Act} {x : Input} {T : Input → Prop} {D : Bytes}

/-- A step of a connection that is not open. -/
structure Rests (k : Kernel) (acts : List Act) (k' : Kernel) : Prop where
  setUp : k'.state ≠ .uninitialized
  closed : ¬ k'.IsOpen
  cur : k'.cur = k.cur
  finSent : k'.finSent = k.finSent
  finSentAcked : k'.finSentAcked = k.finSentAcked
  reorderCount : k'.reorderCount = k.reorderCount
  inbuf : k'.inbuf = k.inbuf
  gotFin : k'.gotFin = k.gotFin
  gotFinReached : k'.gotFinReached = k.gotFinReached
  taken : acts.flatMap Act.taken = []
  withheld : ∀ e ∈ acts.flatMap Act.effects, e.delivers = false

theorem rests_micro (hset : k.state ≠ .uninitialized) (ho : ¬ k.IsOpen) (hx : ∀ pp, x ≠ .ack pp ∧ x ≠ .packet pp)
    (hm : Micro x k acts k') : Rests k acts k' := by
  have hw := (hm.withheld fun pp => (hx pp).2).1
  have hset' := set_micro hset hm
  have hremoval (p : OutgoingPacket) : (k.removal p).flatMap Act.taken = [] := by
    unfold removal
    split <;> rfl
  cases hm with
  | accept hu => exact absurd hu hset
  | connect hu => exact absurd hu hset
  | writable hs => exact absurd (.inr hs) ho
  | full hs => exact absurd (.inl hs) ho
  | destroy => exact ⟨hset', Dead.not_open (.inr rfl), rfl, rfl, rfl, rfl, rfl, rfl, rfl, rfl, hw⟩
  | timeout => exact ⟨hset', (dead_gaveUp k).not_open, rfl, rfl, rfl, rfl, rfl, rfl, rfl, rfl, hw⟩
  | broken =>
    refine ⟨hset', Dead.not_open ?_, rfl, rfl, rfl, rfl, rfl, rfl, rfl, rfl, hw⟩
    show (if k.closeRequested then ConnState.destroy else .reset) = .reset ∨
      (if k.closeRequested then ConnState.destroy else .reset) = .destroy
    split <;> simp
  | closeAgain hf ho' => exact absurd ho' ho
  | queue hs => exact absurd (.inl hs) ho
  | extend hs => exact absurd (.inl hs) ho
  | queueFin ho' => exact absurd ho' ho
  | mark => exact ⟨hset', ho, rfl, rfl, rfl, rfl, rfl, rfl, rfl, hremoval _, hw⟩
  | sack => exact ⟨hset', ho, rfl, rfl, rfl, rfl, rfl, rfl, rfl, hremoval _, hw⟩
  | advance => exact absurd rfl (hx _).1
  | synSentAck => exact absurd rfl (hx _).2
  | noteFin => exact absurd rfl (hx _).2
  | deliver => exact absurd rfl (hx _).2
  | clearReorder => exact absurd rfl (hx _).2
  | growInbuf => exact absurd rfl (hx _).2
  | failStore => exact absurd rfl (hx _).2
  | store => exact absurd rfl (hx _).2
  | _ => exact ⟨hset', ho, rfl, rfl, rfl, rfl, rfl, rfl, rfl, rfl, hw⟩

/-- A side that has dialled and was not answered: its window holds the SYN. -/
structure Unanswered (g : Sending) (k : Kernel) : Prop where
  window : k.Window
  setUp : k.state ≠ .uninitialized
  closed : ¬ k.IsOpen
  ships : Ships g k
  head : g.head = g.first
  next : g.next = g.first + 1
  stream : g.stream = []
  finSent : k.finSent = false
  acked : k.finSentAcked = false
  count : k.reorderCount = 0
  empty : k.inbuf.occupied = 0
  gotFin : k.gotFin = false
  gotFinReached : k.gotFinReached = false

/-- What such a side sends: its SYN, or a STATE packet. -/
def Calls (g : Sending) (b : Bytes) : Prop :=
  (PacketFormatV1.ofBytes b).type = ST_SYN ∧ (PacketFormatV1.ofBytes b).seqNr = UInt16.ofNat g.first ∨
    (PacketFormatV1.ofBytes b).type = ST_STATE

theorem type_stateBytes {b : Bytes} (h : k.StateBytes b) : (PacketFormatV1.ofBytes b).type = ST_STATE := by
  cases h with
  | @plain hdr h =>
    have := PacketFormatV1.ofBytes_toBytes hdr []
    rw [List.append_nil] at this
    rw [this]
    exact h.type
  | eack h =>
    rw [PacketFormatV1.ofBytes_toBytes]
    exact h.type

theorem unanswered_micro (h : Unanswered g k) (hx : ∀ pp, x ≠ .ack pp ∧ x ≠ .packet pp ∧ x ≠ .eack pp)
    (hm : Micro x k acts k') : ∃ g', Unanswered g' k' ∧ g.Extends g' [] ∧ Rests k acts k' ∧
      ∀ b flags, Effect.sendTo b flags ∈ acts.flatMap Act.effects → Calls g b := by
  have hr := rests_micro h.setUp h.closed (fun pp => ⟨(hx pp).1, (hx pp).2.1⟩) hm
  have hcov : Covered g.first (· ≤ g.first) g k := by
    refine ⟨by rw [h.next]; omega, by rw [h.head]; omega, fun n _ hn _ => ?_, fun ha => ?_⟩
    · rw [h.next] at hn
      omega
    · rw [h.acked] at ha
      cases ha
  obtain ⟨g', h1, -, h3, h4⟩ := ships_micro h.window h.setUp h.ships hcov (by omega) (by
    rintro pp (rfl | rfl)
    · exact absurd rfl (hx pp).1
    · exact absurd rfl (hx pp).2.2) hm
  have hhead : g'.head = g.head := h3.head fun pp => (hx pp).1
  have hfirst := h3.extend.first
  have hspan := h.ships.span
  have hspan' := h1.span
  have hnext : g'.next = g'.first + 1 := by
    rw [hspan', hhead, hr.cur, ← hspan, hfirst, h.next]
  have hext := h3.extend
  rw [hr.taken] at hext
  refine ⟨g', ?_, hext, hr, fun b flags hb => ?_⟩
  · exact
      { window := (window_micro h.window hm).1
        setUp := hr.setUp
        closed := hr.closed
        ships := h1
        head := by rw [hhead, hfirst, h.head]
        next := hnext
        stream := by rw [hext.stream, h.stream]; rfl
        finSent := hr.finSent.trans h.finSent
        acked := hr.finSentAcked.trans h.acked
        count := hr.reorderCount.trans h.count
        empty := by rw [hr.inbuf]; exact h.empty
        gotFin := hr.gotFin.trans h.gotFin
        gotFinReached := hr.gotFinReached.trans h.gotFinReached }
  · rcases h4 b flags (send_micro hm hb) with ⟨n, hdr, rfl, hseg⟩ | hst | hst
    · have hn := h1.sent_lt n hseg.sent
      have hge := hseg.head_le
      obtain rfl : n = g'.first := by
        rw [hhead, h.head] at hge
        omega
      left
      rw [PacketFormatV1.ofBytes_toBytes, ← hfirst]
      exact ⟨hseg.syn.2 rfl, hseg.seqNr⟩
    · exact .inr (type_stateBytes hst)
    · exact .inr (type_stateBytes hst)

theorem Rests.trans {k₁ : Kernel} {acts' : List Act} (h : Rests k acts k₁) (h' : Rests k₁ acts' k') :
    Rests k (acts ++ acts') k' where
  setUp := h'.setUp
  closed := h'.closed
  cur := h'.cur.trans h.cur
  finSent := h'.finSent.trans h.finSent
  finSentAcked := h'.finSentAcked.trans h.finSentAcked
  reorderCount := h'.reorderCount.trans h.reorderCount
  inbuf := h'.inbuf.trans h.inbuf
  gotFin := h'.gotFin.trans h.gotFin
  gotFinReached := h'.gotFinReached.trans h.gotFinReached
  taken := by
    rw [List.flatMap_append, h.taken, h'.taken]
    rfl
  withheld e he := by
    rw [List.flatMap_append] at he
    rcases List.mem_append.1 he with he | he
    · exact h.withheld e he
    · exact h'.withheld e he

theorem Rests.refl (hset : k.state ≠ .uninitialized) (ho : ¬ k.IsOpen) : Rests k [] k :=
  ⟨hset, ho, rfl, rfl, rfl, rfl, rfl, rfl, rfl, rfl, by simp⟩

theorem unanswered_trace (h : Unanswered g k) (hT : ∀ pp, ¬ T (.ack pp) ∧ ¬ T (.packet pp) ∧ ¬ T (.eack pp))
    (htr : Trace (StepOn T) k acts k') : ∃ g', Unanswered g' k' ∧ g.Extends g' [] ∧ Rests k acts k' ∧
      ∀ b flags, Effect.sendTo b flags ∈ acts.flatMap Act.effects → Calls g b := by
  induction htr generalizing g with
  | refl k => exact ⟨g, h, .refl g, .refl h.setUp h.closed, by simp⟩
  | head hstep _ ih =>
    obtain ⟨x, hx, hm⟩ := hstep
    obtain ⟨g₁, h₁, he₁, hr₁, hc₁⟩ := unanswered_micro h (fun pp => ⟨fun he => (hT pp).1 (he ▸ hx),
      fun he => (hT pp).2.1 (he ▸ hx), fun he => (hT pp).2.2 (he ▸ hx)⟩) hm
    obtain ⟨g₂, h₂, he₂, hr₂, hc₂⟩ := ih h₁
    refine ⟨g₂, h₂, he₁.trans he₂, hr₁.trans hr₂, fun b flags hb => ?_⟩
    rw [List.flatMap_append] at hb
    rcases List.mem_append.1 hb with hb | hb
    · exact hc₁ b flags hb
    · have := hc₂ b flags hb
      unfold Calls at this
      rw [he₁.first] at this
      exact this

end Kernel

namespace UtpSocket

variable (env : Env)

/-! The answer. -/

theorem state_advance (pp : ParsedPacket) (s : UtpSocket) :
    ((((s.peerWindow pp.windowsize).ackState pp (s.kernel.ackCount pp)).raiseFastResend pp).ackLoop env
      (s.kernel.ackCount pp)).finishAdvance.kernel.state = (s.kernel.ackState pp).state := by
  have hk₁ := (quiet_peerWindow pp.windowsize s).1
  generalize s.peerWindow pp.windowsize = t at hk₁ ⊢
  have hk₂ := kernel_ackState pp t
  rw [hk₁] at hk₂
  generalize t.ackState pp (s.kernel.ackCount pp) = u at hk₂ ⊢
  have hk₃ := (quiet_raiseFastResend pp u).1
  generalize u.raiseFastResend pp = v at hk₃ ⊢
  obtain ⟨st, f, he⟩ := s.kernel.ackState_eq pp
  have hk : v.kernel = s.kernel.ackState pp := hk₃.trans hk₂
  have hn : s.kernel.ackCount pp ≤ v.kernel.cur.toNat := by
    rw [hk, he]
    exact s.kernel.ackCount_le pp
  obtain ⟨acts, hp, -⟩ := pops_ackLoop env hn
  rw [hp.frame.state, hk]

/-- The acknowledgement part of the answer opens the connection. -/
theorem processAck_answer {pp : ParsedPacket} (time : UInt64) {s : UtpSocket} (ht : pp.type = ST_STATE)
    (hs : s.kernel.state = .synSent) (ha : s.kernel.ackNr = pp.seqNr - 1) :
    ∃ t u, Quiet s t ∧ Advanced pp t u ∧ u.kernel.state = .connected ∧
      Runs (.eack pp) [] u (s.processAck env pp time) := by
  have hq : Quiet s ((s.countDuplicate pp).processAcks env pp (s.kernel.ackCount pp) time) :=
    (quiet_countDuplicate pp s).trans (quiet_processAcks env pp _ time _)
  rw [processAck, show s.ackCount pp = s.kernel.ackCount pp by rfl]
  generalize (s.countDuplicate pp).processAcks env pp (s.kernel.ackCount pp) time = t at hq ⊢
  rw [← hq.1] at hs ha ⊢
  have hadv := advanced_advanceSendWindow env pp fun _ => ha
  have hst := state_advance env pp t
  rw [advanceSendWindow_eq env (t.kernel.ackCount_le pp), advance_eq]
  refine ⟨t, _, hq, hadv, hst.trans ?_, runs_afterAdvance env pp _⟩
  simp [Kernel.ackState, ht, hs]

/-- A side that has dialled drops a datagram unread, or takes the first packet it reads as the start of
the stream to it. -/
theorem processIncoming_synSent (b : Bytes) {s : UtpSocket} (hs : s.kernel.state = .synSent) :
    ((s.processIncoming env b false).kernel = s.kernel ∧ (s.processIncoming env b false).out = s.out) ∨
      ∃ pp t time, (parseBytes b s.conn.extensions).1 = some pp ∧ Expecting pp s t ∧
        (pp.type = ST_STATE → s.processIncoming env b false = t.processAck env pp time) := by
  cases hp : (parseBytes b s.conn.extensions).1 with
  | none =>
    left
    have hp' : ((s.refreshClock env).parsePacket b).1 = none := hp
    unfold processIncoming
    dsimp only
    rw [hp']
    exact ⟨rfl, rfl⟩
  | some pp =>
    by_cases ha : s.Accepts pp
    · right
      refine ⟨pp, s.openPacket env b pp, env.microseconds ((s.refreshClock env).parsePacket b).2.tick, rfl, ⟨(unmoved_opened env b pp s).1, ?_⟩, fun ht => ?_⟩
      · unfold openPacket
        have h₀ : ((s.refreshClock env).parsePacket b).2.asked.out = s.out := rfl
        generalize ((s.refreshClock env).parsePacket b).2.asked = t at h₀ ⊢
        obtain ⟨-, l, ho, hl⟩ := (quiet_assert (pp.type ≠ ST_RESET) (a := .incomingReset) t rfl)
        generalize t.assert (pp.type ≠ ST_RESET) .incomingReset = u at ho ⊢
        obtain ⟨-, l', ho', hl'⟩ := expecting_synSentAck pp u
        refine ⟨l ++ l', ?_, fun e he => ?_⟩
        · show (u.synSentAck pp).out = _
          rw [ho', ho, h₀, List.append_assoc]
        · rcases List.mem_append.1 he with he | he
          · exact hl e he
          · exact hl' e he
      · rw [processIncoming_accepted env hp ha, takePacket, if_pos ht]
    · left
      -- the packet is at distance 0 of itself, so it is its acknowledgement that is refused
      have hv : s.invalidAck pp = true := by
        by_contra hv
        refine ha ⟨Bool.eq_false_iff.2 hv, ?_⟩
        have hd : (s.kernel.expect pp).seqDistance pp = 0 := by
          unfold Kernel.seqDistance Kernel.expect
          rw [if_pos hs]
          grind
        rw [hd]
        decide
      have hp' : ((s.refreshClock env).parsePacket b).1 = some pp := hp
      have hv' : ((s.refreshClock env).parsePacket b).2.asked.invalidAck pp = true :=
        (invalidAck_congr (t := ((s.refreshClock env).parsePacket b).2.asked) (s := s) rfl pp).trans hv
      unfold processIncoming
      dsimp only
      rw [hp']
      dsimp only
      rw [if_pos hv']
      exact ⟨rfl, rfl⟩

/-- The inputs of the acknowledgement part of a packet. -/
def AckInput (pp : ParsedPacket) (x : Input) : Prop := x = .ack pp ∨ x = .eack pp

/-- The answer, step by step. -/
theorem trace_answer {pp : ParsedPacket} (time : UInt64) {s : UtpSocket} (ht : pp.type = ST_STATE)
    (hs : s.kernel.state = .synSent) (ha : s.kernel.ackNr = pp.seqNr - 1) :
    ∃ acts, Trace (Kernel.StepOn (AckInput pp)) s.kernel acts (s.processAck env pp time).kernel ∧
      (s.processAck env pp time).out = s.out ++ acts.flatMap Act.effects ∧ acts.flatMap Act.taken = [] ∧
        (s.processAck env pp time).kernel.state ≠ .synSent := by
  obtain ⟨t, u, hq, hadv, hst, hr⟩ := processAck_answer env time ht hs ha
  generalize s.processAck env pp time = v at hr ⊢
  obtain ⟨l₂, ht₂, ho₂, hb₂⟩ := runs_of_advanced hadv
  obtain ⟨l₃, ht₃, ho₃, hb₃⟩ := hr
  obtain ⟨l₁, ht₁, ho₁, hb₁⟩ := Runs.of_quiet (x := .ack pp) hq
  have hm {x : Input} (hx : AckInput pp x) (k : Kernel) (l : List Act) (k' : Kernel)
      (h : Kernel.Micro x k l k') : Kernel.StepOn (AckInput pp) k l k' := ⟨x, hx, h⟩
  have h₃ := ht₃.mono (hm (.inr rfl))
  refine ⟨l₁ ++ (l₂ ++ l₃), (ht₁.mono (hm (.inl rfl))).trans ((ht₂.mono (hm (.inl rfl))).trans h₃), ?_, ?_, ?_⟩
  · rw [ho₃, ho₂, ho₁]
    simp
  · rw [List.flatMap_append, List.flatMap_append, hb₁, hb₂, hb₃]
    rfl
  · exact (Kernel.answered_trace (by rw [hst]; simp) (by rw [hst]; simp) h₃).2

end UtpSocket

end Utp
