import LibUtp.Kernel.Sends
import LibUtp.Kernel.Life

/-! An operation as a sequence of calls of `send_packet`, `selective_ack`, the flush and the rounds of a
write, with steps between them that send no packet. The conditions on the calls of an operation ask of
exactly these calls. -/

namespace Utp

open Lts SequenceBuffer

namespace UtpSocket

variable (env : Env) {s t u : UtpSocket}

/-! Steps that send no packet. -/

/-- From `s` to `t` nothing is sent but acknowledgements. -/
def StatesOnly (s t : UtpSocket) : Prop :=
  ∃ l, t.out = s.out ++ l ∧ ∀ b flags, Effect.sendTo b flags ∈ l → (PacketFormatV1.ofBytes b).type = ST_STATE

namespace StatesOnly

theorem of_eq (h : t.out = s.out) : StatesOnly s t := ⟨[], by rw [h, List.append_nil], by simp⟩

theorem trans (h : StatesOnly s t) (h' : StatesOnly t u) : StatesOnly s u := by
  obtain ⟨l, ho, hl⟩ := h
  obtain ⟨l', ho', hl'⟩ := h'
  refine ⟨l ++ l', by rw [ho', ho, List.append_assoc], fun b flags hb => ?_⟩
  rcases List.mem_append.1 hb with hb | hb
  · exact hl b flags hb
  · exact hl' b flags hb

theorem of_quiet (h : Quiet s t) : StatesOnly s t := by
  obtain ⟨-, l, ho, hq⟩ := h
  exact ⟨l, ho, fun b flags hb => absurd (hq _ hb) (by simp [Effect.quiet])⟩

theorem emit {e : Effect} (he : ∀ b flags, e ≠ .sendTo b flags) (s : UtpSocket) : StatesOnly s (s.emit e) := by
  refine ⟨[e], rfl, fun b flags hb => ?_⟩
  exact absurd (List.mem_singleton.1 hb).symm (he b flags)

theorem assert (c : Prop) [Decidable c] (a : Assertion) (s : UtpSocket) : StatesOnly s (s.assert c a) := by
  unfold UtpSocket.assert
  split
  · exact of_eq rfl
  · exact emit (by simp) s

end StatesOnly

/-- A packet but for its mark. -/
def unmarked (p : OutgoingPacket) : OutgoingPacket := { p with needResend := false }

/-- From `s` to `t` no packet is sent, queued or taken out of the window; the cursor stays or starts over. -/
structure Rests (s t : UtpSocket) : Prop where
  out : StatesOnly s t
  seqNr : t.send.seqNr = s.send.seqNr
  cur : t.send.curWindowPackets = s.send.curWindowPackets
  cursor : t.send.flushScanStart = s.send.flushScanStart ∨ t.send.flushScanStart = t.windowStart
  slots : ∀ q, (t.send.outbuf.slot q).map unmarked = (s.send.outbuf.slot q).map unmarked

namespace Rests

/-- The fields of the window are the same. -/
theorem of_send (ho : StatesOnly s t) (hq : t.send.seqNr = s.send.seqNr)
    (hc : t.send.curWindowPackets = s.send.curWindowPackets)
    (hf : t.send.flushScanStart = s.send.flushScanStart) (hb : t.send.outbuf = s.send.outbuf) : Rests s t :=
  ⟨ho, hq, hc, .inl hf, fun q => by rw [hb]⟩

theorem of_kernel (ho : StatesOnly s t) (hk : t.kernel = s.kernel) : Rests s t :=
  of_send ho (congrArg Kernel.seqNr hk) (congrArg Kernel.cur hk) (congrArg Kernel.cursor hk)
    (congrArg Kernel.outbuf hk)

theorem of_quiet (h : Quiet s t) : Rests s t := of_kernel (.of_quiet h) h.1

theorem refl (s : UtpSocket) : Rests s s := of_quiet (.refl s)

theorem trans (h : Rests s t) (h' : Rests t u) : Rests s u where
  out := h.out.trans h'.out
  seqNr := h'.seqNr.trans h.seqNr
  cur := h'.cur.trans h.cur
  cursor := by
    rcases h'.cursor with hc | hc
    · rcases h.cursor with hc' | hc'
      · exact .inl (hc.trans hc')
      · refine .inr (hc.trans (hc'.trans ?_))
        unfold windowStart
        rw [h'.seqNr, h'.cur]
    · exact .inr hc
  slots q := (h'.slots q).trans (h.slots q)

theorem ite {c : Prop} [Decidable c] (h : c → Rests s t) (h' : ¬ c → Rests s u) : Rests s (if c then t else u) := by
  split
  · exact h ‹_›
  · exact h' ‹_›

theorem emit {e : Effect} (he : ∀ b flags, e ≠ .sendTo b flags) (s : UtpSocket) : Rests s (s.emit e) :=
  of_send (.emit he s) rfl rfl rfl rfl

theorem assert (c : Prop) [Decidable c] (a : Assertion) (s : UtpSocket) : Rests s (s.assert c a) :=
  of_kernel (.assert c a s) (kernel_assert c a s)

theorem setState (st : ConnState) (s : UtpSocket) : Rests s (s.setState st) :=
  of_send (.of_eq rfl) rfl rfl rfl rfl

theorem setRecv (r : ReceiveState) (s : UtpSocket) : Rests s (s.setRecv r) :=
  of_send (.of_eq rfl) rfl rfl rfl rfl

theorem setCc (c : LedbatController) (s : UtpSocket) : Rests s (s.setCc c) :=
  of_send (.of_eq rfl) rfl rfl rfl rfl

end Rests

theorem type_stateBytes {k : Kernel} {b : Bytes} (h : k.StateBytes b) :
    (PacketFormatV1.ofBytes b).type = ST_STATE := by
  cases h with
  | @plain hdr h =>
    have hb := PacketFormatV1.ofBytes_toBytes hdr []
    rw [List.append_nil] at hb
    rw [hb]
    exact h.type
  | eack h =>
    rw [PacketFormatV1.ofBytes_toBytes]
    exact h.type

theorem rests_sendAck (synack : Bool) (s : UtpSocket) : Rests s (s.sendAck env synack) := by
  obtain ⟨hk, l, b, hb, ho, hl⟩ := sendAck_spec env synack s
  refine .of_kernel ⟨_, ho, fun b' flags hmem => ?_⟩ hk
  rcases List.mem_append.1 hmem with hmem | hmem
  · rcases List.mem_append.1 hmem with hmem | hmem
    · obtain ⟨a, he, -⟩ := hl _ hmem
      cases he
    · rw [List.mem_singleton, Effect.sendTo.injEq] at hmem
      rw [hmem.1]
      exact type_stateBytes hb
  · simp at hmem

theorem rests_sendKeepAlive (s : UtpSocket) : Rests s (s.sendKeepAlive env) :=
  ((Rests.setRecv _ s).trans (rests_sendAck env false _)).trans (.setRecv _ _)

theorem rests_becomeWritable (s : UtpSocket) : Rests s s.becomeWritable := by
  unfold becomeWritable
  have hq := Rests.of_quiet (quiet_isFull (-1) s)
  refine .ite (fun _ => .ite (fun _ => hq) fun _ => ?_) (fun _ => .refl s)
  exact (hq.trans (.setState _ _)).trans (.emit (by simp) _)

theorem rests_drainLoop (n : ℕ) (s : UtpSocket) : Rests s (s.drainLoop env n) := by
  have heof (s : UtpSocket) : Rests s (s.reachEof env) := by
    unfold reachEof
    refine .ite (fun _ => ?_) (fun _ => .refl s)
    exact ((((Rests.setRecv _ s).trans (.setCc _ _)).trans (.emit (by simp) _)).trans (rests_sendAck env false _)).trans
      (.setRecv _ _)
  induction n generalizing s with
  | zero => exact .refl s
  | succ n ih =>
    unfold drainLoop
    refine (heof s).trans (.ite (fun _ => .refl _) fun _ => ?_)
    split
    · exact .setRecv _ _
    · rename_i p hp
      have hread : Rests (s.reachEof env).takeInbuf ((s.reachEof env).takeInbuf.onRead p.data) :=
        .ite (fun _ => .emit (by simp) _) (fun _ => .refl _)
      refine ((Rests.setRecv _ _).trans hread).trans ?_
      exact (((Rests.setRecv _ _).trans (.assert _ _ _)).trans (.setRecv _ _)).trans (ih _)

theorem rests_deliverData (pp : ParsedPacket) (seqnr : UInt16) (s : UtpSocket) :
    Rests s (s.deliverData env pp seqnr) := by
  have hfin : Rests s (s.noteFin pp) := .ite (fun _ => .setRecv _ s) (fun _ => .refl s)
  have hread (t : UtpSocket) : Rests t (t.onRead pp.payload) :=
    .ite (fun _ => .emit (by simp) _) (fun _ => .refl _)
  refine hfin.trans (.ite (fun _ => ?_) fun _ => ?_)
  · exact (((hread _).trans (.setRecv _ _)).trans (rests_drainLoop env _ _)).trans (.emit (by simp) _)
  · refine .ite (fun _ => .refl _) fun _ => .ite (fun _ => .refl _) fun _ => ?_
    refine (Rests.setRecv _ _).trans (.ite (fun _ => .refl _) fun _ => ?_)
    exact (((Rests.assert _ _ _).trans (.assert _ _ _)).trans (.setRecv _ _)).trans (.emit (by simp) _)

/-- What is marked stays in its slot. -/
theorem rests_markLoop (n i : ℕ) (s : UtpSocket) : Rests s (s.markLoop n i) := by
  induction n generalizing i s with
  | zero => exact .refl s
  | succ n ih =>
    unfold markLoop
    dsimp only
    split
    · exact ih _ s
    · rename_i p hp
      refine .ite (fun _ => ih _ s) fun _ => Rests.trans ?_ (ih _ _)
      refine Rests.trans ?_ ((Rests.assert _ _ _).trans (.setCc _ _))
      refine ⟨.of_eq rfl, rfl, rfl, .inl rfl, fun q => ?_⟩
      rw [get_eq_slot] at hp
      show ((s.send.outbuf.put (s.send.seqNr.toNat - i - 1) (some { p with needResend := true })).slot q).map
        unmarked = _
      rw [put_eq_setSlot, slot_setSlot]
      split
      · rename_i hs
        rw [← hs.slot_eq, hp]
        rfl
      · rfl

theorem rests_markWindow (s : UtpSocket) : Rests s s.markWindow := by
  refine (rests_markLoop s.send.curWindowPackets.toNat 0 s).trans ?_
  exact ⟨.of_eq rfl, rfl, rfl, .inr rfl, fun _ => rfl⟩

theorem rests_checkInvariant (s : UtpSocket) : Rests s s.checkInvariant := (Rests.assert _ _ s).trans (.assert _ _ _)

theorem rests_timeOut (st : ConnState) (s : UtpSocket) : Rests s (s.timeOut st) :=
  (Rests.setState st s).trans (.emit (by simp) _)

theorem rests_ackState (pp : ParsedPacket) (acks : ℕ) (s : UtpSocket) : Rests s (s.ackState pp acks) := by
  unfold ackState
  have hdata : Rests s (if pp.type = ST_DATA ∧ s.conn.state = .synRecv then s.setState .connected else s) :=
    .ite (fun _ => .setState _ s) (fun _ => .refl s)
  refine hdata.trans (.ite (fun _ => ?_) fun _ => ?_)
  · exact (Rests.setState _ _).trans (.emit (by simp) _)
  · refine .ite (fun _ => ?_) (fun _ => .refl _)
    refine Rests.trans ?_ (.ite (fun _ => .setState _ _) (fun _ => .refl _))
    exact .of_send (.of_eq rfl) rfl rfl rfl rfl

/-! The calls. -/

/-- What sends, resends or queues packets. -/
inductive Callee where
  | sendPacket (i : ℤ)
  | selectiveAck (base : ℤ) (mask : Bytes)
  | flushPackets
  | queueRounds (payload : ℕ) (flags : UInt8) (iov : List Bytes)

def Callee.run (s : UtpSocket) : Callee → UtpSocket
  | .sendPacket i => s.sendPacket env i
  | .selectiveAck base mask => s.selectiveAck env base mask
  | .flushPackets => (s.flushPackets env).2
  | .queueRounds payload flags iov => (s.queueRounds env payload flags iov).2

/-- A step of an operation, labelled with the call and the socket it finds. -/
inductive CallStep : UtpSocket → List (Callee × UtpSocket) → UtpSocket → Prop
  | call (f : Callee) (s : UtpSocket) : CallStep s [(f, s)] (f.run env s)
  | rest {s t : UtpSocket} (h : Rests s t) : CallStep s [] t
  | advance (acks : ℕ) (s : UtpSocket) : CallStep s [] (s.advance env acks)
  | setUp {s t : UtpSocket} (hs : s.conn.state = .uninitialized) (ho : StatesOnly s t) : CallStep s [] t

/-- What is asked at a call. -/
def Callee.sends (W : Watch) : Callee × UtpSocket → Bool
  | (.sendPacket i, s) => W.send i s
  | (.selectiveAck base mask, s) => s.selectiveAckSends env W base mask
  | (.flushPackets, s) => s.flushSends env W
  | (.queueRounds _ _ _, _) => true

def Callee.Flushes (W : FlushWatch) : Callee × UtpSocket → Prop
  | (.queueRounds payload flags iov, s) => W.append s (s.queueRounds env payload flags iov).2
  | (.flushPackets, s) => W.flush s
  | _ => True

/-- Such steps lead from `s` to `t`, and `sends` and `flushes` ask of exactly the calls among them. -/
def Lists (s t : UtpSocket) (sends : Watch → Bool) (flushes : FlushWatch → Prop) : Prop :=
  ∃ l, Trace (CallStep env) s l t ∧ (∀ W, sends W = l.all (Callee.sends env W)) ∧
    ∀ W, flushes W ↔ ∀ x ∈ l, Callee.Flushes env W x

namespace Lists

variable {env} {a b : Watch → Bool} {A B : FlushWatch → Prop}

theorem step (h : CallStep env s [] t) : Lists env s t (fun _ => true) (fun _ => True) :=
  ⟨[], .single h, fun _ => rfl, fun _ => by simp⟩

theorem rest (h : Rests s t) : Lists env s t (fun _ => true) (fun _ => True) := step (.rest h)

theorem call (f : Callee) (s : UtpSocket) :
    Lists env s (f.run env s) (fun W => Callee.sends env W (f, s)) (fun W => Callee.Flushes env W (f, s)) :=
  ⟨[(f, s)], .single (.call f s), fun _ => by simp, fun _ => by simp⟩

theorem trans (h : Lists env s t a A) (h' : Lists env t u b B) :
    Lists env s u (fun W => a W && b W) (fun W => A W ∧ B W) := by
  obtain ⟨l, ht, ha, hA⟩ := h
  obtain ⟨l', ht', hb, hB⟩ := h'
  refine ⟨l ++ l', ht.trans ht', fun W => by dsimp only; rw [ha, hb, List.all_append], fun W => ?_⟩
  dsimp only
  rw [hA, hB, List.forall_mem_append]

theorem congr (h : Lists env s t a A) (ha : ∀ W, b W = a W) (hA : ∀ W, B W ↔ A W) : Lists env s t b B := by
  obtain ⟨l, ht, hl, hL⟩ := h
  exact ⟨l, ht, fun W => (ha W).trans (hl W), fun W => (hA W).trans (hL W)⟩

theorem after (h : Rests s t) (h' : Lists env t u b B) : Lists env s u b B :=
  ((rest h).trans h').congr (fun _ => (Bool.true_and _).symm) fun _ => iff_of_eq (true_and _).symm

theorem before (h : Lists env s t a A) (h' : Rests t u) : Lists env s u a A :=
  (h.trans (rest h')).congr (fun _ => (Bool.and_true _).symm) fun _ => iff_of_eq (and_true _).symm

end Lists

/-! The writes. -/

theorem lists_writeOutgoingPacket (payload : ℕ) (flags : UInt8) (iov : List Bytes) (s : UtpSocket) :
    Lists env s (s.writeOutgoingPacket env payload flags iov).2 (fun W => s.writeSends env W payload flags iov)
      fun W => s.writeFlushes env W payload flags iov :=
  ((Lists.call (.queueRounds payload flags iov) s).trans (.call .flushPackets _)).congr
    (fun _ => (Bool.true_and _).symm) fun _ => Iff.rfl

theorem lists_sendFin (s : UtpSocket) :
    Lists env s (s.sendFin env) (fun W => s.finSends env W) fun W => s.finFlushes env W := by
  have hr : Rests s (s.setSend { s.send with finSent := true }) := .of_send (.of_eq rfl) rfl rfl rfl rfl
  exact .after hr (lists_writeOutgoingPacket env 0 ST_FIN [] _)

theorem lists_writevLoop (packetSize fuel bytes sent : ℕ) (iov : List Bytes) (s : UtpSocket) :
    Lists env s (s.writevLoop env packetSize fuel bytes sent iov).2
      (fun W => s.writevLoopSends env W packetSize fuel bytes iov)
      fun W => s.writevLoopFlushes env W packetSize fuel bytes iov := by
  induction fuel generalizing bytes sent iov s with
  | zero => exact .rest (.refl s)
  | succ fuel ih =>
    have hr := Rests.of_quiet (quiet_isFull (int32 (min bytes packetSize : ℕ)) s)
    have hw := lists_writeOutgoingPacket env (min bytes packetSize) ST_DATA iov
      (s.isFull (int32 (min bytes packetSize : ℕ))).2
    rw [writevLoop]
    dsimp only
    by_cases hf : (s.isFull (int32 (min bytes packetSize : ℕ))).1
    · rw [if_pos hf]
      refine (Lists.rest hr).congr (fun W => ?_) fun W => ?_
      · rw [writevLoopSends, if_pos hf]
      · rw [writevLoopFlushes, if_pos hf]
    · rw [if_neg hf]
      by_cases hz : min (bytes - min bytes packetSize) packetSize = 0
      · rw [if_pos hz]
        dsimp only
        refine (Lists.after hr hw).congr (fun W => ?_) fun W => ?_
        · rw [writevLoopSends, if_neg hf, decide_eq_true hz]
          exact Bool.and_true _
        · rw [writevLoopFlushes, if_neg hf]
          exact and_iff_left (.inl hz)
      · rw [if_neg hz]
        refine (Lists.after hr (hw.trans (ih _ _ _ _))).congr (fun W => ?_) fun W => ?_
        · rw [writevLoopSends, if_neg hf, decide_eq_false hz]
          rfl
        · rw [writevLoopFlushes, if_neg hf]
          exact and_congr_right fun _ => or_iff_right hz

theorem lists_writev (iov : List Bytes) (s : UtpSocket) :
    Lists env s (s.writev env iov).2 (fun W => s.writevSends env W iov) fun W => s.writevFlushes env W iov := by
  rw [writev]
  dsimp only
  by_cases hw : writable s.conn.state = false ∨ s.send.finSent
  · rw [if_pos hw]
    exact (Lists.rest (.refl s)).congr (fun _ => if_pos hw) fun _ => by rw [writevFlushes, if_pos hw]
  · rw [if_neg hw]
    have hl := lists_writevLoop env (s.refreshClock env).getPacketSize (totalLength (iov.take UTP_IOV_MAX) + 1)
      (totalLength (iov.take UTP_IOV_MAX)) 0 (iov.take UTP_IOV_MAX) (s.refreshClock env)
    refine (Lists.after (.of_quiet (quiet_refreshClock env s)) (hl.before ?_)).congr (fun _ => if_neg hw)
      fun _ => by rw [writevFlushes, if_neg hw]
    split
    · exact .refl _
    · refine (Rests.of_quiet (quiet_isFull (-1) _)).trans ?_
      exact .ite (fun _ => .setState _ _) (fun _ => .refl _)

/-! `close` and `shutdown`. -/

theorem rests_markReadShutdown (s : UtpSocket) : Rests s s.markReadShutdown := .setRecv _ s

theorem lists_closeConnected (s : UtpSocket) :
    Lists env s (s.closeConnected env) (fun W => s.closeConnectedSends env W)
      fun W => s.markReadShutdown.requestClose.send.finSent = false →
        s.markReadShutdown.requestClose.finFlushes env W := by
  have hr : Rests s s.markReadShutdown.requestClose :=
    (rests_markReadShutdown s).trans (.of_send (.of_eq rfl) rfl rfl rfl rfl)
  rw [closeConnected]
  by_cases hf : s.markReadShutdown.requestClose.send.finSent = false
  · rw [if_pos hf]
    exact (Lists.after hr (lists_sendFin env _)).congr (fun _ => by simp [closeConnectedSends, hf])
      fun _ => by simp [hf]
  · rw [if_neg hf]
    have hd := Rests.ite (c := s.markReadShutdown.requestClose.send.finSentAcked)
      (fun _ => .setState .destroy s.markReadShutdown.requestClose) (fun _ => .refl _)
    exact (Lists.rest (hr.trans hd)).congr (fun _ => by simp [closeConnectedSends, hf]) fun _ => by simp [hf]

theorem lists_close (s : UtpSocket) :
    Lists env s (s.close env) (fun W => s.closeSends env W) fun W => s.closeFlushes env W := by
  unfold close closeSends closeFlushes
  have hr := Rests.assert (s.conn.state ≠ .uninitialized ∧ s.conn.state ≠ .destroy) .closeState s
  generalize s.assert (s.conn.state ≠ .uninitialized ∧ s.conn.state ≠ .destroy) .closeState = t at hr ⊢
  have hb := (Rests.of_quiet (quiet_backoffRtoForClose env t)).trans (.setState .destroy _)
  refine .after hr ?_
  dsimp only
  cases t.conn.state with
  | connected => exact lists_closeConnected env t
  | connectedFull => exact lists_closeConnected env t
  | synSent => exact .rest hb
  | _ => exact .rest (.setState _ t)

theorem lists_shutdown (how : ShutdownHow) (s : UtpSocket) :
    Lists env s (s.shutdown env how) (fun W => s.shutdownSends env W how) fun W => s.shutdownFlushes env W how := by
  unfold shutdown shutdownSends shutdownFlushes
  have hr := Rests.assert (s.conn.state ≠ .uninitialized ∧ s.conn.state ≠ .destroy) .closeState s
  generalize s.assert (s.conn.state ≠ .uninitialized ∧ s.conn.state ≠ .destroy) .closeState = t at hr ⊢
  have hread := Rests.ite (c := how ≠ .wr) (fun _ => rests_markReadShutdown t) (fun _ => .refl t)
  dsimp only
  refine .after (hr.trans hread) ?_
  generalize (if how ≠ .wr then t.markReadShutdown else t) = u
  have hfin : Lists env u (if how ≠ .rd ∧ u.send.finSent = false then u.sendFin env else u)
      (fun W => if how ≠ .rd ∧ u.send.finSent = false then u.finSends env W else true)
      (fun W => how ≠ .rd ∧ u.send.finSent = false → u.finFlushes env W) := by
    by_cases hc : how ≠ .rd ∧ u.send.finSent = false
    · rw [if_pos hc]
      exact (lists_sendFin env u).congr (fun _ => if_pos hc) fun _ => forall_prop_of_true hc
    · rw [if_neg hc]
      exact (Lists.rest (.refl u)).congr (fun _ => if_neg hc) fun _ => forall_prop_of_false hc
  cases u.conn.state with
  | connected => exact hfin
  | connectedFull => exact hfin
  | synSent => exact .rest (.ite (fun _ => .of_quiet (quiet_backoffRtoForClose env u)) (fun _ => .refl u))
  | _ => exact .rest (.refl u)

/-! The timer. -/

theorem lists_resendHead (s : UtpSocket) :
    Lists env s (s.resendHead env) (fun W => s.headSends W) fun _ => True := by
  rw [resendHead]
  by_cases hc : 0 < s.send.curWindowPackets
  · rw [if_pos hc]
    refine (Lists.after ?_ (.call (.sendPacket s.headIdx) _)).congr (fun W => ?_) fun _ => Iff.rfl
    · exact ((Rests.setCc _ s).trans (.of_quiet (quiet_setTiming _ _))).trans (.assert _ _ _)
    · rw [headSends, if_pos hc]
      rfl
  · rw [if_neg hc]
    exact (Lists.rest (.refl s)).congr (fun W => by rw [headSends, if_neg hc]) fun _ => Iff.rfl

theorem lists_rtoExpired (s : UtpSocket) :
    Lists env s (s.rtoExpired env).2 (fun W => s.rtoSends W) fun _ => True := by
  have hr := Rests.of_quiet (quiet_probeTimeout s)
  unfold rtoExpired rtoSends
  dsimp only
  split_ifs
  · exact .rest (hr.trans (rests_timeOut .destroy _))
  · exact .rest (hr.trans (rests_timeOut .destroy _))
  · exact .rest (hr.trans (rests_timeOut .reset _))
  · have hb := (Rests.of_quiet (quiet_backOff s.probeTimeout.1 s.probeTimeout.2)).trans (rests_markWindow _)
    exact .after (hr.trans hb) (lists_resendHead env _)

/-- The timer behind its flush. -/
theorem lists_afterFlush (s : UtpSocket) :
    Lists env s
      (if timeoutActive s.conn.state then
        let s := s.reopenWindow
        let r := if s.cc.isRtoExpired s.currentMs then s.rtoExpired env else (false, s)
        if r.1 then r.2 else r.2.becomeWritable.keepAlive env
      else s)
      (fun W => !(timeoutActive s.conn.state && s.reopenWindow.cc.isRtoExpired s.reopenWindow.currentMs) ||
        s.reopenWindow.rtoSends W) fun _ => True := by
  by_cases ha : timeoutActive s.conn.state
  · rw [if_pos ha]
    have hr := Rests.of_quiet (quiet_reopenWindow s)
    dsimp only
    generalize s.reopenWindow = t at hr ⊢
    have hlive (u : UtpSocket) : Rests u (u.becomeWritable.keepAlive env) :=
      (rests_becomeWritable u).trans (.ite (fun _ => rests_sendKeepAlive env _) (fun _ => .refl _))
    by_cases he : t.cc.isRtoExpired t.currentMs
    · rw [if_pos he]
      refine (Lists.after hr ((lists_rtoExpired env t).before ?_)).congr (fun W => ?_) fun _ => Iff.rfl
      · exact .ite (fun _ => .refl _) (fun _ => hlive _)
      · rw [ha, he, Bool.and_true, Bool.not_true, Bool.false_or]
    · rw [if_neg he]
      refine (Lists.rest (hr.trans ?_)).congr (fun W => ?_) fun _ => Iff.rfl
      · exact .ite (fun _ => .refl _) (fun _ => hlive _)
      · rw [Bool.eq_false_iff.2 he, Bool.and_false, Bool.not_false, Bool.true_or]
  · rw [if_neg ha]
    refine (Lists.rest (.refl s)).congr (fun W => ?_) fun _ => Iff.rfl
    rw [Bool.eq_false_iff.2 ha, Bool.false_and, Bool.not_false, Bool.true_or]

theorem lists_checkTimeouts (s : UtpSocket) :
    Lists env s (s.checkTimeouts env) (fun W => s.timeoutsSends env W) fun W => s.timeoutsFlushes W := by
  unfold checkTimeouts timeoutsSends timeoutsFlushes
  have hr := (rests_checkInvariant s).trans (.assert s.headPresent .timeoutHead _)
  dsimp only
  generalize s.checkInvariant.assert s.headPresent .timeoutHead = t at hr ⊢
  by_cases hd : t.conn.state = .destroy
  · rw [if_neg (not_not_intro hd)]
    refine (Lists.after hr (lists_afterFlush env t)).congr (fun W => ?_) fun _ => by simp [hd]
    rw [decide_eq_true hd, Bool.true_or, Bool.true_and]
  · rw [if_pos hd]
    refine (Lists.after hr ((Lists.call .flushPackets t).trans (lists_afterFlush env _))).congr (fun W => ?_)
      fun W => ?_
    · rw [decide_eq_false hd, Bool.false_or]
      rfl
    · exact (forall_prop_of_true hd).trans (and_iff_left trivial).symm

/-! A packet that arrives. -/

theorem lists_sendLast (s : UtpSocket) :
    Lists env s (s.sendLast env) (fun W => s.lastSends W) fun _ => True := by
  unfold sendLast lastSends
  split_ifs
  · cases s.send.outbuf.get (s.send.seqNr.toNat - 1) with
    | none => exact .rest (.refl s)
    | some p =>
      dsimp only
      split_ifs
      · exact .call (.sendPacket (s.send.seqNr.toNat - 1)) s
      · exact .rest (.refl s)
  · exact .rest (.refl s)

theorem lists_fastTimeout (s : UtpSocket) :
    Lists env s (s.fastTimeout env) (fun W => s.fastTimeoutSends W) fun _ => True := by
  unfold fastTimeout fastTimeoutSends
  by_cases hf : s.timing.fastTimeout
  · rw [if_pos hf]
    by_cases hw : s.windowStart = s.timing.fastResendSeqNr
    · rw [if_neg (not_not_intro hw)]
      simp only [if_pos (And.intro hf hw)]
      cases s.send.outbuf.get s.headIdx with
      | none => exact .rest (.refl s)
      | some p =>
        dsimp only
        split_ifs
        · exact .after (.of_quiet (quiet_setTiming _ s)) (.call (.sendPacket s.headIdx) _)
        · exact .rest (.refl s)
    · rw [if_pos hw]
      exact (Lists.rest (.of_quiet (quiet_setTiming _ s))).congr (fun _ => if_neg fun h => hw h.2) fun _ => Iff.rfl
  · rw [if_neg hf]
    exact (Lists.rest (.refl s)).congr (fun _ => if_neg fun h => hf h.1) fun _ => Iff.rfl

theorem lists_advanceSendWindow (pp : ParsedPacket) (acks : ℕ) (s : UtpSocket) :
    Lists env s (s.advanceSendWindow env pp acks) (fun W => s.advanceSends env W pp acks) fun _ => True := by
  unfold advanceSendWindow advanceSends
  split_ifs
  · have hr := ((Rests.of_quiet (quiet_peerWindow pp.windowsize s)).trans (rests_ackState pp acks _)).trans
      (.of_quiet (quiet_raiseFastResend pp _))
    dsimp only
    generalize ((s.peerWindow pp.windowsize).ackState pp acks).raiseFastResend pp = t at hr ⊢
    have hl := ((Lists.step (.advance acks t)).trans (lists_sendLast env _)).trans (lists_fastTimeout env _)
    exact (Lists.after hr hl).congr (fun W => by rw [Bool.true_and]) fun _ => by simp
  · exact .rest (.refl s)

/-- The socket as the acknowledgement part calls `selective_ack` on it. -/
def advanced (pp : ParsedPacket) (time : UInt64) (s : UtpSocket) : UtpSocket :=
  let acks := s.ackCount pp
  ((s.countDuplicate pp).processAcks env pp acks time).advanceSendWindow env pp acks

theorem processAck_eq (pp : ParsedPacket) (time : UInt64) (s : UtpSocket) :
    s.processAck env pp time =
      (((s.advanced env pp time).selectiveAckOf env pp).assert
        ((s.advanced env pp time).selectiveAckOf env pp).headPresent .incomingHead).becomeWritable := rfl

theorem lists_processAck (pp : ParsedPacket) (time : UInt64) (s : UtpSocket) :
    Lists env s (s.processAck env pp time) (fun W => s.ackSends env W pp time) fun _ => True := by
  have hr := (Rests.of_quiet (quiet_countDuplicate pp s)).trans
    (.of_quiet (quiet_processAcks env pp (s.ackCount pp) time _))
  have ha : Lists env s (s.advanced env pp time)
      (fun W => ((s.countDuplicate pp).processAcks env pp (s.ackCount pp) time).advanceSends env W pp (s.ackCount pp))
      fun _ => True := .after hr (lists_advanceSendWindow env pp (s.ackCount pp) _)
  rw [processAck_eq]
  unfold ackSends
  dsimp only
  rw [show ((s.countDuplicate pp).processAcks env pp (s.ackCount pp) time).advanceSendWindow env pp (s.ackCount pp) =
    s.advanced env pp time from rfl]
  generalize s.advanced env pp time = u at ha ⊢
  have hs : Lists env u (u.selectiveAckOf env pp) (fun W => u.selectiveAckOfSends env W pp) fun _ => True := by
    unfold selectiveAckOf selectiveAckOfSends
    cases pp.selack with
    | none => exact .rest (.refl u)
    | some mask => exact .call (.selectiveAck (pp.ackNr.toNat + 2) mask) u
  have hw := (Rests.assert (u.selectiveAckOf env pp).headPresent .incomingHead (u.selectiveAckOf env pp)).trans
    (rests_becomeWritable _)
  exact ((ha.trans hs).before hw).congr (fun _ => rfl) fun _ => (and_iff_left trivial).symm

theorem lists_processValid (pp : ParsedPacket) (time : UInt64) (s : UtpSocket) :
    Lists env s (s.processValid env pp time false) (fun W => s.validSends env W pp time) fun _ => True := by
  unfold processValid validSends
  have hr : Rests s ((s.assert (pp.type ≠ ST_RESET) .incomingReset).synSentAck pp) :=
    (Rests.assert _ _ s).trans (.ite (fun _ => .setRecv _ _) (fun _ => .refl _))
  dsimp only
  generalize (s.assert (pp.type ≠ ST_RESET) .incomingReset).synSentAck pp = t at hr ⊢
  have ht := hr.trans (.of_quiet (quiet_setTiming { t.timing with lastGotPacket := t.currentMs } t))
  generalize t.setTiming { t.timing with lastGotPacket := t.currentMs } = u at ht ⊢
  rw [if_neg (by decide)]
  by_cases hd : REORDER_BUFFER_MAX_SIZE ≤ (u.seqDistance pp).toNat
  · rw [if_pos hd]
    refine (Lists.rest (ht.trans ?_)).congr (fun W => ?_) fun _ => Iff.rfl
    · exact .ite (fun _ => .of_quiet (quiet_scheduleAck u)) (fun _ => .refl u)
    · rw [decide_eq_true hd, Bool.true_or]
  · rw [if_neg hd]
    refine (Lists.after ht ((lists_processAck env pp time u).before ?_)).congr (fun W => ?_) fun _ => Iff.rfl
    · exact .ite (fun _ => .refl _) fun _ => .ite (fun _ => .refl _) fun _ => rests_deliverData env pp _ _
    · rw [decide_eq_false hd, Bool.false_or]

theorem lists_processIncoming (b : Bytes) (s : UtpSocket) :
    Lists env s (s.processIncoming env b false) (fun W => s.incomingSends env W b) fun _ => True := by
  unfold processIncoming incomingSends
  have hr := (Rests.of_quiet (quiet_refreshClock env s)).trans (.of_quiet (quiet_parsePacket b _))
  dsimp only
  generalize (s.refreshClock env).parsePacket b = r at hr ⊢
  cases r.1 with
  | none => exact .rest hr
  | some pp =>
    have ha := hr.trans (.of_quiet (quiet_asked r.2))
    dsimp only
    cases hi : r.2.asked.invalidAck pp with
    | true => exact .rest ha
    | false => exact .after ha (lists_processValid env pp _ _)

/-! Setting up. -/

theorem StatesOnly.of_quietTo {k : Kernel} (h : QuietTo s k t) : StatesOnly s t := by
  obtain ⟨-, l, ho, hq⟩ := h
  exact ⟨l, ho, fun b flags hb => absurd (hq _ hb) (by simp [Effect.quiet])⟩

theorem lists_connectWith (addr : Address) (seed : UInt32) (hu : s.conn.state = .uninitialized) :
    Lists env s (s.connectWith env addr seed) (fun W => s.connectSends env W addr seed) fun _ => True := by
  obtain ⟨seq, hq⟩ := readySyn_spec env (initializeSocket_spec env addr seed seed (seed + 1) s)
  rw [connectWith, sendSyn_eq]
  unfold connectSends
  dsimp only
  generalize (s.initializeSocket env addr seed seed (seed + 1)).readySyn env = t at hq ⊢
  have hs : StatesOnly s t.queueSyn := (StatesOnly.of_quietTo hq).trans (.of_eq (out_enqueue _ t))
  exact ((Lists.step (.setUp hu hs)).trans (.call (.sendPacket _) _)).congr (fun W => (Bool.true_and _).symm)
    fun _ => (and_iff_left trivial).symm

theorem statesOnly_acceptWith (addr : Address) (b : Bytes) (s : UtpSocket) :
    StatesOnly s (s.acceptWith env addr b) := by
  obtain ⟨t, ⟨seq, l, hk, ho, hq⟩, he⟩ := acceptWith_spec env addr b s
  rw [he]
  exact (StatesOnly.of_quietTo ⟨hk, l, ho, hq⟩).trans (rests_sendAck env true t).out

theorem rests_readDrained (s : UtpSocket) : Rests s (s.readDrained env) := by
  unfold readDrained
  have ha := Rests.assert (s.conn.state ≠ .uninitialized) .readDrainedState s
  dsimp only
  generalize s.assert (s.conn.state ≠ .uninitialized) .readDrainedState = t at ha ⊢
  have hw := ha.trans (.of_quiet (quiet_askRcvWindow env t))
  refine .ite (fun _ => ha) fun _ => .ite (fun _ => .ite (fun _ => ?_) fun _ => ?_) (fun _ => hw)
  · exact hw.trans (rests_sendAck env false _)
  · exact (hw.trans (.of_quiet (quiet_refreshClock env _))).trans (.of_quiet (quiet_scheduleAck _))

/-- Every operation is a sequence of such steps, and the conditions on its calls ask of exactly the calls
among them. -/
theorem lists_run {op : Op} (h : op.Enabled s) :
    ∃ l, Trace (CallStep env) s l (op.run env s) ∧
      (∀ W, op.sends env W s = l.all (Callee.sends env W)) ∧
      ∀ W, op.Flushes env W s ↔ ∀ x ∈ l, Callee.Flushes env W x := by
  show Lists env s (op.run env s) (fun W => op.sends env W s) fun W => op.Flushes env W s
  cases op with
  | connect addr seed =>
    by_cases hu : s.conn.state = .uninitialized
    · refine (Lists.congr (a := fun W => s.connectSends env W addr seed) ?_ (fun W => ?_) fun _ => Iff.rfl)
      · rw [Op.run, if_pos hu]
        exact lists_connectWith env addr seed hu
      · rw [Op.sends, decide_eq_false (not_not_intro hu), Bool.false_or]
    · refine (Lists.congr (a := fun _ => true) ?_ (fun W => ?_) fun _ => Iff.rfl)
      · rw [Op.run, if_neg hu]
        exact .rest ((Rests.assert _ _ s).trans (.setState _ _))
      · rw [Op.sends, decide_eq_true hu, Bool.true_or]
  | accept addr syn => exact .step (.setUp h (statesOnly_acceptWith env addr syn s))
  | setOption opt val => exact .rest (.of_quiet (quiet_setOption opt val s))
  | writev iov => exact lists_writev env iov s
  | readDrained => exact .rest (rests_readDrained env s)
  | close => exact lists_close env s
  | shutdown how => exact lists_shutdown env how s
  | sendAck => exact .rest (rests_sendAck env false s)
  | processIncoming b => exact lists_processIncoming env b s
  | onReset => exact .rest ((Rests.setState _ s).trans (.emit (by simp) _))
  | onIcmpError =>
    exact .rest (.ite (fun _ => .refl s) fun _ => (Rests.setState _ s).trans (.emit (by simp) _))
  | onIcmpFragmentation nextHopMtu => exact .rest (.of_quiet (quiet_onIcmpFragmentation nextHopMtu s))
  | checkTimeouts => exact lists_checkTimeouts env s

/-! The calls of `send_packet` in the flush, in `selective_ack` and in a whole operation. -/

/-- A step labelled with the call of `send_packet` that it is. -/
inductive SendStep : UtpSocket → List (ℤ × UtpSocket) → UtpSocket → Prop
  | send (i : ℤ) (s : UtpSocket) : SendStep s [(i, s)] (s.sendPacket env i)
  | rest {s t : UtpSocket} (h : StatesOnly s t) : SendStep s [] t

theorem trace_flushLoop (packetSize n : ℕ) (i : UInt16) (inPrefix : Bool) (s : UtpSocket) :
    ∃ l, Trace (SendStep env) s l (s.flushLoop env packetSize n i inPrefix).2 ∧
      ∀ W, s.flushLoopSends env W packetSize n i inPrefix = l.all fun x => W.send x.1 x.2 := by
  have hmove (inPrefix : Bool) (i : UInt16) (t : UtpSocket) : StatesOnly t (t.moveCursor inPrefix i) := by
    unfold moveCursor
    split <;> exact .of_eq rfl
  induction n generalizing i inPrefix s with
  | zero => exact ⟨[], .refl s, fun _ => rfl⟩
  | succ n ih =>
    by_cases hs : settled (s.send.outbuf.get i.toNat)
    · obtain ⟨l, ht, hl⟩ := ih (i + 1) inPrefix (s.moveCursor inPrefix i)
      rw [flushLoop, if_pos hs]
      exact ⟨l, .head (.rest (hmove inPrefix i s)) ht, fun W => by rw [flushLoopSends, if_pos hs, hl]⟩
    have hq := StatesOnly.of_quiet (quiet_isFull (-1) s)
    by_cases hf : (s.isFull (-1)).1
    · rw [flushLoop, if_neg hs, if_pos hf]
      exact ⟨[], .single (.rest hq), fun W => by rw [flushLoopSends, if_neg hs, if_pos hf]; rfl⟩
    by_cases hm : (s.isFull (-1)).2.mayFlush packetSize i
    · obtain ⟨l, ht, hl⟩ := ih (i + 1) inPrefix (((s.isFull (-1)).2.sendPacket env i.toNat).moveCursor inPrefix i)
      rw [flushLoop, if_neg hs, if_neg hf, if_pos hm]
      refine ⟨(i.toNat, (s.isFull (-1)).2) :: l, .head (.rest hq) (.head (.send _ _) (.head (.rest (hmove _ _ _)) ht)), ?_⟩
      intro W
      rw [flushLoopSends, if_neg hs, if_neg hf, if_pos hm, hl]
      rfl
    · obtain ⟨l, ht, hl⟩ := ih (i + 1) false (s.isFull (-1)).2
      rw [flushLoop, if_neg hs, if_neg hf, if_neg hm]
      refine ⟨l, .head (.rest hq) ht, fun W => ?_⟩
      rw [flushLoopSends, if_neg hs, if_neg hf, if_neg hm, hl]

theorem trace_flushPackets (s : UtpSocket) :
    ∃ l, Trace (SendStep env) s l (s.flushPackets env).2 ∧
      ∀ W, s.flushSends env W = l.all fun x => W.send x.1 x.2 :=
  trace_flushLoop env _ _ _ _ s

/-- The calls of `send_packet` in the loop over the resends: the slot, and the socket at the call. -/
def resent : List ℤ → ℕ → UtpSocket → List (ℤ × UtpSocket)
  | [], _, _ => []
  | v :: vs, i, s =>
    if (s.send.outbuf.get v).isSome then
      let t := s.sendPacket env v
      (v, s) :: if i ≤ 1 then [] else
        resent vs (i - 1) (t.setTiming { t.timing with fastResendSeqNr := UInt16.ofInt (v + 1) })
    else resent vs i s

theorem trace_resendLoop (vs : List ℤ) (i : ℕ) (backOff : Bool) (s : UtpSocket) :
    Trace (SendStep env) s (resent env vs i s) (s.resendLoop env vs i backOff).2 := by
  induction vs generalizing i backOff s with
  | nil => exact .refl s
  | cons v vs ih =>
    unfold resendLoop resent
    by_cases h : (s.send.outbuf.get v).isSome
    · rw [if_pos h, if_pos h]
      have hset (t : UtpSocket) (m : TimingState) : SendStep env t [] (t.setTiming m) := .rest (.of_eq rfl)
      dsimp only
      by_cases hi : i ≤ 1
      · rw [if_pos hi, if_pos hi]
        exact .head (.send v s) (.single (hset _ _))
      · rw [if_neg hi, if_neg hi]
        exact .head (.send v s) (.head (hset _ _) (ih _ _ _))
    · rw [if_neg h, if_neg h]
      exact ih i backOff s

/-- What is asked at the calls of the loop. -/
theorem resendLoopSends_eq (W : Watch) (vs : List ℤ) (i : ℕ) (s : UtpSocket) :
    s.resendLoopSends env W vs i = (resent env vs i s).all fun x => W.send x.1 x.2 := by
  induction vs generalizing i s with
  | nil => rfl
  | cons v vs ih =>
    unfold resendLoopSends resent
    by_cases h : (s.send.outbuf.get v).isSome
    · rw [if_pos h, if_pos h]
      dsimp only
      by_cases hi : i ≤ 1
      · rw [if_pos hi, decide_eq_true hi, List.all_cons]
        rfl
      · rw [if_neg hi, decide_eq_false hi, List.all_cons, ih]
        rfl
    · rw [if_neg h, if_neg h]
      exact ih i s

/-- The list that `selective_ack` works off, with the number before the bitmap at its end. -/
def eackList (s : UtpSocket) (base : ℤ) (mask : Bytes) : List ℤ :=
  let r := s.eackLoop env base mask (8 * mask.length + 1) 0 []
  if r.2.2.fastResend (base - 1) r.1 then r.2.1 ++ [(base - 1) % 2 ^ 16] else r.2.1

/-- The calls of `send_packet` in `selective_ack`. -/
def eackResends (s : UtpSocket) (base : ℤ) (mask : Bytes) : List (ℤ × UtpSocket) :=
  if s.send.curWindowPackets = 0 then []
  else resent env (s.eackList env base mask).reverse 4
    (s.eackLoop env base mask (8 * mask.length + 1) 0 []).2.2

theorem statesOnly_ackPacket (seq : UInt16) (s : UtpSocket) : StatesOnly s (s.ackPacket env seq).2 := by
  unfold ackPacket
  split
  · exact .of_eq rfl
  · rename_i p hp
    by_cases ht : p.transmissions = 0
    · rw [if_pos ht]
      exact .of_eq rfl
    · rw [if_neg ht]
      dsimp only
      have hs : StatesOnly s (s.setSend { s.send with outbuf := (s.send.outbuf.take seq.toNat).2 }) := .of_eq rfl
      have hu := hs.trans (.of_quiet (quiet_ackTiming env p _))
      generalize (s.setSend { s.send with outbuf := (s.send.outbuf.take seq.toNat).2 }).ackTiming env p = u at hu ⊢
      refine hu.trans ?_
      split_ifs
      · exact .of_eq rfl
      · exact (StatesOnly.assert _ _ u).trans (.of_eq rfl)

theorem statesOnly_eackLoop (base : ℤ) (mask : Bytes) (n count : ℕ) (resends : List ℤ) (s : UtpSocket) :
    StatesOnly s (s.eackLoop env base mask n count resends).2.2 := by
  induction n generalizing count resends s with
  | zero => exact .of_eq rfl
  | succ n ih =>
    unfold eackLoop
    dsimp only
    split
    · split
      · exact ih _ _ s
      · split_ifs
        · exact ((StatesOnly.assert _ _ s).trans (statesOnly_ackPacket env _ _)).trans (ih _ _ _)
        · exact ih _ _ s
        · exact ih _ _ s
    · exact ih _ _ s

/-- `selective_ack` calls `send_packet` as `eackResends` lists it, and sends nothing else. -/
theorem trace_selectiveAck (base : ℤ) (mask : Bytes) (s : UtpSocket) :
    Trace (SendStep env) s (s.eackResends env base mask) (s.selectiveAck env base mask) := by
  unfold selectiveAck eackResends eackList
  by_cases hc : s.send.curWindowPackets = 0
  · rw [if_pos hc, if_pos hc]
    exact .refl s
  · rw [if_neg hc, if_neg hc]
    have hscan := statesOnly_eackLoop env base mask (8 * mask.length + 1) 0 [] s
    dsimp only
    generalize s.eackLoop env base mask (8 * mask.length + 1) 0 [] = r at hscan ⊢
    generalize (if r.2.2.fastResend (base - 1) r.1 then r.2.1 ++ [(base - 1) % 2 ^ 16] else r.2.1) = vs
    have hloop := trace_resendLoop env vs.reverse 4 false r.2.2
    generalize r.2.2.resendLoop env vs.reverse 4 false = b at hloop ⊢
    have hdecay := Quiet.ite (c := b.1) (fun _ => quiet_setCc (curWindow_maybeDecayWin b.2.cc b.2.currentMs))
      (fun _ => .refl b.2)
    have hend := StatesOnly.of_quiet (hdecay.trans (quiet_setDuplicateAck (UInt8.ofNat r.1) _))
    have h := (Trace.head (.rest hscan) hloop).trans (.single (.rest hend))
    rwa [List.nil_append, List.append_nil] at h

/-- What is asked at the calls of `selective_ack`. -/
theorem selectiveAckSends_eq (W : Watch) (base : ℤ) (mask : Bytes) (s : UtpSocket) :
    s.selectiveAckSends env W base mask = (s.send.curWindowPackets = 0 ||
      W.eack base mask s && (s.eackResends env base mask).all fun x => W.send x.1 x.2) := by
  unfold selectiveAckSends eackResends eackList
  by_cases h : s.send.curWindowPackets = 0
  · rw [if_pos h, decide_eq_true h]
    rfl
  · rw [if_neg h, if_neg h, decide_eq_false h, ← resendLoopSends_eq]
    rfl

theorem statesOnly_writeLoop (flags : UInt8) (packetSize fuel payload : ℕ) (iov : List Bytes) (s : UtpSocket) :
    StatesOnly s (s.writeLoop env packetSize flags fuel payload iov).2 := by
  induction fuel generalizing payload iov s with
  | zero => exact .of_eq rfl
  | succ fuel ih =>
    have hround := StatesOnly.of_quiet (quiet_roundStart flags s)
    rw [writeLoop]
    dsimp only
    generalize (s.assert (s.send.curWindowPackets.toNat < OUTGOING_BUFFER_MAX_SIZE) .windowPackets
      ).assert (flags = ST_DATA ∨ flags = ST_FIN) .packetFlags = t at hround ⊢
    refine hround.trans ?_
    cases t.openTail packetSize payload with
    | none =>
      have hq := StatesOnly.of_quiet (quiet_queueStart env flags payload (gather payload iov).1.length t)
      exact hq.trans (.of_eq (out_enqueue _ _))
    | some p =>
      dsimp only
      generalize min (payload + p.payload) (max packetSize p.payload) - p.payload = added
      have hq := StatesOnly.of_quiet (quiet_growStart env flags p added (gather added iov).1.length t)
      have hgrow : StatesOnly t (t.growTail env flags p added iov) := by
        rw [growTail]
        exact hq.trans (.of_eq (out_putOutbuf _ _ _))
      split_ifs
      · exact hgrow
      · exact hgrow.trans (ih _ _ _)

theorem statesOnly_queueRounds (payload : ℕ) (flags : UInt8) (iov : List Bytes) (s : UtpSocket) :
    StatesOnly s (s.queueRounds env payload flags iov).2 := by
  obtain ⟨-, l, ho, hl⟩ := startRto_spec s
  have hstart : StatesOnly s s.startRto := by
    refine ⟨l, ho, fun b flags hb => ?_⟩
    cases (hl _ hb).1
  exact hstart.trans (statesOnly_writeLoop env flags _ _ payload iov _)

theorem statesOnly_advance (acks : ℕ) (s : UtpSocket) : StatesOnly s (s.advance env acks) := by
  have hack (n : ℕ) (t : UtpSocket) : StatesOnly t (t.ackLoop env n) := by
    induction n generalizing t with
    | zero => exact .of_eq rfl
    | succ n ih =>
      have h := statesOnly_ackPacket env t.windowStart t
      unfold ackLoop
      dsimp only
      split_ifs
      · exact h
      · exact (h.trans (.of_eq rfl)).trans (ih _)
  have hskip (n : ℕ) (t : UtpSocket) : StatesOnly t (t.skipLoop n) := by
    induction n generalizing t with
    | zero => exact .of_eq rfl
    | succ n ih =>
      rw [skipLoop]
      split_ifs
      · exact (StatesOnly.of_eq rfl).trans (ih _)
      · exact .of_eq rfl
  unfold advance
  exact ((((hack acks s).trans (.assert _ _ _)).trans (hskip _ _)).trans (.assert _ _ _)).trans (.assert _ _ _)

theorem trace_callee (f : Callee) (s : UtpSocket) :
    ∃ l, Trace (SendStep env) s l (f.run env s) ∧
      ∀ W : Watch, (∀ base mask u, W.eack base mask u) →
        Callee.sends env W (f, s) = l.all fun x => W.send x.1 x.2 := by
  cases f with
  | sendPacket i => exact ⟨_, .single (.send i s), fun W _ => by simp [Callee.sends]⟩
  | selectiveAck base mask =>
    refine ⟨_, trace_selectiveAck env base mask s, fun W hW => ?_⟩
    rw [Callee.sends, selectiveAckSends_eq, hW, Bool.true_and, Bool.or_eq_right_iff_imp]
    intro h0
    unfold eackResends
    rw [if_pos (of_decide_eq_true h0)]
    rfl
  | flushPackets =>
    obtain ⟨l, ht, hl⟩ := trace_flushPackets env s
    exact ⟨l, ht, fun W _ => hl W⟩
  | queueRounds payload flags iov =>
    exact ⟨[], .single (.rest (statesOnly_queueRounds env payload flags iov s)), fun _ _ => rfl⟩

theorem trace_calls {calls : List (Callee × UtpSocket)} (h : Trace (CallStep env) s calls t) :
    ∃ l, Trace (SendStep env) s l t ∧
      ∀ W : Watch, (∀ base mask u, W.eack base mask u) →
        calls.all (Callee.sends env W) = l.all fun x => W.send x.1 x.2 := by
  induction h with
  | refl s => exact ⟨[], .refl s, fun _ _ => rfl⟩
  | head hst _ ih =>
    obtain ⟨l, ht, hl⟩ := ih
    cases hst with
    | call f =>
      obtain ⟨l', ht', hl'⟩ := trace_callee env f _
      refine ⟨l' ++ l, ht'.trans ht, fun W hW => ?_⟩
      rw [List.all_append, List.all_append, hl W hW, ← hl' W hW, List.all_cons, List.all_nil, Bool.and_true]
    | rest hr => exact ⟨l, .head (.rest hr.out) ht, hl⟩
    | advance acks => exact ⟨l, .head (.rest (statesOnly_advance env acks _)) ht, hl⟩
    | setUp _ ho => exact ⟨l, .head (.rest ho) ht, hl⟩

/-- The condition on the calls of `send_packet` in an operation asks of exactly the calls it makes. -/
theorem sendPackets_run {op : Op} (h : op.Enabled s) :
    ∃ l, Trace (SendStep env) s l (op.run env s) ∧
      ∀ W : Watch, (∀ base mask u, W.eack base mask u) → op.sends env W s = l.all fun x => W.send x.1 x.2 := by
  obtain ⟨calls, ht, hs, -⟩ := lists_run env h
  obtain ⟨l, htrace, hl⟩ := trace_calls env ht
  exact ⟨l, htrace, fun W hW => (hs W).trans (hl W hW)⟩

end UtpSocket

end Utp
