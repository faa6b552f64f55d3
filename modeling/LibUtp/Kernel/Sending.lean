import LibUtp.Kernel.Quiet

/-! The sending operations as kernel steps: acknowledgements, `send_packet`,
the flush and the queueing of data and FIN. -/

namespace Utp

open Lts SequenceBuffer

namespace UtpSocket

variable (env : Env) {x : Input}

@[simp] theorem kernel_sendData (b : Bytes) (flags : UInt32) (s : UtpSocket) :
    (s.sendData b flags).kernel = s.kernel := rfl

theorem out_sendData (b : Bytes) (flags : UInt32) (s : UtpSocket) :
    (s.sendData b flags).out = s.out ++ [.sendTo b flags, .removeAck] := by
  show (s.out ++ [_]) ++ [_] = _
  rw [List.append_assoc]
  rfl

/-- The effect is quiet or reports an assertion that fails in this kernel. -/
def Harmless (x : Input) (k : Kernel) (e : Effect) : Prop :=
  e.quiet ∨ ∃ a, e = .assertFailed a ∧ Kernel.Micro x k [.fail a] k

theorem trace_effects {k : Kernel} {l : List Effect} (hl : ∀ e ∈ l, Harmless x k e) :
    ∃ acts, Trace (Kernel.Micro x) k acts k ∧ acts.flatMap Act.effects = l ∧
      acts.flatMap Act.taken = [] := by
  induction l with
  | nil => exact ⟨[], .refl _, rfl, rfl⟩
  | cons e l ih =>
    obtain ⟨acts, ht, he, hb⟩ := ih fun e' h' => hl e' (List.mem_cons_of_mem _ h')
    rcases hl e List.mem_cons_self with hq | ⟨a, rfl, hm⟩
    · refine ⟨[.silent [e]] ++ acts, .head (.silent (by simpa using hq)) ht, ?_, ?_⟩
      · simp [Act.effects, he]
      · simpa [Act.taken] using hb
    · refine ⟨[.fail a] ++ acts, .head hm ht, ?_, ?_⟩
      · simp [Act.effects, he]
      · simpa [Act.taken] using hb

/-- A kernel step between harmless effects. -/
theorem runs_step {s t : UtpSocket} {l : List Act} {u v : List Effect}
    (hm : Kernel.Micro x s.kernel l t.kernel)
    (ho : t.out = s.out ++ (u ++ l.flatMap Act.effects ++ v))
    (hpre : ∀ e ∈ u, Harmless x s.kernel e) (hpost : ∀ e ∈ v, Harmless x t.kernel e) :
    Runs x (l.flatMap Act.taken) s t := by
  obtain ⟨l₁, ht₁, he₁, hb₁⟩ := trace_effects hpre
  obtain ⟨l₂, ht₂, he₂, hb₂⟩ := trace_effects hpost
  refine ⟨l₁ ++ (l ++ l₂), ht₁.trans (.head hm ht₂), ?_, ?_⟩
  · rw [ho, List.flatMap_append, List.flatMap_append, he₁, he₂, List.append_assoc]
  · rw [List.flatMap_append, List.flatMap_append, hb₁, hb₂, List.nil_append, List.append_nil]

theorem Harmless.of_quiet {k : Kernel} {l : List Effect} (h : ∀ e ∈ l, e.quiet) :
    ∀ e ∈ l, Harmless x k e := fun e he => .inl (h e he)

/-! Acknowledgements. -/

theorem eackMask_kernel (s : UtpSocket) : s.eackMask = s.kernel.eackMask := by
  unfold eackMask Kernel.eackMask
  congr 1
  funext m i
  have h : UInt16.ofInt ((s.recv.ackNr.toNat : ℤ) + i + 2) =
      s.recv.ackNr + UInt16.ofNat i + 2 := by
    rw [add_assoc, show (i : ℤ) + 2 = ((i + 2 : ℕ) : ℤ) by push_cast; ring, ofInt_add]
    simp only [UInt16.ofNat_add]
    grind
  rw [get_eq_slot, h]
  rfl

theorem gapSlot_kernel (s : UtpSocket) :
    s.recv.inbuf.get (s.recv.ackNr.toNat + 1) = s.kernel.gapSlot := by
  rw [get_eq_slot, show (1 : ℤ) = ((1 : ℕ) : ℤ) by rfl, ofInt_add]
  rfl

theorem stateHdr_ackHdr (s : UtpSocket) (ext : UInt8) :
    s.kernel.StateHdr (s.stamp env { s.ackHdr with ext := ext }) where
  type := by
    show (freshHdr ST_STATE).type = ST_STATE
    decide
  version := by
    show (freshHdr ST_STATE).version = 1
    decide
  connid := rfl
  ackNr := rfl
  seqNr := rfl

theorem kernel_eackAsserts (synack : Bool) (s : UtpSocket) :
    (s.eackAsserts synack).kernel = s.kernel := by
  unfold eackAsserts
  rw [kernel_assert, kernel_assert]

/-- What `send_ack` may report: an assertion that is not watched, or the gap that is not empty. -/
def AckFailure (s : UtpSocket) (e : Effect) : Prop :=
  ∃ a, e = .assertFailed a ∧ (a.watched = false ∨ (a = .eackGap ∧ ¬ s.kernel.Asserted .eackGap))

theorem AckFailure.quiet_or {s : UtpSocket} {e : Effect} (h : s.AckFailure e) :
    e.quiet ∨ (e = .assertFailed .eackGap ∧ ¬ s.kernel.Asserted .eackGap) := by
  obtain ⟨a, rfl, ha | ⟨rfl, ha⟩⟩ := h
  · left
    show (!a.watched) = true
    rw [ha]
    rfl
  · exact .inr ⟨rfl, ha⟩

/-- In any kernel with an EACK to send. -/
theorem out_eackAsserts (synack : Bool) (s : UtpSocket) (hr : s.recv.reorderCount ≠ 0)
    (hf : s.recv.gotFinReached = false) :
    ∃ l, (s.eackAsserts synack).out = s.out ++ l ∧ ∀ e ∈ l, s.AckFailure e := by
  unfold eackAsserts
  rw [out_assert, out_assert, List.append_assoc, gapSlot_kernel]
  refine ⟨_, rfl, fun e he => ?_⟩
  rcases List.mem_append.1 he with he | he
  · split at he
    · simp at he
    · exact ⟨_, List.mem_singleton.1 he, .inl rfl⟩
  · split at he
    · simp at he
    · rename_i hn
      refine ⟨_, List.mem_singleton.1 he, .inr ⟨rfl, fun h => hn ?_⟩⟩
      rw [h hr hf]
      rfl

theorem out_updateRcvWin (s : UtpSocket) :
    ∃ l, (s.updateRcvWin env).out = s.out ++ l ∧ ∀ e ∈ l, s.AckFailure e := by
  rw [updateRcvWin, out_setRecv, askRcvWindow, out_assert]
  refine ⟨_, rfl, fun e he => ?_⟩
  split at he
  · simp at he
  · exact ⟨_, List.mem_singleton.1 he, .inl rfl⟩

/-- What `send_ack` does: the kernel stays, and one STATE packet goes out. -/
def AckSent (s t : UtpSocket) : Prop :=
  t.kernel = s.kernel ∧ ∃ l b, s.kernel.StateBytes b ∧
    t.out = s.out ++ (l ++ [.sendTo b 0] ++ [.removeAck, .removeAck]) ∧ ∀ e ∈ l, s.AckFailure e

theorem sendEack_spec (synack : Bool) (s : UtpSocket) (hr : s.recv.reorderCount ≠ 0)
    (hf : s.recv.gotFinReached = false) :
    AckSent s (((s.eackAsserts synack).sendEack env).emit .removeAck) := by
  obtain ⟨l, ho, hl⟩ := out_eackAsserts synack s hr hf
  have hk := kernel_eackAsserts synack s
  generalize s.eackAsserts synack = t at ho hk
  have hst := stateHdr_ackHdr env t 1
  rw [hk] at hst
  refine ⟨hk, l, _, .eack hst rfl hr hf, ?_, hl⟩
  rw [out_emit, sendEack, out_sendData, ho, eackMask_kernel, hk]
  simp

theorem sendPlainAck_spec (s : UtpSocket)
    (h : ¬ (s.recv.reorderCount ≠ 0 ∧ s.recv.gotFinReached = false)) :
    AckSent s ((s.sendPlainAck env).emit .removeAck) := by
  refine ⟨rfl, [], _, .plain (stateHdr_ackHdr env s 0) rfl ?_, ?_, by simp⟩
  · by_contra hc
    push Not at hc
    exact h ⟨hc.1, Bool.eq_false_iff.2 hc.2⟩
  · rw [out_emit, sendPlainAck, out_sendData]
    simp
    rfl

theorem sendAck_spec (synack : Bool) (s : UtpSocket) : AckSent s (s.sendAck env synack) := by
  have hk := kernel_updateRcvWin env s
  obtain ⟨l, ho, hl⟩ := out_updateRcvWin env s
  unfold sendAck
  generalize s.updateRcvWin env = t at hk ho
  have h : AckSent t ((if t.recv.reorderCount ≠ 0 ∧ t.recv.gotFinReached = false then
      (t.eackAsserts synack).sendEack env else t.sendPlainAck env).emit .removeAck) := by
    split
    · exact sendEack_spec env synack t (by tauto) (by tauto)
    · exact sendPlainAck_spec env t ‹_›
  obtain ⟨hk', l', b, hb, ho', hl'⟩ := h
  unfold AckFailure at hl'
  rw [hk] at hb hl'
  refine ⟨hk'.trans hk, l ++ l', b, hb, ?_, fun e he => ?_⟩
  · rw [ho', ho]
    simp
  · rcases List.mem_append.1 he with he | he
    · exact hl e he
    · exact hl' e he

theorem runs_sendAck (synack : Bool) (s : UtpSocket) : Runs x [] s (s.sendAck env synack) := by
  obtain ⟨hk, l, b, hb, ho, hl⟩ := sendAck_spec env synack s
  refine runs_step (l := [.send b 0]) (by rw [hk]; exact .state hb) ho (fun e he => ?_)
    (.of_quiet (by simp [Effect.quiet]))
  rcases (hl e he).quiet_or with h | ⟨rfl, h⟩
  · exact .inl h
  · exact .inr ⟨_, rfl, .fail h⟩

theorem behind_ackNr (k : Kernel) : { k.behind with ackNr := k.behind.ackNr + 1 } = k := by
  unfold Kernel.behind
  simp

theorem kernel_sendKeepAlive (s : UtpSocket) : (s.sendKeepAlive env).kernel = s.kernel := by
  have hk : ((s.setRecv { s.recv with ackNr := s.recv.ackNr - 1 }).sendAck env false).kernel =
      s.kernel.behind := (sendAck_spec env false _).1
  unfold sendKeepAlive
  generalize (s.setRecv { s.recv with ackNr := s.recv.ackNr - 1 }).sendAck env false = t at hk
  rw [← behind_ackNr s.kernel, ← hk]
  rfl

theorem runs_sendKeepAlive (s : UtpSocket) : Runs .host [] s (s.sendKeepAlive env) := by
  obtain ⟨-, l, b, hb, ho, hl⟩ :=
    sendAck_spec env false (s.setRecv { s.recv with ackNr := s.recv.ackNr - 1 })
  have hr := kernel_sendKeepAlive env s
  unfold sendKeepAlive at hr ⊢
  generalize (s.setRecv { s.recv with ackNr := s.recv.ackNr - 1 }).sendAck env false = t at ho hr
  refine runs_step (l := [.send b 0]) (by rw [hr]; exact .keepAlive hb) ho (fun e he => ?_)
    (.of_quiet (by simp [Effect.quiet]))
  rcases (hl e he).quiet_or with h | ⟨rfl, h⟩
  · exact .inl h
  · exact .inr ⟨_, rfl, .failBehind h⟩

/-! `send_packet`. -/

theorem kernel_countPacket (p : OutgoingPacket) (s : UtpSocket) :
    (s.countPacket p).kernel = { s.kernel with
      inFlight := if p.transmissions = 0 ∨ p.needResend then s.kernel.inFlight + p.payload
        else s.kernel.inFlight } := by
  unfold countPacket
  split <;> rfl

theorem out_countPacket (p : OutgoingPacket) (s : UtpSocket) : (s.countPacket p).out = s.out := by
  unfold countPacket
  split <;> rfl

theorem quiet_rediscover (ms : UInt64) (s : UtpSocket) : Quiet s (s.rediscover env ms) :=
  .ite (fun _ => quiet_mtuReset env ms s) (fun _ => .refl s)

theorem quiet_startProbe (length : ℕ) (s : UtpSocket) : Quiet s (s.startProbe length) :=
  (quiet_setMtu _ s).trans ((quiet_assert _ _ rfl).trans (quiet_assert _ _ rfl))

theorem sent_sentPacket (s : UtpSocket) (timeSent : UInt64) (p : OutgoingPacket) :
    s.kernel.Sent p (s.sentPacket env timeSent p) :=
  ⟨rfl, rfl, rfl, rfl, rfl, rfl, rfl, rfl, rfl⟩

theorem kernel_putOutbuf (i : ℤ) (p : OutgoingPacket) (s : UtpSocket) :
    (s.putOutbuf i p).kernel =
      { s.kernel with outbuf := s.kernel.outbuf.setSlot (UInt16.ofInt i) (some p) } := by
  rw [putOutbuf, put_eq_setSlot]
  rfl

/-- The packet in the slot, as `send_packet` leaves it, and what it emits. -/
theorem sendPacket_spec {s : UtpSocket} {i : ℤ} {p : OutgoingPacket}
    (hp : s.send.outbuf.get i = some p) :
    ∃ p' flags l, s.kernel.Sent p p' ∧
      (s.sendPacket env i).kernel = s.kernel.transmit (UInt16.ofInt i) p p' ∧
      (s.sendPacket env i).out =
        s.out ++ (l ++ [.sendTo (p'.hdr.toBytes ++ p'.body) flags] ++ [.removeAck]) ∧
      ∀ e ∈ l, e.quiet := by
  unfold sendPacket
  rw [hp]
  dsimp only
  have hk₁ := kernel_countPacket p s.asked
  have ho₁ := out_countPacket p s.asked
  generalize s.asked.countPacket p = t at hk₁ ho₁
  obtain ⟨hk₂, l₂, ho₂, hq₂⟩ := quiet_rediscover env (env.milliseconds s.tick) t.asked
  generalize env.microseconds t.tick = time
  generalize t.asked.rediscover env (env.milliseconds s.tick) = u at hk₂ ho₂
  have hq₃ : Quiet u (if u.probes p then u.startProbe p.length else u) :=
    .ite (fun _ => quiet_startProbe _ _) (fun _ => .refl u)
  obtain ⟨hk₃, l₃, ho₃, hq₃⟩ := hq₃
  generalize (if u.probes p then u.startProbe p.length else u) = v at hk₃ ho₃
  have hkv : v.kernel = { s.kernel with
      inFlight := if p.transmissions = 0 ∨ p.needResend then s.kernel.inFlight + p.payload
        else s.kernel.inFlight } := by
    rw [hk₃, hk₂, kernel_asked, hk₁, kernel_asked]
  refine ⟨v.sentPacket env time p, if u.probes p then UTP_UDP_DONTFRAG else 0, l₂ ++ l₃,
    (sent_sentPacket env v time p).congr (by rw [hkv]), ?_, ?_, ?_⟩
  · rw [kernel_sendData, kernel_putOutbuf, hkv]
    rfl
  · rw [out_sendData, putOutbuf, out_setSend, ho₃, ho₂, out_asked, ho₁, out_asked]
    simp
  · intro e he
    rcases List.mem_append.1 he with he | he
    · exact hq₂ e he
    · exact hq₃ e he

theorem runs_sendPacket (i : ℤ) (s : UtpSocket) : Runs x [] s (s.sendPacket env i) := by
  cases hp : s.send.outbuf.get i with
  | none =>
    unfold sendPacket
    rw [hp]
    exact .refl s
  | some p =>
    obtain ⟨p', flags, l, hs, hk, ho, hl⟩ := sendPacket_spec env hp
    refine runs_step (l := [.send (p'.hdr.toBytes ++ p'.body) flags]) ?_ ho (.of_quiet hl)
      (.of_quiet (by simp [Effect.quiet]))
    rw [hk]
    exact .transmit ((get_eq_slot _ _).symm.trans hp) hs

/-! The flush. -/

theorem kernel_moveCursor (inPrefix : Bool) (i : UInt16) (s : UtpSocket) :
    (s.moveCursor inPrefix i).kernel =
      if inPrefix then { s.kernel with cursor := i + 1 } else s.kernel := by
  unfold moveCursor
  split <;> rfl

theorem out_moveCursor (inPrefix : Bool) (i : UInt16) (s : UtpSocket) :
    (s.moveCursor inPrefix i).out = s.out := by
  unfold moveCursor
  split <;> rfl

/-- The cursor moves over a settled slot. -/
theorem runs_moveCursor {inPrefix : Bool} {i : UInt16} {s : UtpSocket}
    (hb : inPrefix → s.kernel.flushBegin = i) (hi : i ≠ s.kernel.seqNr)
    (hs : settled (s.kernel.outbuf.slot i)) : Runs x [] s (s.moveCursor inPrefix i) := by
  cases inPrefix with
  | false => exact .refl s
  | true => exact .micro (l := []) (.scan (hb rfl) hi hs) (by simp [moveCursor])

theorem kernel_sendPacket_cursor (i : ℤ) (s : UtpSocket) :
    (s.sendPacket env i).kernel.cursor = s.kernel.cursor ∧
      (s.sendPacket env i).kernel.seqNr = s.kernel.seqNr ∧
      (s.sendPacket env i).kernel.cur = s.kernel.cur := by
  cases hp : s.send.outbuf.get i with
  | none =>
    unfold sendPacket
    rw [hp]
    exact ⟨rfl, rfl, rfl⟩
  | some p =>
    obtain ⟨p', flags, l, -, hk, -⟩ := sendPacket_spec env hp
    rw [hk]
    exact ⟨rfl, rfl, rfl⟩

theorem settled_sendPacket (i : UInt16) (s : UtpSocket) :
    settled ((s.sendPacket env i.toNat).kernel.outbuf.slot i) := by
  cases hp : s.send.outbuf.get i.toNat with
  | none =>
    unfold sendPacket
    rw [hp]
    show settled (s.send.outbuf.get i.toNat)
    rw [hp]
    rfl
  | some p =>
    obtain ⟨p', flags, l, hs, hk, -⟩ := sendPacket_spec env hp
    have hi : UInt16.ofInt (i.toNat : ℤ) = i := by
      have := ofInt_add i 0
      simpa using this
    rw [hk, hi]
    show settled ((s.kernel.outbuf.setSlot i (some p')).slot i)
    rw [slot_setSlot_self]
    simp [settled, hs.transmissions, hs.needResend]

theorem flushBegin_congr {k k' : Kernel} (hc : k'.cursor = k.cursor) (hs : k'.seqNr = k.seqNr)
    (hw : k'.cur = k.cur) : k'.flushBegin = k.flushBegin := by
  unfold Kernel.flushBegin Kernel.head
  rw [hc, hs, hw]

theorem flushBegin_moveCursor {inPrefix : Bool} {i : UInt16} {s : UtpSocket}
    (hb : inPrefix → s.kernel.flushBegin = i) (hi : i ≠ s.kernel.seqNr) :
    inPrefix → (s.moveCursor inPrefix i).kernel.flushBegin = i + 1 := by
  rintro rfl
  rw [kernel_moveCursor, if_pos rfl]
  exact Kernel.flushBegin_moved (hb rfl) hi

theorem seqNr_moveCursor (inPrefix : Bool) (i : UInt16) (s : UtpSocket) :
    (s.moveCursor inPrefix i).kernel.seqNr = s.kernel.seqNr := by
  rw [kernel_moveCursor]
  split <;> rfl

/-- The scan from `i`: while it is still in the prefix, `i` is where a flush would start. -/
theorem runs_flushLoop (packetSize n : ℕ) {i : UInt16} {inPrefix : Bool} {s : UtpSocket}
    (hn : (s.kernel.seqNr - i).toNat = n) (hb : inPrefix → s.kernel.flushBegin = i) :
    Runs x [] s (s.flushLoop env packetSize n i inPrefix).2 := by
  induction n generalizing i inPrefix s with
  | zero => exact .refl s
  | succ n ih =>
    have hi : i ≠ s.kernel.seqNr := by
      rintro rfl
      simp at hn
    have hn' : (s.kernel.seqNr - (i + 1)).toNat = n := by
      rw [show s.kernel.seqNr - (i + 1) = s.kernel.seqNr - i - 1 by grind, UInt16.toNat_sub, hn]
      have := (s.kernel.seqNr - i).toNat_lt
      rw [UInt16.toNat_one]
      omega
    unfold flushLoop
    split
    · rename_i hs
      refine (runs_moveCursor hb hi hs).trans_nil (ih ?_ (flushBegin_moveCursor hb hi))
      rw [seqNr_moveCursor, hn']
    · have hq := quiet_isFull (-1) s
      generalize s.isFull (-1) = r at hq
      have hn₂ : (r.2.kernel.seqNr - (i + 1)).toNat = n := by rw [hq.1, hn']
      have hb₂ : inPrefix → r.2.kernel.flushBegin = i := by rw [hq.1]; exact hb
      have hi₂ : i ≠ r.2.kernel.seqNr := by rw [hq.1]; exact hi
      dsimp only
      split_ifs
      · exact .of_quiet hq
      · obtain ⟨hc, hs, hw⟩ := kernel_sendPacket_cursor env i.toNat r.2
        have hb₃ : inPrefix → (r.2.sendPacket env i.toNat).kernel.flushBegin = i := by
          rw [flushBegin_congr hc hs hw]
          exact hb₂
        rw [← hs] at hi₂ hn₂
        refine (Runs.quiet_trans hq (runs_sendPacket env i.toNat r.2)).trans_nil ?_
        refine (runs_moveCursor hb₃ hi₂ (settled_sendPacket env i r.2)).trans_nil ?_
        refine ih ?_ (flushBegin_moveCursor hb₃ hi₂)
        rw [seqNr_moveCursor, hn₂]
      · exact .quiet_trans hq (ih hn₂ (by simp))

theorem runs_flushPackets (s : UtpSocket) : Runs x [] s (s.flushPackets env).2 :=
  runs_flushLoop env _ _ rfl (fun _ => rfl)

theorem frame_sendPacket (i : ℤ) (s : UtpSocket) :
    s.kernel.Frame (s.sendPacket env i).kernel := by
  cases hp : s.send.outbuf.get i with
  | none =>
    unfold sendPacket
    rw [hp]
    exact .refl _
  | some p =>
    obtain ⟨p', flags, l, -, hk, -⟩ := sendPacket_spec env hp
    rw [hk]
    exact ⟨_, _, _, _, _, rfl⟩

theorem frame_flushLoop (packetSize n : ℕ) (i : UInt16) (inPrefix : Bool) (s : UtpSocket) :
    s.kernel.Frame (s.flushLoop env packetSize n i inPrefix).2.kernel := by
  have hmove (j : UInt16) (u : UtpSocket) : u.kernel.Frame (u.moveCursor inPrefix j).kernel := by
    rw [kernel_moveCursor]
    split <;> exact ⟨_, _, _, _, _, rfl⟩
  induction n generalizing i inPrefix s with
  | zero => exact .refl _
  | succ n ih =>
    unfold flushLoop
    split
    · exact (hmove _ _).trans (ih _ _ _ hmove)
    · have hk := (quiet_isFull (-1) s).1
      generalize s.isFull (-1) = r at hk
      dsimp only
      rw [← hk]
      split_ifs
      · exact .refl _
      · exact ((frame_sendPacket env _ _).trans (hmove _ _)).trans (ih _ _ _ hmove)
      · exact ih _ _ _ (by simp [moveCursor, Kernel.Frame.refl])

theorem frame_flushPackets (s : UtpSocket) : s.kernel.Frame (s.flushPackets env).2.kernel :=
  frame_flushLoop env _ _ _ _ s

end UtpSocket

end Utp
