import LibUtp.Kernel.Writing
import LibUtp.Kernel.Receiving

/-! The remaining operations: a whole incoming packet, the timer, and the calls of
the application and the context. -/

namespace Utp

open Lts SequenceBuffer

namespace Kernel

/-- The first packet seen in `CS_SYN_SENT` fixes what is expected next. -/
def expect (k : Kernel) (pp : ParsedPacket) : Kernel :=
  if k.state = .synSent then { k with ackNr := pp.seqNr - 1 } else k

end Kernel

namespace UtpSocket

variable (env : Env) {x : Input}

/-! An incoming packet. -/

/-- The packet passes the tests before the acknowledgement part. -/
def Accepts (s : UtpSocket) (pp : ParsedPacket) : Prop :=
  s.invalidAck pp = false ∧ ((s.kernel.expect pp).seqDistance pp).toNat < REORDER_BUFFER_MAX_SIZE

instance (s : UtpSocket) (pp : ParsedPacket) : Decidable (s.Accepts pp) :=
  inferInstanceAs (Decidable (_ ∧ _))

/-- `t` is `s` that expects what `pp` brings, with quiet effects. -/
def Expecting (pp : ParsedPacket) (s t : UtpSocket) : Prop :=
  t.kernel = s.kernel.expect pp ∧ ∃ l, t.out = s.out ++ l ∧ ∀ e ∈ l, Effect.quiet e

/-- What a packet `pp` does, without or with its acknowledgement part. -/
inductive Received (pp : ParsedPacket) (s s' : UtpSocket) : Prop
  | brief (h : Expecting pp s s')
  | full {t u v} (hacc : s.Accepts pp) (h₁ : Expecting pp s t) (ha : Advanced pp t u)
      (h₂ : Runs (.eack pp) [] u v) (h₃ : Delivered pp v s')

theorem kernel_synSentAck (pp : ParsedPacket) (s : UtpSocket) :
    (s.synSentAck pp).kernel = s.kernel.expect pp := by
  have h : s.kernel.state = s.conn.state := rfl
  unfold synSentAck Kernel.expect
  rw [h]
  split <;> rfl

theorem Expecting.trans_quiet {pp : ParsedPacket} {s t u : UtpSocket} (h : Expecting pp s t)
    (h' : Quiet t u) : Expecting pp s u := by
  obtain ⟨hk, l, ho, hl⟩ := h
  obtain ⟨hk', l', ho', hl'⟩ := h'
  refine ⟨hk'.trans hk, l ++ l', by rw [ho', ho, List.append_assoc], fun e he => ?_⟩
  rcases List.mem_append.1 he with he | he
  · exact hl e he
  · exact hl' e he

theorem Expecting.quiet_trans {pp : ParsedPacket} {s t u : UtpSocket} (h : Quiet s t)
    (h' : Expecting pp t u) : Expecting pp s u := by
  obtain ⟨hk, l, ho, hl⟩ := h
  obtain ⟨hk', l', ho', hl'⟩ := h'
  refine ⟨by rw [hk', hk], l ++ l', by rw [ho', ho, List.append_assoc], fun e he => ?_⟩
  rcases List.mem_append.1 he with he | he
  · exact hl e he
  · exact hl' e he

theorem Expecting.runs {pp : ParsedPacket} {s t : UtpSocket} (h : Expecting pp s t) :
    Runs (.packet pp) [] s t := by
  obtain ⟨hk, l, ho, hl⟩ := h
  by_cases hst : s.kernel.state = .synSent
  · have hm : Kernel.Micro (.packet pp) s.kernel [] t.kernel := by
      rw [hk, Kernel.expect, if_pos hst]
      exact .synSentAck hst
    exact runs_step (u := l) (v := []) (l := []) hm (by rw [ho]; simp) (.of_quiet hl) (by simp)
  · rw [Kernel.expect, if_neg hst] at hk
    exact .of_quiet ⟨hk, l, ho, hl⟩

theorem expecting_synSentAck (pp : ParsedPacket) (s : UtpSocket) :
    Expecting pp s (s.synSentAck pp) := by
  refine ⟨kernel_synSentAck pp s, [], ?_, by simp⟩
  unfold synSentAck
  split <;> simp

theorem Advanced.ackNr {pp : ParsedPacket} {s t : UtpSocket} (h : Advanced pp s t) :
    t.kernel.ackNr = s.kernel.ackNr := by
  obtain ⟨pre, acts, -, hm, -⟩ := h
  exact hm.ackNr_ack

theorem ackNr_of_eack {pp : ParsedPacket} {b : Bytes} {s t : UtpSocket}
    (h : Runs (.eack pp) b s t) : t.kernel.ackNr = s.kernel.ackNr := by
  obtain ⟨acts, ht, -⟩ := h
  exact ht.invariant (I := fun k => k.ackNr = s.kernel.ackNr)
    (fun _ _ _ hk hm => hm.ackNr_eack.trans hk) rfl

theorem invalidAck_congr {s t : UtpSocket} (h : t.kernel = s.kernel) (pp : ParsedPacket) :
    t.invalidAck pp = s.invalidAck pp := by
  obtain ⟨hst, hseq, hcur, -⟩ := fields_of_kernel h
  unfold invalidAck
  rw [hst, hseq, hcur]

/-- Behind the acceptance tests. -/
theorem received_deliver (pp : ParsedPacket) (time : UInt64) {s t : UtpSocket}
    (hacc : s.Accepts pp) (h₁ : Expecting pp s t) : Received pp s (let u := t.processAck env pp time
      if pp.type = ST_STATE then u
      else if u.conn.state ≠ .connected ∧ u.conn.state ≠ .connectedFull then u
      else u.deliverData env pp (t.kernel.seqDistance pp)) := by
  have he := h₁.1
  have hs : t.kernel.state = .synSent → t.kernel.ackNr = pp.seqNr - 1 := by
    rw [he]
    unfold Kernel.expect
    split
    · exact fun _ => rfl
    · exact fun h => absurd h ‹_›
  have hd : (t.kernel.seqDistance pp).toNat < 1024 := by
    rw [he]
    exact hacc.2
  obtain ⟨t', u, hq, ha, hr⟩ := processAck_spec env pp time hs
  have hack := (ackNr_of_eack hr).trans (ha.ackNr.trans (congrArg Kernel.ackNr hq.1))
  generalize t.processAck env pp time = v at hr hack ⊢
  refine .full hacc (h₁.trans_quiet hq) ha hr ?_
  dsimp only
  split_ifs with ht hst
  · exact .ignored rfl
  · exact .ignored rfl
  have hopen : v.kernel.IsOpen := by
    by_contra hc
    exact hst ⟨fun h => hc (.inl h), fun h => hc (.inr h)⟩
  have hsd : t.kernel.seqDistance pp = v.kernel.seqDistance pp := by
    unfold Kernel.seqDistance
    rw [hack]
  rw [hsd] at hd ⊢
  exact delivered_deliverData env hopen hd ht

theorem received_processValid {pp : ParsedPacket} (time : UInt64) {s : UtpSocket}
    (hv : s.invalidAck pp = false) : Received pp s (s.processValid env pp time false) := by
  unfold processValid
  set t := (s.assert (pp.type ≠ ST_RESET) .incomingReset).synSentAck pp with ht
  have hr : Expecting pp s t := .quiet_trans (quiet_assert _ s rfl) (expecting_synSentAck pp _)
  have hq := quiet_setTiming { t.timing with lastGotPacket := t.currentMs } t
  dsimp only
  generalize t.setTiming { t.timing with lastGotPacket := t.currentMs } = u at hq ⊢
  have hr' := hr.trans_quiet hq
  rw [if_neg (by simp)]
  by_cases h : REORDER_BUFFER_MAX_SIZE ≤ (u.seqDistance pp).toNat
  · rw [if_pos h]
    split
    · exact .brief (hr'.trans_quiet (quiet_scheduleAck _))
    · exact .brief hr'
  · rw [if_neg h]
    refine received_deliver env pp time ⟨hv, ?_⟩ hr'
    rw [← hr'.1]
    exact not_le.1 h

/-- A datagram is dropped, or is looked at as the packet it parses to. -/
theorem received_processIncoming (b : Bytes) (s : UtpSocket) :
    Quiet s (s.processIncoming env b false) ∨
      ∃ pp, (parseBytes b s.conn.extensions).1 = some pp ∧
        Received pp s (s.processIncoming env b false) := by
  unfold processIncoming
  have hq : Quiet s ((s.refreshClock env).parsePacket b).2 :=
    (quiet_refreshClock env s).trans (quiet_parsePacket b _)
  have hp : ((s.refreshClock env).parsePacket b).1 = (parseBytes b s.conn.extensions).1 := rfl
  generalize (s.refreshClock env).parsePacket b = r at hq hp ⊢
  dsimp only
  cases hr : r.1 with
  | none => exact .inl hq
  | some pp =>
    have hq' := hq.trans (quiet_asked r.2)
    dsimp only
    split
    · exact .inl hq'
    · rename_i hv
      refine .inr ⟨pp, hp.symm.trans hr, ?_⟩
      have hv := Bool.eq_false_iff.2 hv
      have h := received_processValid env (env.microseconds r.2.tick) hv
      cases h with
      | brief h => exact .brief (.quiet_trans hq' h)
      | full hacc h₁ ha h₂ h₃ =>
        refine .full ⟨?_, ?_⟩ (.quiet_trans hq' h₁) ha h₂ h₃
        · rw [← invalidAck_congr hq'.1]
          exact hv
        · rw [← hq'.1]
          exact hacc.2

/-- The SYN itself, on the socket made for it. -/
theorem quiet_processIncoming_syn (b : Bytes) {s : UtpSocket} (h : s.kernel.state = .synRecv) :
    Quiet s (s.processIncoming env b true) := by
  unfold processIncoming
  have hq : Quiet s ((s.refreshClock env).parsePacket b).2 :=
    (quiet_refreshClock env s).trans (quiet_parsePacket b _)
  generalize (s.refreshClock env).parsePacket b = r at hq ⊢
  dsimp only
  split
  · exact hq
  · rename_i pp hr
    have hq' := hq.trans (quiet_asked r.2)
    refine .ite (fun _ => hq') (fun _ => hq'.trans ?_)
    unfold processValid
    dsimp only
    rw [if_pos rfl]
    have hq₂ : Quiet r.2.asked (r.2.asked.assert (pp.type ≠ ST_RESET) .incomingReset) :=
      quiet_assert _ _ rfl
    generalize r.2.asked.assert (pp.type ≠ ST_RESET) .incomingReset = t at hq₂ ⊢
    have hst : t.kernel.state = .synRecv := by rw [hq₂.1, hq'.1, h]
    have hsame : t.synSentAck pp = t := by
      unfold synSentAck
      refine if_neg fun hc => ?_
      rw [show t.conn.state = .synRecv from hst] at hc
      cases hc
    rw [hsame]
    exact hq₂.trans (quiet_setTiming _ t)

/-! The timer. -/

theorem outstandingBytes_kernel (s : UtpSocket) : s.outstandingBytes = s.kernel.outstanding := by
  unfold outstandingBytes Kernel.outstanding
  refine Finset.sum_congr rfl fun i _ => ?_
  have h : UInt16.ofInt ((s.send.seqNr.toNat : ℤ) - i - 1) = s.send.seqNr - 1 - UInt16.ofNat i := by
    apply UInt16.toNat.inj
    have := toNat_ofInt ((s.send.seqNr.toNat : ℤ) - i - 1)
    simp only [UInt16.toNat_sub, UInt16.toNat_ofNat', UInt16.toNat_one]
    omega
  rw [get_eq_slot, h]
  rfl

theorem runs_checkInvariant (s : UtpSocket) : Runs .host [] s s.checkInvariant := by
  unfold checkInvariant
  have hgap : (0 < s.recv.reorderCount → (s.recv.inbuf.get (s.recv.ackNr.toNat + 1)).isNone) ↔
      s.kernel.GapFree := by
    rw [gapSlot_kernel, Option.isNone_iff_eq_none]
    rfl
  refine (runs_assert _ .invariantGap s fun h => .failGap (hgap.not.1 h)).trans_nil ?_
  have hk := kernel_assert (0 < s.recv.reorderCount →
    (s.recv.inbuf.get (s.recv.ackNr.toNat + 1)).isNone) .invariantGap s
  generalize s.assert (0 < s.recv.reorderCount →
    (s.recv.inbuf.get (s.recv.ackNr.toNat + 1)).isNone) .invariantGap = t at hk ⊢
  refine runs_assert _ .invariantInFlight t fun h => .fail ?_
  rw [outstandingBytes_kernel] at h
  rw [hk]
  exact h

theorem kernel_checkInvariant (s : UtpSocket) : s.checkInvariant.kernel = s.kernel := by
  unfold checkInvariant
  rw [kernel_assert, kernel_assert]

/-- The packets in flight are marked, the cursor already at the head. -/
theorem trace_markLoop (n i : ℕ) (s : UtpSocket) :
    ∃ acts, Trace (Kernel.Micro .host) { s.kernel with cursor := s.kernel.head } acts
        { (s.markLoop n i).kernel with cursor := s.kernel.head } ∧
      (s.markLoop n i).out = s.out ++ acts.flatMap Act.effects ∧ acts.flatMap Act.taken = [] ∧
      (s.markLoop n i).kernel.head = s.kernel.head := by
  induction n generalizing i s with
  | zero => exact ⟨[], .refl _, by simp [markLoop], rfl, rfl⟩
  | succ n ih =>
    unfold markLoop
    dsimp only
    cases hp : s.send.outbuf.get ((s.send.seqNr.toNat : ℤ) - i - 1) with
    | none => exact ih (i + 1) s
    | some p =>
      dsimp only
      split
      · exact ih (i + 1) s
      · rename_i h
        push Not at h
        rw [get_eq_slot] at hp
        rw [put_eq_setSlot]
        generalize UInt16.ofInt ((s.send.seqNr.toNat : ℤ) - i - 1) = q at hp ⊢
        set t := s.setSend { s.send with
          outbuf := s.send.outbuf.setSlot q (some { p with needResend := true }) } with ht
        have htk : t.kernel = { s.kernel with
            outbuf := s.kernel.outbuf.setSlot q (some { p with needResend := true }) } := rfl
        have hto : t.out = s.out := rfl
        have hk := kernel_removeInFlight p.payload t
        have ho := out_removeInFlight p.payload t
        rw [htk, hto] at ho
        rw [htk] at hk
        generalize t.removeInFlight p.payload = u at hk ho ⊢
        obtain ⟨acts, h1, h2, h3, h4⟩ := ih (i + 1) u
        have hhead : u.kernel.head = s.kernel.head := by rw [hk]; rfl
        have hn : p.needResend = false := Bool.eq_false_iff.2 h.2
        have hm := Kernel.Micro.mark (k := { s.kernel with cursor := s.kernel.head }) (q := q) (p := p)
          rfl hp (Nat.pos_of_ne_zero h.1) hn
        rw [hhead, hk] at h1
        refine ⟨_, .head hm h1, ?_, ?_, by rw [h4, hhead]⟩
        · rw [h2, ho, List.flatMap_append, List.append_assoc]
          congr 1
          congr 1
          unfold Kernel.removal
          by_cases hle : p.payload ≤ s.kernel.inFlight <;> simp [hle, hn, Act.effects]
        · rw [List.flatMap_append, h3]
          unfold Kernel.removal
          split <;> rfl

theorem runs_markWindow (s : UtpSocket) : Runs .host [] s s.markWindow := by
  unfold markWindow
  obtain ⟨acts, h1, h2, h3, h4⟩ := trace_markLoop s.send.curWindowPackets.toNat 0 s
  dsimp only
  generalize s.markLoop s.send.curWindowPackets.toNat 0 = t at h1 h2 h4 ⊢
  have hk : (t.setSend { t.send with flushScanStart := t.windowStart }).kernel =
      { t.kernel with cursor := s.kernel.head } := by
    rw [← h4]
    rfl
  refine ⟨acts, ?_, h2, h3⟩
  rw [hk]
  exact .head .rewind h1

theorem runs_resendHead (s : UtpSocket) : Runs .host [] s (s.resendHead env) := by
  unfold resendHead
  refine .ite (fun hc => ?_) (fun _ => .refl s)
  have hq : Quiet s ((s.setCc { s.cc with retransmitCount := s.cc.retransmitCount + 1 }).setTiming
      { s.timing with fastTimeout := true, timeoutSeqNr := s.send.seqNr }) :=
    Quiet.trans (quiet_setCc rfl) (quiet_setTiming _ _)
  have hcur : s.kernel.cur ≠ 0 := fun h => by
    have h : s.send.curWindowPackets = 0 := h
    rw [h] at hc
    exact absurd hc (by decide)
  refine .quiet_trans hq ?_
  rw [← hq.1] at hcur
  generalize (s.setCc { s.cc with retransmitCount := s.cc.retransmitCount + 1 }).setTiming
      { s.timing with fastTimeout := true, timeoutSeqNr := s.send.seqNr } = t at hcur ⊢
  refine (runs_assert _ .timeoutResend t fun h => .fail fun ha => ?_).trans_nil
    (runs_sendPacket env _ _)
  rw [get_headIdx] at h
  rcases ha with ha | ha
  · exact hcur ha
  · exact h ha

theorem runs_timeOut {st : ConnState} {s : UtpSocket}
    (h : Kernel.Micro x s.kernel [.error .timedOut] { s.kernel with state := st }) :
    Runs x [] s (s.timeOut st) :=
  .micro (t := s.timeOut st) h rfl

theorem micro_timeout {k : Kernel} {st : ConnState} (h : timeoutActive k.state) (hst : k.gaveUp = st) :
    Kernel.Micro .host k [.error .timedOut] { k with state := st } := by
  subst hst
  exact .timeout h

theorem runs_rtoExpired {s : UtpSocket} (h : timeoutActive s.kernel.state) :
    Runs .host [] s (s.rtoExpired env).2 := by
  have hq := quiet_probeTimeout s
  unfold rtoExpired
  generalize s.probeTimeout = r at hq ⊢
  rw [← hq.1] at h
  dsimp only
  split_ifs with h1 h2 h3
  · exact .quiet_trans hq (runs_timeOut (micro_timeout h (if_pos (.inl h1))))
  · exact .quiet_trans hq (runs_timeOut (micro_timeout h (if_pos (.inr h3))))
  · exact .quiet_trans hq (runs_timeOut (micro_timeout h (if_neg (not_or.2 ⟨h1, h3⟩))))
  · exact (Runs.quiet_trans (hq.trans (quiet_backOff _ _)) (runs_markWindow _)).trans_nil
      (runs_resendHead env _)

theorem runs_keepAlive (s : UtpSocket) : Runs .host [] s (s.keepAlive env) := by
  unfold keepAlive
  exact .ite (fun _ => runs_sendKeepAlive env s) (fun _ => .refl s)

theorem runs_checkTimeouts (s : UtpSocket) : Runs .host [] s (s.checkTimeouts env) := by
  unfold checkTimeouts
  have h₁ : Runs .host [] s (s.checkInvariant.assert s.headPresent .timeoutHead) := by
    refine (runs_checkInvariant s).trans_nil (runs_assert _ _ _ fun h => .fail ?_)
    rw [headPresent_kernel, ← kernel_checkInvariant] at h
    exact h
  generalize s.checkInvariant.assert s.headPresent .timeoutHead = t at h₁ ⊢
  have h₂ : Runs .host [] t (if t.conn.state ≠ .destroy then (t.flushPackets env).2 else t) :=
    .ite (fun _ => runs_flushPackets env t) (fun _ => .refl t)
  dsimp only
  generalize (if t.conn.state ≠ .destroy then (t.flushPackets env).2 else t) = u at h₂ ⊢
  refine (h₁.trans_nil h₂).trans_nil (.ite (fun ha => ?_) (fun _ => .refl u))
  have hq := quiet_reopenWindow u
  generalize u.reopenWindow = v at hq ⊢
  have ha' : timeoutActive v.kernel.state := by rw [hq.1]; exact ha
  have h₃ : Runs .host [] v (if v.cc.isRtoExpired v.currentMs then v.rtoExpired env
      else (false, v)).2 := by
    split
    · exact runs_rtoExpired env ha'
    · exact .refl v
  generalize (if v.cc.isRtoExpired v.currentMs then v.rtoExpired env else (false, v)) = r at h₃ ⊢
  refine .quiet_trans hq (.ite (fun _ => h₃) (fun _ => h₃.trans_nil ?_))
  exact (runs_becomeWritable _).trans_nil (runs_keepAlive env _)

/-! The calls of the application and the context. -/

theorem runs_readDrained (s : UtpSocket) : Runs .host [] s (s.readDrained env) := by
  unfold readDrained
  have hq := quiet_assert (s.conn.state ≠ .uninitialized) (a := .readDrainedState) s rfl
  generalize s.assert (s.conn.state ≠ .uninitialized) .readDrainedState = t at hq ⊢
  refine .quiet_trans hq (.ite (fun _ => .refl t) (fun _ => ?_))
  refine .quiet_trans (quiet_askRcvWindow env t) ?_
  refine .ite (fun _ => .ite (fun _ => runs_sendAck env false _) (fun _ => ?_)) (fun _ => .refl _)
  exact .of_quiet ((quiet_refreshClock env _).trans (quiet_scheduleAck _))

theorem runs_markReadShutdown (s : UtpSocket) : Runs .api [] s s.markReadShutdown :=
  .micro (l := []) .readShutdown (by simp [markReadShutdown])

theorem runs_setDestroy (hx : x = .api ∨ x = .host) (s : UtpSocket) :
    Runs x [] s (s.setState .destroy) :=
  .micro (l := []) (.destroy hx) (by simp)

theorem runs_closeConnected {s : UtpSocket} (ho : s.kernel.IsOpen) :
    Runs .api [] s (s.closeConnected env) := by
  unfold closeConnected
  refine (runs_markReadShutdown s).trans_nil ?_
  have ho' : s.markReadShutdown.kernel.IsOpen := ho
  generalize s.markReadShutdown = t at ho' ⊢
  have hk : t.requestClose.kernel =
      { t.kernel with closeRequested := t.kernel.closeRequested || true } := by
    rw [Bool.or_true]
    rfl
  have hout : t.requestClose.out = t.out := rfl
  have hfin : t.requestClose.send.finSent = t.kernel.finSent := rfl
  have hack : t.requestClose.send.finSentAcked = t.kernel.finSentAcked := rfl
  dsimp only
  rw [hfin, hack]
  split
  · exact runs_sendFin env ho' ‹_› hk hout
  · rename_i hf
    have hm := Kernel.Micro.closeAgain (Bool.of_not_eq_false hf) ho'
    rw [Bool.or_true] at hk
    split
    · rename_i ha
      rw [if_pos ha] at hm
      refine .micro (l := []) (t := t.requestClose.setState .destroy) ?_ (by simp [hout])
      rw [kernel_setState, hk]
      exact hm
    · rename_i ha
      rw [if_neg ha] at hm
      refine .micro (l := []) ?_ (by simp [hout])
      rw [hk]
      exact hm

theorem runs_close (s : UtpSocket) : Runs .api [] s (s.close env) := by
  unfold close
  have hq := quiet_assert (s.conn.state ≠ .uninitialized ∧ s.conn.state ≠ .destroy)
    (a := .closeState) s rfl
  generalize s.assert (s.conn.state ≠ .uninitialized ∧ s.conn.state ≠ .destroy) .closeState = t
    at hq ⊢
  refine .quiet_trans hq ?_
  dsimp only
  split
  · exact runs_closeConnected env (.inl ‹_›)
  · exact runs_closeConnected env (.inr ‹_›)
  · exact .quiet_trans (quiet_backoffRtoForClose env t) (runs_setDestroy (.inl rfl) _)
  · exact runs_setDestroy (.inl rfl) t

theorem runs_shutdown (how : ShutdownHow) (s : UtpSocket) :
    Runs .api [] s (s.shutdown env how) := by
  unfold shutdown
  have hq := quiet_assert (s.conn.state ≠ .uninitialized ∧ s.conn.state ≠ .destroy)
    (a := .closeState) s rfl
  generalize s.assert (s.conn.state ≠ .uninitialized ∧ s.conn.state ≠ .destroy) .closeState = t
    at hq ⊢
  have hm : Runs .api [] t (if how ≠ .wr then t.markReadShutdown else t) :=
    .ite (fun _ => runs_markReadShutdown t) (fun _ => .refl t)
  dsimp only
  generalize (if how ≠ .wr then t.markReadShutdown else t) = u at hm ⊢
  refine (Runs.quiet_trans hq hm).trans_nil ?_
  have hfin (ho : u.kernel.IsOpen) : Runs .api [] u
      (if how ≠ .rd ∧ u.send.finSent = false then u.sendFin env else u) :=
    .ite (fun h => runs_sendFin env (c := false) ho h.2 (by rw [Bool.or_false]) rfl)
      (fun _ => .refl u)
  split
  · exact hfin (.inl ‹_›)
  · exact hfin (.inr ‹_›)
  · exact .ite (fun _ => .of_quiet (quiet_backoffRtoForClose env u)) (fun _ => .refl u)
  · exact .refl u

/-- The code is chosen from the state that the handler itself has set. -/
theorem brokenState_ne (s : UtpSocket) : s.brokenState ≠ .synSent := by
  unfold brokenState
  split <;> simp

theorem onReset_eq (s : UtpSocket) :
    s.onReset = (s.setState s.brokenState).emit (.onError .connReset) :=
  congrArg (fun code => (s.setState s.brokenState).emit (.onError code)) (if_neg s.brokenState_ne)

theorem runs_broken {s : UtpSocket} {code : ErrorCode}
    (h : code = .connReset ∨ code = .connRefused ∧ s.kernel.state = .synSent) :
    Runs .broken [] s ((s.setState s.brokenState).emit (.onError code)) :=
  .micro (t := (s.setState s.brokenState).emit (.onError code)) (.broken h) rfl

theorem runs_onReset (s : UtpSocket) : Runs .broken [] s s.onReset := by
  rw [onReset_eq]
  exact runs_broken (.inl rfl)

theorem runs_onIcmpError (s : UtpSocket) : Runs .broken [] s s.onIcmpError := by
  unfold onIcmpError
  refine .ite (fun _ => .refl s) (fun _ => runs_broken ?_)
  by_cases hs : s.conn.state = .synSent
  · rw [if_pos hs]
    exact .inr ⟨rfl, hs⟩
  · rw [if_neg hs]
    exact .inl rfl

theorem runs_connectAgain (s : UtpSocket) : Runs .host [] s s.connectAgain :=
  .quiet_trans (quiet_assert _ s rfl) (runs_setDestroy (.inr rfl) _)

/-! Connection set-up. -/

/-- `s'` has the kernel `k` and has only sent quiet effects. -/
def QuietTo (s : UtpSocket) (k : Kernel) (s' : UtpSocket) : Prop :=
  s'.kernel = k ∧ ∃ l, s'.out = s.out ++ l ∧ ∀ e ∈ l, Effect.quiet e

theorem QuietTo.trans_quiet {s t u : UtpSocket} {k : Kernel} (h : QuietTo s k t) (h' : Quiet t u) :
    QuietTo s k u := by
  obtain ⟨hk, l, ho, hl⟩ := h
  obtain ⟨hk', l', ho', hl'⟩ := h'
  refine ⟨hk'.trans hk, l ++ l', by rw [ho', ho, List.append_assoc], fun e he => ?_⟩
  rcases List.mem_append.1 he with he | he
  · exact hl e he
  · exact hl' e he

theorem curWindow_initTiming (c : LedbatController) (now : UInt64) :
    ((c.initTiming now).initDelayHistories now).curWindow = c.curWindow := by
  rw [LedbatController.initDelayHistories, LedbatController.initTiming]

theorem initializeSocket_spec (addr : Address) (seed idRecv idSend : UInt32) (s : UtpSocket) :
    QuietTo s { s.kernel with state := .idle, idRecv := idRecv, idSend := idSend }
      (s.initializeSocket env addr seed idRecv idSend) := by
  unfold initializeSocket
  set t : UtpSocket := { s with conn := { s.conn with
    state := .idle
    connSeed := seed
    connIdRecv := idRecv
    connIdSend := idSend
    addr := addr } } with ht
  have h₀ : QuietTo s { s.kernel with state := .idle, idRecv := idRecv, idSend := idSend } t :=
    ⟨rfl, [], (List.append_nil _).symm, by simp⟩
  have h₁ := h₀.trans_quiet (quiet_refreshClock env t)
  dsimp only
  generalize t.refreshClock env = u at h₁ ⊢
  have h₂ := h₁.trans_quiet (quiet_setTiming { u.timing with
    lastGotPacket := u.currentMs
    lastSentPacket := u.currentMs
    lastMeasuredDelay := u.currentMs + 0x70000000 } u)
  generalize u.setTiming { u.timing with
    lastGotPacket := u.currentMs
    lastSentPacket := u.currentMs
    lastMeasuredDelay := u.currentMs + 0x70000000 } = v at h₂ ⊢
  have h₃ := h₂.trans_quiet (quiet_setCc (curWindow_initTiming v.cc u.currentMs))
  exact ((h₃.trans_quiet (quiet_mtuReset env _ _)).trans_quiet (quiet_setMtu _ _)).trans_quiet
    (quiet_setCc rfl)

theorem syn_synHdr (s : UtpSocket) : s.kernel.Syn { hdr := s.synHdr, body := [] } where
  type := by
    show (freshHdr ST_SYN).type = ST_SYN
    decide
  version := by
    show (freshHdr ST_SYN).version = 1
    decide
  ext := rfl
  connid := rfl
  seqNr := rfl
  body := rfl
  transmissions := rfl
  needResend := rfl

theorem quiet_armSyn (s : UtpSocket) : Quiet s s.armSyn := quiet_setCc rfl

theorem drawSeqNr_spec (s : UtpSocket) :
    ∃ seq, (s.drawSeqNr env).kernel = { s.kernel with seqNr := seq } ∧
      (s.drawSeqNr env).out = s.out := ⟨(env.random s.tick).toUInt16, rfl, rfl⟩

/-- The SYN that goes out, and the kernel behind it. -/
def Dialled (s : UtpSocket) (seed : UInt32) (t : UtpSocket) : Prop :=
  ∃ seq p p' flags l, (s.kernel.dial seed seq).Syn p ∧
    ((s.kernel.dial seed seq).queue p).Sent p p' ∧
    t.kernel = ((s.kernel.dial seed seq).queue p).transmit seq p p' ∧
    t.out = s.out ++ (l ++ [.sendTo (p'.hdr.toBytes ++ p'.body) flags] ++ [.removeAck]) ∧
    ∀ e ∈ l, Effect.quiet e

/-- The SYN is queued and sent at once. -/
theorem queueSyn_spec {s z : UtpSocket} (seed : UInt32) (seq : UInt16)
    (hz : QuietTo s (s.kernel.dial seed seq) z) :
    Dialled s seed (z.queueSyn.sendPacket env (z.queueSyn.send.seqNr - 1).toNat) := by
  obtain ⟨hzk, l', hol', hql'⟩ := hz
  have hsyn := syn_synHdr z
  unfold queueSyn
  have hk := kernel_enqueue { hdr := z.synHdr, body := [] } z
  have ho := out_enqueue { hdr := z.synHdr, body := [] } z
  generalize ({ hdr := z.synHdr, body := [] } : OutgoingPacket) = p at hsyn hk ho ⊢
  generalize z.enqueue p = q at hk ho ⊢
  rw [hzk] at hsyn hk
  have hseq : q.send.seqNr - 1 = seq := by
    have : q.send.seqNr = seq + 1 := congrArg Kernel.seqNr hk
    rw [this]
    grind
  rw [hseq]
  have hslot : q.send.outbuf.get seq.toNat = some p := by
    have : q.send.outbuf = ((s.kernel.dial seed seq).queue p).outbuf := congrArg Kernel.outbuf hk
    rw [this]
    exact slot_setSlot_self _ _ _
  obtain ⟨p', flags, l, hsent, hk', ho', hl⟩ := sendPacket_spec env hslot
  have h0 : UInt16.ofInt (seq.toNat : ℤ) = seq := by simpa using ofInt_add seq 0
  rw [hk, h0] at hk'
  rw [hk] at hsent
  refine ⟨seq, p, p', flags, l' ++ l, hsyn, hsent, hk', ?_, fun e he => ?_⟩
  · rw [ho', ho, hol']
    simp
  · rcases List.mem_append.1 he with he | he
    · exact hql' e he
    · exact hl e he

theorem QuietTo.setState {s t : UtpSocket} {k : Kernel} (st : ConnState) (h : QuietTo s k t) :
    QuietTo s { k with state := st } (t.setState st) :=
  ⟨by rw [kernel_setState, h.1], h.2⟩

/-- `connect` up to the SYN. -/
def readySyn (s : UtpSocket) : UtpSocket :=
  let s := s.assert (s.send.curWindowPackets = 0) .connectWindow
  let s := s.assert (s.send.outbuf.get s.send.seqNr.toNat).isNone .connectSlot
  (((s.setState .synSent).refreshClock env).armSyn.updateRcvWin env).drawSeqNr env

theorem sendSyn_eq (s : UtpSocket) : s.sendSyn env =
    (s.readySyn env).queueSyn.sendPacket env ((s.readySyn env).queueSyn.send.seqNr - 1).toNat := rfl

theorem readySyn_spec {s t : UtpSocket} {seed : UInt32}
    (ht : QuietTo s { s.kernel with state := .idle, idRecv := seed, idSend := seed + 1 } t) :
    ∃ seq, QuietTo s (s.kernel.dial seed seq) (t.readySyn env) := by
  unfold readySyn
  dsimp only
  have h₁ := ht.trans_quiet (quiet_assert (t.send.curWindowPackets = 0) (a := .connectWindow) t rfl)
  generalize t.assert (t.send.curWindowPackets = 0) .connectWindow = u at h₁ ⊢
  have h₂ := h₁.trans_quiet (quiet_assert (u.send.outbuf.get u.send.seqNr.toNat).isNone
    (a := .connectSlot) u rfl)
  generalize u.assert (u.send.outbuf.get u.send.seqNr.toNat).isNone .connectSlot = v at h₂ ⊢
  have h₃ := ((h₂.setState .synSent).trans_quiet (quiet_refreshClock env _)).trans_quiet
    (quiet_armSyn _)
  have h₄ := h₃.trans_quiet (quiet_updateRcvWin env _)
  generalize ((v.setState .synSent).refreshClock env).armSyn.updateRcvWin env = z at h₄ ⊢
  obtain ⟨seq, hk, ho⟩ := drawSeqNr_spec env z
  generalize z.drawSeqNr env = w at hk ho ⊢
  obtain ⟨hzk, l, hol, hql⟩ := h₄
  refine ⟨seq, ?_, l, by rw [ho, hol], hql⟩
  rw [hk, hzk]
  rfl

theorem sendSyn_spec {s t : UtpSocket} {seed : UInt32}
    (ht : QuietTo s { s.kernel with state := .idle, idRecv := seed, idSend := seed + 1 } t) :
    Dialled s seed (t.sendSyn env) := by
  obtain ⟨seq, hz⟩ := readySyn_spec env ht
  rw [sendSyn_eq]
  exact queueSyn_spec env seed seq hz

theorem dialled_connectWith (addr : Address) (seed : UInt32) (s : UtpSocket) :
    Dialled s seed (s.connectWith env addr seed) :=
  sendSyn_spec env (initializeSocket_spec env addr seed seed (seed + 1) s)

theorem runs_connectWith (addr : Address) (seed : UInt32) {s : UtpSocket}
    (h : s.kernel.state = .uninitialized) : Runs .host [] s (s.connectWith env addr seed) := by
  obtain ⟨seq, p, p', flags, l, hsyn, hsent, hk, ho, hl⟩ := dialled_connectWith env addr seed s
  have hm : Kernel.Micro .host s.kernel [.send (p'.hdr.toBytes ++ p'.body) flags] _ :=
    .connect h hsyn hsent
  rw [← hk] at hm
  exact runs_step hm (by simpa [Act.effects] using ho) (.of_quiet hl)
    (.of_quiet (by simp [Effect.quiet]))

theorem acceptSyn_spec (peer : UInt16) {s t : UtpSocket} {id : UInt32}
    (ht : QuietTo s { s.kernel with state := .idle, idRecv := id + 1, idSend := id } t) :
    ∃ seq, QuietTo s { s.kernel with
      state := .synRecv, idRecv := id + 1, idSend := id, seqNr := seq, ackNr := peer }
      (t.acceptSyn env peer) := by
  unfold acceptSyn
  dsimp only
  obtain ⟨seq, hk, ho⟩ := drawSeqNr_spec env (t.setRecv { t.recv with ackNr := peer })
  generalize (t.setRecv { t.recv with ackNr := peer }).drawSeqNr env = u at hk ho ⊢
  have hr : (t.setRecv { t.recv with ackNr := peer }).kernel = { t.kernel with ackNr := peer } := rfl
  obtain ⟨htk, l, hol, hql⟩ := ht
  refine ⟨seq, ?_, l, ?_, hql⟩
  · rw [kernel_setState, kernel_setTiming, hk, hr, htk]
  · show u.out = _
    rw [ho, out_setRecv, hol]

/-- The socket of an incoming connection, about to acknowledge the SYN. -/
def Accepted (s : UtpSocket) (id : UInt32) (peer : UInt16) (t : UtpSocket) : Prop :=
  ∃ seq l, t.kernel = { s.kernel with
      state := .synRecv, idRecv := id + 1, idSend := id, seqNr := seq, ackNr := peer } ∧
    t.out = s.out ++ l ∧ ∀ e ∈ l, Effect.quiet e

theorem acceptWith_spec (addr : Address) (b : Bytes) (s : UtpSocket) :
    ∃ t, Accepted s (PacketFormatV1.ofBytes b).connid.toUInt32 (PacketFormatV1.ofBytes b).seqNr t ∧
      s.acceptWith env addr b = t.sendAck env true := by
  unfold acceptWith
  dsimp only
  generalize (PacketFormatV1.ofBytes b).connid.toUInt32 = id
  obtain ⟨seq, hk, l, hol, hql⟩ := acceptSyn_spec env (PacketFormatV1.ofBytes b).seqNr
    (initializeSocket_spec env addr id (id + 1) id s)
  generalize (s.initializeSocket env addr id (id + 1) id).acceptSyn env
    (PacketFormatV1.ofBytes b).seqNr = u at hk hol ⊢
  have hst : u.kernel.state = .synRecv := by rw [hk]
  obtain ⟨hk', l', ho', hq'⟩ := quiet_processIncoming_syn env b hst
  refine ⟨_, ⟨seq, l ++ l', hk'.trans hk, by rw [ho', hol, List.append_assoc], fun e he => ?_⟩, rfl⟩
  rcases List.mem_append.1 he with he | he
  · exact hql e he
  · exact hq' e he

theorem runs_acceptWith (addr : Address) (b : Bytes) {s : UtpSocket}
    (h : s.kernel.state = .uninitialized) : Runs .host [] s (s.acceptWith env addr b) := by
  obtain ⟨t, ⟨seq, l, hk, ho, hl⟩, he⟩ := acceptWith_spec env addr b s
  rw [he]
  have hm : Kernel.Micro .host s.kernel [] { s.kernel with
      state := .synRecv
      idRecv := (PacketFormatV1.ofBytes b).connid.toUInt32 + 1
      idSend := (PacketFormatV1.ofBytes b).connid.toUInt32
      seqNr := seq
      ackNr := (PacketFormatV1.ofBytes b).seqNr } := .accept h
  rw [← hk] at hm
  have hr : Runs .host [] s t := runs_step (u := l) (v := []) (l := []) hm (by rw [ho]; simp)
    (.of_quiet hl) (by simp)
  exact hr.trans_nil (runs_sendAck env true t)

end UtpSocket

end Utp
