import LibUtp.Kernel.Arrival
import LibUtp.Kernel.Sends
import LibUtp.Invariant.WrittenBytes

/-! The packet that the MTU search waits for. While a probe is out the window holds it under the
number of the search, in the size of the search, as it was sent without fragmentation. -/

namespace Utp

open Lts SequenceBuffer

namespace UtpSocket

variable (env : Env) {x : Input} {s t u : UtpSocket}

/-- The last datagram of `l` is the packet `q` with the payload `b`, sent as a probe. -/
def LastProbe (l : List Effect) (q : UInt16) (b : Bytes) : Prop :=
  ∃ hdr : PacketFormatV1, hdr.seqNr = q ∧
    l.getLast? = some (.sendTo (hdr.toBytes ++ b) UTP_UDP_DONTFRAG)

/-- The window holds the probe the search waits for. `sent` are the probes of earlier calls. -/
def Probed (sent : List Effect) (s : UtpSocket) : Prop :=
  s.mtu.probeSeq ≠ 0 → ∃ q b, s.mtu.probeSeq = q.toUInt32 ∧ s.kernel.HoldsSent q b ∧
    s.mtu.probeSize.toNat = PacketFormatV1.size + b.length ∧ LastProbe (sent ++ s.outer.probes) q b

def Sound (sent : List Effect) (s : UtpSocket) : Prop := s.kernel.Window ∧ Probed sent s

theorem Sound.unprobed {sent : List Effect} {s : UtpSocket} (hw : s.kernel.Window)
    (h0 : s.mtu.probeSeq = 0) : Sound sent s := ⟨hw, fun hne => absurd h0 hne⟩

/-- From `s` to `t` the probe stays in the window, or the search stops to wait for it. -/
def Keeps (s t : UtpSocket) : Prop := ∀ sent, Sound sent s → Sound sent t

namespace Keeps

variable {env}

theorem refl (s : UtpSocket) : Keeps s s := fun _ h => h

theorem trans (h : Keeps s t) (h' : Keeps t u) : Keeps s u := fun sent hs => h' sent (h sent hs)

theorem ite {c : Prop} [Decidable c] (h : c → Keeps s t) (h' : ¬ c → Keeps s u) :
    Keeps s (if c then t else u) := by
  split
  · exact h ‹_›
  · exact h' ‹_›

/-- The search stays and the kernel moves without the acknowledgement of the probe. -/
theorem of_runs {b : Bytes} (hx : ∀ pp, x ≠ .ack pp) (hr : Runs x b s t)
    (hs : ∀ q : UInt16, s.mtu.probeSeq ≠ 0 → s.mtu.probeSeq = q.toUInt32 → s.kernel.Spared x q)
    (hb : Beside env true true false s t) : Keeps s t := by
  rintro sent ⟨hw, hp⟩
  obtain ⟨acts, ht, -⟩ := hr
  refine ⟨ht.invariant (fun _ _ _ hk hm => (Kernel.window_micro hk hm).1) hw, fun h0 => ?_⟩
  obtain ⟨hm, ho⟩ := hb.still rfl
  have hm : t.mtu = s.mtu := hm
  rw [hm] at h0 ⊢
  obtain ⟨q, b, hq, hk, hlen, hl⟩ := hp h0
  refine ⟨q, b, hq, Kernel.holdsSent_trace hx ht hw hk (hs q h0 hq), hlen, ?_⟩
  rw [ho]
  exact hl

/-- Steps that bring no acknowledgement. -/
theorem host (hr : Runs .host [] s t) (hb : Beside env true true false s t) : Keeps s t :=
  of_runs (fun _ h => by cases h) hr (fun _ _ _ => trivial) hb

theorem api {b : Bytes} (hr : Runs .api b s t) (hb : Beside env true true false s t) : Keeps s t :=
  of_runs (fun _ h => by cases h) hr (fun _ _ _ => trivial) hb

theorem broken (hr : Runs .broken [] s t) (hb : Beside env true true false s t) : Keeps s t :=
  of_runs (fun _ h => by cases h) hr (fun _ _ _ => trivial) hb

theorem packet {pp : ParsedPacket} (hr : Runs (.packet pp) [] s t)
    (hb : Beside env true true false s t) : Keeps s t :=
  of_runs (fun _ h => by cases h) hr (fun _ _ _ => trivial) hb

theorem of_quiet (hq : Quiet s t) (hb : Beside env true true false s t) : Keeps s t :=
  host (.of_quiet hq) hb

/-- The search forgets its probe, or only its bounds move. -/
theorem of_search (hk : t.kernel = s.kernel) (ho : t.outer.probes = s.outer.probes)
    (hm : t.mtu.probeSeq = 0 ∨ t.mtu.probeSeq = s.mtu.probeSeq ∧ t.mtu.probeSize = s.mtu.probeSize) :
    Keeps s t := by
  rintro sent ⟨hw, hp⟩
  refine ⟨hk ▸ hw, fun h0 => ?_⟩
  rcases hm with hm | ⟨hm, hsz⟩
  · exact absurd hm h0
  · unfold Probed at hp
    rw [hm] at h0 ⊢
    rw [hk, ho, hsz]
    exact hp h0

end Keeps

/-! `send_packet`. -/

/-- The socket as `send_packet` of `p` decides whether `p` is a probe. -/
def aboutToSend (p : OutgoingPacket) (s : UtpSocket) : UtpSocket :=
  (s.asked.countPacket p).asked.rediscover env (env.milliseconds s.tick)

/-- If the packet in slot `i` goes out as a probe it is the newest one, whose number the search takes. -/
def probesNewest (i : ℤ) (s : UtpSocket) : Bool :=
  match s.send.outbuf.get i with
  | none => true
  | some p => !((s.aboutToSend env p).probes p) || p.hdr.seqNr = s.send.seqNr - 1

/-- The bitmap acknowledges no packet of the window under the number of the search. -/
def bitmapSpares (base : ℤ) (mask : Bytes) (s : UtpSocket) : Bool :=
  s.mtu.probeSeq = 0 || (List.range (8 * mask.length)).all fun bits =>
    !(maskBit mask bits && s.inEackWindow (base + bits) &&
      (UInt16.ofInt (base + bits)).toUInt32 = s.mtu.probeSeq)

/-- The two ways in which the search would lose sight of its probe stay away. -/
def probeWatch : Watch where
  send i s := s.probesNewest env i
  eack := bitmapSpares

theorem probes_out {l : List Effect} (h : t.out = s.out ++ l) :
    t.outer.probes = s.outer.probes ++ l.filter Effect.onProbe := by
  show t.out.filter Effect.onProbe = s.out.filter Effect.onProbe ++ _
  rw [h, List.filter_append]

theorem send_setMtu (m : MtuDiscovery) (s : UtpSocket) : (s.setMtu m).send = s.send := rfl

theorem aboutToSend_spec (p : OutgoingPacket) (s : UtpSocket) :
    (s.aboutToSend env p).send = s.send ∧ (s.aboutToSend env p).mtu.probeSeq = s.mtu.probeSeq ∧
      (s.aboutToSend env p).mtu.probeSize = s.mtu.probeSize ∧
      (s.aboutToSend env p).outer.probes = s.outer.probes := by
  unfold aboutToSend
  have hc : (s.asked.countPacket p).asked.send = s.send ∧
      (s.asked.countPacket p).asked.outer = s.outer := by
    unfold countPacket
    split <;> exact ⟨rfl, rfl⟩
  have hm : (s.asked.countPacket p).asked.mtu = s.mtu := congrArg (fun x => x.search.mtu) hc.2
  obtain ⟨hsend, houter⟩ := hc
  generalize (s.asked.countPacket p).asked = t at hsend houter hm ⊢
  unfold rediscover
  split
  · obtain ⟨n, hr⟩ := outer_mtuReset env (env.milliseconds s.tick) t
    have hmtu : (t.mtuReset env (env.milliseconds s.tick)).mtu =
        t.mtu.reset (env.udpMtu n).toUInt32 (env.milliseconds s.tick) :=
      congrArg (fun x => x.search.mtu) hr
    have hprobes := congrArg OuterFields.probes hr
    rw [hmtu, hprobes, houter, hm]
    refine ⟨?_, by rw [MtuDiscovery.reset], by rw [MtuDiscovery.reset], rfl⟩
    rw [← hsend]
    unfold mtuReset
    rw [send_setMtu, send_assert]
    rfl
  · rw [hm, houter]
    exact ⟨hsend, rfl, rfl, rfl⟩

theorem sendPacket_eq {i : ℤ} {p : OutgoingPacket} (hp : s.send.outbuf.get i = some p) :
    ∃ time, s.sendPacket env i =
      let u := s.aboutToSend env p
      let v := if u.probes p then u.startProbe p.length else u
      (v.putOutbuf i (v.sentPacket env time p)).sendData
        ((v.sentPacket env time p).hdr.toBytes ++ p.body) (if u.probes p then UTP_UDP_DONTFRAG else 0) := by
  refine ⟨env.microseconds (s.asked.countPacket p).tick, ?_⟩
  unfold sendPacket
  rw [hp]
  rfl

/-- A packet that is no probe. -/
theorem search_sendPacket {i : ℤ} {p : OutgoingPacket} (hp : s.send.outbuf.get i = some p)
    (h : (s.aboutToSend env p).probes p = false) :
    (s.sendPacket env i).mtu = (s.aboutToSend env p).mtu ∧
      (s.sendPacket env i).outer.probes = s.outer.probes := by
  obtain ⟨time, he⟩ := sendPacket_eq env hp
  dsimp only at he
  rw [h, if_neg (by simp), if_neg (by simp)] at he
  rw [he]
  refine ⟨rfl, ?_⟩
  rw [probes_out (out_sendData _ _ _), ← (aboutToSend_spec env p s).2.2.2]
  exact List.append_nil _

/-- A packet that goes out as a probe. -/
theorem search_sendPacket_probe {i : ℤ} {p : OutgoingPacket} (hp : s.send.outbuf.get i = some p)
    (h : (s.aboutToSend env p).probes p) :
    (s.sendPacket env i).mtu = (s.aboutToSend env p).mtu.setProbe (s.send.seqNr - 1).toUInt32
        (UInt32.ofNat p.length) ∧
      ∃ hdr : PacketFormatV1, hdr.seqNr = p.hdr.seqNr ∧ (s.sendPacket env i).outer.probes =
        s.outer.probes ++ [.sendTo (hdr.toBytes ++ p.body) UTP_UDP_DONTFRAG] := by
  obtain ⟨time, he⟩ := sendPacket_eq env hp
  dsimp only at he
  rw [if_pos h, if_pos h] at he
  have houter := outer_startProbe p.length (s.aboutToSend env p)
  rw [(aboutToSend_spec env p s).1] at houter
  have hprobes := (aboutToSend_spec env p s).2.2.2
  generalize s.aboutToSend env p = u at he houter hprobes ⊢
  generalize u.startProbe p.length = v at he houter ⊢
  rw [he]
  refine ⟨congrArg (fun x => x.search.mtu) houter, (v.sentPacket env time p).hdr, rfl, ?_⟩
  rw [probes_out (out_sendData _ _ _), ← hprobes]
  show v.outer.probes ++ _ = _
  rw [houter]
  rfl

theorem keeps_sendPacket {i : ℤ} (h : s.probesNewest env i) : Keeps s (s.sendPacket env i) := by
  rintro sent ⟨hw, hp⟩
  refine ⟨window_runs (x := .nothing) (runs_sendPacket env i s) hw, fun h0 => ?_⟩
  cases hg : s.send.outbuf.get i with
  | none =>
    have he : s.sendPacket env i = s := by
      unfold sendPacket
      rw [hg]
    rw [he] at h0 ⊢
    exact hp h0
  | some p =>
    obtain ⟨p', flags, l, hsent, hk, -⟩ := sendPacket_spec env hg
    have hslot : s.kernel.outbuf.slot (UInt16.ofInt i) = some p := (get_eq_slot _ _).symm.trans hg
    obtain ⟨-, hseq, hsize, -⟩ := aboutToSend_spec env p s
    rw [hk]
    cases hpr : (s.aboutToSend env p).probes p with
    | false =>
      obtain ⟨hm, ho⟩ := search_sendPacket env hg hpr
      rw [hm, hseq] at h0
      obtain ⟨q, b, hq, hh, hlen, hl⟩ := hp h0
      refine ⟨q, b, by rw [hm, hseq, hq], ?_, by rw [hm, hsize, hlen], by rw [ho]; exact hl⟩
      exact hh.replace hslot hsent.seqNr (by rw [hsent.transmissions]; omega) fun _ => hsent.body
    | true =>
      have hnew : p.hdr.seqNr = s.send.seqNr - 1 := by simpa [probesNewest, hg, hpr] using h
      obtain ⟨hm, hdr, hq, ho⟩ := search_sendPacket_probe env hg hpr
      obtain ⟨-, hsame⟩ := hw.occupied _ p hslot
      refine ⟨s.send.seqNr - 1, p.body, by rw [hm]; rfl, ⟨p', ?_, ?_, ?_, hsent.body⟩, ?_, hdr, hq.trans hnew, ?_⟩
      · show (s.kernel.outbuf.setSlot _ (some p')).slot _ = _
        rw [slot_setSlot, if_pos]
        rw [← hnew]
        exact hsame
      · exact hsent.seqNr.trans hnew
      · rw [hsent.transmissions]
        exact Nat.succ_pos _
      · rw [hm]
        unfold probes at hpr
        simp only [Bool.and_eq_true, decide_eq_true_eq] at hpr
        have hle := hpr.1.1.1.2
        have hlt := (s.aboutToSend env p).mtu.ceiling.toNat_lt
        show (UInt32.ofNat p.length).toNat = p.length
        rw [UInt32.toNat_ofNat']
        exact Nat.mod_eq_of_lt (by omega)
      · rw [ho, ← List.append_assoc, List.getLast?_concat]

/-! The flush and the writes. Each condition follows the function it is about. -/

theorem keeps_isFull (bytes : ℤ) (s : UtpSocket) : Keeps s (s.isFull bytes).2 :=
  .of_quiet (quiet_isFull bytes s) (beside_isFull stillHost bytes s)

theorem keeps_moveCursor (inPrefix : Bool) (i : UInt16) (s : UtpSocket) :
    Keeps s (s.moveCursor inPrefix i) := by
  unfold moveCursor
  refine .ite (fun _ => ?_) (fun _ => .refl s)
  rintro sent ⟨hw, hp⟩
  exact ⟨hw.congr rfl rfl rfl rfl rfl id, hp⟩

theorem keeps_flushLoop (packetSize n : ℕ) (i : UInt16) (inPrefix : Bool) {s : UtpSocket}
    (h : s.flushLoopSends env (probeWatch env) packetSize n i inPrefix) :
    Keeps s (s.flushLoop env packetSize n i inPrefix).2 := by
  induction n generalizing i inPrefix s with
  | zero => exact .refl s
  | succ n ih =>
    unfold flushLoop
    unfold flushLoopSends at h
    split
    · rename_i hs
      rw [if_pos hs] at h
      exact (keeps_moveCursor _ _ _).trans (ih _ _ h)
    · rename_i hs
      rw [if_neg hs] at h
      have hfull := keeps_isFull (-1) s
      generalize s.isFull (-1) = r at hfull h ⊢
      dsimp only at h ⊢
      split_ifs at h ⊢ with h₁ h₂
      · exact hfull
      · rw [Bool.and_eq_true] at h
        exact hfull.trans (((keeps_sendPacket env h.1).trans (keeps_moveCursor _ _ _)).trans
          (ih _ _ h.2))
      · exact hfull.trans (ih _ _ h)

theorem keeps_flushPackets (h : s.flushSends env (probeWatch env)) : Keeps s (s.flushPackets env).2 :=
  keeps_flushLoop env _ _ _ _ h

theorem beside_queueRounds (payload : ℕ) (flags : UInt8) (iov : List Bytes) (s : UtpSocket) :
    Beside env true true false s (s.queueRounds env payload flags iov).2 := by
  have h : Beside env true true false s s.startRto :=
    .ite (fun _ => (beside_setCc_rto env s.cc.rto rfl).trans (beside_assert env _ _ rfl))
      (fun _ => .refl s)
  exact h.trans (beside_writeLoop env _ _ _ _ _ _)

theorem keeps_writeOutgoingPacket {payload : ℕ} {iov : List Bytes} (hs : s.kernel.state = .connected)
    (hf : s.kernel.finSent = false) (hc : s.kernel.cur < 1023) (hl : payload ≤ iov.flatten.length)
    (h : s.writeSends env (probeWatch env) payload ST_DATA iov) :
    Keeps s (s.writeOutgoingPacket env payload ST_DATA iov).2 := by
  rw [writeOutgoingPacket_eq]
  exact (Keeps.api (runs_queueRounds env hs hf hc hl).1
    (beside_queueRounds env _ _ _ _)).trans (keeps_flushPackets env h)

theorem keeps_sendFin {s₀ : UtpSocket} {c : Bool} (ho : s₀.kernel.IsOpen)
    (hf : s₀.kernel.finSent = false)
    (hk : s.kernel = { s₀.kernel with closeRequested := s₀.kernel.closeRequested || c })
    (hout : s.out = s₀.out) (hb : Beside env true true false s₀ s) (h : s.finSends env (probeWatch env)) :
    Keeps s₀ (s.sendFin env) := by
  rw [sendFin, writeOutgoingPacket_eq]
  refine (Keeps.api (runs_queueFin env ho hf hk hout)
    ((hb.trans (beside_setSend env _ s)).trans (beside_queueRounds env _ _ _ _))).trans
      (keeps_flushPackets env h)

theorem keeps_writevLoop (packetSize fuel : ℕ) {bytes : ℕ} (sent : ℕ) {iov : List Bytes}
    {s : UtpSocket} (hs : s.kernel.state = .connected) (hf : s.kernel.finSent = false)
    (hb : bytes = iov.flatten.length) (h : s.writevLoopSends env (probeWatch env) packetSize fuel bytes iov) :
    Keeps s (s.writevLoop env packetSize fuel bytes sent iov).2 := by
  induction fuel generalizing bytes sent iov s with
  | zero => exact .refl s
  | succ fuel ih =>
    rw [writevLoop]
    rw [writevLoopSends] at h
    set num := min bytes packetSize with hnum
    have hfull := keeps_isFull (int32 num) s
    have hk := (quiet_isFull (int32 num) s).1
    have hcur (hn : ¬ (s.isFull (int32 num)).1) : s.kernel.cur < 1023 := by
      refine cur_lt_of_windowFull (b := int32 num) ?_
      unfold isFull at hn
      split at hn
      · exact absurd rfl hn
      · exact Bool.eq_false_iff.2 ‹_›
    generalize s.isFull (int32 num) = r at hfull hk hcur h ⊢
    dsimp only at h ⊢
    rw [← hk] at hs hf hcur
    split_ifs at h ⊢ with h₁ h₂
    · exact hfull
    · rw [Bool.and_eq_true] at h
      exact hfull.trans (keeps_writeOutgoingPacket env hs hf (hcur h₁) (by omega) h.1)
    · rw [Bool.and_eq_true, decide_eq_false h₂, Bool.false_or] at h
      have hle : num ≤ iov.flatten.length := by omega
      have hrest := (runs_writeOutgoingPacket env hs hf (hcur h₁) hle).2
      have hfr := frame_writeOutgoingPacket env (.inl rfl) num iov r.2
      have hw := keeps_writeOutgoingPacket env hs hf (hcur h₁) hle h.1
      generalize r.2.writeOutgoingPacket env num ST_DATA iov = w at hrest hfr hw h ⊢
      refine (hfull.trans hw).trans (ih (sent + num) (hfr.state.trans hs) (hfr.finSent.trans hf) ?_ h.2)
      rw [hrest, List.length_drop, hb]

theorem keeps_writev {iov : List Bytes} (h : s.writevSends env (probeWatch env) iov) :
    Keeps s (s.writev env iov).2 := by
  unfold writev
  unfold writevSends at h
  dsimp only at h ⊢
  split
  · exact .refl s
  · rename_i hw
    rw [if_neg hw] at h
    push Not at hw
    have hst : s.kernel.state = .connected := by
      have hw := hw.1
      show s.conn.state = .connected
      unfold writable at hw
      split at hw
      · assumption
      · exact absurd rfl hw
    have hf : s.kernel.finSent = false := Bool.eq_false_iff.2 hw.2
    have hclock : Keeps s (s.refreshClock env) :=
      .of_quiet (quiet_refreshClock env s) (beside_refreshClock env s)
    have hk := (quiet_refreshClock env s).1
    generalize s.refreshClock env = t at hclock hk h ⊢
    rw [← hk] at hst hf
    have hloop := hclock.trans (keeps_writevLoop env t.getPacketSize
      (totalLength (iov.take UTP_IOV_MAX) + 1) 0 hst hf (by rw [totalLength, List.length_flatten]) h)
    generalize t.writevLoop env t.getPacketSize (totalLength (iov.take UTP_IOV_MAX) + 1)
      (totalLength (iov.take UTP_IOV_MAX)) 0 (iov.take UTP_IOV_MAX) = w at hloop ⊢
    split
    · exact hloop
    · have hfull := hloop.trans (keeps_isFull (-1) w.2)
      generalize w.2.isFull (-1) = r at hfull ⊢
      refine .ite (fun _ => hfull.trans ?_) (fun _ => hfull)
      rintro sent ⟨hw, hp⟩
      exact ⟨hw.congr rfl rfl rfl rfl rfl (by simp), hp⟩

/-! `close` and `shutdown`. -/

theorem keeps_closeConnected (ho : s.kernel.IsOpen) (h : s.closeConnectedSends env (probeWatch env)) :
    Keeps s (s.closeConnected env) := by
  have hruns := runs_closeConnected env ho
  have hread : Keeps s s.markReadShutdown :=
    .api (runs_markReadShutdown s) (beside_setRecv stillHost _ s)
  have hbeside : Beside env true true false s s.markReadShutdown.requestClose :=
    (beside_setRecv env _ s).trans (beside_setSend env _ _)
  unfold closeConnected at hruns ⊢
  unfold closeConnectedSends at h
  dsimp only at hruns h ⊢
  by_cases hf : s.markReadShutdown.requestClose.send.finSent = false
  · rw [if_pos hf]
    rw [hf, Bool.false_or] at h
    have ho' : s.markReadShutdown.kernel.IsOpen := ho
    generalize s.markReadShutdown = t at hread ho' hf h ⊢
    have hk : t.requestClose.kernel =
        { t.kernel with closeRequested := t.kernel.closeRequested || true } := by
      rw [Bool.or_true]
      rfl
    exact hread.trans (keeps_sendFin env ho' hf hk rfl (beside_setSend env _ t) h)
  · rw [if_neg hf] at hruns ⊢
    exact .api hruns (hbeside.trans
      (.ite (fun _ => beside_setState env _ _) (fun _ => .refl _)))

theorem keeps_assert (c : Prop) [Decidable c] {a : Assertion} (s : UtpSocket) (ha : a.watched = false)
    (hs : (Effect.assertFailed a).onSearch = false) : Keeps s (s.assert c a) :=
  .of_quiet (quiet_assert c s ha) (beside_assert stillHost c s hs)

theorem keeps_close (h : s.closeSends env (probeWatch env)) : Keeps s (s.close env) := by
  unfold close
  unfold closeSends at h
  have hq := keeps_assert (s.conn.state ≠ .uninitialized ∧ s.conn.state ≠ .destroy) (a := .closeState)
    s rfl rfl
  generalize s.assert (s.conn.state ≠ .uninitialized ∧ s.conn.state ≠ .destroy) .closeState = t
    at hq h ⊢
  have hdestroy (u : UtpSocket) : Keeps u (u.setState .destroy) :=
    .api (runs_setDestroy (.inl rfl) u)
      (beside_setState env _ u)
  dsimp only at h ⊢
  cases hst : t.conn.state <;> simp only [hst] at h ⊢
  case connected => exact hq.trans (keeps_closeConnected env (.inl hst) h)
  case connectedFull => exact hq.trans (keeps_closeConnected env (.inr hst) h)
  case synSent =>
    exact hq.trans ((Keeps.of_quiet (quiet_backoffRtoForClose env t)
      (beside_backoffRtoForClose env t)).trans (hdestroy _))
  all_goals exact hq.trans (hdestroy t)

theorem keeps_shutdown {how : ShutdownHow} (h : s.shutdownSends env (probeWatch env) how) :
    Keeps s (s.shutdown env how) := by
  unfold shutdown
  unfold shutdownSends at h
  have hq := keeps_assert (s.conn.state ≠ .uninitialized ∧ s.conn.state ≠ .destroy) (a := .closeState)
    s rfl rfl
  generalize s.assert (s.conn.state ≠ .uninitialized ∧ s.conn.state ≠ .destroy) .closeState = t
    at hq h ⊢
  have hread : Keeps t (if how ≠ .wr then t.markReadShutdown else t) :=
    .ite (fun _ => .api (runs_markReadShutdown t)
      (beside_setRecv stillHost _ t)) (fun _ => .refl t)
  dsimp only at h ⊢
  generalize (if how ≠ .wr then t.markReadShutdown else t) = u at hread h ⊢
  refine (hq.trans hread).trans ?_
  have hfin (ho : u.kernel.IsOpen)
      (h : (if how ≠ .rd ∧ u.send.finSent = false then u.finSends env (probeWatch env) else true) = true) :
      Keeps u (if how ≠ .rd ∧ u.send.finSent = false then u.sendFin env else u) := by
    split
    · rename_i hc
      rw [if_pos hc] at h
      exact keeps_sendFin env (c := false) ho hc.2 (by rw [Bool.or_false]) rfl (.refl u) h
    · exact .refl u
  cases hst : u.conn.state <;> simp only [hst] at h ⊢
  case connected => exact hfin (.inl hst) h
  case connectedFull => exact hfin (.inr hst) h
  case synSent =>
    exact .ite (fun _ => .of_quiet (quiet_backoffRtoForClose env u)
      (beside_backoffRtoForClose env u)) (fun _ => .refl u)
  all_goals exact .refl u

/-! The timer. -/

theorem keeps_resendHead (h : s.headSends (probeWatch env)) : Keeps s (s.resendHead env) := by
  unfold resendHead
  unfold headSends at h
  by_cases hc : 0 < s.send.curWindowPackets
  · rw [if_pos hc] at h ⊢
    have hq : Quiet s ((s.setCc { s.cc with retransmitCount := s.cc.retransmitCount + 1 }).setTiming
        { s.timing with fastTimeout := true, timeoutSeqNr := s.send.seqNr }) :=
      Quiet.trans (quiet_setCc rfl) (quiet_setTiming _ _)
    have hn : Beside env true true false s (s.setCc { s.cc with
        retransmitCount := s.cc.retransmitCount + 1 }) := beside_setCc_count env rfl
    have hb : Beside env true true false s
        ((s.setCc { s.cc with retransmitCount := s.cc.retransmitCount + 1 }).setTiming
          { s.timing with fastTimeout := true, timeoutSeqNr := s.send.seqNr }) :=
      hn.trans (beside_setTiming_fast env _ _)
    have hcur : s.kernel.cur ≠ 0 := by
      have hc : 0 < s.kernel.cur := hc
      grind
    dsimp only at h ⊢
    rw [← hq.1] at hcur
    generalize (s.setCc { s.cc with retransmitCount := s.cc.retransmitCount + 1 }).setTiming
      { s.timing with fastTimeout := true, timeoutSeqNr := s.send.seqNr } = t at hq hb hcur h ⊢
    refine (Keeps.of_quiet hq hb).trans (Keeps.trans ?_ (keeps_sendPacket env h))
    refine .host ?_ (beside_assert env _ t rfl)
    refine runs_assert _ .timeoutResend t fun hn => .fail fun ha => ?_
    rw [get_headIdx] at hn
    exact ha.elim hcur hn
  · rw [if_neg hc]
    exact .refl s

theorem probeSeq_probeTimeout (s : UtpSocket) : s.probeTimeout.2.mtu.probeSeq = 0 := by
  show (s.mtu.handleProbeTimeout _ _ _).2.probeSeq = 0
  unfold MtuDiscovery.handleProbeTimeout MtuDiscovery.clearProbe
  split <;> rfl

theorem keeps_probeTimeout (s : UtpSocket) : Keeps s s.probeTimeout.2 :=
  .of_search (quiet_probeTimeout s).1 ((congrArg OuterFields.probes (outer_probeTimeout s)).trans rfl)
    (.inl (probeSeq_probeTimeout s))

theorem keeps_rtoExpired (ha : timeoutActive s.kernel.state) (h : s.rtoSends (probeWatch env)) :
    Keeps s (s.rtoExpired env).2 := by
  unfold rtoExpired
  unfold rtoSends at h
  have hprobe := keeps_probeTimeout s
  have hk := (quiet_probeTimeout s).1
  generalize s.probeTimeout = r at hprobe hk h ⊢
  rw [← hk] at ha
  have htime {st : ConnState} (hst : r.2.kernel.gaveUp = st) : Keeps r.2 (r.2.timeOut st) :=
    .host (runs_timeOut (micro_timeout ha hst))
      ((beside_setState stillHost _ _).trans (beside_emit stillHost rfl (fun _ => rfl) _))
  dsimp only at h ⊢
  split_ifs at h ⊢ with h₁ h₂ h₃
  · exact hprobe.trans (htime (if_pos (.inl h₁)))
  · exact hprobe.trans (htime (if_pos (.inr h₃)))
  · exact hprobe.trans (htime (if_neg (not_or.2 ⟨h₁, h₃⟩)))
  · have hback : Keeps r.2 (r.2.backOff r.1) := .of_quiet (quiet_backOff _ _) (beside_backOff stillHost _ _)
    have hmark : Keeps (r.2.backOff r.1) (r.2.backOff r.1).markWindow :=
      .host (runs_markWindow _) (beside_markWindow stillHost _)
    exact ((hprobe.trans hback).trans hmark).trans (keeps_resendHead env h)

theorem keeps_becomeWritable (s : UtpSocket) : Keeps s s.becomeWritable :=
  .host (runs_becomeWritable s) (beside_becomeWritable stillHost s)

theorem keeps_checkTimeouts (h : s.timeoutsSends env (probeWatch env)) : Keeps s (s.checkTimeouts env) := by
  unfold checkTimeouts
  unfold timeoutsSends at h
  have h₁ : Keeps s (s.checkInvariant.assert s.headPresent .timeoutHead) := by
    refine .host ?_
      ((beside_checkInvariant env s).trans (beside_assert env _ _ rfl))
    refine (runs_checkInvariant s).trans_nil (runs_assert _ _ _ fun h => .fail ?_)
    rw [headPresent_kernel, ← kernel_checkInvariant] at h
    exact h
  generalize s.checkInvariant.assert s.headPresent .timeoutHead = t at h₁ h ⊢
  dsimp only at h ⊢
  rw [Bool.and_eq_true, Bool.or_eq_true, decide_eq_true_eq] at h
  obtain ⟨hflush, hrto⟩ := h
  have h₂ : Keeps t (if t.conn.state ≠ .destroy then (t.flushPackets env).2 else t) :=
    .ite (fun hn => keeps_flushPackets env (hflush.resolve_left hn)) (fun _ => .refl t)
  generalize (if t.conn.state ≠ .destroy then (t.flushPackets env).2 else t) = u at h₂ hrto ⊢
  refine (h₁.trans h₂).trans (.ite (fun ha => ?_) (fun _ => .refl u))
  rw [ha, Bool.true_and, Bool.or_eq_true, Bool.not_eq_true'] at hrto
  have hk := (quiet_reopenWindow u).1
  have h₃ : Keeps u u.reopenWindow := .of_quiet (quiet_reopenWindow u) (beside_reopenWindow stillHost u)
  generalize u.reopenWindow = v at hk h₃ hrto ⊢
  have ha' : timeoutActive v.kernel.state := by
    rw [hk]
    exact ha
  have h₄ : Keeps v (if v.cc.isRtoExpired v.currentMs then v.rtoExpired env else (false, v)).2 := by
    split
    · rename_i hexp
      refine keeps_rtoExpired env ha' (hrto.resolve_left ?_)
      rw [hexp]
      simp
    · exact .refl v
  generalize (if v.cc.isRtoExpired v.currentMs then v.rtoExpired env else (false, v)) = w at h₄ ⊢
  refine h₃.trans (h₄.trans (.ite (fun _ => .refl _) (fun _ => ?_)))
  exact (keeps_becomeWritable _).trans
    (.host (runs_keepAlive env _) (beside_keepAlive env _))

/-! A cumulative acknowledgement. -/

/-- The walk over the `n` packets from `seq`. If the search still waits afterwards the packet it
waits for is none of them. -/
structure Walked (n : ℕ) (seq : UInt16) (s t : UtpSocket) : Prop where
  kernel : t.kernel = s.kernel
  probes : t.outer.probes = s.outer.probes
  search : t.mtu.probeSeq = 0 ∨ t.mtu.probeSeq = s.mtu.probeSeq ∧ t.mtu.probeSize = s.mtu.probeSize
  passed : ∀ i < n, ∀ p, s.kernel.outbuf.slot (seq + UInt16.ofNat i) = some p → 0 < p.transmissions →
    t.mtu.probeSeq ≠ 0 → t.mtu.probeSeq ≠ (seq + UInt16.ofNat i).toUInt32

theorem Walked.step {n : ℕ} {seq : UInt16} (h : Walked n (seq + 1) s t)
    (h0 : ∀ p, s.kernel.outbuf.slot seq = some p → 0 < p.transmissions → t.mtu.probeSeq ≠ 0 →
      t.mtu.probeSeq ≠ seq.toUInt32) : Walked (n + 1) seq s t := by
  refine ⟨h.kernel, h.probes, h.search, fun i hi p hp ht hne => ?_⟩
  cases i with
  | zero =>
    have hseq : seq + UInt16.ofNat 0 = seq := by simp
    rw [hseq] at hp ⊢
    exact h0 p hp ht hne
  | succ i =>
    have hseq : seq + UInt16.ofNat (i + 1) = seq + 1 + UInt16.ofNat i := by
      rw [UInt16.ofNat_add]
      grind
    rw [hseq] at hp ⊢
    exact h.passed i (by omega) p hp ht hne

/-- The acknowledgement of one packet. -/
theorem Walked.probeAck {n : ℕ} {seq : UInt16} (c : Prop) [Decidable c]
    (h : Walked n (seq + 1) ((s.assert c .ackedPayload).probeAck seq) t) : Walked (n + 1) seq s t := by
  have hk : ((s.assert c .ackedPayload).probeAck seq).kernel = s.kernel := by
    rw [(quiet_probeAck seq _).1, kernel_assert]
  have ho : ((s.assert c .ackedPayload).probeAck seq).outer.probes = s.outer.probes :=
    (congrArg OuterFields.probes (outer_probeAck seq _)).trans
      ((beside_assert stillHost (r := true) (f := true) c s rfl).still rfl).2
  have hm : ((s.assert c .ackedPayload).probeAck seq).mtu =
      s.mtu.handleProbeAck seq.toUInt32 s.currentMs := by
    have hms : (s.assert c .ackedPayload).currentMs = s.currentMs := by
      unfold assert
      split <;> rfl
    have := congrArg (fun x => x.search.mtu) (outer_probeAck seq (s.assert c .ackedPayload))
    rw [mtu_assert, hms] at this
    exact this
  generalize (s.assert c .ackedPayload).probeAck seq = u at h hk ho hm
  obtain ⟨htk, hto, hts, htp⟩ := h
  rw [hk] at htk htp
  rw [ho] at hto
  cases hp : s.mtu.isProbe seq.toUInt32 with
  | true =>
    have h0 : u.mtu.probeSeq = 0 := by
      rw [hm, MtuDiscovery.handleProbeAck, hp, if_pos rfl, MtuDiscovery.searchUpdate]
      dsimp only
      split <;> rfl
    have h0 : t.mtu.probeSeq = 0 := hts.elim id fun h => h.1.trans h0
    exact ⟨htk, hto, .inl h0, fun _ _ _ _ _ hne => absurd h0 hne⟩
  | false =>
    have hu : u.mtu = s.mtu := by
      rw [hm, MtuDiscovery.handleProbeAck, hp]
      rfl
    rw [hu] at hts
    refine Walked.step ⟨htk, hto, hts, htp⟩ fun p _ _ hne heq => ?_
    rcases hts with h0 | ⟨hseq, -⟩
    · exact hne h0
    · unfold MtuDiscovery.isProbe at hp
      rw [← hseq, heq] at hp
      rw [heq] at hne
      simp [hne] at hp

theorem walked_ackedBytes (now : UInt64) (n : ℕ) (seq : UInt16) (acked : ℕ) (minRtt : ℤ)
    (s : UtpSocket) : Walked n seq s (s.ackedBytes now n seq acked minRtt).2.2 := by
  induction n generalizing seq acked minRtt s with
  | zero => exact ⟨rfl, rfl, .inr ⟨rfl, rfl⟩, fun i hi => absurd hi (Nat.not_lt_zero i)⟩
  | succ n ih =>
    unfold ackedBytes
    cases hg : s.send.outbuf.get seq.toNat with
    | none =>
      refine (ih _ _ _ s).step fun p hp => ?_
      rw [show s.kernel.outbuf.slot seq = none from hg] at hp
      cases hp
    | some p =>
      dsimp only
      split
      · rename_i ht
        refine (ih _ _ _ s).step fun p' hp' ht' => ?_
        rw [show s.kernel.outbuf.slot seq = some p from hg] at hp'
        cases hp'
        omega
      · exact (ih _ _ _ _).probeAck

theorem keeps_countDuplicate (pp : ParsedPacket) (s : UtpSocket) : Keeps s (s.countDuplicate pp) := by
  have hdup (n : UInt8) : Keeps s (s.setDuplicateAck n) :=
    .of_quiet (quiet_setDuplicateAck n s) (beside_setDuplicateAck stillHost n s)
  unfold countDuplicate
  refine .ite (fun _ => .ite (fun _ => ?_) (fun _ => hdup _)) (fun _ => .refl s)
  refine (hdup (s.duplicateAck + 1)).trans ?_
  generalize s.setDuplicateAck (s.duplicateAck + 1) = t
  unfold dupAckProbe
  refine .ite (fun _ => .ite (fun _ => ?_) (fun _ => ?_)) (fun _ => .refl t)
  · refine .of_search ?_ ((congrArg OuterFields.probes (outer_probeLoss t)).trans rfl) (.inl rfl)
    exact ((quiet_assert _ t rfl).trans (quiet_setMtu _ _)).1
  · exact .of_search rfl rfl (.inl rfl)

/-- The packets that an acknowledgement takes from the window are those that were looked at for
the probe. -/
theorem keeps_acknowledge (pp : ParsedPacket) (time : UInt64) {s : UtpSocket}
    (hs : s.kernel.state = .synSent → s.kernel.ackNr = pp.seqNr - 1) {u : UtpSocket}
    (hu : u = s.processAcks env pp (s.kernel.ackCount pp) time) :
    Keeps s ((((u.peerWindow pp.windowsize).ackState pp (s.kernel.ackCount pp)).raiseFastResend pp).advance
      env (s.kernel.ackCount pp)) := by
  have hwalk := walked_ackedBytes (env.microseconds s.tick) (s.kernel.ackCount pp) s.windowStart 0
    (2 ^ 63 - 1) s.asked
  rw [processAcks_eq] at hu
  generalize s.asked.ackedBytes (env.microseconds s.tick) (s.kernel.ackCount pp) s.windowStart 0
    (2 ^ 63 - 1) = a at hwalk hu
  have hk : u.kernel = s.kernel := by
    rw [hu]
    exact (quiet_takeSamples env pp time a).1.trans hwalk.kernel
  obtain ⟨hm, ho⟩ := (beside_takeSamples env (r := true) (f := true) (m := false) pp time a).still rfl
  rw [← hu] at hm ho
  have hm : u.mtu = a.2.2.mtu := hm
  have hadv := advanced_advanceSendWindow env pp (s := u) (by rw [hk]; exact hs)
  rw [hk] at hadv
  have hb : Beside env true true false u ((((u.peerWindow pp.windowsize).ackState pp
      (s.kernel.ackCount pp)).raiseFastResend pp).advance env (s.kernel.ackCount pp)) :=
    (((beside_peerWindow env _ u).trans (beside_ackState env _ _ _)).trans
      (beside_raiseFastResend env pp _)).trans (beside_advance env _ (fun h => by cases h) _)
  rw [advance_eq] at hb ⊢
  generalize ((((u.peerWindow pp.windowsize).ackState pp (s.kernel.ackCount pp)).raiseFastResend pp
    ).ackLoop env (s.kernel.ackCount pp)).finishAdvance = v at hadv hb ⊢
  obtain ⟨pre, acts, -, hmicro, -⟩ := hadv
  rw [hk] at hmicro
  rintro sent ⟨hw, hp⟩
  obtain ⟨hmv, hov⟩ := hb.still rfl
  have hkv : (v.assert v.headPresent .advanceHead).kernel = v.kernel := kernel_assert _ _ v
  generalize v.assert v.headPresent .advanceHead = w at hmv hov hkv ⊢
  rw [← hkv] at hmicro
  have hmw : w.mtu = a.2.2.mtu := Eq.trans hmv hm
  refine ⟨(Kernel.window_micro hw hmicro).1, fun h0 => ?_⟩
  rw [hmw] at h0 ⊢
  rcases hwalk.search with h | ⟨hseq, hsize⟩
  · exact absurd h h0
  have hseq : a.2.2.mtu.probeSeq = s.mtu.probeSeq := hseq
  obtain ⟨q, b, hq, hh, hlen, hl⟩ := hp (by rw [← hseq]; exact h0)
  refine ⟨q, b, hseq.trans hq, Kernel.holdsSent_micro hw hh ?_ hmicro, by rw [hsize]; exact hlen, ?_⟩
  · -- the walk has not met the packet
    show s.kernel.ackCount pp ≤ (q - s.kernel.head).toNat
    by_contra hlt
    have hqq : s.windowStart + UInt16.ofNat (q - s.kernel.head).toNat = q := by
      rw [UInt16.ofNat_toNat]
      show s.kernel.head + (q - s.kernel.head) = q
      grind
    obtain ⟨p, hslot, -, ht, -⟩ := hh
    have := hwalk.passed (q - s.kernel.head).toNat (by omega) p (by rw [hqq]; exact hslot) ht h0
    rw [hqq] at this
    exact this (hseq.trans hq)
  · rw [hov, ho, hwalk.probes]
    exact hl

/-! The EACK bitmap and what comes with it. -/

theorem keeps_fastTimeout (h : s.fastTimeoutSends (probeWatch env)) : Keeps s (s.fastTimeout env) := by
  unfold fastTimeout
  unfold fastTimeoutSends at h
  split
  · rename_i hf
    split
    · exact .of_quiet (quiet_setTiming _ s) (beside_setTiming_fast stillHost _ s)
    · rename_i hne
      rw [if_pos ⟨hf, not_not.1 hne⟩] at h
      have hpoint : Keeps s (s.setTiming { s.timing with
          fastResendSeqNr := s.timing.fastResendSeqNr + 1 }) :=
        .of_quiet (quiet_setTiming _ s) (beside_setTiming_fast stillHost _ s)
      split
      · rename_i p hp
        rw [hp] at h
        dsimp only at h
        split
        · rename_i ht
          rw [if_pos ht] at h
          exact hpoint.trans (keeps_sendPacket env h)
        · exact .refl s
      · exact .refl s
  · exact .refl s

theorem keeps_sendLast (h : s.lastSends (probeWatch env)) : Keeps s (s.sendLast env) := by
  unfold sendLast
  unfold lastSends at h
  split
  · rename_i hc
    rw [if_pos hc] at h
    split
    · rename_i p hp
      rw [hp] at h
      dsimp only at h
      split
      · rename_i ht
        rw [if_pos ht] at h
        exact keeps_sendPacket env h
      · exact .refl s
    · exact .refl s
  · exact .refl s

theorem spared_of_bitmapSpares {pp : ParsedPacket} {mask : Bytes} (hm : pp.selack = some mask)
    (h : s.bitmapSpares (pp.ackNr.toNat + 2) mask) {q : UInt16} (h0 : s.mtu.probeSeq ≠ 0)
    (hq : s.mtu.probeSeq = q.toUInt32) : s.kernel.Spared (.eack pp) q := by
  rintro mask' hm' bits hbit hv hwin
  rw [hm] at hm'
  cases hm'
  obtain ⟨n, rfl, hn⟩ := maskBit_range hbit
  unfold bitmapSpares at h
  rw [decide_eq_false h0, Bool.false_or, List.all_eq_true] at h
  have := h n (List.mem_range.2 hn)
  rw [hbit, hv, ← hq, (inEackWindow_kernel _ s).2 (by rw [hv]; exact hwin)] at this
  simp at this

theorem keeps_resendLoop {vs : List ℤ} {i : ℕ} (backOff : Bool)
    (h : s.resendLoopSends env (probeWatch env) vs i) : Keeps s (s.resendLoop env vs i backOff).2 := by
  induction vs generalizing i backOff s with
  | nil => exact .refl s
  | cons v vs ih =>
    unfold resendLoop
    unfold resendLoopSends at h
    split
    · rename_i hv
      rw [if_pos hv, Bool.and_eq_true] at h
      have hsend := (keeps_sendPacket env h.1).trans (.of_quiet (quiet_setTiming
        { (s.sendPacket env v).timing with fastResendSeqNr := UInt16.ofInt (v + 1) } _)
        (beside_setTiming_fast stillHost _ _))
      dsimp only
      split
      · exact hsend
      · rename_i hi
        rw [decide_eq_false hi, Bool.false_or] at h
        exact hsend.trans (ih _ h.2)
    · rename_i hv
      rw [if_neg hv] at h
      exact ih _ h

theorem keeps_selectiveAck {pp : ParsedPacket} {mask : Bytes} (hm : pp.selack = some mask)
    (h : s.selectiveAckSends env (probeWatch env) (pp.ackNr.toNat + 2) mask) :
    Keeps s (s.selectiveAck env (pp.ackNr.toNat + 2) mask) := by
  unfold selectiveAck
  unfold selectiveAckSends at h
  by_cases hcur : s.send.curWindowPackets = 0
  · rw [if_pos hcur]
    exact .refl s
  rw [if_neg hcur] at h ⊢
  rw [Bool.and_eq_true] at h
  obtain ⟨hbits, hsends⟩ := h
  have hc : 0 < s.kernel.cur := by
    have hcur : s.kernel.cur ≠ 0 := hcur
    grind
  have hscan : Keeps s (s.eackLoop env (pp.ackNr.toNat + 2) mask (8 * mask.length + 1) 0 []).2.2 :=
    .of_runs (fun _ h => by cases h) (runs_eackLoop env hm _ 0 [] hc)
      (fun q h0 hq => spared_of_bitmapSpares hm hbits h0 hq) (beside_eackLoop env _ _ _ _ _ s)
  generalize s.eackLoop env (pp.ackNr.toNat + 2) mask (8 * mask.length + 1) 0 [] = a at hscan hsends ⊢
  dsimp only at hsends ⊢
  generalize (if a.2.2.fastResend ((pp.ackNr.toNat : ℤ) + 2 - 1) a.1 then
    a.2.1 ++ [((pp.ackNr.toNat : ℤ) + 2 - 1) % 2 ^ 16] else a.2.1).reverse = vs at hsends ⊢
  have hres := hscan.trans (keeps_resendLoop env false hsends)
  generalize a.2.2.resendLoop env vs 4 false = b at hres ⊢
  refine (hres.trans (.ite (fun _ => ?_) (fun _ => .refl b.2))).trans
    (.of_quiet (quiet_setDuplicateAck _ _) (beside_setDuplicateAck stillHost _ _))
  exact .of_quiet (quiet_setCc (curWindow_maybeDecayWin _ _))
    (beside_setCc stillHost (timer_maybeDecayWin _ _))

theorem keeps_processAck {pp : ParsedPacket} {time : UInt64}
    (hs : s.kernel.state = .synSent → s.kernel.ackNr = pp.seqNr - 1)
    (h : s.ackSends env (probeWatch env) pp time) : Keeps s (s.processAck env pp time) := by
  unfold processAck
  unfold ackSends at h
  have hdup := keeps_countDuplicate pp s
  have hk := (quiet_countDuplicate pp s).1
  have hacks : s.ackCount pp = s.kernel.ackCount pp := rfl
  rw [← hk] at hs hacks
  dsimp only at h ⊢
  generalize s.countDuplicate pp = t at hdup hk hs hacks h ⊢
  rw [hacks] at h ⊢
  have hadv := keeps_acknowledge env pp time hs rfl
  have hk' := (quiet_processAcks env pp (t.kernel.ackCount pp) time t).1
  generalize t.processAcks env pp (t.kernel.ackCount pp) time = u at hadv hk' h ⊢
  have hle : t.kernel.ackCount pp ≤ u.send.curWindowPackets.toNat := by
    have : u.send.curWindowPackets = t.kernel.cur := congrArg Kernel.cur hk'
    rw [this]
    exact t.kernel.ackCount_le pp
  rw [Bool.and_eq_true] at h
  obtain ⟨hmid, hsel⟩ := h
  unfold advanceSends at hmid
  rw [if_pos hle, Bool.and_eq_true] at hmid
  rw [advanceSendWindow_eq env hle] at hsel ⊢
  generalize (((u.peerWindow pp.windowsize).ackState pp (t.kernel.ackCount pp)).raiseFastResend pp
    ).advance env (t.kernel.ackCount pp) = v at hadv hmid hsel ⊢
  have hlast := (hadv.trans (keeps_sendLast env hmid.1)).trans (keeps_fastTimeout env hmid.2)
  generalize (v.sendLast env).fastTimeout env = w at hlast hsel ⊢
  refine (hdup.trans hlast).trans ?_
  have heack : Keeps w (w.selectiveAckOf env pp) := by
    unfold selectiveAckOf
    unfold selectiveAckOfSends at hsel
    split
    · rename_i mask hm
      rw [hm] at hsel
      exact keeps_selectiveAck env hm hsel
    · exact .refl w
  refine (heack.trans ?_).trans (keeps_becomeWritable _)
  exact .host (runs_assertHead (a := .incomingHead) (fun k => Iff.rfl) _) (beside_assert env _ _ rfl)

/-! A datagram, and the set-up. -/

/-- The kernel waits for `pp` or is unchanged, and nothing beside it moves. -/
theorem keeps_unmoved {pp : ParsedPacket} (h : Unmoved env pp s t) : Keeps s t := by
  obtain ⟨hk, hb⟩ := h
  have he : s.kernel.expect pp = { s.kernel with ackNr := (s.kernel.expect pp).ackNr } := by
    unfold Kernel.expect
    split <;> rfl
  obtain ⟨hm, ho⟩ := hb.still rfl
  have hm : t.mtu = s.mtu := hm
  rintro sent ⟨hw, hp⟩
  rw [he] at hk
  refine ⟨?_, fun h0 => ?_⟩
  · rw [hk]
    exact hw.congr rfl rfl rfl rfl rfl id
  · unfold Probed at hp
    rw [hm] at h0 ⊢
    rw [hk, ho]
    exact hp h0

theorem keeps_takePacket {pp : ParsedPacket} {time : UInt64}
    (hs : s.kernel.state = .synSent → s.kernel.ackNr = pp.seqNr - 1)
    (hd : (s.kernel.seqDistance pp).toNat < 1024) (h : s.ackSends env (probeWatch env) pp time) :
    Keeps s (s.takePacket env pp time) := by
  have hack := keeps_processAck env hs h
  have hspec := processAck_spec env pp time hs
  unfold takePacket
  dsimp only
  generalize s.processAck env pp time = t at hack hspec ⊢
  split_ifs with h₁ h₂
  · exact hack
  · exact hack
  obtain ⟨t', u, hq, had, hr⟩ := hspec
  have hnr := (ackNr_of_eack hr).trans (had.ackNr.trans (congrArg Kernel.ackNr hq.1))
  have hopen : t.kernel.IsOpen := by
    by_contra hc
    exact h₂ ⟨fun h => hc (.inl h), fun h => hc (.inr h)⟩
  have hsd : s.kernel.seqDistance pp = t.kernel.seqDistance pp := by
    unfold Kernel.seqDistance
    rw [hnr]
  rw [hsd] at hd
  rw [show s.seqDistance pp = t.kernel.seqDistance pp from hsd]
  exact hack.trans (.packet (delivered_deliverData env hopen hd h₁).runs (beside_deliverData env pp _ t))

theorem keeps_processIncoming {b : Bytes} (h : s.incomingSends env (probeWatch env) b) :
    Keeps s (s.processIncoming env b false) := by
  unfold processIncoming
  unfold incomingSends at h
  have hb : Beside env true true false s ((s.refreshClock env).parsePacket b).2 :=
    (beside_refreshClock env s).trans (.of_eq rfl)
  have hq : Quiet s ((s.refreshClock env).parsePacket b).2 := .of_eq rfl rfl
  generalize (s.refreshClock env).parsePacket b = a at hb hq h ⊢
  dsimp only at h ⊢
  split
  · exact .of_quiet hq hb
  rename_i pp hp
  rw [hp] at h
  dsimp only at h
  have ha : Keeps s a.2.asked := .of_quiet (hq.trans (quiet_asked a.2)) (hb.trans (beside_asked env a.2))
  refine .ite (fun _ => ha) (fun hv => ha.trans ?_)
  rw [Bool.eq_false_iff.2 hv, Bool.false_or] at h
  unfold processValid
  unfold validSends at h
  have hum := unmoved_openPacket env pp a.2.asked
  have hst : (((a.2.asked.assert (pp.type ≠ ST_RESET) .incomingReset).synSentAck pp).setTiming
      { ((a.2.asked.assert (pp.type ≠ ST_RESET) .incomingReset).synSentAck pp).timing with
        lastGotPacket := ((a.2.asked.assert (pp.type ≠ ST_RESET) .incomingReset).synSentAck pp
          ).currentMs }).kernel.state = .synSent →
      (((a.2.asked.assert (pp.type ≠ ST_RESET) .incomingReset).synSentAck pp).setTiming
      { ((a.2.asked.assert (pp.type ≠ ST_RESET) .incomingReset).synSentAck pp).timing with
        lastGotPacket := ((a.2.asked.assert (pp.type ≠ ST_RESET) .incomingReset).synSentAck pp
          ).currentMs }).kernel.ackNr = pp.seqNr - 1 := by
    rw [hum.1]
    unfold Kernel.expect
    split
    · exact fun _ => rfl
    · exact fun h => absurd h ‹_›
  have hopen := keeps_unmoved env hum
  dsimp only at h ⊢
  generalize ((a.2.asked.assert (pp.type ≠ ST_RESET) .incomingReset).synSentAck pp).setTiming _ = u
    at hst hopen h ⊢
  refine hopen.trans ?_
  rw [if_neg (by simp)]
  by_cases hd : REORDER_BUFFER_MAX_SIZE ≤ (u.seqDistance pp).toNat
  · rw [if_pos hd]
    exact .ite (fun _ => .of_quiet (quiet_scheduleAck u) (beside_scheduleAck stillHost u))
      (fun _ => .refl u)
  · rw [if_neg hd]
    rw [decide_eq_false hd, Bool.false_or] at h
    exact keeps_takePacket env hst (not_le.1 hd) h

/-- A socket that is not set up waits for nothing. -/
theorem probeSeq_unused {sent : List Effect} (h : Sound sent s) (hu : s.kernel.state = .uninitialized) :
    s.mtu.probeSeq = 0 := by
  by_contra h0
  obtain ⟨q, b, -, hh, -⟩ := h.2 h0
  have hin := hh.inWindow h.1.toRing
  rw [(h.1.unused hu).1] at hin
  exact absurd hin (by grind)

theorem probeSeq_freshMtu (u : UInt16) (ms : UInt64) (m : MtuDiscovery) :
    (freshMtu u ms m).probeSeq = m.probeSeq := by
  rw [freshMtu, MtuDiscovery.setLastToCeiling, MtuDiscovery.reset]

theorem probeSeq_initializeSocket (addr : Address) (seed idRecv idSend : UInt32) (s : UtpSocket) :
    (s.initializeSocket env addr seed idRecv idSend).mtu.probeSeq = s.mtu.probeSeq := by
  obtain ⟨n, ms, houter⟩ := outer_initializeSocket env addr seed idRecv idSend s
  generalize s.initializeSocket env addr seed idRecv idSend = t at houter ⊢
  show t.outer.search.mtu.probeSeq = _
  rw [houter]
  exact probeSeq_freshMtu _ _ s.mtu

theorem window_queueSyn {k : Kernel} {seed : UInt32} {seq : UInt16} (hw : k.Window)
    (hu : k.state = .uninitialized) (hk : u.kernel = k.dial seed seq) :
    u.queueSyn.kernel.Window := by
  have hsyn := syn_synHdr u
  unfold queueSyn
  generalize ({ hdr := u.synHdr, body := [] } : OutgoingPacket) = p at hsyn ⊢
  rw [hk] at hsyn
  rw [kernel_enqueue, hk]
  have hcur : (k.dial seed seq).cur.toNat = 0 := congrArg UInt16.toNat (hw.unused hu).1
  exact (Kernel.window_dial hw hu seed seq).queue (f := k.finSent) (c := k.closeRequested)
    hsyn.seqNr hsyn.transmissions (by simp [Kernel.dial]) (by omega) (by omega)

theorem sound_queueSyn {sent : List Effect} (hw : u.queueSyn.kernel.Window)
    (h0 : u.mtu.probeSeq = 0)
    (hs : (probeWatch env).send (u.queueSyn.send.seqNr - 1).toNat u.queueSyn) :
    Sound sent (u.queueSyn.sendPacket env (u.queueSyn.send.seqNr - 1).toNat) :=
  keeps_sendPacket env hs sent (.unprobed hw h0)

theorem probeSeq_readySyn (t : UtpSocket) : (t.readySyn env).mtu.probeSeq = t.mtu.probeSeq :=
  congrArg MtuDiscovery.probeSeq (beside_readySyn env (f := true) t).mtu

/-- The SYN may be the first probe. -/
theorem sound_connectWith {addr : Address} {seed : UInt32} {sent : List Effect}
    (hu : s.kernel.state = .uninitialized) (h : Sound sent s)
    (hs : s.connectSends env (probeWatch env) addr seed) : Sound sent (s.connectWith env addr seed) := by
  obtain ⟨seq, hk, -⟩ := readySyn_spec env (initializeSocket_spec env addr seed seed (seed + 1) s)
  have hw := window_queueSyn h.1 hu hk
  have h0 := probeSeq_unused h hu
  rw [← probeSeq_initializeSocket env addr seed seed (seed + 1) s, ← probeSeq_readySyn env] at h0
  rw [connectSends_eq] at hs
  unfold connectWith
  rw [sendSyn_eq]
  exact sound_queueSyn env hw h0 hs

theorem probeSeq_acceptWith (addr : Address) (b : Bytes) (s : UtpSocket) :
    (s.acceptWith env addr b).mtu.probeSeq = s.mtu.probeSeq := by
  obtain ⟨t, id, rfl, hb⟩ := beside_acceptWith env (r := true) (m := false) addr b s
  rw [hb.mtu, probeSeq_initializeSocket]

theorem sound_acceptWith (addr : Address) (b : Bytes) {sent : List Effect}
    (hu : s.kernel.state = .uninitialized) (h : Sound sent s) :
    Sound sent (s.acceptWith env addr b) := by
  refine .unprobed (window_runs (runs_acceptWith env addr b hu) h.1) ?_
  rw [probeSeq_acceptWith]
  exact probeSeq_unused h hu

theorem keeps_setMtu (c : Prop) [Decidable c] {a : Assertion} (ha : a.watched = false) (m : MtuDiscovery)
    (hm : m.probeSeq = 0) (s : UtpSocket) : Keeps s ((s.assert c a).setMtu m) := by
  refine .of_search (quiet_assert c s ha).1 ?_ (.inl hm)
  show (s.assert c a).outer.probes = _
  rw [outer_assert]

theorem probeSeq_searchUpdate (m : MtuDiscovery) (ms : UInt64) : (m.searchUpdate ms).probeSeq = 0 := by
  rw [MtuDiscovery.searchUpdate]
  split <;> rfl

theorem keeps_onIcmpFragmentation (nextHopMtu : UInt16) (s : UtpSocket) :
    Keeps s (s.onIcmpFragmentation nextHopMtu) := by
  unfold onIcmpFragmentation
  refine .ite (fun _ => keeps_setMtu _ rfl _ ?_ s) (fun _ => keeps_setMtu _ rfl _ ?_ s)
  · rw [MtuDiscovery.handleIcmpFragmentation]
    exact probeSeq_searchUpdate _ _
  · exact probeSeq_searchUpdate _ _

/-- A call on a socket that is set up, or that does not set it up. -/
theorem sound_op {op : Op} {sent : List Effect} (ho : op.Enabled s) (h : Sound sent s)
    (hs : op.sends env (probeWatch env) s) : Sound sent (op.run env s) := by
  cases op with
  | connect addr seed =>
    simp only [Op.run, Op.sends] at hs ⊢
    split
    · rename_i hu
      rw [decide_eq_false (not_not.2 hu), Bool.false_or] at hs
      exact sound_connectWith env hu h hs
    · exact Keeps.host (runs_connectAgain s) (beside_connectAgain env s) sent h
  | accept addr syn => exact sound_acceptWith env addr syn ho h
  | setOption opt val =>
    exact Keeps.of_quiet (quiet_setOption opt val s) (beside_setOption env opt val s) sent h
  | writev iov => exact keeps_writev env hs sent h
  | readDrained => exact Keeps.host (runs_readDrained env s) (beside_readDrained env s) sent h
  | close => exact keeps_close env hs sent h
  | shutdown how => exact keeps_shutdown env hs sent h
  | sendAck => exact Keeps.host (runs_sendAck env false s) (beside_sendAck env false s) sent h
  | processIncoming b => exact keeps_processIncoming env hs sent h
  | onReset => exact Keeps.broken (runs_onReset s) (beside_onReset env s) sent h
  | onIcmpError => exact Keeps.broken (runs_onIcmpError s) (beside_onIcmpError env s) sent h
  | onIcmpFragmentation nextHopMtu => exact keeps_onIcmpFragmentation nextHopMtu s sent h
  | checkTimeouts => exact keeps_checkTimeouts env hs sent h

/-! Runs. -/

/-- Every packet sent as a probe is the newest, and no bitmap acknowledges the probe. -/
def ProbeInSight (env : Env) (s : UtpSocket) (op : Op) : Prop := op.sends env (probeWatch env) s

/-- The probes that a run has sent. -/
def probesOf (calls : List Call) : List Effect := calls.flatMap fun c => c.effects.filter Effect.onProbe

/-- `g` are the probes sent up to `s`, those of the last call included. -/
def SoundAfter (g : List Effect) (s : UtpSocket) : Prop :=
  ∃ sent, g = sent ++ s.outer.probes ∧ Sound sent s

theorem soundAfter_step {g : List Effect} {s s' : UtpSocket} {l : List Call} (h : SoundAfter g s)
    (hs : StepIf ProbeInSight s l s') : SoundAfter (g ++ probesOf l) s' := by
  obtain ⟨sent, rfl, hw, hp⟩ := h
  cases hs with
  | call env ms tick op ho hc =>
    have ho' := ho.lend ms tick
    have hl : Sound (sent ++ s.outer.probes) (s.lend ms tick) := by
      refine ⟨hw, fun h0 => ?_⟩
      obtain ⟨q, b, hq, hh, hlen, hl⟩ := hp h0
      refine ⟨q, b, hq, hh, hlen, ?_⟩
      rw [show (s.lend ms tick).outer.probes = [] from rfl, List.append_nil]
      exact hl
    refine ⟨sent ++ s.outer.probes, ?_, sound_op env ho' hl hc⟩
    simp [probesOf, outer]

theorem soundAfter_run {targetDelay rcvbuf sndbuf : ℕ} {calls : List Call}
    (h : RunIf ProbeInSight targetDelay rcvbuf sndbuf calls s) : SoundAfter (probesOf calls) s := by
  obtain ⟨g, hg, hs⟩ := h.ghost SoundAfter (fun g l g' => g' = g ++ probesOf l)
    (fun g => by simp [probesOf]) (fun g a g₁ l g' h h' => by simp [probesOf, h, h'])
    (fun g s l s' hR hst => ⟨_, rfl, soundAfter_step hR hst⟩) (g := [])
    ⟨[], rfl, .unprobed Kernel.initial_window rfl⟩
  rwa [hg] at hs

/-- In every run that keeps its probes in sight, a search that waits for a probe waits for a packet
of the window: it has the number and the size of the search and is the last one sent without
fragmentation. So every bound that the search then moves is moved for that packet. -/
theorem probe_identity {targetDelay rcvbuf sndbuf : ℕ} {calls : List Call} {s : UtpSocket}
    (h : RunIf ProbeInSight targetDelay rcvbuf sndbuf calls s) (h0 : s.mtu.probeSeq ≠ 0) :
    ∃ p, s.send.outbuf.get p.hdr.seqNr.toNat = some p ∧
      p.hdr.seqNr - s.windowStart < s.send.curWindowPackets ∧ 0 < p.transmissions ∧
      s.mtu.probeSeq = p.hdr.seqNr.toUInt32 ∧ s.mtu.probeSize.toNat = p.length ∧
      LastProbe (probesOf calls) p.hdr.seqNr p.body ∧
      (∀ seq : UInt16, s.mtu.isProbe seq.toUInt32 ↔ seq = p.hdr.seqNr) ∧
      s.mtu.raiseFloor.floor.toNat = p.length ∧ s.mtu.lowerCeiling.ceiling.toNat + 1 = p.length := by
  obtain ⟨sent, hsent, hw, hp⟩ := soundAfter_run h
  obtain ⟨q, b, hq, hh, hlen, hlast⟩ := hp h0
  have hin := hh.inWindow hw.toRing
  obtain ⟨p, hslot, rfl, ht, rfl⟩ := hh
  have hsize : s.mtu.probeSize.toNat = p.length := hlen
  refine ⟨p, hslot, hin, ht, hq, hsize, by rw [hsent]; exact hlast,
    fun seq => ?_, hsize, ?_⟩
  · unfold MtuDiscovery.isProbe
    rw [hq] at h0 ⊢
    simp only [h0, ne_eq, not_false_eq_true, decide_true, Bool.true_and, decide_eq_true_eq]
    refine ⟨fun he => ?_, fun he => by rw [he]⟩
    apply UInt16.toNat.inj
    simpa using congrArg UInt32.toNat he
  · have hpos : 1 ≤ s.mtu.probeSize.toNat := by
      rw [hlen, PacketFormatV1.size]
      omega
    show (s.mtu.probeSize - 1).toNat + 1 = _
    rw [UInt32.toNat_sub_of_le _ _ (by simpa [UInt32.le_iff_toNat_le] using hpos), ← hsize]
    simp only [UInt32.toNat_one]
    omega

/-- A thousand bytes go out as a probe. -/
def probing : UtpSocket :=
  perform stillHost dialled [.processIncoming (statePacket 100 0), .writev [List.replicate 1000 0]]

theorem runIf_probing : ∃ calls, RunIf ProbeInSight CCONTROL_TARGET 4096 4096 calls probing := by
  refine ⟨_, .head (.call stillHost 0 0 (.connect ⟨0, 0⟩ 7) trivial ?_)
    (.head (.call stillHost 0 0 (.processIncoming (statePacket 100 0)) trivial ?_)
      (.single (.call stillHost 0 0 (.writev [List.replicate 1000 0]) trivial ?_)))⟩ <;>
  · unfold ProbeInSight
    decide +kernel

theorem probe_identity_probing : ∃ p, probing.send.outbuf.get p.hdr.seqNr.toNat = some p ∧
    probing.mtu.probeSeq = p.hdr.seqNr.toUInt32 ∧ probing.mtu.probeSize.toNat = p.length := by
  obtain ⟨calls, h⟩ := runIf_probing
  obtain ⟨p, hp, -, -, hq, hlen, -⟩ := probe_identity h (by decide +kernel)
  exact ⟨p, hp, hq, hlen⟩

/-- Behind the first byte a full packet and a short one wait. When the byte is acknowledged the timer
sends the full one, which becomes the probe. -/
def overtaken : UtpSocket :=
  perform stillHost dialled [.processIncoming (statePacket 100 0), .writev [[1]],
    .writev [List.replicate 500 0], .writev [List.replicate 1000 0],
    .processIncoming (statePacket 100 1), .checkTimeouts]

/-- The search waits for the short packet, which is not sent, in the size of the full one. -/
theorem probe_mistaken : (∃ calls, Run CCONTROL_TARGET 4096 4096 calls overtaken) ∧
    overtaken.mtu.probeSeq ≠ 0 ∧
    ¬ ∃ p, overtaken.send.outbuf.get overtaken.mtu.probeSeq.toNat = some p ∧
      0 < p.transmissions ∧ overtaken.mtu.probeSize.toNat = p.length := by
  obtain ⟨calls, h⟩ := run_dialled
  obtain ⟨calls', h'⟩ := trace_perform stillHost dialled (l := [.processIncoming (statePacket 100 0),
    .writev [[1]], .writev [List.replicate 500 0], .writev [List.replicate 1000 0],
    .processIncoming (statePacket 100 1), .checkTimeouts]) fun op hop s => by
      simp only [List.mem_cons, List.not_mem_nil, or_false] at hop
      rcases hop with rfl | rfl | rfl | rfl | rfl | rfl <;> trivial
  refine ⟨⟨_, h.trans h'⟩, by decide +kernel, ?_⟩
  rintro ⟨p, hp, ht, -⟩
  have hun : ∀ p ∈ overtaken.send.outbuf.get overtaken.mtu.probeSeq.toNat, p.transmissions = 0 := by
    decide +kernel
  rw [hun p hp] at ht
  exact absurd ht (lt_irrefl 0)

end UtpSocket

end Utp
