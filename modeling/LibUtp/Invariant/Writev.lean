import LibUtp.Invariant.PacketSize
import LibUtp.Invariant.Wakeups
import LibUtp.Invariant.WrittenBytes

/-! `writev` on a connected socket: its loops end, its assertions hold, and what it reports is what
it has put behind the bytes written before. A write that stops short leaves the socket in
`CS_CONNECTED_FULL`, and only with the callback does it leave that state for `CS_CONNECTED`. -/

namespace Utp

open Lts SequenceBuffer

/-- The host answers the queries as the assertions on its answers ask. -/
structure Env.Answers (env : Env) : Prop where
  mtu : env.MtuInRange
  buffered : ∀ n, 0 ≤ int32 (env.readBufferSize n)

namespace Kernel

variable {x : Input} {k k' : Kernel} {acts : List Act}

/-- The window with what is known of its packets. -/
structure Stock (k : Kernel) : Prop extends Window k where
  bare : k.Each Bare
  marked : k.Each SentIfMarked

theorem stock_micro (h : k.Stock) (hm : Micro x k acts k') : k'.Stock :=
  ⟨(window_micro h.toWindow hm).1, each_micro (made_bare _) h.bare hm,
    each_micro (made_sentIfMarked _) h.marked hm⟩

theorem initial_stock : initial.Stock := ⟨initial_window, each_initial, each_initial⟩

end Kernel

namespace UtpSocket

variable (env : Env) {x : Input} {b : Bytes} {s t u : UtpSocket}

theorem stock_runs (h : Runs x b s t) (hs : s.kernel.Stock) : t.kernel.Stock := by
  obtain ⟨acts, ht, -⟩ := h
  exact ht.invariant (fun _ _ _ hk hm => Kernel.stock_micro hk hm) hs

theorem stock_run {targetDelay rcvbuf sndbuf : ℕ} {calls : List Call}
    (h : Run targetDelay rcvbuf sndbuf calls s) : s.kernel.Stock := by
  refine (run_invariant (G := fun _ => True) (P := fun _ => True)
    (fun x k acts k' _ hk hm => Kernel.stock_micro hk hm) (fun _ _ _ _ _ _ _ _ _ _ _ => trivial) h
    (fun _ _ _ _ => trivial) ?_).1
  rw [kernel_new]
  exact Kernel.initial_stock

/-! The loops end. -/

/-- The assertions at the start of a round of `write_outgoing_packet`. -/
def roundStart (flags : UInt8) (s : UtpSocket) : UtpSocket :=
  (s.assert (s.send.curWindowPackets.toNat < OUTGOING_BUFFER_MAX_SIZE) .windowPackets).assert
    (flags = ST_DATA ∨ flags = ST_FIN) .packetFlags

/-- What the tail packet `p` takes of `payload` bytes. -/
def tailShare (packetSize payload : ℕ) (p : OutgoingPacket) : ℕ :=
  min (payload + p.payload) (max packetSize p.payload) - p.payload

theorem writeLoop_succ (packetSize : ℕ) (flags : UInt8) (fuel payload : ℕ) (iov : List Bytes)
    (s : UtpSocket) : s.writeLoop env packetSize flags (fuel + 1) payload iov =
      match (s.roundStart flags).openTail packetSize payload with
      | some p =>
        let t := (s.roundStart flags).growTail env flags p (tailShare packetSize payload p) iov
        if payload - tailShare packetSize payload p = 0 then
          ((gather (tailShare packetSize payload p) iov).2, t)
        else t.writeLoop env packetSize flags fuel (payload - tailShare packetSize payload p)
          (gather (tailShare packetSize payload p) iov).2
      | none => ((gather payload iov).2, (s.roundStart flags).queuePacket env flags payload iov) := rfl

/-- The rounds of `write_outgoing_packet` that are left come to an end. -/
inductive WriteEnds (packetSize : ℕ) (flags : UInt8) : ℕ → List Bytes → UtpSocket → Prop
  | queued {payload iov s} (h : (s.roundStart flags).openTail packetSize payload = none) :
      WriteEnds packetSize flags payload iov s
  | filled {payload iov s p} (h : (s.roundStart flags).openTail packetSize payload = some p)
      (h0 : payload - tailShare packetSize payload p = 0) : WriteEnds packetSize flags payload iov s
  | round {payload iov s p} (h : (s.roundStart flags).openTail packetSize payload = some p)
      (hn : WriteEnds packetSize flags (payload - tailShare packetSize payload p)
        (gather (tailShare packetSize payload p) iov).2
        ((s.roundStart flags).growTail env flags p (tailShare packetSize payload p) iov)) :
      WriteEnds packetSize flags payload iov s

/-- An open tail takes something. -/
theorem tailShare_pos {packetSize payload : ℕ} {p : OutgoingPacket}
    (h : s.openTail packetSize payload = some p) :
    0 < tailShare packetSize payload p ∧ tailShare packetSize payload p ≤ payload := by
  obtain ⟨-, hpos, -, -, hlt⟩ := openTail_spec h
  unfold tailShare
  omega

theorem writeEnds (packetSize : ℕ) (flags : UInt8) (payload : ℕ) (iov : List Bytes) (s : UtpSocket) :
    WriteEnds env packetSize flags payload iov s := by
  induction payload using Nat.strong_induction_on generalizing iov s with
  | _ payload ih =>
    cases hp : (s.roundStart flags).openTail packetSize payload with
    | none => exact .queued hp
    | some p =>
      obtain ⟨h₁, h₂⟩ := tailShare_pos hp
      exact .round hp (ih _ (by omega) _ _)

/-- The rounds of `writev` that are left come to an end, and so does each of them. -/
inductive WritevEnds (packetSize : ℕ) : ℕ → List Bytes → UtpSocket → Prop
  | full {bytes iov s} (h : (s.isFull (int32 (min bytes packetSize : ℕ))).1 = true) :
      WritevEnds packetSize bytes iov s
  | last {bytes iov s t} (hf : s.isFull (int32 (min bytes packetSize : ℕ)) = (false, t))
      (hw : WriteEnds env t.startRto.getPacketSize ST_DATA (min bytes packetSize) iov t.startRto)
      (h0 : min (bytes - min bytes packetSize) packetSize = 0) : WritevEnds packetSize bytes iov s
  | round {bytes iov s t} (hf : s.isFull (int32 (min bytes packetSize : ℕ)) = (false, t))
      (hw : WriteEnds env t.startRto.getPacketSize ST_DATA (min bytes packetSize) iov t.startRto)
      (hn : WritevEnds packetSize (bytes - min bytes packetSize)
        (t.writeOutgoingPacket env (min bytes packetSize) ST_DATA iov).1
        (t.writeOutgoingPacket env (min bytes packetSize) ST_DATA iov).2) :
      WritevEnds packetSize bytes iov s

theorem writevEnds (packetSize bytes : ℕ) (iov : List Bytes) (s : UtpSocket) :
    WritevEnds env packetSize bytes iov s := by
  induction bytes using Nat.strong_induction_on generalizing iov s with
  | _ bytes ih =>
    rcases hf : s.isFull (int32 (min bytes packetSize : ℕ)) with ⟨_ | _, t⟩
    · by_cases h0 : min (bytes - min bytes packetSize) packetSize = 0
      · exact .last hf (writeEnds env _ _ _ _ _) h0
      · exact .round hf (writeEnds env _ _ _ _ _) (ih _ (by omega) _ _)
    · exact .full (by rw [hf])

/-- More fuel changes nothing. -/
theorem writevLoop_fuel {packetSize bytes : ℕ} {iov : List Bytes} (h : WritevEnds env packetSize bytes iov s)
    (sent : ℕ) {fuel : ℕ} (hfuel : bytes < fuel) : s.writevLoop env packetSize fuel bytes sent iov =
      s.writevLoop env packetSize (bytes + 1) bytes sent iov := by
  induction h generalizing fuel sent with
  | full h =>
    obtain ⟨n, rfl⟩ := Nat.exists_eq_add_of_lt hfuel
    unfold writevLoop
    dsimp only
    rw [if_pos h, if_pos h]
  | last hf hw h0 =>
    obtain ⟨n, rfl⟩ := Nat.exists_eq_add_of_lt hfuel
    unfold writevLoop
    dsimp only
    rw [hf, if_neg Bool.false_ne_true, if_neg Bool.false_ne_true, if_pos h0, if_pos h0]
  | @round bytes iov s t hf hw hn ih =>
    obtain ⟨n, rfl⟩ := Nat.exists_eq_add_of_lt hfuel
    unfold writevLoop
    dsimp only
    rw [hf, if_neg Bool.false_ne_true, if_neg Bool.false_ne_true]
    by_cases h0 : min (bytes - min bytes packetSize) packetSize = 0
    · rw [if_pos h0, if_pos h0]
    · rw [if_neg h0, if_neg h0, ih _ (show _ < bytes + n by omega), ih _ (show _ < bytes by omega)]

/-! The assertions hold. -/

/-- From `s` to `t` no assertion has failed. -/
def Clean (s t : UtpSocket) : Prop := ∃ l, t.out = s.out ++ l ∧ ∀ a, Effect.assertFailed a ∉ l

namespace Clean

theorem of_eq (h : t.out = s.out) : Clean s t := ⟨[], by rw [h, List.append_nil], by simp⟩

theorem refl (s : UtpSocket) : Clean s s := of_eq rfl

theorem trans (h : Clean s t) (h' : Clean t u) : Clean s u := by
  obtain ⟨l, ho, hl⟩ := h
  obtain ⟨l', ho', hl'⟩ := h'
  refine ⟨l ++ l', by rw [ho', ho, List.append_assoc], fun a ha => ?_⟩
  rcases List.mem_append.1 ha with ha | ha
  · exact hl a ha
  · exact hl' a ha

theorem ite {c : Prop} [Decidable c] (h : c → Clean s t) (h' : ¬ c → Clean s u) :
    Clean s (if c then t else u) := by
  split
  · exact h ‹_›
  · exact h' ‹_›

/-- An assertion that holds leaves the socket as it is. -/
theorem assert {c : Prop} [Decidable c] (hc : c) (a : Assertion) (s : UtpSocket) :
    Clean s (s.assert c a) := by
  unfold UtpSocket.assert
  rw [if_pos hc]
  exact refl s

end Clean

theorem clean_asked (s : UtpSocket) : Clean s s.asked := .of_eq rfl

theorem clean_setRecv (y : ReceiveState) (s : UtpSocket) : Clean s (s.setRecv y) := .of_eq rfl

theorem clean_setCc (c : LedbatController) (s : UtpSocket) : Clean s (s.setCc c) := .of_eq rfl

theorem clean_setMtu (m : MtuDiscovery) (s : UtpSocket) : Clean s (s.setMtu m) := .of_eq rfl

theorem clean_setSend (y : SendState) (s : UtpSocket) : Clean s (s.setSend y) := .of_eq rfl

variable {env}

theorem clean_isFull (bytes : ℤ) (s : UtpSocket) : Clean s (s.isFull bytes).2 := by
  unfold isFull
  split
  · exact .of_eq rfl
  · exact .refl s

theorem clean_updateRcvWin (h : env.Answers) (s : UtpSocket) : Clean s (s.updateRcvWin env) := by
  unfold updateRcvWin askRcvWindow
  exact ((clean_asked s).trans (.assert (h.buffered s.tick) .rcvWindow s.asked)).trans
    (clean_setRecv _ _)

theorem clean_startRto (hw : s.kernel.Window) : Clean s s.startRto := by
  unfold startRto
  refine .ite (fun hc => ?_) (fun _ => .refl s)
  have h0 : s.cc.curWindow = 0 := hw.asserted (a := .idleInFlight) rfl hc
  exact (clean_setCc _ s).trans (.assert h0 .idleInFlight _)

theorem clean_roundStart {flags : UInt8} (hf : flags = ST_DATA ∨ flags = ST_FIN)
    (hc : s.kernel.cur < 1023) : Clean s (s.roundStart flags) := by
  unfold roundStart
  have hc : s.send.curWindowPackets.toNat < OUTGOING_BUFFER_MAX_SIZE :=
    (UInt16.lt_iff_toNat_lt.1 hc).trans (by decide)
  exact (Clean.assert hc .windowPackets s).trans (.assert hf .packetFlags _)

theorem clean_addedAsserts {added got : ℕ} (h : got = added) (s : UtpSocket) :
    Clean s (s.addedAsserts ST_DATA added got) := by
  unfold addedAsserts
  exact .ite (fun _ => .refl s) (fun _ => (Clean.assert rfl .dataFlags s).trans (.assert h .iovecShort _))

theorem length_gather {n : ℕ} {iov : List Bytes} (h : n ≤ iov.flatten.length) :
    (gather n iov).1.length = n := by
  rw [gather_fst, List.length_take, min_eq_left h]

theorem clean_growTail (henv : env.Answers) {p : OutgoingPacket} (hp : p.needResend = false)
    {added : ℕ} {iov : List Bytes} (h : added ≤ iov.flatten.length) (s : UtpSocket) :
    Clean s (s.growTail env ST_DATA p added iov) := by
  unfold growTail
  have h₁ := (Clean.assert hp .tailResend s).trans (clean_addedAsserts (length_gather h) _)
  exact (h₁.trans (clean_updateRcvWin henv _)).trans (clean_setSend _ _)

theorem clean_queuePacket (henv : env.Answers) {added : ℕ} {iov : List Bytes}
    (h : added ≤ iov.flatten.length) (s : UtpSocket) :
    Clean s (s.queuePacket env ST_DATA added iov) := by
  unfold queuePacket
  have h₁ := clean_addedAsserts (length_gather h) s
  exact (h₁.trans (clean_updateRcvWin henv _)).trans (clean_setSend _ _)

theorem clean_startProbe {p : OutgoingPacket} (h : s.probes p) : Clean s (s.startProbe p.length) := by
  unfold probes at h
  simp only [Bool.and_eq_true, decide_eq_true_eq] at h
  obtain ⟨⟨⟨⟨⟨-, h₁⟩, h₂⟩, -⟩, -⟩, -⟩ := h
  unfold startProbe
  have hm := clean_setMtu (s.mtu.setProbe (s.send.seqNr - 1).toUInt32 (UInt32.ofNat p.length)) s
  exact (hm.trans (.assert (le_of_lt h₁) .probeFloor _)).trans (.assert h₂ .probeCeiling _)

theorem clean_rediscover (henv : env.MtuInRange) (ms : UInt64) (s : UtpSocket) :
    Clean s (s.rediscover env ms) := by
  unfold rediscover
  refine .ite (fun _ => ?_) (fun _ => .refl s)
  have hb : (s.mtu.reset (env.udpMtu s.tick).toUInt32 ms).boundsAssert := by
    apply UInt32.le_iff_toNat_le.2
    show 576 ≤ (env.udpMtu s.tick).toUInt32.toNat
    rw [UInt16.toNat_toUInt32]
    exact UInt16.le_iff_toNat_le.1 (henv s.tick)
  exact ((clean_asked s).trans (.assert hb .mtuReset s.asked)).trans (clean_setMtu _ _)

theorem clean_sendPacket (henv : env.MtuInRange) (i : ℤ) (s : UtpSocket) :
    Clean s (s.sendPacket env i) := by
  unfold sendPacket
  split
  · exact .refl s
  · rename_i p hp
    have h₁ : Clean s (s.asked.countPacket p).asked := by
      unfold countPacket
      split <;> exact .of_eq rfl
    have h₂ := h₁.trans (clean_rediscover henv (env.milliseconds s.tick) _)
    dsimp only
    generalize (s.asked.countPacket p).asked.rediscover env (env.milliseconds s.tick) = t at h₂ ⊢
    have h₃ : Clean s (if t.probes p = true then t.startProbe p.length else t) :=
      .ite (fun h => h₂.trans (clean_startProbe h)) (fun _ => h₂)
    generalize (if t.probes p = true then t.startProbe p.length else t) = v at h₃ ⊢
    refine h₃.trans ⟨_, out_sendData _ _ _, fun a ha => ?_⟩
    simp at ha

theorem clean_flushLoop (henv : env.MtuInRange) (packetSize n : ℕ) (i : UInt16) (inPrefix : Bool)
    (s : UtpSocket) : Clean s (s.flushLoop env packetSize n i inPrefix).2 := by
  induction n generalizing i inPrefix s with
  | zero => exact .refl s
  | succ n ih =>
    have hmove (s : UtpSocket) : Clean s (s.moveCursor inPrefix i) := .of_eq (out_moveCursor _ _ _)
    unfold flushLoop
    split
    · exact (hmove s).trans (ih _ _ _)
    · have hf := clean_isFull (-1) s
      generalize s.isFull (-1) = w at hf ⊢
      dsimp only
      split_ifs
      · exact hf
      · exact (hf.trans (clean_sendPacket henv _ _)).trans ((hmove _).trans (ih _ _ _))
      · exact hf.trans (ih _ _ _)

theorem clean_flushPackets (henv : env.MtuInRange) (s : UtpSocket) :
    Clean s (s.flushPackets env).2 := clean_flushLoop henv _ _ _ _ s

/-! One `write_outgoing_packet`. -/

theorem within_trace {R : Kernel → List Act → Kernel → Prop} {n : ℕ} {k k' : Kernel} {acts : List Act}
    (hR : ∀ k l k', R k l k' → ∃ x, Kernel.Micro x k l k') (ht : Trace R k acts k')
    (hb : acts.flatMap Act.taken = []) (h : k.Each (Kernel.Within n)) : k'.Each (Kernel.Within n) := by
  induction ht with
  | refl => exact h
  | head hm _ ih =>
    rw [List.flatMap_append, List.append_eq_nil_iff] at hb
    obtain ⟨x, hm⟩ := hR _ _ _ hm
    exact ih hb.2 (Kernel.each_micro (hb.1 ▸ Kernel.made_within n) h hm)

/-- A bound on the packets: no packet size reaches it. -/
def MAX_PAYLOAD : ℕ := 2 ^ 16

/-- A connected socket on which a write is on its way. -/
structure Ready (s : UtpSocket) : Prop where
  stock : s.kernel.Stock
  within : s.kernel.Each (Kernel.Within MAX_PAYLOAD)
  mtu : s.mtu.Usable
  state : s.kernel.state = .connected
  fin : s.kernel.finSent = false

theorem Ready.congr (h : s.Ready) (hk : t.kernel = s.kernel) (hm : t.mtu.Usable) : t.Ready := by
  obtain ⟨h₁, h₂, -, h₃, h₄⟩ := h
  rw [← hk] at h₁ h₂ h₃ h₄
  exact ⟨h₁, h₂, hm, h₃, h₄⟩

theorem Ready.packetSize_le (h : s.Ready) : s.getPacketSize ≤ MAX_PAYLOAD :=
  le_of_lt (packetSize_usable h.mtu).2

/-- The bytes in flight are far from the end of `size_t`. -/
theorem Ready.curWindow_le (h : s.Ready) : s.cc.curWindow ≤ 2 ^ 26 := h.stock.toRing.inFlight_le h.within

theorem within_growTail {packetSize payload : ℕ} {p : OutgoingPacket} {iov : List Bytes}
    (hp : s.openTail packetSize payload = some p) (hP : packetSize ≤ MAX_PAYLOAD)
    (hl : tailShare packetSize payload p ≤ iov.flatten.length)
    (hw : s.kernel.Each (Kernel.Within MAX_PAYLOAD)) :
    (s.growTail env ST_DATA p (tailShare packetSize payload p) iov).kernel.Each
      (Kernel.Within MAX_PAYLOAD) := by
  obtain ⟨-, -, hslot, -, hlt⟩ := openTail_spec hp
  have hq := (quiet_growStart env ST_DATA p (tailShare packetSize payload p)
    (gather (tailShare packetSize payload p) iov).1.length s).1
  rw [growTail, kernel_putOutbuf, hq, filled_gather hl]
  refine hw.replace s.kernel.inFlight ?_
  show (p.body ++ iov.flatten.take (tailShare packetSize payload p)).length ≤ MAX_PAYLOAD
  have hp' : p.body.length ≤ MAX_PAYLOAD := hw _ p hslot
  have hlt : p.body.length < packetSize := hlt
  have hshare : tailShare packetSize payload p ≤ max packetSize p.body.length - p.body.length :=
    Nat.sub_le_sub_right (min_le_right _ _) _
  rw [List.length_append, List.length_take, min_eq_left hl]
  omega

theorem within_queuePacket {added : ℕ} {iov : List Bytes} (hb : added ≤ MAX_PAYLOAD)
    (hl : added ≤ iov.flatten.length) (hw : s.kernel.Each (Kernel.Within MAX_PAYLOAD)) :
    (s.queuePacket env ST_DATA added iov).kernel.Each (Kernel.Within MAX_PAYLOAD) := by
  obtain ⟨p, l, -, hbody, hk, -⟩ := queuePacket_spec env (.inl rfl) added iov s
  rw [hk]
  refine hw.queue ?_
  show p.body.length ≤ MAX_PAYLOAD
  rw [hbody, filled_gather hl, List.length_take, min_eq_left hl]
  exact hb

/-- The rounds fail no assertion and fill no packet beyond the packet size. -/
theorem writeLoop_sound (henv : env.Answers) {packetSize fuel payload : ℕ} {iov : List Bytes}
    (hs : s.Ready) (hc : s.kernel.cur < 1023) (hfuel : payload < fuel)
    (hl : payload ≤ iov.flatten.length) (hP : packetSize ≤ MAX_PAYLOAD) (hb : payload ≤ MAX_PAYLOAD) :
    Clean s (s.writeLoop env packetSize ST_DATA fuel payload iov).2 ∧
      (s.writeLoop env packetSize ST_DATA fuel payload iov).2.kernel.Each
        (Kernel.Within MAX_PAYLOAD) := by
  induction fuel generalizing payload iov s with
  | zero => omega
  | succ fuel ih =>
    rw [writeLoop_succ]
    have hstart := clean_roundStart (.inl rfl) hc
    have hk : (s.roundStart ST_DATA).kernel = s.kernel := (quiet_roundStart ST_DATA s).1
    have hm : (s.roundStart ST_DATA).mtu.Usable := by
      unfold roundStart
      rw [mtu_assert, mtu_assert]
      exact hs.mtu
    have hs := hs.congr hk hm
    generalize s.roundStart ST_DATA = t at hstart hk hs ⊢
    rw [← hk] at hc
    cases hp : t.openTail packetSize payload with
    | none =>
      exact ⟨hstart.trans (clean_queuePacket henv hl t), within_queuePacket hb hl hs.within⟩
    | some p =>
      obtain ⟨h₁, h₂⟩ := tailShare_pos hp
      obtain ⟨-, -, hslot, hsent, -⟩ := openTail_spec hp
      -- the tail was never sent, so it is not marked
      have hn : p.needResend = false := by
        refine Bool.eq_false_iff.2 fun hn => ?_
        have := hs.stock.marked _ p hslot hn
        omega
      have hl' := h₂.trans hl
      have hclean := hstart.trans (clean_growTail henv hn hl' t)
      have hwithin : (t.growTail env ST_DATA p (tailShare packetSize payload p) iov).kernel.Each
          (Kernel.Within MAX_PAYLOAD) := within_growTail hp hP hl' hs.within
      have hrun := runs_growTail env hs.state hs.fin hp hl'
      obtain ⟨o, hku⟩ := kernel_growTail env ST_DATA p (tailShare packetSize payload p) iov t
      have hmu := (beside_growTail env (r := false) (f := false) (m := false) ST_DATA p
        (tailShare packetSize payload p) iov t).usable henv.mtu hs.mtu
      dsimp only
      change Runs _ _ t (t.growTail env ST_DATA p (tailShare packetSize payload p) iov) at hrun
      generalize t.growTail env ST_DATA p (tailShare packetSize payload p) iov = u
        at hclean hwithin hrun hku hmu ⊢
      split
      · exact ⟨hclean, hwithin⟩
      · have hu : u.Ready := ⟨stock_runs hrun hs.stock, hwithin, hmu, by rw [hku]; exact hs.state,
          by rw [hku]; exact hs.fin⟩
        have hlen : payload - tailShare packetSize payload p ≤
            (gather (tailShare packetSize payload p) iov).2.flatten.length := by
          rw [gather_snd, List.length_drop]
          omega
        obtain ⟨h₃, h₄⟩ := ih hu (by rw [hku]; exact hc) (by omega) hlen (by omega)
        exact ⟨hclean.trans h₃, h₄⟩

theorem writeOutgoingPacket_sound (henv : env.Answers) {payload : ℕ} {iov : List Bytes} (hs : s.Ready)
    (hc : s.kernel.cur < 1023) (hl : payload ≤ iov.flatten.length) (hb : payload ≤ MAX_PAYLOAD) :
    Clean s (s.writeOutgoingPacket env payload ST_DATA iov).2 ∧
      (s.writeOutgoingPacket env payload ST_DATA iov).2.Ready := by
  have hmtu := (beside_writeOutgoingPacket env (f := false) payload ST_DATA iov s).usable henv.mtu hs.mtu
  have hrun := (runs_writeOutgoingPacket env hs.state hs.fin hc hl).1
  have hframe := frame_writeOutgoingPacket env (.inl rfl) payload iov s
  have hstart := clean_startRto hs.stock.toWindow
  have hrto : s.startRto.Ready := by
    refine hs.congr (startRto_spec s).1 ?_
    unfold startRto
    split
    · rw [mtu_assert]
      exact hs.mtu
    · exact hs.mtu
  have hc' : s.startRto.kernel.cur < 1023 := by
    rw [(startRto_spec s).1]
    exact hc
  obtain ⟨hclean, hwithin⟩ := writeLoop_sound henv hrto hc' (Nat.lt_succ_self payload) hl
    hrto.packetSize_le hb
  have hflush := clean_flushPackets henv.mtu (s.queueRounds env payload ST_DATA iov).2
  have hflushed := runs_flushPackets env (x := .api) (s.queueRounds env payload ST_DATA iov).2
  rw [writeOutgoingPacket_eq] at hmtu hrun hframe ⊢
  refine ⟨(hstart.trans hclean).trans hflush, stock_runs hrun hs.stock, ?_, hmtu,
    hframe.state.trans hs.state, hframe.finSent.trans hs.fin⟩
  obtain ⟨acts, ht, -, htaken⟩ := hflushed
  -- the flush takes no bytes
  exact within_trace (fun _ _ _ hm => ⟨_, hm⟩) ht htaken hwithin

/-! The rounds of `writev`. -/

/-- No smaller write is refused where a full packet would be let through. -/
theorem windowFull_mono (hs : s.Ready) {b : ℤ} (h : s.windowFull b = true) : s.windowFull (-1) = true := by
  have hP := (packetSize_usable hs.mtu).2
  have hW := hs.curWindow_le
  have hint : int32 s.getPacketSize = s.getPacketSize := int32_eq (by omega) (by omega)
  have hfit {x : ℤ} (h₀ : 0 ≤ x) (h₁ : x ≤ s.getPacketSize) :
      sizeT (s.cc.curWindow + x) = s.cc.curWindow + x.toNat := by
    unfold sizeT
    rw [Int.emod_eq_of_lt (by omega) (by omega)]
    omega
  unfold windowFull at h ⊢
  rw [hint] at h ⊢
  rw [Bool.or_eq_true, decide_eq_true_eq, decide_eq_true_eq] at h ⊢
  refine h.imp_right fun h => ?_
  rw [if_pos (by omega), hfit (by omega) le_rfl]
  by_cases hb : b < 0
  · rw [if_pos hb, hfit (by omega) le_rfl] at h
    exact h
  · rw [if_neg hb] at h
    by_cases hp : (s.getPacketSize : ℤ) < b
    · rw [if_pos hp, hfit (by omega) le_rfl] at h
      exact h
    · rw [if_neg hp, hfit (by omega) (by omega)] at h
      refine h.trans_le ?_
      omega

/-- A refused round finds the window full for a full packet as well. -/
theorem isFull_sound (hs : s.Ready) (b : ℤ) : Clean s (s.isFull b).2 ∧ (s.isFull b).2.Ready ∧
    ((s.isFull b).1 = true → (s.isFull b).2.windowFull (-1) = true) := by
  refine ⟨clean_isFull b s, ?_, fun h => ?_⟩
  · refine hs.congr (kernel_isFull b s) ?_
    unfold isFull
    split <;> exact hs.mtu
  · unfold isFull at h ⊢
    split at h
    · rename_i hf
      rw [if_pos hf]
      show s.windowFull (-1) = true
      exact windowFull_mono hs hf
    · cases h

/-- What the rounds leave: a write that ended with all bytes sent, or with a full window. -/
structure Wrote (s : UtpSocket) (bytes sent : ℕ) (r : (ℕ × Bool) × UtpSocket) : Prop where
  clean : Clean s r.2
  ready : r.2.Ready
  count : r.1.1 ≤ sent + bytes
  all : r.1.2 = true → r.1.1 = sent + bytes
  full : r.1.2 = false → r.2.windowFull (-1) = true

theorem writevLoop_sound (henv : env.Answers) {packetSize fuel bytes : ℕ} (sent : ℕ) {iov : List Bytes}
    (hs : s.Ready) (hP : packetSize ≤ MAX_PAYLOAD) (hP0 : 0 < packetSize) (hfuel : bytes < fuel)
    (hb : bytes = iov.flatten.length) :
    Wrote s bytes sent (s.writevLoop env packetSize fuel bytes sent iov) := by
  induction fuel generalizing bytes sent iov s with
  | zero => omega
  | succ fuel ih =>
    unfold writevLoop
    dsimp only
    obtain ⟨hclean, hready, hfull⟩ := isFull_sound hs (int32 (min bytes packetSize : ℕ))
    by_cases hf : (s.isFull (int32 (min bytes packetSize : ℕ))).1 = true
    · rw [if_pos hf]
      exact ⟨hclean, hready, Nat.le_add_right sent bytes,
        fun h => absurd h Bool.false_ne_true, fun _ => hfull hf⟩
    · rw [if_neg hf]
      have hcur : s.kernel.cur < 1023 := by
        refine cur_lt_of_windowFull (b := int32 (min bytes packetSize : ℕ)) ?_
        unfold isFull at hf
        split at hf
        · exact absurd rfl hf
        · exact Bool.eq_false_iff.2 ‹_›
      rw [← kernel_isFull (int32 (min bytes packetSize : ℕ)) s] at hcur
      generalize (s.isFull (int32 (min bytes packetSize : ℕ))).2 = t at hclean hready hcur ⊢
      have hl : min bytes packetSize ≤ iov.flatten.length := by omega
      obtain ⟨hclean', hready'⟩ := writeOutgoingPacket_sound henv hready hcur hl
        ((min_le_right _ _).trans hP)
      have hrest := (runs_writeOutgoingPacket env hready.state hready.fin hcur hl).2
      generalize t.writeOutgoingPacket env (min bytes packetSize) ST_DATA iov = w at hclean' hready' hrest ⊢
      split
      · exact ⟨hclean.trans hclean', hready', by dsimp only; omega, fun _ => by dsimp only; omega,
          fun h => absurd h.symm Bool.false_ne_true⟩
      · have hlen : bytes - min bytes packetSize = w.1.flatten.length := by
          rw [hrest, List.length_drop, hb]
        obtain ⟨h₁, h₂, h₃, h₄, h₅⟩ := ih (sent + min bytes packetSize) hready' (by omega) hlen
        exact ⟨(hclean.trans hclean').trans h₁, h₂, by omega, fun h => by rw [h₄ h]; omega, h₅⟩

/-- What `writev` leaves: its assertions held, and a write that stopped short has closed the door. -/
structure Written (s : UtpSocket) (bytes : ℕ) (r : ℕ × UtpSocket) : Prop where
  clean : Clean s r.2
  within : r.2.kernel.Each (Kernel.Within MAX_PAYLOAD)
  fin : r.2.kernel.finSent = false
  count : r.1 ≤ bytes
  full : r.1 < bytes → r.2.kernel.state = .connectedFull ∧ r.2.windowFull (-1) = true

theorem writev_sound (henv : env.Answers) (hs : s.Ready) (iov : List Bytes) :
    Written s (totalLength (iov.take UTP_IOV_MAX)) (s.writev env iov) := by
  have hst : s.conn.state = .connected := hs.state
  have hfin : s.send.finSent = false := hs.fin
  have hq := quiet_refreshClock env s
  have hclean : Clean s (s.refreshClock env) := .of_eq rfl
  have hready : (s.refreshClock env).Ready := hs.congr hq.1 hs.mtu
  unfold writev
  dsimp only
  rw [if_neg (by rw [hst, hfin]; simp [writable])]
  generalize s.refreshClock env = t at hclean hready ⊢
  have hP := packetSize_usable hready.mtu
  obtain ⟨h₁, h₂, hcount, h₃, h₄⟩ := writevLoop_sound henv 0 hready hready.packetSize_le (by omega)
    (Nat.lt_succ_self (totalLength (iov.take UTP_IOV_MAX)))
    (show totalLength (iov.take UTP_IOV_MAX) = _ by rw [totalLength, List.length_flatten])
  generalize t.writevLoop env t.getPacketSize (totalLength (iov.take UTP_IOV_MAX) + 1)
    (totalLength (iov.take UTP_IOV_MAX)) 0 (iov.take UTP_IOV_MAX) = r at h₁ h₂ hcount h₃ h₄ ⊢
  rw [zero_add] at hcount
  cases hr : r.1.2 with
  | true =>
    rw [if_pos rfl]
    refine ⟨hclean.trans h₁, h₂.within, h₂.fin, hcount, fun hlt => ?_⟩
    have := h₃ hr
    dsimp only at hlt
    omega
  | false =>
    rw [if_neg (by simp)]
    have hf : (r.2.isFull (-1)).1 = true := by
      unfold isFull
      rw [if_pos (h₄ hr)]
    obtain ⟨h₅, h₆, h₇⟩ := isFull_sound h₂ (-1)
    have hwin := h₇ hf
    rw [if_pos hf]
    exact ⟨(hclean.trans h₁).trans h₅, h₆.within, h₆.fin, hcount, fun _ => ⟨rfl, hwin⟩⟩

/-! Every connected socket is ready for a write. -/

theorem within_idle {op : Op} (hop : op.Enabled s) (ha : op.accepted env s = []) {n : ℕ}
    (h : s.kernel.Each (Kernel.Within n)) : (op.run env s).kernel.Each (Kernel.Within n) := by
  obtain ⟨acts, ht, -, htaken⟩ := runs_op env hop
  rw [ha] at htaken
  exact within_trace (fun _ _ _ ⟨x, _, hm⟩ => ⟨x, hm⟩) ht htaken h

theorem within_op (henv : env.Answers) {op : Op} (hop : op.Enabled s) (hm : s.mtu.Usable)
    (hstock : s.kernel.Stock) (h : s.kernel.Each (Kernel.Within MAX_PAYLOAD)) :
    (op.run env s).kernel.Each (Kernel.Within MAX_PAYLOAD) := by
  cases op with
  | writev iov =>
    by_cases hr : writable s.conn.state = false ∨ s.send.finSent
    · have hw : s.writev env iov = (0, s) := if_pos hr
      simp only [Op.run]
      rw [hw]
      exact h
    · push Not at hr
      obtain ⟨hst, hf⟩ := hr
      have hst : s.kernel.state = .connected := by
        show s.conn.state = .connected
        unfold writable at hst
        split at hst
        · assumption
        · exact absurd rfl hst
      exact (writev_sound henv ⟨hstock, h, hm, hst, Bool.eq_false_iff.2 hf⟩ iov).within
  | _ => exact within_idle hop rfl h

/-- The life of a socket on such a host. -/
theorem stocked_life {targetDelay rcvbuf sndbuf : ℕ} {calls : List Call}
    (h : Life (fun env _ _ => env.Answers) targetDelay rcvbuf sndbuf calls s) :
    s.kernel.Stock ∧ s.mtu.Usable ∧ s.kernel.Each (Kernel.Within MAX_PAYLOAD) := by
  refine ⟨stock_run h.run, usable_life (h.mono fun _ _ _ hC => hC.mtu), ?_⟩
  induction h with
  | @setUp calls c s s' h ho hs hc =>
    have hu := unset_early h ho (unset_new _ _ _)
    have hstock := stock_run h.run
    -- nothing is in the window yet
    have hempty : s.kernel.Each (Kernel.Within MAX_PAYLOAD) := by
      intro q p hp
      have hlt := (hstock.toRing.occupied q p hp).1
      rw [(hstock.toWindow.unused hu.state).1] at hlt
      exact absurd hlt UInt16.not_lt_zero
    cases hs with
    | call env ms tick op hop hC =>
      have hop := hop.lend ms tick
      refine within_idle hop ?_ hempty
      cases op <;> first | rfl | cases hc
  | @call calls l s s' h hs ih =>
    have hstock := stock_run h.run
    have hm := usable_life (h.mono fun _ _ _ hC => hC.mtu)
    cases hs with
    | call env ms tick op hop hC =>
      have hop := hop.lend ms tick
      exact within_op (s := s.lend ms tick) hC hop hm hstock ih

/-- The write `r` of `iov` to `s`. -/
structure ByteExact (env : Env) (iov : List Bytes) (s : UtpSocket) (r : ℕ × UtpSocket) : Prop where
  /-- the loops come to an end, and no bound on their rounds plays a part -/
  ends : WritevEnds env (s.refreshClock env).getPacketSize iov.flatten.length iov (s.refreshClock env)
  fuel : ∀ fuel, iov.flatten.length < fuel →
    (s.refreshClock env).writevLoop env (s.refreshClock env).getPacketSize fuel iov.flatten.length 0 iov =
      (s.refreshClock env).writevLoop env (s.refreshClock env).getPacketSize (iov.flatten.length + 1)
        iov.flatten.length 0 iov
  clean : Clean s r.2
  count : r.1 ≤ iov.flatten.length
  head : r.2.kernel.head = s.kernel.head
  /-- whatever was written before, the first bytes of the vectors come next -/
  placed : ∀ front gone, r.2.kernel.placed front gone = s.kernel.placed front gone ++ iov.flatten.take r.1
  kept : ∀ q b, s.kernel.HoldsSent q b → r.2.kernel.HoldsSent q b
  packets : r.2.send.curWindowPackets.toNat ≤ 1023
  /-- a write that stopped short waits for room, until the callback has announced it -/
  full : r.1 < iov.flatten.length → r.2.conn.state = .connectedFull ∧ r.2.windowFull (-1) = true ∧
    ∀ calls t, Trace Step r.2 calls t → ∀ env ms tick,
      ((t.lend ms tick).checkTimeouts env).windowFull (-1) = false →
        ((t.lend ms tick).checkTimeouts env).kernel.Dead ∨
          .onStateChange .writable ∈ ((t.lend ms tick).checkTimeouts env).out ∨
          ∃ c ∈ calls, .onStateChange .writable ∈ c.effects

theorem placed_trace {k k' : Kernel} {acts : List Act} (ht : Trace (Kernel.Micro .api) k acts k')
    (hs : k.Stock) (front : Bytes) (gone : UInt16 → Bytes) : k'.head = k.head ∧
      k'.placed front gone = k.placed front gone ++ acts.flatMap Act.taken := by
  induction ht with
  | refl => exact ⟨rfl, (List.append_nil _).symm⟩
  | head hm _ ih =>
    obtain ⟨h₁, h₂⟩ := Kernel.placed_micro hs.toRing hs.bare hm
    obtain ⟨h₃, h₄⟩ := ih (Kernel.stock_micro hs hm)
    refine ⟨h₃.trans h₁, ?_⟩
    rw [h₄, h₂, List.flatMap_append, List.append_assoc]

theorem byteExact_of_ready (henv : env.Answers) (hs : s.Ready) {iov : List Bytes} (hiov : iov.length ≤ UTP_IOV_MAX) :
    ByteExact env iov s (s.writev env iov) := by
  have htake : iov.take UTP_IOV_MAX = iov := List.take_of_length_le hiov
  obtain ⟨acts, ht, -, htaken⟩ := runs_writev env iov s
  have hplaced := placed_trace ht hs.stock
  rw [htaken] at hplaced
  obtain ⟨hclean, -, hfin, hcount, hfull⟩ := writev_sound henv hs iov
  rw [htake, totalLength, ← List.length_flatten] at hcount hfull
  have hends := writevEnds env (s.refreshClock env).getPacketSize iov.flatten.length iov (s.refreshClock env)
  refine ⟨hends, fun fuel hf => writevLoop_fuel env hends 0 hf, hclean, hcount,
    (hplaced [] fun _ => []).1, fun front gone => (hplaced front gone).2, ?_, ?_, ?_⟩
  · intro q b hq
    exact Kernel.holdsSent_trace (fun _ he => by cases he) ht hs.stock.toWindow hq trivial
  · have hstock : (s.writev env iov).2.kernel.Stock := stock_runs (runs_writev env iov s) hs.stock
    have hlt := hstock.toRing.length_lt hfin
    exact Nat.le_of_lt_succ hlt
  · intro hn
    obtain ⟨hst, hw⟩ := hfull hn
    exact ⟨hst, hw, fun calls t ht env ms tick hopen => writable_raised env ht (.inl hst) ms tick hopen⟩

/-- A write to a connected socket takes the first bytes of the vectors and puts them behind all that was
written before, and a write that stopped short is followed by the callback. -/
theorem writev_exact {targetDelay rcvbuf sndbuf : ℕ} {calls : List Call}
    (h : Life (fun env _ _ => env.Answers) targetDelay rcvbuf sndbuf calls s)
    (hs : s.conn.state = .connected) (hf : s.send.finSent = false) (henv : env.Answers) (ms : UInt64)
    (tick : ℕ) {iov : List Bytes} (hiov : iov.length ≤ UTP_IOV_MAX) :
    ByteExact env iov (s.lend ms tick) ((s.lend ms tick).writev env iov) := by
  obtain ⟨hstock, hmtu, hwithin⟩ := stocked_life h
  have hready : (s.lend ms tick).Ready := ⟨hstock, hwithin, hmtu, hs, hf⟩
  exact byteExact_of_ready henv hready hiov

/-- The peer has answered the SYN. -/
def connected : UtpSocket := perform stillHost dialled [.processIncoming (statePacket 100 0)]

/-- Of two bytes, nothing and 5000 bytes the first 1380 are taken. -/
theorem writev_exact_1380 :
    let iov : List Bytes := [[1, 2], [], List.replicate 5000 3]
    ByteExact stillHost iov (connected.lend 0 0) ((connected.lend 0 0).writev stillHost iov) ∧
      ((connected.lend 0 0).writev stillHost iov).1 = 1380 := by
  have hanswers : stillHost.Answers := by
    constructor
    · intro n
      show (576 : UInt16) ≤ 1400
      decide
    · intro n
      show 0 ≤ int32 0
      decide
  obtain ⟨calls, h⟩ := life_dialled (C := fun env _ _ => env.Answers) hanswers
  obtain ⟨calls', h'⟩ := h.perform stillHost (l := [.processIncoming (statePacket 100 0)])
    fun op hop s => ⟨by rw [List.mem_singleton.1 hop]; trivial, hanswers⟩
  exact ⟨writev_exact h' (by decide +kernel) (by decide +kernel) hanswers 0 0 (by decide +kernel),
    by decide +kernel⟩

end UtpSocket

end Utp
