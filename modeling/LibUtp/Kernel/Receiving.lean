import LibUtp.Kernel.Acking

/-! The receiving part of a packet: what comes in order goes to the application
with what the reorder buffer then releases; the rest waits in the buffer. -/

namespace Utp

open Lts SequenceBuffer

namespace Kernel

theorem Pops.frame {n : ℕ} {k k' : Kernel} {acts : List Act} (h : Pops n k acts k') :
    k.Frame k' := by
  induction h with
  | done h => exact .refl _
  | acked hcur hp ht h ih => exact Frame.trans ⟨_, _, _, _, _, rfl⟩ ih
  | empty hcur hp h ih => exact Frame.trans ⟨_, _, _, _, _, rfl⟩ ih
  | check h hr ih => exact ih

/-- `ack_state` touches the state and the flag of the acknowledged FIN only. -/
theorem ackState_eq (k : Kernel) (pp : ParsedPacket) :
    ∃ st f, k.ackState pp = { k with state := st, finSentAcked := f } := by
  unfold ackState
  dsimp only
  split_ifs <;> exact ⟨_, _, rfl⟩

theorem Micro.ackNr_ack {pp : ParsedPacket} {k k' : Kernel} {acts : List Act}
    (h : Micro (.ack pp) k acts k') : k'.ackNr = k.ackNr := by
  cases h with
  | advance hs h =>
    obtain ⟨q, w, c, o, f, rfl⟩ := h.frame
    obtain ⟨st, f, he⟩ := k.ackState_eq pp
    rw [he]
  | _ => rfl

theorem Micro.ackNr_eack {pp : ParsedPacket} {k k' : Kernel} {acts : List Act}
    (h : Micro (.eack pp) k acts k') : k'.ackNr = k.ackNr := by
  cases h <;> rfl

theorem taken_readAct (k : Kernel) (b : Bytes) : (k.readAct b).flatMap Act.taken = [] := by
  unfold readAct
  split <;> rfl

theorem Drains.taken {k k' : Kernel} {acts : List Act} (h : Drains k acts k') :
    acts.flatMap Act.taken = [] := by
  induction h with
  | eof h => rfl
  | idle h hr => rfl
  | release h hr hp hd ih =>
    rw [List.flatMap_append, ih, List.append_nil]
    unfold readAct
    split <;> rfl

theorem Drains.state {k k' : Kernel} {acts : List Act} (h : Drains k acts k') :
    k'.state = k.state := by
  induction h with
  | eof h => rfl
  | idle h hr => rfl
  | release h hr hp hd ih => exact ih

/-- The FIN is noted. -/
def note (k : Kernel) (pp : ParsedPacket) : Kernel :=
  if pp.type = ST_FIN ∧ k.gotFin = false then { k with gotFin := true, eofPkt := pp.seqNr } else k

/-- The two kernels are at the same place of the incoming stream. -/
structure SameStream (k k' : Kernel) : Prop where
  ackNr : k'.ackNr = k.ackNr
  gotFin : k'.gotFin = k.gotFin
  eofPkt : k'.eofPkt = k.eofPkt
  gotFinReached : k'.gotFinReached = k.gotFinReached
  readShutdown : k'.readShutdown = k.readShutdown

namespace SameStream

variable {k k' k'' : Kernel}

theorem refl (k : Kernel) : k.SameStream k := ⟨rfl, rfl, rfl, rfl, rfl⟩

theorem trans (h : k.SameStream k') (h' : k'.SameStream k'') : k.SameStream k'' :=
  ⟨h'.1.trans h.1, h'.2.trans h.2, h'.3.trans h.3, h'.4.trans h.4, h'.5.trans h.5⟩

end SameStream

end Kernel

/-- Effects that hand the incoming stream to the application. -/
def Effect.delivers : Effect → Bool
  | .onRead _ | .onStateChange .eof => true
  | _ => false

namespace UtpSocket

variable (env : Env) {x : Input}

/-- The place in the stream stays and nothing is handed to the application. -/
def Withholds (s t : UtpSocket) : Prop :=
  s.kernel.SameStream t.kernel ∧ ∃ l, t.out = s.out ++ l ∧ ∀ e ∈ l, e.delivers = false

namespace Withholds

variable {s t u : UtpSocket}

theorem refl (s : UtpSocket) : Withholds s s := ⟨.refl _, [], by simp, by simp⟩

theorem trans (h : Withholds s t) (h' : Withholds t u) : Withholds s u := by
  obtain ⟨hk, l, ho, hl⟩ := h
  obtain ⟨hk', l', ho', hl'⟩ := h'
  refine ⟨hk.trans hk', l ++ l', by rw [ho', ho, List.append_assoc], fun e he => ?_⟩
  rcases List.mem_append.1 he with he | he
  · exact hl e he
  · exact hl' e he

theorem ite {c : Prop} [Decidable c] (h : c → Withholds s t) (h' : ¬ c → Withholds s u) :
    Withholds s (if c then t else u) := by
  split
  · exact h ‹_›
  · exact h' ‹_›

theorem of_quiet (h : Quiet s t) : Withholds s t := by
  obtain ⟨hk, l, ho, hl⟩ := h
  refine ⟨?_, l, ho, fun e he => ?_⟩
  · rw [hk]
    exact .refl _
  · have hq := hl e he
    cases e with
    | onRead => cases hq
    | onStateChange st => cases st <;> first | rfl | cases hq
    | _ => rfl

/-- An assertion fails or holds. -/
theorem assert (c : Prop) [Decidable c] (a : Assertion) (s : UtpSocket) :
    Withholds s (s.assert c a) := by
  unfold UtpSocket.assert
  refine ite (fun _ => refl s) (fun _ => ⟨.refl _, _, rfl, ?_⟩)
  simp [Effect.delivers]

theorem sendAck (synack : Bool) (s : UtpSocket) : Withholds s (s.sendAck env synack) := by
  obtain ⟨hk, l, b, -, ho, hl⟩ := sendAck_spec env synack s
  refine ⟨?_, _, ho, fun e he => ?_⟩
  · rw [hk]
    exact .refl _
  · simp only [List.mem_append, List.mem_cons, List.not_mem_nil, or_false] at he
    rcases he with (he | rfl) | rfl | rfl
    · obtain ⟨a, rfl, -⟩ := hl e he
      rfl
    · rfl
    · rfl
    · rfl

end Withholds

theorem out_onRead (b : Bytes) (s : UtpSocket) :
    (s.onRead b).out = s.out ++ (s.kernel.readAct b).flatMap Act.effects := by
  have h : s.kernel.readShutdown = s.recv.readShutdown := rfl
  unfold onRead Kernel.readAct
  rw [h]
  split
  · rfl
  · exact (List.append_nil _).symm

theorem kernel_onRead (b : Bytes) (s : UtpSocket) : (s.onRead b).kernel = s.kernel := by
  unfold onRead
  split <;> rfl

theorem kernel_advanceAckNr (s : UtpSocket) :
    s.advanceAckNr.kernel = { s.kernel with ackNr := s.kernel.ackNr + 1 } := rfl

theorem ofInt_add_one (q : UInt16) : UInt16.ofInt ((q.toNat : ℤ) + 1) = q + 1 := ofInt_add q 1

theorem kernel_takeInbuf (s : UtpSocket) : s.takeInbuf.kernel =
    { s.kernel with inbuf := s.kernel.inbuf.setSlot (s.kernel.ackNr + 1) none } := by
  have h : (s.recv.inbuf.take (s.recv.ackNr.toNat + 1)).2 =
      s.recv.inbuf.setSlot (s.recv.ackNr + 1) none := by
    rw [← ofInt_add_one, ← put_eq_setSlot]
    rfl
  rw [takeInbuf, h]
  rfl

/-- Taking from an empty slot changes nothing. -/
theorem kernel_takeInbuf_none {s : UtpSocket} (h : s.kernel.gapSlot = none) :
    s.takeInbuf.kernel = s.kernel := by
  rw [kernel_takeInbuf]
  have : s.kernel.inbuf.setSlot (s.kernel.ackNr + 1) none = s.kernel.inbuf := by
    rw [← show s.kernel.inbuf.slot (s.kernel.ackNr + 1) = none from h, setSlot_slot]
  rw [this]

/-- A packet of the reorder buffer is released. -/
theorem release_spec {s : UtpSocket} (p : InboundPacket) (hr : s.kernel.reorderCount ≠ 0) :
    let t := ((s.takeInbuf.onRead p.data).advanceAckNr).assert
      (0 < ((s.takeInbuf.onRead p.data).advanceAckNr).recv.reorderCount) .drainCount
    (t.setRecv { t.recv with reorderCount := t.recv.reorderCount - 1 }).kernel = s.kernel.release ∧
      (t.setRecv { t.recv with reorderCount := t.recv.reorderCount - 1 }).out =
        s.out ++ (s.kernel.readAct p.data).flatMap Act.effects := by
  intro t
  have hk : (s.takeInbuf.onRead p.data).advanceAckNr.kernel = { s.kernel with
      inbuf := s.kernel.inbuf.setSlot (s.kernel.ackNr + 1) none
      ackNr := s.kernel.ackNr + 1 } := by
    rw [kernel_advanceAckNr, kernel_onRead, kernel_takeInbuf]
  have hc : (s.takeInbuf.onRead p.data).advanceAckNr.recv.reorderCount = s.kernel.reorderCount :=
    congrArg Kernel.reorderCount hk
  have ho : (s.takeInbuf.onRead p.data).advanceAckNr.out =
      s.out ++ (s.kernel.readAct p.data).flatMap Act.effects := by
    have := out_onRead p.data s.takeInbuf
    rw [kernel_takeInbuf] at this
    exact this
  have ht : t = (s.takeInbuf.onRead p.data).advanceAckNr := by
    have hpos : 0 < (s.takeInbuf.onRead p.data).advanceAckNr.recv.reorderCount := by
      rw [hc]
      grind
    exact if_pos hpos
  rw [ht]
  generalize (s.takeInbuf.onRead p.data).advanceAckNr = u at hk hc ho ⊢
  refine ⟨?_, ho⟩
  rw [kernel_setRecv]
  show { u.kernel with reorderCount := u.recv.reorderCount - 1 } = _
  rw [hk, hc]
  rfl

theorem reachEof_neg {s : UtpSocket} (h : ¬ s.kernel.atEof) : s.reachEof env = s := by
  unfold reachEof
  exact if_neg h

/-- The socket that has just reported the end of the stream. -/
def eofReached (s : UtpSocket) : UtpSocket :=
  ((s.setRecv { s.recv with gotFinReached := true }).setCc { s.cc with
    rtoTimeout := s.currentMs + (min (s.cc.rto * 3) 60).toUInt64 }).emit (.onStateChange .eof)

theorem reachEof_pos {s : UtpSocket} (h : s.kernel.atEof) :
    s.reachEof env = ((s.eofReached).sendAck env false).setRecv
      { ((s.eofReached).sendAck env false).recv with reorderCount := 0 } := by
  unfold reachEof
  exact if_pos h

/-- After the end of the stream an acknowledgement goes out and the count is cleared. -/
theorem runs_afterEof (pp : ParsedPacket) {s : UtpSocket} (h : s.kernel.gotFinReached) :
    Runs (.packet pp) [] s ((s.sendAck env false).setRecv
      { (s.sendAck env false).recv with reorderCount := 0 }) := by
  refine (runs_sendAck env false s).trans_nil ?_
  have hk := (sendAck_spec env false s).1
  generalize s.sendAck env false = t at hk ⊢
  rw [← hk] at h
  exact .micro (l := []) (.clearReorder h) (by simp)

theorem withholds_afterEof (s : UtpSocket) : Withholds s ((s.sendAck env false).setRecv
    { (s.sendAck env false).recv with reorderCount := 0 }) := by
  refine (Withholds.sendAck env false s).trans ?_
  generalize s.sendAck env false = t
  exact ⟨⟨rfl, rfl, rfl, rfl, rfl⟩, [], (List.append_nil _).symm, by simp⟩

/-- The drain: kernel steps of `Drains`, then the acknowledgement of the FIN. -/
theorem drainLoop_spec (pp : ParsedPacket) {n : ℕ} {s : UtpSocket}
    (hn : s.kernel.reorderCount.toNat < n) :
    ∃ acts t, Kernel.Drains s.kernel acts t.kernel ∧
      t.out = s.out ++ acts.flatMap Act.effects ∧
      Runs (.packet pp) [] t (s.drainLoop env n) ∧ Withholds t (s.drainLoop env n) := by
  induction n generalizing s with
  | zero => omega
  | succ n ih =>
    unfold drainLoop
    by_cases he : s.kernel.atEof
    · refine ⟨[.eof], s.eofReached, .eof he, rfl, ?_⟩
      have hr := runs_afterEof env pp (s := s.eofReached) rfl
      have hw := withholds_afterEof env s.eofReached
      rw [reachEof_pos env he]
      exact ⟨hr, hw⟩
    · rw [reachEof_neg env he]
      by_cases hr : s.kernel.reorderCount = 0
      · rw [if_pos (show s.recv.reorderCount = 0 from hr)]
        exact ⟨[], s, .idle he (.inl hr), by simp, .refl s, .refl s⟩
      · rw [if_neg (show ¬ s.recv.reorderCount = 0 from hr), gapSlot_kernel]
        cases hp : s.kernel.gapSlot with
        | none =>
          refine ⟨[], s.takeInbuf, ?_, (List.append_nil _).symm, .refl _, .refl _⟩
          rw [kernel_takeInbuf_none hp]
          exact .idle he (.inr hp)
        | some p =>
          obtain ⟨h1, h2⟩ := release_spec p hr
          have hpos : 0 < s.kernel.reorderCount := by grind
          have hpred := toNat_pred hpos
          have hpos' : 0 < s.kernel.reorderCount.toNat := UInt16.lt_iff_toNat_lt.1 hpos
          have hlt : s.kernel.release.reorderCount.toNat < n := by
            show (s.kernel.reorderCount - 1).toNat < n
            omega
          rw [← h1] at hlt
          obtain ⟨acts, t, hd, ho, hrun⟩ := ih hlt
          rw [h1] at hd
          refine ⟨_, t, .release he hr hp hd, ?_, hrun⟩
          rw [ho, h2, List.flatMap_append, List.append_assoc]

/-- What becomes of a packet behind its acknowledgement part: nothing, or its FIN is noted
and it waits out of order, or it is next in order and the buffer drains behind it. -/
inductive Delivered (pp : ParsedPacket) (s s' : UtpSocket) : Prop
  | ignored (h : s' = s)
  | waits {t : UtpSocket} (ho : s.kernel.IsOpen) (ht : pp.type ≠ ST_STATE) (hd : s.kernel.seqDistance pp ≠ 0)
      (hd' : (s.kernel.seqDistance pp).toNat < 1024) (hk : t.kernel = s.kernel.note pp)
      (hout : t.out = s.out) (hr : Runs (.packet pp) [] t s') (hw : Withholds t s')
  | inOrder {t u : UtpSocket} {acts} (ho : s.kernel.IsOpen) (ht : pp.type ≠ ST_STATE)
      (hd : s.kernel.seqDistance pp = 0) (hk : t.kernel = s.kernel.note pp) (hto : t.out = s.out)
      (hdr : Kernel.Drains { t.kernel with ackNr := t.kernel.ackNr + 1 } acts u.kernel)
      (hout : u.out = t.out ++ (t.kernel.readAct pp.payload ++ acts).flatMap Act.effects)
      (hr : Runs (.packet pp) [] u s') (hw : Withholds u s')

theorem deliverInOrder_spec (pp : ParsedPacket) (s : UtpSocket) :
    ∃ acts u, Kernel.Drains { s.kernel with ackNr := s.kernel.ackNr + 1 } acts u.kernel ∧
      u.out = s.out ++ (s.kernel.readAct pp.payload ++ acts).flatMap Act.effects ∧
      Runs (.packet pp) [] u (s.deliverInOrder env pp) ∧ Withholds u (s.deliverInOrder env pp) := by
  unfold deliverInOrder
  have hk : (s.onRead pp.payload).advanceAckNr.kernel =
      { s.kernel with ackNr := s.kernel.ackNr + 1 } := by
    rw [kernel_advanceAckNr, kernel_onRead]
  have hout : (s.onRead pp.payload).advanceAckNr.out =
      s.out ++ (s.kernel.readAct pp.payload).flatMap Act.effects := out_onRead pp.payload s
  dsimp only
  generalize (s.onRead pp.payload).advanceAckNr = t at hk hout ⊢
  obtain ⟨acts, u, hdr, hu, hrun, hw⟩ := drainLoop_spec env pp (s := t)
    (n := t.recv.reorderCount.toNat + 1) (Nat.lt_succ_self _)
  rw [hk] at hdr
  exact ⟨acts, u, hdr, by rw [hu, hout, List.flatMap_append, List.append_assoc],
    hrun.trans_quiet (quiet_scheduleAck _), hw.trans (.of_quiet (quiet_scheduleAck _))⟩

theorem storeGap_iff (pp : ParsedPacket) (s : UtpSocket) :
    s.recv.inbuf.idx pp.seqNr.toNat ≠ s.recv.inbuf.idx (s.recv.ackNr.toNat + 1) ↔
      ¬ s.kernel.inbuf.Same pp.seqNr (s.kernel.ackNr + 1) := by
  rw [idx_ofInt _ ((s.recv.ackNr.toNat : ℤ) + 1), ofInt_add_one, ne_eq, idx_eq_iff_same]
  rfl

/-- The assertions before the packet is stored, and the store. -/
theorem runs_store {pp : ParsedPacket} {s : UtpSocket} (ho : s.kernel.IsOpen)
    (hd : s.kernel.seqDistance pp ≠ 0) (hd' : (s.kernel.seqDistance pp).toNat < 1024)
    (ht : pp.type ≠ ST_STATE) (hf : pp.type = ST_FIN → s.kernel.gotFin)
    (he : s.kernel.gotFin → s.kernel.seqDistance pp ≤ s.kernel.eofPkt - s.kernel.ackNr - 1)
    (hz : (s.kernel.seqDistance pp).toNat + 1 < s.kernel.inbuf.size)
    (hn : s.kernel.inbuf.slot pp.seqNr = none) :
    Runs (.packet pp) [] s ((s.storeAsserts pp).putInbuf pp) := by
  have hnone : (s.recv.inbuf.get pp.seqNr.toNat).isNone := Option.isNone_iff_eq_none.2 hn
  unfold storeAsserts
  rw [show s.assert (s.recv.inbuf.get pp.seqNr.toNat).isNone .storeFree = s from if_pos hnone]
  have hgap : Runs (.packet pp) [] s (s.assert (s.recv.inbuf.idx pp.seqNr.toNat ≠
      s.recv.inbuf.idx (s.recv.ackNr.toNat + 1)) .storeGap) := by
    refine runs_assert _ _ s fun h => ?_
    rw [storeGap_iff, not_not] at h
    exact .failStore hd hz h
  have hk := kernel_assert (s.recv.inbuf.idx pp.seqNr.toNat ≠
      s.recv.inbuf.idx (s.recv.ackNr.toNat + 1)) .storeGap s
  generalize s.assert (s.recv.inbuf.idx pp.seqNr.toNat ≠
      s.recv.inbuf.idx (s.recv.ackNr.toNat + 1)) .storeGap = t at hgap hk ⊢
  rw [← hk] at ho hd hd' hf he hz hn
  refine hgap.trans_nil ?_
  exact .micro (l := []) (.store ho hd hd' ht hf he hz hn) (by simp [putInbuf])

theorem kernel_growInbuf (pp : ParsedPacket) (seqnr : UInt16) (s : UtpSocket) :
    (s.growInbuf pp seqnr).kernel = { s.kernel with
      inbuf := s.kernel.inbuf.ensureSize (pp.seqNr + 1).toNat (seqnr + 1) } := by
  rw [growInbuf, ensureSize_ofInt, ofInt_add_one]
  rfl

theorem runs_storeOutOfOrder {pp : ParsedPacket} {s : UtpSocket} (ho : s.kernel.IsOpen)
    (hd : s.kernel.seqDistance pp ≠ 0) (ht : pp.type ≠ ST_STATE)
    (hf : pp.type = ST_FIN → s.kernel.gotFin) :
    Runs (.packet pp) [] s (s.storeOutOfOrder pp (s.kernel.seqDistance pp)) := by
  unfold storeOutOfOrder
  refine .ite (fun _ => .refl s) (fun he => .ite (fun _ => .refl s) (fun hle => ?_))
  have hd' : (s.kernel.seqDistance pp).toNat < 1024 := by
    have := UInt16.le_iff_toNat_le.1 (UInt16.not_lt.1 hle)
    exact Nat.lt_succ_of_le this
  have he' : s.kernel.gotFin → s.kernel.seqDistance pp ≤ s.kernel.eofPkt - s.kernel.ackNr - 1 := by
    intro hg
    exact UInt16.not_lt.1 fun hlt => he ⟨hg, hlt⟩
  have hk := kernel_growInbuf pp (s.kernel.seqDistance pp) s
  have hgrow : Runs (.packet pp) [] s (s.growInbuf pp (s.kernel.seqDistance pp)) := by
    refine .micro (l := []) ?_ (by simp [growInbuf])
    rw [hk]
    exact .growInbuf hd'
  have hz : (s.kernel.seqDistance pp).toNat + 1 <
      (s.growInbuf pp (s.kernel.seqDistance pp)).kernel.inbuf.size := by
    rw [hk]
    have := (s.kernel.inbuf.size_ensureSize (pp.seqNr + 1).toNat (s.kernel.seqDistance pp + 1)).2
    rw [UInt16.toNat_add, UInt16.toNat_one] at this
    show _ < (s.kernel.inbuf.ensureSize _ _).size
    omega
  have hsd : (s.growInbuf pp (s.kernel.seqDistance pp)).kernel.seqDistance pp =
      s.kernel.seqDistance pp := by rw [hk]; rfl
  have hfields : (s.growInbuf pp (s.kernel.seqDistance pp)).kernel.state = s.kernel.state ∧
      (s.growInbuf pp (s.kernel.seqDistance pp)).kernel.gotFin = s.kernel.gotFin ∧
      (s.growInbuf pp (s.kernel.seqDistance pp)).kernel.eofPkt = s.kernel.eofPkt ∧
      (s.growInbuf pp (s.kernel.seqDistance pp)).kernel.ackNr = s.kernel.ackNr := by
    rw [hk]
    exact ⟨rfl, rfl, rfl, rfl⟩
  obtain ⟨hst, hgf, hep, han⟩ := hfields
  generalize s.growInbuf pp (s.kernel.seqDistance pp) = t at hgrow hz hsd hst hgf hep han ⊢
  dsimp only
  refine hgrow.trans_nil (.ite (fun _ => .refl t) (fun hn => ?_))
  have hn' : t.kernel.inbuf.slot pp.seqNr = none := by
    rw [Option.not_isSome_iff_eq_none] at hn
    exact hn
  refine Runs.trans_quiet ?_ (quiet_scheduleAck _)
  refine runs_store (by unfold Kernel.IsOpen at *; rwa [hst]) (by rwa [hsd]) (by rwa [hsd]) ht
    (by rwa [hgf]) ?_ (by rwa [hsd]) hn'
  rw [hgf, hsd, hep, han]
  exact he'

theorem withholds_storeOutOfOrder (pp : ParsedPacket) (seqnr : UInt16) (s : UtpSocket) :
    Withholds s (s.storeOutOfOrder pp seqnr) := by
  unfold storeOutOfOrder
  refine .ite (fun _ => .refl s) (fun _ => .ite (fun _ => .refl s) (fun _ => ?_))
  have hgrow : Withholds s (s.growInbuf pp seqnr) :=
    ⟨⟨rfl, rfl, rfl, rfl, rfl⟩, [], (List.append_nil _).symm, by simp⟩
  generalize s.growInbuf pp seqnr = t at hgrow ⊢
  dsimp only
  refine hgrow.trans (.ite (fun _ => .refl t) (fun _ => ?_))
  have hput (u : UtpSocket) : Withholds u (u.putInbuf pp) :=
    ⟨⟨rfl, rfl, rfl, rfl, rfl⟩, [], (List.append_nil _).symm, by simp⟩
  unfold storeAsserts
  exact (((Withholds.assert _ _ _).trans (Withholds.assert _ _ _)).trans (hput _)).trans
    (.of_quiet (quiet_scheduleAck _))

theorem noteFin_spec {pp : ParsedPacket} {s : UtpSocket} (ho : s.kernel.IsOpen)
    (hd : (s.kernel.seqDistance pp).toNat < 1024) :
    Runs (.packet pp) [] s (s.noteFin pp) ∧ (s.noteFin pp).kernel = s.kernel.note pp ∧
      (s.noteFin pp).out = s.out := by
  have hf : s.kernel.gotFin = s.recv.gotFin := rfl
  unfold noteFin Kernel.note
  rw [hf]
  split
  · rename_i h
    exact ⟨.micro (l := []) (.noteFin ho h.1 h.2 hd) (by simp), rfl, rfl⟩
  · exact ⟨.refl s, rfl, rfl⟩

end UtpSocket

namespace Kernel

theorem note_eq (k : Kernel) (pp : ParsedPacket) :
    ∃ g e, k.note pp = { k with gotFin := g, eofPkt := e } := by
  unfold note
  split <;> exact ⟨_, _, rfl⟩

theorem gotFin_note (k : Kernel) {pp : ParsedPacket} (h : pp.type = ST_FIN) :
    (k.note pp).gotFin = true := by
  unfold note
  split
  · rfl
  · rename_i hc
    exact Bool.of_not_eq_false fun hg => hc ⟨h, hg⟩

theorem IsOpen.note {k : Kernel} (h : k.IsOpen) (pp : ParsedPacket) : (k.note pp).IsOpen := by
  obtain ⟨g, e, he⟩ := k.note_eq pp
  rw [he]
  exact h

theorem seqDistance_note (k : Kernel) (pp : ParsedPacket) :
    (k.note pp).seqDistance pp = k.seqDistance pp := by
  obtain ⟨g, e, he⟩ := k.note_eq pp
  rw [he]
  rfl

end Kernel

namespace UtpSocket

variable (env : Env)

theorem delivered_deliverData {pp : ParsedPacket} {s : UtpSocket} (ho : s.kernel.IsOpen)
    (hd : (s.kernel.seqDistance pp).toNat < 1024) (ht : pp.type ≠ ST_STATE) :
    Delivered pp s (s.deliverData env pp (s.kernel.seqDistance pp)) := by
  obtain ⟨-, hk, hout⟩ := noteFin_spec ho hd
  unfold deliverData
  generalize s.noteFin pp = t at hk hout ⊢
  have hsd : t.kernel.seqDistance pp = s.kernel.seqDistance pp := by
    rw [hk, Kernel.seqDistance_note]
  dsimp only
  by_cases h0 : s.kernel.seqDistance pp = 0
  · rw [if_pos h0]
    obtain ⟨acts, u, hdr, hu, hr, hw⟩ := deliverInOrder_spec env pp t
    exact .inOrder ho ht h0 hk hout hdr hu hr hw
  · rw [if_neg h0]
    have ho' : t.kernel.IsOpen := by
      rw [hk]
      exact ho.note pp
    have hf : pp.type = ST_FIN → t.kernel.gotFin := fun hf => by rw [hk, Kernel.gotFin_note _ hf]
    have hr := runs_storeOutOfOrder ho' (by rwa [hsd]) ht hf
    rw [hsd] at hr
    exact .waits ho ht h0 hd hk hout hr (withholds_storeOutOfOrder pp _ t)

/-- The kernel steps of a delivery. -/
theorem Delivered.runs {pp : ParsedPacket} {s s' : UtpSocket} (h : Delivered pp s s') :
    Runs (.packet pp) [] s s' := by
  have hnote {t : UtpSocket} (ho : s.kernel.IsOpen) (hd : (s.kernel.seqDistance pp).toNat < 1024)
      (hk : t.kernel = s.kernel.note pp) (hout : t.out = s.out) : Runs (.packet pp) [] s t := by
    obtain ⟨hr, hk', ho'⟩ := noteFin_spec ho hd
    obtain ⟨acts, htr, hacts, htk⟩ := hr
    exact ⟨acts, by rw [hk, ← hk']; exact htr, by rw [hout, ← hacts, ho'], htk⟩
  cases h with
  | ignored h =>
    rw [h]
    exact .refl s
  | waits ho ht hd hd' hk hout hr hw => exact (hnote ho hd' hk hout).trans_nil hr
  | @inOrder t u acts ho ht hd hk hto hdr hout hr hw =>
    have hpre := hnote ho (by rw [hd]; decide) hk hto
    have ho' : t.kernel.IsOpen := by
      rw [hk]
      exact ho.note pp
    have hd' : t.kernel.seqDistance pp = 0 := by rw [hk, Kernel.seqDistance_note, hd]
    have hm := Kernel.Micro.deliver ho' hd' ht (fun hf => by rw [hk, Kernel.gotFin_note _ hf]) hdr
    have htaken : (t.kernel.readAct pp.payload ++ acts).flatMap Act.taken = [] := by
      rw [List.flatMap_append, hdr.taken, List.append_nil]
      unfold Kernel.readAct
      split <;> rfl
    have hmid := Runs.micro hm hout
    rw [htaken] at hmid
    exact hpre.trans_nil (hmid.trans_nil hr)

end UtpSocket

end Utp
