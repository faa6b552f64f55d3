import LibUtp.Kernel.Sending

/-! The acknowledgement part of a packet: the advance of the window is one kernel
step, the EACK bitmap a step for each packet it acknowledges. -/

namespace Utp

open Lts SequenceBuffer

namespace Kernel

theorem ackCount_le (k : Kernel) (pp : ParsedPacket) : k.ackCount pp ≤ k.cur.toNat := by
  unfold ackCount
  dsimp only
  split
  · exact Nat.zero_le _
  · exact not_lt.1 ‹_›

theorem taken_removal (k : Kernel) (p : OutgoingPacket) : (k.removal p).flatMap Act.taken = [] := by
  unfold removal
  split <;> rfl

theorem Pops.taken {n : ℕ} {k k' : Kernel} {acts : List Act} (h : Pops n k acts k') :
    acts.flatMap Act.taken = [] := by
  induction h with
  | done h => rfl
  | @acked n k p acts k' hcur hp ht h ih =>
    rw [List.flatMap_append, ih, List.append_nil]
    unfold removal
    split <;> rfl
  | empty hcur hp h ih => exact ih
  | check h hr ih => exact ih

end Kernel

namespace UtpSocket

variable (env : Env) {x : Input}

theorem get_headIdx (s : UtpSocket) : s.send.outbuf.get s.headIdx = s.kernel.headSlot := by
  rw [get_eq_slot, headIdx, ofInt_sub]
  rfl

theorem headPresent_kernel (s : UtpSocket) :
    s.headPresent ↔ s.kernel.cur = 0 ∨ s.kernel.headSlot.isSome := by
  unfold headPresent
  rw [get_headIdx]
  rfl

/-! `ack_packet`. -/

theorem kernel_removeInFlight (n : ℕ) (s : UtpSocket) :
    (s.removeInFlight n).kernel = { s.kernel with inFlight := s.kernel.inFlight - n } := by
  unfold removeInFlight
  rw [kernel_setCc, kernel_assert]
  rfl

theorem out_removeInFlight (n : ℕ) (s : UtpSocket) :
    (s.removeInFlight n).out =
      s.out ++ if n ≤ s.kernel.inFlight then [] else [.assertFailed .removeInFlight] := by
  unfold removeInFlight
  rw [out_setCc, out_assert]
  rfl

theorem quiet_ackTiming_out (p : OutgoingPacket) (s : UtpSocket) :
    (s.ackTiming env p).out = s.out := by
  unfold ackTiming
  split <;> rfl

theorem ackPacket_missing {seq : UInt16} {s : UtpSocket} (h : s.kernel.outbuf.slot seq = none) :
    s.ackPacket env seq = (.missing, s) := by
  unfold ackPacket
  rw [show s.send.outbuf.get seq.toNat = none from h]

theorem ackPacket_unsent {seq : UInt16} {s : UtpSocket} {p : OutgoingPacket}
    (h : s.kernel.outbuf.slot seq = some p) (ht : p.transmissions = 0) :
    s.ackPacket env seq = (.unsent, s) := by
  unfold ackPacket
  rw [show s.send.outbuf.get seq.toNat = some p from h]
  dsimp only
  rw [if_pos ht]

/-- The slot is emptied before the timers look at the packet. -/
theorem kernel_emptySlot (seq : UInt16) (s : UtpSocket) :
    (s.setSend { s.send with outbuf := (s.send.outbuf.take seq.toNat).2 }).kernel =
      { s.kernel with outbuf := s.kernel.outbuf.setSlot seq none } := rfl

theorem ackPacket_acked {seq : UInt16} {s : UtpSocket} {p : OutgoingPacket}
    (h : s.kernel.outbuf.slot seq = some p) (ht : 0 < p.transmissions) :
    (s.ackPacket env seq).1 = .acked ∧ (s.ackPacket env seq).2.kernel = s.kernel.clear seq p ∧
      (s.ackPacket env seq).2.out = s.out ++ (s.kernel.removal p).flatMap Act.effects := by
  unfold ackPacket
  rw [show s.send.outbuf.get seq.toNat = some p from h]
  dsimp only
  rw [if_neg ht.ne']
  have hk := kernel_emptySlot seq s
  have ho := out_setSend { s.send with outbuf := (s.send.outbuf.take seq.toNat).2 } s
  generalize s.setSend { s.send with outbuf := (s.send.outbuf.take seq.toNat).2 } = t at hk ho ⊢
  have hk₁ := (quiet_ackTiming env p t).1
  have ho₁ := quiet_ackTiming_out env p t
  generalize t.ackTiming env p = u at hk₁ ho₁ ⊢
  dsimp only
  refine ⟨rfl, ?_, ?_⟩
  · rw [kernel_setCc]
    unfold Kernel.clear Kernel.freed
    split
    · rename_i hn
      show { u.kernel with inFlight := u.kernel.inFlight } = _
      rw [hk₁, hk]
    · rename_i hn
      show { (u.removeInFlight p.payload).kernel with
        inFlight := (u.removeInFlight p.payload).kernel.inFlight } = _
      rw [kernel_removeInFlight, hk₁, hk]
  · rw [out_setCc]
    unfold Kernel.removal
    have hf : u.kernel.inFlight = s.kernel.inFlight := by rw [hk₁, hk]
    split
    · rename_i hn
      rw [ho₁, ho]
      simp [hn]
    · rename_i hn
      rw [out_removeInFlight, ho₁, ho, hf]
      by_cases hle : p.payload ≤ s.kernel.inFlight <;> simp [hle, hn, Act.effects]

/-! The advance of the window. -/

/-- The empty slots at the head leave, with the assertions around them. -/
def finishAdvance (s : UtpSocket) : UtpSocket :=
  let s := s.assert (s.send.curWindowPackets = 0 → s.cc.curWindow = 0) .advanceInFlight
  let s := s.skipLoop s.send.curWindowPackets.toNat
  s.assert (s.send.curWindowPackets = 0 → s.cc.curWindow = 0) .advanceInFlight

theorem advance_eq (acks : ℕ) (s : UtpSocket) : s.advance env acks =
    (s.ackLoop env acks).finishAdvance.assert (s.ackLoop env acks).finishAdvance.headPresent
      .advanceHead := rfl

theorem toNat_pred {a : UInt16} (h : 0 < a) : (a - 1).toNat = a.toNat - 1 := by
  have h : 0 < a.toNat := UInt16.lt_iff_toNat_lt.1 h
  have := a.toNat_lt
  rw [UInt16.toNat_sub, UInt16.toNat_one]
  omega

/-- An assertion on the idle window that may fail before the rest. -/
theorem pops_check {n : ℕ} {k' : Kernel} {s : UtpSocket} {acts : List Act} {l : List Effect}
    (h : Kernel.Pops n s.kernel acts k')
    (ho : l = (s.assert (s.send.curWindowPackets = 0 → s.cc.curWindow = 0) .advanceInFlight).out ++
      acts.flatMap Act.effects) :
    ∃ acts, Kernel.Pops n s.kernel acts k' ∧ l = s.out ++ acts.flatMap Act.effects := by
  rw [out_assert] at ho
  split at ho
  · exact ⟨acts, h, by rw [ho, List.append_nil]⟩
  · rename_i hc
    exact ⟨.fail .advanceInFlight :: acts, .check hc h, by rw [ho]; simp [Act.effects]⟩

theorem pops_skipLoop {n m : ℕ} {s : UtpSocket} (hn : n = 0 ∨ Kernel.Stops n s.kernel)
    (hm : s.kernel.cur.toNat ≤ m) :
    (∀ acts k', Kernel.Pops n (s.skipLoop m).kernel acts k' → Kernel.Pops n s.kernel acts k') ∧
      (s.skipLoop m).out = s.out ∧ Kernel.Stops n (s.skipLoop m).kernel := by
  induction m generalizing s with
  | zero =>
    have h0 : s.kernel.cur = 0 := UInt16.toNat.inj (by simpa using hm)
    exact ⟨fun _ _ h => h, rfl, .inl h0⟩
  | succ m ih =>
    unfold skipLoop
    rw [get_headIdx]
    split
    · rename_i hc
      obtain ⟨hcur, hnone⟩ := hc
      have hcur' : 0 < s.kernel.cur := hcur
      rw [Option.isNone_iff_eq_none] at hnone
      have hn0 : n = 0 := by
        refine hn.resolve_right fun h => ?_
        rcases h with h | ⟨p, h, -⟩
        · rw [h] at hcur'
          exact absurd hcur' (by decide)
        · rw [hnone] at h
          cases h
      subst hn0
      have hp := toNat_pred hcur'
      obtain ⟨h1, h2, h3⟩ := ih (s := s.shrinkWindow) (.inl rfl) (by
        show (s.kernel.cur - 1).toNat ≤ m
        omega)
      exact ⟨fun acts k' h => .empty hcur hnone (h1 acts k' h), h2, h3⟩
    · rename_i hc
      have hs : Kernel.Stops n s.kernel := by
        rcases hn with rfl | hn
        · by_cases h0 : 0 < s.send.curWindowPackets
          · have : s.kernel.headSlot ≠ none := fun h => hc ⟨h0, by rw [h]; rfl⟩
            obtain ⟨p, hp⟩ := Option.ne_none_iff_exists'.1 this
            exact .inr ⟨p, hp, by simp⟩
          · left
            show s.send.curWindowPackets = 0
            grind
        · exact hn
      exact ⟨fun _ _ h => h, rfl, hs⟩

theorem pops_finishAdvance {n : ℕ} {s : UtpSocket} (hn : n = 0 ∨ Kernel.Stops n s.kernel) :
    ∃ acts, Kernel.Pops n s.kernel acts s.finishAdvance.kernel ∧
      s.finishAdvance.out = s.out ++ acts.flatMap Act.effects := by
  unfold finishAdvance
  set t := s.assert (s.send.curWindowPackets = 0 → s.cc.curWindow = 0) .advanceInFlight with ht
  have hk : t.kernel = s.kernel := kernel_assert _ _ s
  rw [← hk] at hn
  obtain ⟨h1, h2, h3⟩ := pops_skipLoop hn (le_refl t.send.curWindowPackets.toNat)
  dsimp only
  set u := t.skipLoop t.send.curWindowPackets.toNat
  rw [kernel_assert]
  obtain ⟨acts, hp, ho⟩ := pops_check (s := u) (l := (u.assert (u.send.curWindowPackets = 0 →
    u.cc.curWindow = 0) .advanceInFlight).out) (.done h3) (by simp)
  have hp' := h1 acts _ hp
  rw [hk] at hp'
  refine pops_check hp' ?_
  rw [ho, h2]

/-- The window advances by one kernel step; `n` is at most its length. -/
theorem pops_ackLoop {n : ℕ} {s : UtpSocket} (hn : n ≤ s.kernel.cur.toNat) :
    ∃ acts, Kernel.Pops n s.kernel acts (s.ackLoop env n).finishAdvance.kernel ∧
      (s.ackLoop env n).finishAdvance.out = s.out ++ acts.flatMap Act.effects := by
  induction n generalizing s with
  | zero => exact pops_finishAdvance (.inl rfl)
  | succ n ih =>
    have hcur : 0 < s.kernel.cur := UInt16.lt_iff_toNat_lt.2 (by
      rw [UInt16.toNat_zero]
      omega)
    have hpred := toNat_pred hcur
    unfold ackLoop
    dsimp only
    rw [show s.windowStart = s.kernel.head by rfl]
    cases hp : s.kernel.headSlot with
    | none =>
      rw [ackPacket_missing env hp, if_neg (by simp)]
      obtain ⟨acts, h, ho⟩ := ih (s := s.shrinkWindow) (by
        show n ≤ (s.kernel.cur - 1).toNat
        omega)
      exact ⟨acts, .empty hcur hp h, ho⟩
    | some p =>
      by_cases ht : p.transmissions = 0
      · rw [ackPacket_unsent env hp ht, if_pos rfl]
        exact pops_finishAdvance (.inr (.inr ⟨p, hp, fun _ => ht⟩))
      · obtain ⟨h1, h2, h3⟩ := ackPacket_acked env hp (Nat.pos_of_ne_zero ht)
        rw [if_neg (by rw [h1]; simp)]
        generalize (s.ackPacket env s.kernel.head).2 = t at h2 h3 ⊢
        have h4 : t.shrinkWindow.kernel = (s.kernel.clear s.kernel.head p).pop := by
          show t.kernel.pop = _
          rw [h2]
        obtain ⟨acts, h, ho⟩ := ih (s := t.shrinkWindow) (by
          rw [h4]
          show n ≤ (s.kernel.cur - 1).toNat
          omega)
        rw [h4] at h
        refine ⟨_, .acked hcur hp (Nat.pos_of_ne_zero ht) h, ?_⟩
        rw [ho, show t.shrinkWindow.out = t.out by rfl, h3, List.flatMap_append, List.append_assoc]

/-! `advance_send_window`. -/

theorem kernel_ackState (pp : ParsedPacket) (s : UtpSocket) :
    (s.ackState pp (s.kernel.ackCount pp)).kernel = s.kernel.ackState pp := by
  unfold ackState Kernel.ackState
  generalize s.kernel.ackCount pp = acks
  by_cases h : pp.type = ST_DATA ∧ s.conn.state = .synRecv
  · rw [if_pos h, if_pos (show pp.type = ST_DATA ∧ s.kernel.state = .synRecv from h)]
    dsimp only [kernel, setState, emit, setSend]
    split_ifs <;> simp_all
  · rw [if_neg h, if_neg (show ¬ (pp.type = ST_DATA ∧ s.kernel.state = .synRecv) from h)]
    dsimp only [kernel, setState, emit, setSend]
    split_ifs <;> simp_all

theorem out_ackState (pp : ParsedPacket) (acks : ℕ) (s : UtpSocket) :
    ∃ l, (s.ackState pp acks).out = s.out ++ l ∧ ∀ e ∈ l, Effect.quiet e := by
  unfold ackState
  dsimp only
  split_ifs
  all_goals first
    | exact ⟨[], (List.append_nil _).symm, by simp⟩
    | exact ⟨[.onConnect], rfl, by simp [Effect.quiet]⟩

/-- The kernel step of an acceptable packet's cumulative acknowledgement. -/
def Advanced (pp : ParsedPacket) (s t : UtpSocket) : Prop :=
  ∃ pre acts, (∀ e ∈ pre, Effect.quiet e) ∧ Kernel.Micro (.ack pp) s.kernel acts t.kernel ∧
    acts.flatMap Act.taken = [] ∧ t.out = s.out ++ (pre ++ acts.flatMap Act.effects)

theorem advanced_advanceSendWindow (pp : ParsedPacket) {s : UtpSocket}
    (hs : s.kernel.state = .synSent → s.kernel.ackNr = pp.seqNr - 1) :
    Advanced pp s ((((s.peerWindow pp.windowsize).ackState pp (s.kernel.ackCount pp)
      ).raiseFastResend pp).ackLoop env (s.kernel.ackCount pp)).finishAdvance := by
  obtain ⟨hk₁, l₁, ho₁, hl₁⟩ := quiet_peerWindow pp.windowsize s
  generalize s.peerWindow pp.windowsize = t at hk₁ ho₁ ⊢
  have hk₂ := kernel_ackState pp t
  rw [hk₁] at hk₂
  obtain ⟨l₂, ho₂, hl₂⟩ := out_ackState pp (s.kernel.ackCount pp) t
  generalize t.ackState pp (s.kernel.ackCount pp) = u at hk₂ ho₂ ⊢
  obtain ⟨hk₃, l₃, ho₃, hl₃⟩ := quiet_raiseFastResend pp u
  generalize u.raiseFastResend pp = v at hk₃ ho₃ ⊢
  have hcur : v.kernel.cur = s.kernel.cur := by
    rw [hk₃, hk₂]
    unfold Kernel.ackState
    dsimp only
    split_ifs <;> rfl
  have hn : s.kernel.ackCount pp ≤ v.kernel.cur.toNat := by
    rw [hcur]
    exact s.kernel.ackCount_le pp
  obtain ⟨acts, hp, ho⟩ := pops_ackLoop env hn
  have ht := hp.taken
  rw [hk₃, hk₂] at hp
  refine ⟨l₁ ++ l₂ ++ l₃, acts, fun e he => ?_, .advance hs hp, ht, ?_⟩
  · simp only [List.mem_append] at he
    rcases he with (he | he) | he
    · exact hl₁ e he
    · exact hl₂ e he
    · exact hl₃ e he
  · rw [ho, ho₃, ho₂, ho₁]
    simp

theorem runs_sendLast (s : UtpSocket) : Runs x [] s (s.sendLast env) := by
  unfold sendLast
  refine .ite (fun _ => ?_) (fun _ => .refl s)
  split
  · exact .ite (fun _ => runs_sendPacket env _ s) (fun _ => .refl s)
  · exact .refl s

theorem runs_fastTimeout (s : UtpSocket) : Runs x [] s (s.fastTimeout env) := by
  unfold fastTimeout
  refine .ite (fun _ => .ite (fun _ => .of_quiet (quiet_setTiming _ s)) (fun _ => ?_))
    (fun _ => .refl s)
  split
  · exact .ite (fun _ => .quiet_trans (quiet_setTiming _ s) (runs_sendPacket env _ _))
      (fun _ => .refl s)
  · exact .refl s

/-- `assert(cur_window_packets == 0 || head)` in any of its places. -/
theorem runs_assertHead {a : Assertion} (ha : ∀ k : Kernel, k.Asserted a ↔ k.cur = 0 ∨ k.headSlot.isSome)
    (s : UtpSocket) : Runs x [] s (s.assert s.headPresent a) := by
  refine runs_assert _ _ s fun h => .fail ?_
  rw [ha, ← headPresent_kernel]
  exact h

/-! The EACK bitmap. -/

theorem idx_ofInt {α : Type} (b : SequenceBuffer α) (i : ℤ) :
    b.idx i = b.idx (UInt16.ofInt i).toNat :=
  (b.idx_eq_iff _ _).2 (b.dvd_sub_ofInt i)

theorem maskBit_range {mask : Bytes} {bits : ℤ} (h : maskBit mask bits) :
    ∃ n : ℕ, bits = n ∧ n < 8 * mask.length := by
  unfold maskBit at h
  simp only [Bool.and_eq_true, decide_eq_true_eq] at h
  obtain ⟨⟨h₁, h₂⟩, -⟩ := h
  obtain ⟨n, rfl⟩ := Int.eq_ofNat_of_zero_le h₁
  exact ⟨n, rfl, by omega⟩

theorem inEackWindow_kernel (v : ℤ) (s : UtpSocket) :
    s.inEackWindow v = true ↔ s.kernel.InEackWindow (UInt16.ofInt v) := by
  unfold inEackWindow Kernel.InEackWindow
  rw [decide_eq_true_iff]
  rfl

/-- The head's slot is never acknowledged by the bitmap. -/
theorem runs_eackAssert {v : ℤ} {s : UtpSocket} (hc : 0 < s.kernel.cur) (hw : s.inEackWindow v) :
    Runs x [] s (s.assert (s.send.outbuf.idx v ≠ s.send.outbuf.idx s.headIdx) .eackHead) := by
  refine runs_assert _ _ s fun h => ?_
  rw [not_not, idx_ofInt, idx_ofInt _ s.headIdx, headIdx, ofInt_sub, idx_eq_iff_same] at h
  exact .failEack hc ((inEackWindow_kernel v s).1 hw) h

/-- The packet of a set bit leaves the ring. -/
theorem runs_sack {pp : ParsedPacket} {mask : Bytes} {bits : ℤ} {s : UtpSocket} {p : OutgoingPacket}
    (hm : pp.selack = some mask) (hb : maskBit mask bits) (hc : 0 < s.kernel.cur)
    (hw : s.inEackWindow (pp.ackNr.toNat + 2 + bits))
    (hp : s.kernel.outbuf.slot (UInt16.ofInt (pp.ackNr.toNat + 2 + bits)) = some p)
    (ht : 0 < p.transmissions) :
    Runs (.eack pp) [] s (s.ackPacket env (UInt16.ofInt (pp.ackNr.toNat + 2 + bits))).2 := by
  obtain ⟨-, hk, ho⟩ := ackPacket_acked env hp ht
  have hmi := Kernel.Micro.sack hm hb hc rfl ((inEackWindow_kernel _ s).1 hw) hp ht
  rw [← hk] at hmi
  have := Runs.micro hmi ho
  rwa [show (s.kernel.removal p).flatMap Act.taken = [] by unfold Kernel.removal; split <;> rfl]
    at this

theorem runs_eackLoop {pp : ParsedPacket} {mask : Bytes} (hm : pp.selack = some mask)
    (n count : ℕ) (resends : List ℤ) {s : UtpSocket} (hc : 0 < s.kernel.cur) :
    Runs (.eack pp) [] s (s.eackLoop env (pp.ackNr.toNat + 2) mask n count resends).2.2 := by
  induction n generalizing count resends s with
  | zero => exact .refl s
  | succ n ih =>
    unfold eackLoop
    dsimp only
    split
    · rename_i hw
      split
      · exact ih _ _ hc
      · rename_i p hp
        split
        · rename_i hb
          rw [Option.filter_eq_some_iff, get_eq_slot] at hp
          have hk := kernel_assert (s.send.outbuf.idx ((pp.ackNr.toNat : ℤ) + 2 + ((n : ℤ) - 1)) ≠
            s.send.outbuf.idx s.headIdx) .eackHead s
          refine (runs_eackAssert hc hw).trans_nil ?_
          generalize s.assert (s.send.outbuf.idx ((pp.ackNr.toNat : ℤ) + 2 + ((n : ℤ) - 1)) ≠
            s.send.outbuf.idx s.headIdx) .eackHead = t at hk ⊢
          have hslot := (congrArg (fun k => k.outbuf.slot
            (UInt16.ofInt ((pp.ackNr.toNat : ℤ) + 2 + ((n : ℤ) - 1)))) hk).trans hp.1
          have ht := of_decide_eq_true hp.2
          rw [inEackWindow_kernel, ← hk] at hw
          rw [← hk] at hc
          refine (runs_sack env hm hb hc ((inEackWindow_kernel _ t).2 hw) hslot ht).trans_nil (ih _ _ ?_)
          rw [(ackPacket_acked env hslot ht).2.1]
          exact hc
        · split
          · exact ih _ _ hc
          · exact ih _ _ hc
    · exact ih _ _ hc

theorem runs_resendLoop (vs : List ℤ) (i : ℕ) (backOff : Bool) (s : UtpSocket) :
    Runs x [] s (s.resendLoop env vs i backOff).2 := by
  induction vs generalizing i backOff s with
  | nil => exact .refl s
  | cons v vs ih =>
    unfold resendLoop
    split
    · have h := (runs_sendPacket (x := x) env v s).trans_quiet
        (quiet_setTiming { (s.sendPacket env v).timing with
          fastResendSeqNr := UInt16.ofInt (v + 1) } (s.sendPacket env v))
      dsimp only
      split
      · exact h
      · exact h.trans_nil (ih _ _ _)
    · exact ih _ _ s

theorem runs_selectiveAck {pp : ParsedPacket} {mask : Bytes} (hm : pp.selack = some mask)
    (s : UtpSocket) : Runs (.eack pp) [] s (s.selectiveAck env (pp.ackNr.toNat + 2) mask) := by
  unfold selectiveAck
  refine .ite (fun _ => .refl s) (fun hcur => ?_)
  have hc : 0 < s.kernel.cur := by
    have hcur : s.kernel.cur ≠ 0 := hcur
    grind
  have h := runs_eackLoop env hm (8 * mask.length + 1) 0 [] hc
  generalize s.eackLoop env (pp.ackNr.toNat + 2) mask (8 * mask.length + 1) 0 [] = r at h ⊢
  dsimp only
  generalize (if r.2.2.fastResend ((pp.ackNr.toNat : ℤ) + 2 - 1) r.1 then
    r.2.1 ++ [((pp.ackNr.toNat : ℤ) + 2 - 1) % 2 ^ 16] else r.2.1) = resends
  have h₂ := runs_resendLoop (x := .eack pp) env resends.reverse 4 false r.2.2
  generalize r.2.2.resendLoop env resends.reverse 4 false = b at h₂ ⊢
  refine ((h.trans_nil h₂).trans_quiet ?_).trans_quiet (quiet_setDuplicateAck _ _)
  exact .ite (fun _ => quiet_setCc (curWindow_maybeDecayWin _ _)) (fun _ => .refl _)

theorem runs_selectiveAckOf (pp : ParsedPacket) (s : UtpSocket) :
    Runs (.eack pp) [] s (s.selectiveAckOf env pp) := by
  unfold selectiveAckOf
  split
  · exact runs_selectiveAck env ‹_› s
  · exact .refl s

theorem runs_becomeWritable (s : UtpSocket) : Runs x [] s s.becomeWritable := by
  unfold becomeWritable
  refine .ite (fun hs => ?_) (fun _ => .refl s)
  have hq := quiet_isFull (-1) s
  have hk : s.kernel.state = .connectedFull := hs
  generalize s.isFull (-1) = r at hq ⊢
  rw [← hq.1] at hk
  refine .ite (fun _ => .of_quiet hq) (fun _ => ?_)
  refine .quiet_trans hq (.trans_quiet (t := r.2.setState .connected) ?_ (quiet_emit rfl _))
  exact .micro (l := []) (.writable hk) (by simp)

/-- What follows the advance in the acknowledgement part. -/
def afterAdvance (pp : ParsedPacket) (s : UtpSocket) : UtpSocket :=
  let s := (((s.assert s.headPresent .advanceHead).sendLast env).fastTimeout env).selectiveAckOf env pp
  (s.assert s.headPresent .incomingHead).becomeWritable

theorem runs_afterAdvance (pp : ParsedPacket) (s : UtpSocket) :
    Runs (.eack pp) [] s (s.afterAdvance env pp) := by
  unfold afterAdvance
  refine (runs_assertHead (a := .advanceHead) (fun k => Iff.rfl) _).trans_nil ?_
  refine (runs_sendLast env _).trans_nil ((runs_fastTimeout env _).trans_nil ?_)
  refine (runs_selectiveAckOf env pp _).trans_nil ?_
  exact (runs_assertHead (a := .incomingHead) (fun k => Iff.rfl) _).trans_nil (runs_becomeWritable _)

theorem advanceSendWindow_eq {pp : ParsedPacket} {acks : ℕ} {s : UtpSocket}
    (h : acks ≤ s.send.curWindowPackets.toNat) :
    s.advanceSendWindow env pp acks = (((((s.peerWindow pp.windowsize).ackState pp acks).raiseFastResend
      pp).advance env acks).sendLast env).fastTimeout env := by
  unfold advanceSendWindow
  exact if_pos h

/-- The acknowledgement part of a packet: one advance, and steps around it. -/
theorem processAck_spec (pp : ParsedPacket) (time : UInt64) {s : UtpSocket}
    (hs : s.kernel.state = .synSent → s.kernel.ackNr = pp.seqNr - 1) :
    ∃ t u, Quiet s t ∧ Advanced pp t u ∧ Runs (.eack pp) [] u (s.processAck env pp time) := by
  have hq : Quiet s ((s.countDuplicate pp).processAcks env pp (s.kernel.ackCount pp) time) :=
    (quiet_countDuplicate pp s).trans (quiet_processAcks env pp _ time _)
  rw [processAck, show s.ackCount pp = s.kernel.ackCount pp by rfl]
  generalize (s.countDuplicate pp).processAcks env pp (s.kernel.ackCount pp) time = t at hq ⊢
  rw [← hq.1] at hs ⊢
  have ha := advanced_advanceSendWindow env pp hs
  rw [advanceSendWindow_eq env (t.kernel.ackCount_le pp), advance_eq]
  exact ⟨t, _, hq, ha, runs_afterAdvance env pp _⟩

end UtpSocket

end Utp
