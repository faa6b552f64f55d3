import LibUtp.Invariant.SendWindow
import LibUtp.Invariant.ReorderBuffer

/-! The flag of the acknowledged FIN. It is decided from the number of acknowledged
packets before they leave the window, so it is exact as long as each packet that
acknowledges the whole window also empties it, and no other packet does. -/

namespace Utp

open Lts SequenceBuffer

namespace Kernel

variable {R : ParsedPacket → Prop} {n : ℕ} {k k' : Kernel} {acts : List Act}

/-- An acknowledgement of the first `n` packets empties the window: these are
acknowledged or were sent, and the rest has been acknowledged by bitmaps. -/
def Frees (n : ℕ) (k : Kernel) : Prop :=
  (∀ i < n, ∀ p, k.outbuf.slot (k.head + UInt16.ofNat i) = some p → 0 < p.transmissions) ∧
    ∀ i, n ≤ i → i < k.cur.toNat → k.outbuf.slot (k.head + UInt16.ofNat i) = none

instance : Decidable (k.Frees n) := inferInstanceAs (Decidable (_ ∧ _))

theorem head_add_zero (k : Kernel) : k.head + UInt16.ofNat 0 = k.head := by
  rw [show UInt16.ofNat 0 = 0 from rfl]
  grind

theorem head_pop_add (k : Kernel) (i : ℕ) :
    k.pop.head + UInt16.ofNat i = k.head + UInt16.ofNat (i + 1) := by
  unfold head pop
  dsimp only
  rw [UInt16.ofNat_add, show UInt16.ofNat 1 = 1 from rfl]
  grind

/-- The head leaves; `m` is what is left to acknowledge. -/
theorem frees_pop (hc : 0 < k.cur)
    (hb : ∀ i, i + 1 < k.cur.toNat →
      k'.outbuf.slot (k.head + UInt16.ofNat (i + 1)) = k.outbuf.slot (k.head + UInt16.ofNat (i + 1)))
    (hq : k'.seqNr = k.seqNr) (hw : k'.cur = k.cur) (hn : n + 1 ≤ k.cur.toNat)
    (h0 : ∀ p, k.headSlot = some p → 0 < p.transmissions) :
    k'.pop.Frees n ↔ k.Frees (n + 1) := by
  have hpred := UtpSocket.toNat_pred hc
  have hhead : k'.head = k.head := by
    unfold head
    rw [hq, hw]
  have hlen : k'.pop.cur.toNat = k.cur.toNat - 1 := by
    show (k'.cur - 1).toNat = _
    rw [hw, hpred]
  unfold Frees
  simp only [head_pop_add, hhead, hlen]
  constructor
  · rintro ⟨h1, h2⟩
    refine ⟨fun i hi p hp => ?_, fun i hi hi' => ?_⟩
    · cases i with
      | zero =>
        rw [head_add_zero] at hp
        exact h0 p hp
      | succ i => exact h1 i (by omega) p ((hb i (by omega)).trans hp)
    · cases i with
      | zero => omega
      | succ i =>
        rw [← hb i hi']
        exact h2 i (by omega) (by omega)
  · rintro ⟨h1, h2⟩
    refine ⟨fun i hi p hp => h1 (i + 1) (by omega) p ?_, fun i hi hi' => ?_⟩
    · exact (hb i (by omega)).symm.trans hp
    · exact (hb i (by omega)).trans (h2 (i + 1) (by omega) (by omega))

/-- With nothing left to acknowledge an empty head makes no difference. -/
theorem frees_zero_pop (hc : 0 < k.cur) (hp : k.headSlot = none) : k.pop.Frees 0 ↔ k.Frees 0 := by
  have hpred := UtpSocket.toNat_pred hc
  have hlen : k.pop.cur.toNat = k.cur.toNat - 1 := hpred
  unfold Frees
  simp only [head_pop_add, hlen]
  constructor
  · rintro ⟨-, h2⟩
    refine ⟨fun i hi => by omega, fun i _ hi' => ?_⟩
    cases i with
    | zero =>
      rw [head_add_zero]
      exact hp
    | succ i => exact h2 i (Nat.zero_le _) (by omega)
  · rintro ⟨-, h2⟩
    exact ⟨fun i hi => by omega, fun i _ hi' => h2 (i + 1) (Nat.zero_le _) (by omega)⟩

/-- The advance empties the window exactly when the acknowledgements free it. -/
theorem Pops.cur_eq_zero_iff (h : Pops n k acts k') (hk : k.Ring) (hn : n ≤ k.cur.toNat) :
    k'.cur = 0 ↔ k.Frees n := by
  induction h with
  | @done n k h =>
    constructor
    · intro h0
      rw [h0] at hn
      have hn : n ≤ 0 := hn
      refine ⟨fun i hi => by omega, fun i _ hi => ?_⟩
      rw [h0] at hi
      exact absurd hi (Nat.not_lt_zero _)
    · rintro ⟨h1, h2⟩
      rcases h with h | ⟨p, hp, ht⟩
      · exact h
      by_contra hne
      have hp' : k.outbuf.slot (k.head + UInt16.ofNat 0) = some p := by
        rw [head_add_zero]
        exact hp
      have hpos : 0 < k.cur.toNat := Nat.pos_of_ne_zero fun h0 => hne (UInt16.toNat.inj h0)
      rcases Nat.eq_zero_or_pos n with rfl | hnpos
      · rw [h2 0 le_rfl hpos] at hp'
        cases hp'
      · have := h1 0 hnpos p hp'
        rw [ht hnpos] at this
        exact absurd this (lt_irrefl _)
  | @acked n k p acts k' hcur hp ht h ih =>
    have hpred := UtpSocket.toNat_pred hcur
    have hring := (hk.clear hp ht).pop hcur (slot_setSlot_self _ _ _)
    rw [ih hring (by show n ≤ (k.cur - 1).toNat; omega)]
    refine frees_pop hcur (fun i hi => ?_) rfl rfl hn fun p' hp' => ?_
    · show (k.outbuf.setSlot k.head none).slot _ = _
      rw [slot_setSlot, if_neg]
      intro hs
      have hlt := k.cur.toNat_lt
      have hoff := toNat_offset k.head (show i + 1 < 2 ^ 16 by omega)
      have h0 : (k.head - k.head).toNat = 0 := by simp
      have hsize := hk.length_size
      have := hs.eq (s := k.head) (by omega) (by omega)
      rw [← this, h0] at hoff
      omega
    · rw [hp] at hp'
      obtain rfl := Option.some.inj hp'
      exact ht
  | @empty n k acts k' hcur hp h ih =>
    have hpred := UtpSocket.toNat_pred hcur
    rw [ih (hk.pop hcur hp) (by show n - 1 ≤ (k.cur - 1).toNat; omega)]
    cases n with
    | zero => exact frees_zero_pop hcur hp
    | succ n =>
      refine frees_pop hcur (fun _ _ => rfl) rfl rfl hn fun p' hp' => ?_
      rw [hp] at hp'
      cases hp'
  | check h hr ih => exact ih hk hn

/-- The packet acknowledges a window with the FIN as a whole exactly when it empties it. -/
def FinExact (k : Kernel) (pp : ParsedPacket) : Prop :=
  k.finSent → 0 < k.cur → (k.ackCount pp = k.cur.toNat ↔ k.Frees (k.ackCount pp))

instance (pp : ParsedPacket) : Decidable (k.FinExact pp) := inferInstanceAs (Decidable (_ → _ → _))

/-- The flag says that the FIN was sent and nothing is outstanding. -/
structure FinFlag (k : Kernel) : Prop where
  exact : k.finSentAcked ↔ k.finSent ∧ k.cur = 0
  opened : k.finSent → k.state ≠ .uninitialized ∧ k.state ≠ .synSent
  closing : k.closeRequested → k.finSent ∧ (k.finSentAcked → k.state = .destroy)

namespace FinFlag

theorem congr (h : k.FinFlag) (hf : k'.finSent = k.finSent) (ha : k'.finSentAcked = k.finSentAcked)
    (hc : k'.cur = k.cur) (hr : k'.closeRequested = k.closeRequested) (hs : k'.state = k.state) :
    k'.FinFlag := by
  obtain ⟨h1, h2, h3⟩ := h
  exact ⟨by rw [hf, ha, hc]; exact h1, by rw [hf, hs]; exact h2, by rw [hf, ha, hr, hs]; exact h3⟩

/-- A state change that leaves `CS_DESTROY` alone. -/
theorem setState (h : k.FinFlag) (st : ConnState) (hst : st ≠ .uninitialized ∧ st ≠ .synSent)
    (hd : k.closeRequested → k.finSentAcked → st = .destroy) :
    FinFlag { k with state := st } :=
  ⟨h.exact, fun _ => hst, fun hc => ⟨(h.closing hc).1, hd hc⟩⟩

/-- Before the FIN neither flag is set. -/
theorem unsent (h : k.FinFlag) (hf : k.finSent = false) :
    k.finSentAcked = false ∧ k.closeRequested = false := by
  refine ⟨Bool.eq_false_iff.2 fun ha => ?_, Bool.eq_false_iff.2 fun hc => ?_⟩
  · have := (h.exact.1 ha).1
    rw [hf] at this
    cases this
  · have := (h.closing hc).1
    rw [hf] at this
    cases this

/-- The acknowledgement part of a packet. -/
theorem advance (h : k.FinFlag) (hw : k.Window) {pp : ParsedPacket} (hx : k.FinExact pp)
    (hp : Pops (k.ackCount pp) (k.ackState pp) acts k') : k'.FinFlag := by
  have hle := k.ackCount_le pp
  have hring := hw.toRing.ackState pp
  have hcur : (k.ackState pp).cur = k.cur := by
    obtain ⟨st, f, he⟩ := k.ackState_eq pp
    rw [he]
  have hzero := hp.cur_eq_zero_iff hring (by rw [hcur]; exact hle)
  have hfrees : (k.ackState pp).Frees (k.ackCount pp) ↔ k.Frees (k.ackCount pp) := by
    obtain ⟨st, f, he⟩ := k.ackState_eq pp
    rw [he]
    rfl
  rw [hfrees] at hzero
  have hk : k'.state = (k.ackState pp).state ∧ k'.finSent = k.finSent ∧
      k'.finSentAcked = (k.ackState pp).finSentAcked ∧ k'.closeRequested = k.closeRequested := by
    obtain ⟨q, w, c, o, f, rfl⟩ := hp.frame
    obtain ⟨st, g, he⟩ := k.ackState_eq pp
    rw [he]
    exact ⟨rfl, rfl, rfl, rfl⟩
  obtain ⟨hst, hfin, hack, hreq⟩ := hk
  cases hf : k.finSent with
  | false =>
    obtain ⟨ha, hc⟩ := h.unsent hf
    have hack' : k'.finSentAcked = false := by
      rw [hack]
      unfold ackState
      dsimp only
      split_ifs <;> simp_all
    refine ⟨?_, fun hf' => ?_, fun hc' => ?_⟩
    · rw [hack', hfin, hf]
      simp
    · rw [hfin, hf] at hf'
      cases hf'
    · rw [hreq, hc] at hc'
      cases hc'
  | true =>
    obtain ⟨hu, hsyn⟩ := h.opened hf
    have hfinal : k'.finSentAcked = true ↔ k'.cur = 0 := by
      rw [hack, hzero]
      by_cases h0 : k.cur = 0
      · have hn : k.ackCount pp = 0 := by
          rw [h0] at hle
          exact Nat.le_zero.1 hle
        have ha := h.exact.2 ⟨hf, h0⟩
        rw [hn]
        refine iff_of_true ?_ ⟨fun i hi => absurd hi (Nat.not_lt_zero _), fun i _ hi => ?_⟩
        · unfold ackState
          dsimp only
          split_ifs <;> simp_all
        · rw [h0] at hi
          exact absurd hi (Nat.not_lt_zero _)
      · have ha : k.finSentAcked = false :=
          Bool.eq_false_iff.2 fun ha => h0 (h.exact.1 ha).2
        rw [← hx hf (by grind), eq_comm (a := k.ackCount pp)]
        unfold ackState
        dsimp only
        split_ifs <;> simp_all
    refine ⟨by rw [hfin, hf, hfinal]; simp, fun _ => ?_, fun hc => ⟨hfin.trans hf, fun ha => ?_⟩⟩
    · rw [hst]
      unfold ackState
      dsimp only
      split_ifs <;> simp_all
    · rw [hreq] at hc
      rw [hack] at ha
      rw [hst]
      have hd := (h.closing hc).2
      unfold ackState at ha ⊢
      dsimp only at ha ⊢
      split_ifs at ha ⊢ <;> simp_all

end FinFlag

theorem Drains.sendSide (hd : Drains k acts k') : k'.finSent = k.finSent ∧
    k'.finSentAcked = k.finSentAcked ∧ k'.cur = k.cur ∧ k'.closeRequested = k.closeRequested ∧
      k'.state = k.state := by
  induction hd with
  | eof h => exact ⟨rfl, rfl, rfl, rfl, rfl⟩
  | idle h hr => exact ⟨rfl, rfl, rfl, rfl, rfl⟩
  | release h hr hp hd ih => exact ih

/-- Every step keeps the flag exact, if the packets do. -/
theorem finFlag_micro {x : Input} (h : k.FinFlag) (hw : k.Window)
    (hx : ∀ pp, x = .ack pp → k.FinExact pp) (hm : Micro x k acts k') : k'.FinFlag := by
  cases hm with
  | writable hs =>
    refine h.setState _ (by simp) fun hc ha => ?_
    have := (h.closing hc).2 ha
    rw [hs] at this
    cases this
  | full hs =>
    refine h.setState _ (by simp) fun hc ha => ?_
    have := (h.closing hc).2 ha
    rw [hs] at this
    cases this
  | destroy => exact h.setState _ (by simp) (fun _ _ => rfl)
  | timeout =>
    exact h.setState _ ⟨k.gaveUp_ne (by simp) (by simp), k.gaveUp_ne (by simp) (by simp)⟩
      fun hc _ => if_pos (.inr hc)
  | broken =>
    refine h.setState _ ?_ fun hc _ => if_pos hc
    split <;> simp
  | @closeAgain k hf ho =>
    refine ⟨h.exact, fun _ => ?_, fun _ => ⟨hf, fun ha => if_pos ha⟩⟩
    show (if k.finSentAcked then ConnState.destroy else k.state) ≠ .uninitialized ∧
      (if k.finSentAcked then ConnState.destroy else k.state) ≠ .synSent
    split
    · simp
    · exact h.opened hf
  | @accept k id seq peer hu =>
    have hf := (hw.unused hu).2
    obtain ⟨ha, hc⟩ := h.unsent hf
    exact ⟨h.exact, fun _ => by simp, fun hc' => absurd (hc.symm.trans hc') (by simp)⟩
  | @connect k seed seq p p' flags hu hp hp' =>
    have hf := (hw.unused hu).2
    obtain ⟨ha, hc⟩ := h.unsent hf
    refine ⟨?_, fun hf' => absurd (hf.symm.trans hf') (by simp),
      fun hc' => absurd (hc.symm.trans hc') (by simp)⟩
    show k.finSentAcked = true ↔ k.finSent = true ∧ _
    rw [ha, hf]
    simp
  | @queue k p hs hf hc hp =>
    obtain ⟨ha, hr⟩ := h.unsent hf
    refine ⟨?_, fun hf' => absurd (hf.symm.trans hf') (by simp),
      fun hc' => absurd (hr.symm.trans hc') (by simp)⟩
    show k.finSentAcked = true ↔ k.finSent = true ∧ _
    rw [ha, hf]
    simp
  | @queueFin k p closing ho hf hp hb =>
    obtain ⟨ha, hr⟩ := h.unsent hf
    have hsucc := Ring.toNat_succ (hw.length_lt hf)
    refine ⟨?_, fun _ => ?_, fun _ => ⟨rfl, fun ha' => absurd (ha.symm.trans ha') (by simp)⟩⟩
    · show k.finSentAcked = true ↔ true = true ∧ k.cur + 1 = 0
      rw [ha]
      refine iff_of_false (by simp) fun hz => ?_
      rw [hz.2] at hsucc
      exact absurd hsucc (by simp)
    · rcases ho with ho | ho <;> simp [Kernel.queue, ho]
  | advance hs hp => exact h.advance hw (hx _ rfl) hp
  | deliver ho hd ht hf hdr =>
    obtain ⟨h1, h2, h3, h4, h5⟩ := hdr.sendSide
    exact h.congr h1 h2 h3 h4 h5
  | _ => exact h.congr rfl rfl rfl rfl rfl

/-- The window and the flag. -/
def FinInv (k : Kernel) : Prop := k.Window ∧ k.FinFlag

theorem initial_finFlag : initial.FinFlag :=
  ⟨by decide, fun h => (by cases h), fun h => (by cases h)⟩

/-- A packet destroys the socket by acknowledging its FIN only. -/
theorem destroyed_micro {x : Input} (hx : x ≠ .api ∧ x ≠ .host ∧ x ≠ .broken)
    (h : k.state = .destroy → k.finSentAcked) (hm : Micro x k acts k') :
    k'.state = .destroy → k'.finSentAcked := by
  cases hm with
  | writable hs => simp
  | @advance pp k acts k' hs hp =>
    obtain ⟨q, w, c, o, f, rfl⟩ := hp.frame
    show (k.ackState pp).state = .destroy → (k.ackState pp).finSentAcked
    unfold ackState
    dsimp only
    split_ifs <;> simp_all
  | deliver ho hd ht hf hdr =>
    obtain ⟨-, h2, -, -, h5⟩ := hdr.sendSide
    rw [h2, h5]
    exact h
  | destroy hx' =>
    rcases hx' with hx' | hx'
    · exact absurd hx' hx.1
    · exact absurd hx' hx.2.1
  | _ => first | exact h | exact absurd rfl hx.1 | exact absurd rfl hx.2.1 | exact absurd rfl hx.2.2

end Kernel

namespace UtpSocket

/-- A processed datagram acknowledges a window with the FIN as a whole exactly when
it empties it. -/
def FinAckExact (_ : Env) (s : UtpSocket) : Op → Prop
  | .processIncoming b => ∀ pp, (parseBytes b s.conn.extensions).1 = some pp → s.Accepts pp →
    s.kernel.FinExact pp
  | _ => True

instance (env : Env) (s : UtpSocket) (b : Bytes) :
    Decidable (FinAckExact env s (.processIncoming b)) :=
  inferInstanceAs (Decidable (∀ pp, (parseBytes b s.conn.extensions).1 = some pp → s.Accepts pp →
    s.kernel.FinExact pp))

theorem finInv_runs {x : Input} {b : Bytes} {s t : UtpSocket} (h : Runs x b s t)
    (hs : s.kernel.FinInv) (hx : ∀ pp, x ≠ .ack pp) : t.kernel.FinInv := by
  obtain ⟨acts, ht, -⟩ := h
  exact ht.invariant (I := Kernel.FinInv) (fun k _ _ hk hm =>
    ⟨(Kernel.window_micro hk.1 hm).1,
      Kernel.finFlag_micro hk.2 hk.1 (fun pp hp => absurd hp (hx pp)) hm⟩) hs

theorem finExact_expect (k : Kernel) (pp pp' : ParsedPacket) :
    (k.expect pp').FinExact pp ↔ k.FinExact pp := by
  unfold Kernel.expect
  split <;> exact Iff.rfl

theorem finInv_received {pp : ParsedPacket} {s t : UtpSocket} (h : Received pp s t) (hs : s.kernel.FinInv)
    (hx : s.Accepts pp → s.kernel.FinExact pp) : t.kernel.FinInv := by
  cases h with
  | brief h => exact finInv_runs h.runs hs (by simp)
  | @full t u v hacc h₁ ha h₂ h₃ =>
    obtain ⟨hw, hf⟩ := finInv_runs h₁.runs hs (by simp)
    obtain ⟨pre, acts, -, hm, -⟩ := ha
    have hex : t.kernel.FinExact pp := by
      rw [h₁.1, finExact_expect]
      exact hx hacc
    have hu : u.kernel.FinInv := ⟨(Kernel.window_micro hw hm).1,
      Kernel.finFlag_micro hf hw (fun pp' hp => by cases hp; exact hex) hm⟩
    exact finInv_runs h₃.runs (finInv_runs h₂ hu (by simp)) (by simp)

theorem finInv_step {s s' : UtpSocket} {l : List Call} (h : StepIf FinAckExact s l s')
    (hs : s.kernel.FinInv) : s'.kernel.FinInv := by
  cases h with
  | call env ms tick op hop hC =>
    have hl : (s.lend ms tick).kernel.FinInv := hs
    have hop := hop.lend ms tick
    cases op with
    | processIncoming b =>
      rcases received_processIncoming env b (s.lend ms tick) with hq | ⟨pp, hp, hr⟩
      · exact finInv_runs (x := .nothing) (.of_quiet hq) hl (by simp)
      · exact finInv_received hr hl (hC pp hp)
    | _ =>
      obtain ⟨acts, ht, -⟩ := runs_op env hop
      refine ht.invariant (I := Kernel.FinInv) (fun k l k' hk hm => ?_) hl
      obtain ⟨x, hx, hm⟩ := hm
      refine ⟨(Kernel.window_micro hk.1 hm).1, Kernel.finFlag_micro hk.2 hk.1 (fun pp hp => ?_) hm⟩
      subst hp
      cases hx

theorem finInv_run {targetDelay rcvbuf sndbuf : ℕ} {calls : List Call} {s : UtpSocket}
    (h : RunIf FinAckExact targetDelay rcvbuf sndbuf calls s) : s.kernel.FinInv :=
  h.invariant (I := fun s => s.kernel.FinInv) (fun _ _ _ hs hst => finInv_step hst hs)
    ⟨Kernel.initial_window, Kernel.initial_finFlag⟩

/-- A datagram that destroys the socket finds its FIN acknowledged. -/
theorem destroyed_step {s s' : UtpSocket} {c : Call} {b : Bytes} (h : Step s [c] s')
    (hb : c.op = .processIncoming b) (hs : s.conn.state ≠ .destroy) (hs' : s'.conn.state = .destroy) :
    s'.send.finSentAcked := by
  obtain ⟨c', acts, hc, -, ht, -⟩ := step_kernel h
  obtain rfl : c = c' := List.singleton_inj.1 hc
  refine ht.invariant (I := fun k => k.state = .destroy → k.finSentAcked) (fun k l k' hk hm => ?_)
    (fun hd => absurd hd hs) hs'
  obtain ⟨x, hx, hm⟩ := hm
  rw [hb] at hx
  exact Kernel.destroyed_micro ⟨by rintro rfl; exact hx, by rintro rfl; exact hx,
    by rintro rfl; exact hx⟩ hk hm

/-- In every run whose processed datagrams acknowledge the FIN exactly, the flag is
exact, a closed socket in a connected state has something to retransmit, and a datagram
that destroys the socket leaves nothing in the window. -/
theorem finAcked_exact {targetDelay rcvbuf sndbuf : ℕ} {calls : List Call} {s : UtpSocket}
    (h : RunIf FinAckExact targetDelay rcvbuf sndbuf calls s) :
    (s.send.finSentAcked ↔ s.send.finSent ∧ s.send.curWindowPackets = 0) ∧
      (s.send.closeRequested → s.conn.state = .connected ∨ s.conn.state = .connectedFull →
        s.send.curWindowPackets ≠ 0) ∧
      ∀ c b s', StepIf FinAckExact s [c] s' → c.op = .processIncoming b → s.conn.state ≠ .destroy →
        s'.conn.state = .destroy → s'.send.curWindowPackets = 0 := by
  have hok := finInv_run h
  have hf := hok.2
  refine ⟨hf.exact, fun hc hst h0 => ?_, fun c b s' hstep hb hs hs' => ?_⟩
  · obtain ⟨hfin, hd⟩ := hf.closing hc
    have hd : s.conn.state = .destroy := hd (hf.exact.2 ⟨hfin, h0⟩)
    rw [hd] at hst
    rcases hst with hst | hst <;> cases hst
  · have hf' := (finInv_step hstep hok).2
    exact (hf'.exact.1 (destroyed_step hstep.step hb hs hs')).2

/-- One byte is written and the socket closed; the FIN waits behind the byte. -/
def closing : UtpSocket :=
  perform stillHost dialled [.processIncoming (statePacket 100 0), .writev [[1]], .close]

theorem runIf_closing : ∃ calls, RunIf FinAckExact CCONTROL_TARGET 4096 4096 calls closing := by
  have hopen : FinAckExact stillHost (dialled.lend 0 0) (.processIncoming (statePacket 100 0)) := by
    decide +kernel
  exact ⟨_, .head (.call stillHost 0 0 (.connect ⟨0, 0⟩ 7) trivial trivial)
    (.head (.call stillHost 0 0 (.processIncoming (statePacket 100 0)) trivial hopen)
      (.head (.call stillHost 0 0 (.writev [[1]]) trivial trivial)
        (.single (.call stillHost 0 0 .close trivial trivial))))⟩

/-- The peer has acknowledged the byte, and the FIN went out. -/
def lastAck : UtpSocket := perform stillHost closing [.processIncoming (statePacket 100 1)]

/-- The peer has acknowledged the FIN as well. -/
def closed : UtpSocket := perform stillHost lastAck [.processIncoming (statePacket 100 2)]

theorem runIf_lastAck : ∃ calls, RunIf FinAckExact CCONTROL_TARGET 4096 4096 calls lastAck := by
  obtain ⟨calls, h⟩ := runIf_closing
  exact ⟨_, h.trans (.single (.call stillHost 0 0 (.processIncoming (statePacket 100 1)) trivial
    (by decide +kernel)))⟩

theorem stepIf_closed : ∃ c, StepIf FinAckExact lastAck [c] closed ∧
    c.op = .processIncoming (statePacket 100 2) ∧ c.effects = closed.out :=
  stepIf_perform trivial (by decide +kernel)

theorem finAcked_exact_closed :
    (closed.send.finSent ∧ closed.send.curWindowPackets = 0 ∧ closed.send.finSentAcked) ∧
      (lastAck.send.curWindowPackets ≠ 0 ∧ lastAck.send.finSentAcked = false) ∧
      closed.conn.state = .destroy := by
  obtain ⟨calls, h⟩ := runIf_lastAck
  obtain ⟨c, hstep, hc, -⟩ := stepIf_closed
  have hlast : lastAck.conn.state = .connected := by decide +kernel
  have hdead : closed.conn.state = .destroy := by decide +kernel
  have hreq : lastAck.send.closeRequested := by decide +kernel
  have hsent : closed.send.finSent := by decide +kernel
  have hcur := (finAcked_exact h).2.1 hreq (.inl hlast)
  have hflag : lastAck.send.finSentAcked = false :=
    Bool.eq_false_iff.2 fun ha => hcur ((finAcked_exact h).1.1 ha).2
  have hempty := (finAcked_exact h).2.2 c _ closed hstep hc (by simp [hlast]) hdead
  exact ⟨⟨hsent, hempty, (finAcked_exact (h.trans (.single hstep))).1.2 ⟨hsent, hempty⟩⟩,
    ⟨hcur, hflag⟩, hdead⟩

/-- The peer acknowledges the FIN that was never sent: the socket is destroyed with
the FIN still in its window. -/
theorem finAcked_inexact :
    (∃ calls, Run CCONTROL_TARGET 4096 4096 calls (perform stillHost closing
      [.processIncoming (statePacket 100 2)])) ∧
      ¬ ((perform stillHost closing [.processIncoming (statePacket 100 2)]).send.finSentAcked ↔
        (perform stillHost closing [.processIncoming (statePacket 100 2)]).send.finSent ∧
          (perform stillHost closing [.processIncoming (statePacket 100 2)]).send.curWindowPackets =
            0) ∧
      (perform stillHost closing [.processIncoming (statePacket 100 2)]).conn.state = .destroy := by
  obtain ⟨calls, h⟩ := runIf_closing
  obtain ⟨calls', h'⟩ := trace_perform stillHost closing (l := [.processIncoming
    (statePacket 100 2)]) (by simp [Op.Enabled])
  exact ⟨⟨_, h.run.trans h'⟩, by decide +kernel, by decide +kernel⟩

end UtpSocket

end Utp
