import LibUtp.Invariant.ReorderBuffer

/-! The end of the incoming stream: when the FIN is noted and reached, what is handed
to the application before it, and when nothing is handed over after it. -/

namespace Utp

open Lts SequenceBuffer

/-- The payloads handed to `on_read`. -/
def readsOf (l : List Effect) : List Bytes :=
  l.filterMap fun
    | .onRead b => some b
    | _ => none

theorem readsOf_append (l l' : List Effect) : readsOf (l ++ l') = readsOf l ++ readsOf l' :=
  List.filterMap_append

theorem readsOf_withheld {l : List Effect} (h : ∀ e ∈ l, e.delivers = false) : readsOf l = [] := by
  rw [readsOf, List.filterMap_eq_nil_iff]
  intro e he
  have := h e he
  cases e <;> first | rfl | cases this

/-- A stretch of a run: the end of the stream is reported at most once and nothing is handed
over after it. The flags say whether it was reported before the stretch and by its end. -/
inductive Ends : Bool → List Effect → Bool → Prop
  | nil {r} : Ends r [] r
  | other {r r' e l} (he : e.delivers = false) (h : Ends r l r') : Ends r (e :: l) r'
  | read {r' b l} (h : Ends false l r') : Ends false (.onRead b :: l) r'
  | eof {r' l} (h : Ends true l r') : Ends false (.onStateChange .eof :: l) r'

namespace Ends

variable {r r' r'' : Bool} {l l' : List Effect}

theorem append (h : Ends r l r') (h' : Ends r' l' r'') : Ends r (l ++ l') r'' := by
  induction h with
  | nil => exact h'
  | other he _ ih => exact .other he (ih h')
  | read _ ih => exact .read (ih h')
  | eof _ ih => exact .eof (ih h')

theorem of_withheld (h : ∀ e ∈ l, e.delivers = false) : Ends r l r := by
  induction l with
  | nil => exact .nil
  | cons e l ih =>
    exact .other (h e List.mem_cons_self) (ih fun e' he' => h e' (List.mem_cons_of_mem _ he'))

theorem withheld (h : Ends r l r') (hr : r = true) : ∀ e ∈ l, e.delivers = false := by
  induction h with
  | nil => simp
  | other he _ ih =>
    intro e' he'
    rcases List.mem_cons.1 he' with rfl | he'
    · exact he
    · exact ih hr e' he'
  | read => cases hr
  | eof => cases hr

/-- After the report nothing is handed over and no second report is made. -/
theorem after_eof (h : Ends r l r') {l₁ l₂ : List Effect}
    (hl : l = l₁ ++ .onStateChange .eof :: l₂) : ∀ e ∈ l₂, e.delivers = false := by
  induction h generalizing l₁ with
  | nil => exact absurd hl (by simp)
  | other he _ ih =>
    cases l₁ with
    | nil =>
      obtain ⟨rfl, -⟩ := List.cons_eq_cons.1 hl
      cases he
    | cons e₁ l₁ => exact ih (List.cons_eq_cons.1 hl).2
  | read _ ih =>
    cases l₁ with
    | nil => cases (List.cons_eq_cons.1 hl).1
    | cons e₁ l₁ => exact ih (List.cons_eq_cons.1 hl).2
  | eof h ih =>
    cases l₁ with
    | nil =>
      obtain ⟨-, rfl⟩ := List.cons_eq_cons.1 hl
      exact h.withheld rfl
    | cons e₁ l₁ => exact ih (List.cons_eq_cons.1 hl).2

end Ends

/-- `l` is what the packets received under the numbers `a + 1` to `a + n` hand over, in order:
their payloads, but for empty ones and unless reading is shut down. -/
inductive Reads (R : ParsedPacket → Prop) (shut : Bool) : UInt16 → ℕ → List Bytes → Prop
  | nil {a} : Reads R shut a 0 []
  | cons {a n l pp} (hR : R pp) (hq : pp.seqNr = a + 1) (h : Reads R shut (a + 1) n l) :
      Reads R shut a (n + 1) ((if 0 < pp.payload.length ∧ shut = false then [pp.payload] else []) ++ l)

namespace Kernel

variable {R : ParsedPacket → Prop} {x : Input} {k k' : Kernel} {acts : List Act}

/-- What a noted FIN says: the connection is or was open, and until the FIN is reached it
lies past the last number in order. -/
structure FinNoted (k : Kernel) : Prop where
  late : k.gotFin → UtpSocket.atLeastConnected k.state
  reached : k.gotFinReached → k.gotFin
  ahead : k.gotFin → k.gotFinReached = false → k.eofPkt ≠ k.ackNr

namespace FinNoted

theorem congr (h : k.FinNoted) (hs : SameStream k k')
    (hst : UtpSocket.atLeastConnected k.state → UtpSocket.atLeastConnected k'.state) :
    k'.FinNoted := by
  refine ⟨fun hg => hst (h.late ?_), fun hr => ?_, fun hg hr => ?_⟩
  · rwa [hs.gotFin] at hg
  · rw [hs.gotFin]
    rw [hs.gotFinReached] at hr
    exact h.reached hr
  · rw [hs.eofPkt, hs.ackNr]
    rw [hs.gotFin] at hg
    rw [hs.gotFinReached] at hr
    exact h.ahead hg hr

/-- Before the connection is open no FIN was noted. -/
theorem early (h : k.FinNoted) (hs : UtpSocket.atLeastConnected k.state = false) :
    k.gotFin = false ∧ k.gotFinReached = false := by
  have hg : k.gotFin = false := Bool.eq_false_iff.2 fun hg => by
    rw [h.late hg] at hs
    cases hs
  refine ⟨hg, Bool.eq_false_iff.2 fun hr => ?_⟩
  rw [h.reached hr] at hg
  cases hg

theorem of_unnoted (hg : k.gotFin = false) (hr : k.gotFinReached = false) : k.FinNoted :=
  ⟨fun h => absurd (hg.symm.trans h) (by simp), fun h => absurd (hr.symm.trans h) (by simp),
    fun h => absurd (hg.symm.trans h) (by simp)⟩

end FinNoted

theorem ne_ackNr_of_distance {pp : ParsedPacket} (hd : (k.seqDistance pp).toNat < 1024) :
    pp.seqNr ≠ k.ackNr := by
  intro he
  have hmax : k.seqDistance pp = 0xffff := by
    unfold seqDistance
    rw [he]
    grind
  rw [hmax] at hd
  exact absurd hd (by decide)

theorem Drains.fin (hd : Drains k acts k') : k'.gotFin = k.gotFin ∧ k'.eofPkt = k.eofPkt ∧
    k'.readShutdown = k.readShutdown ∧ (k.gotFinReached → k'.gotFinReached) := by
  induction hd with
  | eof h => exact ⟨rfl, rfl, rfl, fun _ => rfl⟩
  | idle h hr => exact ⟨rfl, rfl, rfl, id⟩
  | release h hr hp hd ih => exact ih

/-- The drain stops at the FIN. -/
theorem Drains.ahead (hd : Drains k acts k') (hg : k'.gotFin) (hr : k'.gotFinReached = false) :
    k'.eofPkt ≠ k'.ackNr := by
  induction hd with
  | eof h => cases hr
  | idle h _ => exact fun he => h ⟨hr, hg, he⟩
  | release h _ _ hd ih => exact ih hg hr

theorem Drains.reached (hd : Drains k acts k') (h : k.gotFinReached → k.gotFin) :
    k'.gotFinReached → k'.gotFin := by
  induction hd with
  | eof he => exact fun _ => he.2.1
  | idle he _ => exact h
  | release he _ _ hd ih => exact ih h

theorem atLeastConnected_ackState (pp : ParsedPacket)
    (h : UtpSocket.atLeastConnected k.state) : UtpSocket.atLeastConnected (k.ackState pp).state := by
  unfold ackState
  dsimp only
  split_ifs <;> simp_all [UtpSocket.atLeastConnected]

theorem IsOpen.atLeastConnected (h : k.IsOpen) : UtpSocket.atLeastConnected k.state := by
  rcases h with h | h <;> rw [h] <;> rfl

/-- Every step keeps what the FIN says. -/
theorem finNoted_micro (h : k.FinNoted) (hm : Micro x k acts k') : k'.FinNoted := by
  cases hm with
  | writable hs => exact h.congr ⟨rfl, rfl, rfl, rfl, rfl⟩ fun _ => rfl
  | full hs => exact h.congr ⟨rfl, rfl, rfl, rfl, rfl⟩ fun _ => rfl
  | destroy => exact h.congr ⟨rfl, rfl, rfl, rfl, rfl⟩ fun _ => rfl
  | timeout =>
    refine h.congr ⟨rfl, rfl, rfl, rfl, rfl⟩ fun _ => ?_
    unfold gaveUp
    dsimp only
    split <;> rfl
  | broken =>
    refine h.congr ⟨rfl, rfl, rfl, rfl, rfl⟩ fun _ => ?_
    dsimp only
    split <;> rfl
  | closeAgain =>
    refine h.congr ⟨rfl, rfl, rfl, rfl, rfl⟩ fun hc => ?_
    dsimp only
    split
    · rfl
    · exact hc
  | readShutdown => exact ⟨h.late, h.reached, h.ahead⟩
  | accept hu =>
    obtain ⟨hg, hr⟩ := h.early (by rw [hu]; rfl)
    exact .of_unnoted hg hr
  | connect hu hp hp' =>
    obtain ⟨hg, hr⟩ := h.early (by rw [hu]; rfl)
    exact .of_unnoted hg hr
  | synSentAck hs =>
    obtain ⟨hg, hr⟩ := h.early (by rw [hs]; rfl)
    exact .of_unnoted hg hr
  | @advance pp k acts k' hs hp =>
    have hk : (k.ackState pp).FinNoted := by
      have he := atLeastConnected_ackState (k := k) pp
      obtain ⟨st, f, heq⟩ := k.ackState_eq pp
      rw [heq] at he ⊢
      exact h.congr ⟨rfl, rfl, rfl, rfl, rfl⟩ he
    obtain ⟨q, w, c, o, f, rfl⟩ := hp.frame
    exact hk.congr ⟨rfl, rfl, rfl, rfl, rfl⟩ id
  | noteFin ho ht hf hd =>
    refine ⟨fun _ => ho.atLeastConnected, fun _ => rfl, fun _ _ => ?_⟩
    exact ne_ackNr_of_distance hd
  | deliver ho hd ht hf hdr =>
    refine ⟨fun _ => ?_, hdr.reached h.reached, hdr.ahead⟩
    rw [hdr.state]
    exact ho.atLeastConnected
  | _ => exact h.congr ⟨rfl, rfl, rfl, rfl, rfl⟩ id

theorem initial_finNoted : initial.FinNoted := .of_unnoted rfl rfl

/-! What the steps hand over. -/

theorem withheld_quiet {l : List Effect} (h : ∀ e ∈ l, Effect.quiet e) :
    ∀ e ∈ l, e.delivers = false := by
  intro e he
  have hq := h e he
  cases e with
  | onRead => cases hq
  | onStateChange st => cases st <;> first | rfl | cases hq
  | _ => rfl

theorem withheld_removal (k : Kernel) (p : OutgoingPacket) :
    ∀ e ∈ (k.removal p).flatMap Act.effects, e.delivers = false := by
  unfold removal
  split <;> simp [Act.effects, Effect.delivers]

theorem Pops.withheld {n : ℕ} (h : Pops n k acts k') :
    ∀ e ∈ acts.flatMap Act.effects, e.delivers = false := by
  induction h with
  | done h => simp
  | acked hcur hp ht h ih =>
    intro e he
    rw [List.flatMap_append] at he
    rcases List.mem_append.1 he with he | he
    · exact withheld_removal _ _ e he
    · exact ih e he
  | empty hcur hp h ih => exact ih
  | check h hr ih =>
    intro e he
    rw [List.flatMap_cons] at he
    rcases List.mem_append.1 he with he | he
    · simp only [Act.effects, List.mem_singleton] at he
      rw [he]
      rfl
    · exact ih e he

/-- Only packets are handed over. -/
theorem Micro.withheld (hx : ∀ pp, x ≠ .packet pp) (hm : Micro x k acts k') :
    (∀ e ∈ acts.flatMap Act.effects, e.delivers = false) ∧ k'.gotFin = k.gotFin ∧
      k'.gotFinReached = k.gotFinReached := by
  cases hm with
  | silent hq => exact ⟨by simpa [Act.effects] using withheld_quiet hq, rfl, rfl⟩
  | mark hc hp ht hn => exact ⟨withheld_removal _ _, rfl, rfl⟩
  | sack hm hb hc hv hw hp ht => exact ⟨withheld_removal _ _, rfl, rfl⟩
  | @advance pp k acts k' hs hp =>
    refine ⟨hp.withheld, ?_⟩
    obtain ⟨q, w, c, o, f, rfl⟩ := hp.frame
    obtain ⟨st, f, heq⟩ := k.ackState_eq pp
    rw [heq]
    exact ⟨rfl, rfl⟩
  | synSentAck => exact absurd rfl (hx _)
  | noteFin => exact absurd rfl (hx _)
  | deliver => exact absurd rfl (hx _)
  | clearReorder => exact absurd rfl (hx _)
  | growInbuf => exact absurd rfl (hx _)
  | failStore => exact absurd rfl (hx _)
  | store => exact absurd rfl (hx _)
  | _ => exact ⟨by simp [Act.effects, Effect.delivers], rfl, rfl⟩

/-- The acknowledgement part of a packet does not touch the incoming stream. -/
theorem Micro.sameStream {pp : ParsedPacket} (hx : x = .ack pp ∨ x = .eack pp)
    (hm : Micro x k acts k') : k.SameStream k' ∧ k'.inbuf = k.inbuf ∧
      k'.reorderCount = k.reorderCount := by
  cases hm with
  | @advance pp k acts k' hs hp =>
    obtain ⟨q, w, c, o, f, rfl⟩ := hp.frame
    obtain ⟨st, f, heq⟩ := k.ackState_eq pp
    rw [heq]
    exact ⟨⟨rfl, rfl, rfl, rfl, rfl⟩, rfl, rfl⟩
  | _ => first
    | exact ⟨⟨rfl, rfl, rfl, rfl, rfl⟩, rfl, rfl⟩
    | (rcases hx with hx | hx <;> cases hx)

/-- No data can be taken in, and no packet other than STATE can change that. -/
def Shut (k : Kernel) : Prop :=
  k.state ≠ .synRecv ∧ k.state ≠ .connected ∧ k.state ≠ .connectedFull

theorem Micro.shut {pp : ParsedPacket} (hx : x = .ack pp ∨ x = .eack pp) (ht : pp.type ≠ ST_STATE)
    (h : k.Shut) (hm : Micro x k acts k') : k'.Shut := by
  cases hm with
  | writable hs => exact absurd hs h.2.2
  | destroy => exact ⟨by simp, by simp, by simp⟩
  | @advance pp k acts k' hs hp =>
    obtain ⟨q, w, c, o, f, rfl⟩ := hp.frame
    have hpp : pp.type ≠ ST_STATE := by
      rcases hx with hx | hx <;> cases hx
      exact ht
    unfold Shut at h ⊢
    show (k.ackState pp).state ≠ _ ∧ (k.ackState pp).state ≠ _ ∧ (k.ackState pp).state ≠ _
    unfold ackState
    dsimp only
    split_ifs <;> simp_all
  | _ => first
    | exact h
    | (rcases hx with hx | hx <;> cases hx)

/-- The drain hands over what comes next in order, up to the FIN. -/
theorem Drains.reads (hd : Drains k acts k') (hb : k.gotFinReached = false → k.Reorder R 1)
    (hr : k.gotFinReached = false) :
    ∃ n, Reads R k.readShutdown k.ackNr n (readsOf (acts.flatMap Act.effects)) ∧
      (k.gotFin → n ≤ (k.eofPkt - k.ackNr).toNat) := by
  induction hd with
  | eof h => exact ⟨0, .nil, by simp⟩
  | idle h _ => exact ⟨0, .nil, by simp⟩
  | @release k p acts k' h hc hp hd ih =>
    obtain ⟨n, hn, hle⟩ := ih (fun _ => (hb hr).release hc hp) hr
    obtain ⟨pp, hR, hdata, hs, h1, h2⟩ := (hb hr).stored (k.ackNr + 1) p hp
    have hone : k.ackNr + 1 - k.ackNr = 1 := by grind
    have hlt := mask_lt_size k.inbuf
    have hsz := k.inbuf.two_le_size
    have hq : pp.seqNr = k.ackNr + 1 :=
      (hs.eq (s := k.ackNr) (by rw [hone, UInt16.toNat_one]; omega) (by omega)).symm
    refine ⟨n + 1, ?_, fun hg => ?_⟩
    · rw [List.flatMap_append, readsOf_append]
      have hread : readsOf ((k.readAct p.data).flatMap Act.effects) =
          if 0 < pp.payload.length ∧ k.readShutdown = false then [pp.payload] else [] := by
        rw [hdata]
        unfold readAct
        split <;> rfl
      rw [hread]
      exact .cons hR hq hn
    · have hne : k.eofPkt ≠ k.ackNr := fun he => h ⟨hr, hg, he⟩
      have hpos : 1 ≤ (k.eofPkt - k.ackNr).toNat := by
        by_contra h0
        have hz : k.eofPkt - k.ackNr = 0 := UInt16.toNat.inj (by rw [UInt16.toNat_zero]; omega)
        exact hne (by grind)
      have hsub := Reorder.toNat_sub_succ hpos
      have hle' : n ≤ (k.eofPkt - (k.ackNr + 1)).toNat := hle hg
      omega

theorem Drains.ends (hd : Drains k acts k') (hr : k.gotFinReached = false) :
    Ends false (acts.flatMap Act.effects) k'.gotFinReached := by
  induction hd with
  | eof h => exact .eof .nil
  | idle h _ =>
    rw [hr]
    exact .nil
  | @release k p acts k' h hc hp hd ih =>
    rw [List.flatMap_append]
    have hread : Ends false ((k.readAct p.data).flatMap Act.effects) false := by
      unfold readAct
      split
      · exact .read .nil
      · exact .nil
    exact hread.append (ih hr)

/-- The drain would come to a payload: the slots up to it are occupied and counted. -/
def HoldsData (k : Kernel) : Prop :=
  ∃ j < k.reorderCount.toNat, (∀ i ≤ j, (k.inbuf.slot (k.ackNr + 1 + UInt16.ofNat i)).isSome) ∧
    ∃ p, k.inbuf.slot (k.ackNr + 1 + UInt16.ofNat j) = some p ∧ p.data ≠ []

/-- A drain behind the end of the stream that comes to no payload hands nothing over. -/
theorem Drains.withheld (hd : Drains k acts k') (hr : k.gotFinReached)
    (h : k.readShutdown = false → ¬ k.HoldsData) :
    ∀ e ∈ acts.flatMap Act.effects, e.delivers = false := by
  induction hd with
  | eof he =>
    rw [he.1] at hr
    cases hr
  | idle he _ => simp
  | @release k p acts k' he hc hp hd ih =>
    have hzero : k.inbuf.slot (k.ackNr + 1 + UInt16.ofNat 0) = some p := by
      rw [slot_add_zero]
      exact hp
    have hcount : 0 < k.reorderCount := by grind
    have hpred := UtpSocket.toNat_pred hcount
    have hpos := UInt16.lt_iff_toNat_lt.1 hcount
    rw [UInt16.toNat_zero] at hpos
    have hdata : k.readShutdown = false → p.data = [] := by
      intro hs
      by_contra hne
      refine h hs ⟨0, hpos, fun i hi => ?_, p, hzero, hne⟩
      rw [Nat.le_zero.1 hi, hzero]
      rfl
    have hrest : k.release.readShutdown = false → ¬ k.release.HoldsData := by
      rintro hs ⟨j, hj, hocc, q, hq, hne⟩
      have hj : j < (k.reorderCount - 1).toNat := hj
      have hslot (i : ℕ) (y : InboundPacket)
          (hy : k.release.inbuf.slot (k.release.ackNr + 1 + UInt16.ofNat i) = some y) :
          k.inbuf.slot (k.ackNr + 1 + UInt16.ofNat (i + 1)) = some y := by
        have hnum : k.release.ackNr + 1 + UInt16.ofNat i = k.ackNr + 1 + UInt16.ofNat (i + 1) := by
          show k.ackNr + 1 + 1 + UInt16.ofNat i = _
          rw [UInt16.ofNat_add]
          grind
        rw [hnum] at hy
        have hy : (k.inbuf.setSlot (k.ackNr + 1) none).slot
          (k.ackNr + 1 + UInt16.ofNat (i + 1)) = some y := hy
        rw [slot_setSlot] at hy
        split at hy
        · cases hy
        · exact hy
      refine h hs ⟨j + 1, by omega, fun i hi => ?_, q, hslot j q hq, hne⟩
      cases i with
      | zero =>
        rw [hzero]
        rfl
      | succ i =>
        obtain ⟨y, hy⟩ := Option.isSome_iff_exists.1 (hocc i (by omega))
        rw [hslot i y hy]
        rfl
    intro e he'
    rw [List.flatMap_append] at he'
    rcases List.mem_append.1 he' with he' | he'
    · unfold readAct at he'
      split at he'
      · rename_i hc'
        rw [hdata hc'.2] at hc'
        exact absurd hc'.1 (by simp)
      · simp at he'
    · exact ih hr hrest e he'

end Kernel

namespace UtpSocket

variable {R : ParsedPacket → Prop}

/-- What a call does with the incoming stream: the end is reported once and last, and what is
handed over comes next in order and not past the FIN. -/
structure Streams (R : ParsedPacket → Prop) (s : UtpSocket) (l : List Effect) (s' : UtpSocket) :
    Prop where
  ends : Ends s.recv.gotFinReached l s'.recv.gotFinReached
  reads : ∃ n, Reads R s.recv.readShutdown s.recv.ackNr n (readsOf l) ∧
    (s'.recv.gotFin → n ≤ (s'.recv.eofPkt - s.recv.ackNr).toNat)

theorem Streams.of_withheld {s s' : UtpSocket} {l : List Effect}
    (hl : ∀ e ∈ l, e.delivers = false) (hr : s'.recv.gotFinReached = s.recv.gotFinReached) :
    Streams R s l s' := by
  refine ⟨?_, 0, ?_, by simp⟩
  · rw [hr]
    exact .of_withheld hl
  · rw [readsOf_withheld hl]
    exact .nil

/-- The kernels agree on the incoming side. -/
def SameInput (k k' : Kernel) : Prop :=
  k.SameStream k' ∧ k'.inbuf = k.inbuf ∧ k'.reorderCount = k.reorderCount

theorem SameInput.trans {k k' k'' : Kernel} (h : SameInput k k') (h' : SameInput k' k'') :
    SameInput k k'' := ⟨h.1.trans h'.1, h'.2.1.trans h.2.1, h'.2.2.trans h.2.2⟩

/-- From `s` to `t` nothing is handed over and the packet `pp` only acknowledges. -/
structure Acknowledges (pp : ParsedPacket) (s t : UtpSocket) : Prop where
  input : SameInput s.kernel t.kernel
  out : ∃ l, t.out = s.out ++ l ∧ ∀ e ∈ l, e.delivers = false
  shut : pp.type ≠ ST_STATE → s.kernel.Shut → t.kernel.Shut

theorem acknowledges_advanced {pp : ParsedPacket} {s t : UtpSocket} (h : Advanced pp s t) :
    Acknowledges pp s t := by
  obtain ⟨pre, acts, hpre, hm, -, ho⟩ := h
  refine ⟨hm.sameStream (.inl rfl), ⟨_, ho, fun e he => ?_⟩,
    fun ht hs => hm.shut (.inl rfl) ht hs⟩
  rcases List.mem_append.1 he with he | he
  · exact Kernel.withheld_quiet hpre e he
  · exact (hm.withheld (by simp)).1 e he

theorem acknowledges_eack {pp : ParsedPacket} {b : Bytes} {s t : UtpSocket}
    (h : Runs (.eack pp) b s t) : Acknowledges pp s t := by
  obtain ⟨acts, htr, ho, -⟩ := h
  refine ⟨?_, ⟨_, ho, fun e he => ?_⟩, fun ht hs => ?_⟩
  · exact htr.invariant (I := SameInput s.kernel)
      (fun _ _ _ hk hm => hk.trans (hm.sameStream (.inr rfl))) ⟨.refl _, rfl, rfl⟩
  · obtain ⟨a, ha, hea⟩ := List.mem_flatMap.1 he
    refine htr.forall_labels (I := fun _ => True) (P := fun a => ∀ e ∈ a.effects, e.delivers = false)
      (fun _ _ _ _ _ => trivial) (fun _ _ _ _ hm a ha e he => ?_) trivial a ha e hea
    exact (hm.withheld (by simp)).1 e (List.mem_flatMap.2 ⟨a, ha, he⟩)
  · exact htr.invariant (I := Kernel.Shut) (fun _ _ _ hk hm => hm.shut (.inr rfl) ht hk) hs

theorem Acknowledges.trans {pp : ParsedPacket} {s t u : UtpSocket} (h : Acknowledges pp s t)
    (h' : Acknowledges pp t u) : Acknowledges pp s u := by
  obtain ⟨l, ho, hl⟩ := h.out
  obtain ⟨l', ho', hl'⟩ := h'.out
  refine ⟨h.input.trans h'.input, ⟨l ++ l', by rw [ho', ho, List.append_assoc], fun e he => ?_⟩,
    fun ht hs => h'.shut ht (h.shut ht hs)⟩
  rcases List.mem_append.1 he with he | he
  · exact hl e he
  · exact hl' e he

/-- After the end of the stream a packet hands nothing over: it does not come next in order
in an open connection, or it brings no data and finds none behind it. -/
def EofKept (_ : Env) (s : UtpSocket) : Op → Prop
  | .processIncoming b => ∀ pp, (parseBytes b s.conn.extensions).1 = some pp → s.Accepts pp →
    s.recv.gotFinReached → s.kernel.IsOpen → pp.type ≠ ST_STATE → s.kernel.seqDistance pp = 0 →
      s.recv.readShutdown = false →
        pp.payload = [] ∧ ¬ Kernel.HoldsData { s.kernel with ackNr := s.kernel.ackNr + 1 }
  | _ => True

/-- The next packet in order. -/
theorem streams_inOrder {pp : ParsedPacket} {k : Kernel} {t u : UtpSocket} {acts : List Act}
    (hk : k.FinNoted) (hb : k.Buffer R) (hR : R pp) (hd : k.seqDistance pp = 0)
    (ht : SameInput (k.note pp) t.kernel)
    (hdr : Kernel.Drains { t.kernel with ackNr := t.kernel.ackNr + 1 } acts u.kernel)
    (hr : k.gotFinReached = false) :
    Ends false ((t.kernel.readAct pp.payload ++ acts).flatMap Act.effects) u.kernel.gotFinReached ∧
      ∃ n, Reads R k.readShutdown k.ackNr n
          (readsOf ((t.kernel.readAct pp.payload ++ acts).flatMap Act.effects)) ∧
        (u.kernel.gotFin → n ≤ (u.kernel.eofPkt - k.ackNr).toNat) := by
  obtain ⟨hs, hin, hcount⟩ := ht
  have hq : pp.seqNr = k.ackNr + 1 := by
    unfold Kernel.seqDistance at hd
    grind
  have hnote : (k.note pp).ackNr = k.ackNr ∧ (k.note pp).inbuf = k.inbuf ∧
      (k.note pp).reorderCount = k.reorderCount ∧ (k.note pp).gotFinReached = k.gotFinReached ∧
      (k.note pp).readShutdown = k.readShutdown := by
    obtain ⟨g, e, he⟩ := k.note_eq pp
    rw [he]
    exact ⟨rfl, rfl, rfl, rfl, rfl⟩
  obtain ⟨hn1, hn2, hn3, hn4, hn5⟩ := hnote
  have hack : t.kernel.ackNr = k.ackNr := hs.ackNr.trans hn1
  have hrt : t.kernel.gotFinReached = false := (hs.gotFinReached.trans hn4).trans hr
  have hshut : t.kernel.readShutdown = k.readShutdown := hs.readShutdown.trans hn5
  have hreorder : Kernel.Reorder R 1 { t.kernel with ackNr := t.kernel.ackNr + 1 } :=
    ((hb.reorder hr).congr (hcount.trans hn3) (hin.trans hn2) hack).succ
  have hahead : t.kernel.gotFin → t.kernel.eofPkt ≠ t.kernel.ackNr := by
    rw [hs.gotFin, hs.eofPkt, hack]
    unfold Kernel.note
    split
    · intro _
      show pp.seqNr ≠ k.ackNr
      rw [hq]
      grind
    · exact fun hg => hk.ahead hg hr
  refine ⟨?_, ?_⟩
  · rw [List.flatMap_append]
    refine Ends.append ?_ (hdr.ends hrt)
    unfold Kernel.readAct
    split
    · exact .read .nil
    · exact .nil
  · obtain ⟨n, hn, hle⟩ := hdr.reads (fun _ => hreorder) hrt
    have hn : Reads R t.kernel.readShutdown (t.kernel.ackNr + 1) n
      (readsOf (acts.flatMap Act.effects)) := hn
    have hle : t.kernel.gotFin → n ≤ (t.kernel.eofPkt - (t.kernel.ackNr + 1)).toNat := hle
    rw [hshut, hack] at hn
    refine ⟨n + 1, ?_, fun hg => ?_⟩
    · rw [List.flatMap_append, readsOf_append]
      have hread : readsOf ((t.kernel.readAct pp.payload).flatMap Act.effects) =
          if 0 < pp.payload.length ∧ k.readShutdown = false then [pp.payload] else [] := by
        rw [← hshut]
        unfold Kernel.readAct
        split <;> rfl
      rw [hread]
      exact .cons hR hq hn
    · obtain ⟨hg', he', -⟩ := hdr.fin
      rw [hg'] at hg
      rw [he', ← hack]
      have hne := hahead hg
      have hpos : 1 ≤ (t.kernel.eofPkt - t.kernel.ackNr).toNat := by
        by_contra h0
        have hz : t.kernel.eofPkt - t.kernel.ackNr = 0 :=
          UInt16.toNat.inj (by rw [UInt16.toNat_zero]; omega)
        exact hne (by grind)
      have hsub := Kernel.Reorder.toNat_sub_succ hpos
      have hle' := hle hg
      show n + 1 ≤ (t.kernel.eofPkt - t.kernel.ackNr).toNat
      omega

theorem sameInput_note {k k' : Kernel} (h : SameInput k k') (pp : ParsedPacket) :
    SameInput (k.note pp) (k'.note pp) := by
  obtain ⟨⟨h1, h2, h3, h4, h5⟩, h6, h7⟩ := h
  unfold Kernel.note
  rw [h2]
  split
  · exact ⟨⟨h1, rfl, rfl, h4, h5⟩, h6, h7⟩
  · exact ⟨⟨h1, h2, h3, h4, h5⟩, h6, h7⟩

/-- A packet that finds the end of the stream reached. -/
theorem withheld_inOrder {pp : ParsedPacket} {k : Kernel} {t u : UtpSocket} {acts : List Act}
    (hk : k.FinNoted) (hr : k.gotFinReached)
    (hC : k.readShutdown = false → pp.payload = [] ∧ ¬ Kernel.HoldsData { k with ackNr := k.ackNr + 1 })
    (ht : SameInput (k.note pp) t.kernel)
    (hdr : Kernel.Drains { t.kernel with ackNr := t.kernel.ackNr + 1 } acts u.kernel) :
    (∀ e ∈ (t.kernel.readAct pp.payload ++ acts).flatMap Act.effects, e.delivers = false) ∧
      u.kernel.gotFinReached = true := by
  have hnote : k.note pp = k := by
    unfold Kernel.note
    rw [hk.reached hr]
    simp
  rw [hnote] at ht
  obtain ⟨hs, hin, hcount⟩ := ht
  have hrt : t.kernel.gotFinReached = true := hs.gotFinReached.trans hr
  have hdata (hf : t.kernel.readShutdown = false) : pp.payload = [] ∧
      ¬ Kernel.HoldsData { t.kernel with ackNr := t.kernel.ackNr + 1 } := by
    rw [hs.readShutdown] at hf
    obtain ⟨h1, h2⟩ := hC hf
    refine ⟨h1, fun hh => h2 ?_⟩
    unfold Kernel.HoldsData at hh ⊢
    dsimp only at hh ⊢
    rwa [hs.ackNr, hin, hcount] at hh
  refine ⟨fun e he => ?_, hdr.fin.2.2.2 hrt⟩
  rw [List.flatMap_append] at he
  rcases List.mem_append.1 he with he | he
  · unfold Kernel.readAct at he
    split at he
    · rename_i hc
      rw [(hdata hc.2).1] at hc
      exact absurd hc.1 (by simp)
    · simp at he
  · exact hdr.withheld hrt (fun hf => (hdata hf).2) e he

theorem streams_received {pp : ParsedPacket} {s s' : UtpSocket} {l : List Effect}
    (h : Received pp s s') (hl : s'.out = s.out ++ l) (hk : s.kernel.FinNoted)
    (hb : s.kernel.Buffer R) (hR : R pp)
    (hC : s.Accepts pp → s.recv.gotFinReached → s.kernel.IsOpen → pp.type ≠ ST_STATE →
      s.kernel.seqDistance pp = 0 → s.recv.readShutdown = false →
        pp.payload = [] ∧ ¬ Kernel.HoldsData { s.kernel with ackNr := s.kernel.ackNr + 1 }) :
    Streams R s l s' := by
  have hexp {t : UtpSocket} (ht : Expecting pp s t) :
      t.recv.gotFinReached = s.recv.gotFinReached := by
    have hh : t.kernel.gotFinReached = s.kernel.gotFinReached := by
      rw [ht.1]
      unfold Kernel.expect
      split <;> rfl
    exact hh
  cases h with
  | brief h =>
    obtain ⟨l', ho, hq⟩ := h.2
    obtain rfl : l = l' := List.append_cancel_left (hl.symm.trans ho)
    exact .of_withheld (Kernel.withheld_quiet hq) (hexp h)
  | @full t u v hacc h₁ ha h₂ h₃ =>
    have hack : Acknowledges pp t v := (acknowledges_advanced ha).trans (acknowledges_eack h₂)
    obtain ⟨l₁, ho₁, hq₁⟩ := h₁.2
    obtain ⟨l₂, ho₂, hl₂⟩ := hack.out
    have hpre : ∀ e ∈ l₁ ++ l₂, e.delivers = false := by
      intro e he
      rcases List.mem_append.1 he with he | he
      · exact Kernel.withheld_quiet hq₁ e he
      · exact hl₂ e he
    have hrv : v.recv.gotFinReached = s.recv.gotFinReached :=
      hack.input.1.gotFinReached.trans (hexp h₁)
    have hov : v.out = s.out ++ (l₁ ++ l₂) := by rw [ho₂, ho₁, List.append_assoc]
    cases h₃ with
    | ignored h =>
      rw [h] at hl ⊢
      obtain rfl : l = l₁ ++ l₂ := List.append_cancel_left (hl.symm.trans hov)
      exact .of_withheld hpre hrv
    | @waits w ho ht hd hd' hkw hout hr hw =>
      obtain ⟨hs, l₃, ho₃, hl₃⟩ := hw
      obtain rfl : l = (l₁ ++ l₂) ++ l₃ := List.append_cancel_left
        (hl.symm.trans (by rw [ho₃, hout, hov, List.append_assoc]))
      refine .of_withheld (fun e he => ?_) ?_
      · rcases List.mem_append.1 he with he | he
        · exact hpre e he
        · exact hl₃ e he
      · have hnote : w.kernel.gotFinReached = v.kernel.gotFinReached := by
          obtain ⟨g, e, he⟩ := v.kernel.note_eq pp
          rw [hkw, he]
        exact (hs.gotFinReached.trans hnote).trans hrv
    | @inOrder w u' acts ho ht hd hkw hto hdr hout hr hw =>
      obtain ⟨hs, l₃, ho₃, hl₃⟩ := hw
      -- the connection was open, or about to be, so the packet does not set what is expected
      have hnshut : ¬ s.kernel.Shut := by
        intro hsh
        have hsh' : t.kernel.Shut := by
          rw [h₁.1]
          unfold Kernel.expect
          split
          · exact hsh
          · exact hsh
        have := hack.shut ht hsh'
        rcases ho with ho | ho
        · exact this.2.1 ho
        · exact this.2.2 ho
      have hte : t.kernel = s.kernel := by
        rw [h₁.1, Kernel.expect, if_neg]
        intro hst
        exact hnshut ⟨by rw [hst]; simp, by rw [hst]; simp, by rw [hst]; simp⟩
      have hin : SameInput s.kernel v.kernel := by
        rw [← hte]
        exact hack.input
      have hd' : s.kernel.seqDistance pp = 0 := by
        unfold Kernel.seqDistance at hd ⊢
        rwa [hin.1.ackNr] at hd
      have hw' : SameInput (s.kernel.note pp) w.kernel := by
        rw [hkw]
        exact sameInput_note hin pp
      have hl' : l = (l₁ ++ l₂) ++ ((w.kernel.readAct pp.payload ++ acts).flatMap Act.effects ++ l₃) :=
        List.append_cancel_left (hl.symm.trans (by
          rw [ho₃, hout, hto, hov]
          simp only [List.append_assoc]))
      have hre : s'.kernel.gotFinReached = u'.kernel.gotFinReached := hs.gotFinReached
      cases hr' : s.recv.gotFinReached with
      | true =>
        have hopen : s.kernel.IsOpen := by
          have hlate := hk.late (hk.reached hr')
          by_contra hc
          refine hnshut ⟨fun h => ?_, fun h => hc (.inl h), fun h => hc (.inr h)⟩
          rw [h] at hlate
          cases hlate
        obtain ⟨hl4, hu⟩ := withheld_inOrder hk hr' (hC hacc hr' hopen ht hd') hw' hdr
        refine .of_withheld (fun e he => ?_) ?_
        · rw [hl'] at he
          rcases List.mem_append.1 he with he | he
          · exact hpre e he
          · rcases List.mem_append.1 he with he | he
            · exact hl4 e he
            · exact hl₃ e he
        · exact (hre.trans hu).trans hr'.symm
      | false =>
        obtain ⟨hends, n, hn, hle⟩ := streams_inOrder hk hb hR hd' hw' hdr hr'
        have hu : s'.recv.gotFinReached = u'.kernel.gotFinReached := hre
        refine ⟨?_, n, ?_, fun hg => ?_⟩
        · rw [hr', hl', hu]
          exact (Ends.of_withheld hpre).append (hends.append (.of_withheld hl₃))
        · rw [hl', readsOf_append (l₁ ++ l₂), readsOf_append _ l₃, readsOf_withheld hpre,
            readsOf_withheld hl₃, List.nil_append, List.append_nil]
          exact hn
        · have hg' : u'.kernel.gotFin = true := hs.gotFin.symm.trans hg
          have he : s'.recv.eofPkt = u'.kernel.eofPkt := hs.eofPkt
          rw [he]
          exact hle hg'

theorem streams_step {s s' : UtpSocket} {c : Call} (h : StepIf EofKept s [c] s')
    (hk : s.kernel.FinNoted) (hb : s.kernel.Buffer R)
    (hR : ∀ pp, c.op.Takes (.packet pp) → R pp) : Streams R s c.effects s' := by
  by_cases hp : ∃ b, c.op = .processIncoming b
  · obtain ⟨b, hp⟩ := hp
    cases h with
    | call env ms tick op hop hC =>
      obtain rfl : op = .processIncoming b := hp
      have hkl : (s.lend ms tick).kernel.FinNoted := hk
      rcases received_processIncoming env b (s.lend ms tick) with hq | ⟨pp, hpp, hr⟩
      · obtain ⟨hkq, l, ho, hl⟩ := hq
        rw [out_lend, List.nil_append] at ho
        refine .of_withheld (fun e he => Kernel.withheld_quiet hl e ?_) ?_
        · rw [← ho]
          exact he
        · exact congrArg Kernel.gotFinReached hkq
      · have hs := streams_received hr (by rw [out_lend, List.nil_append]) hkl hb (hR pp ⟨_, hpp⟩)
          (hC pp hpp)
        exact ⟨hs.ends, hs.reads⟩
  · obtain ⟨c', acts, hc, -, ht, he, -⟩ := step_kernel h.step
    obtain rfl : c = c' := List.singleton_inj.1 hc
    have hx {x : Input} (hx : c.op.Takes x) (pp : ParsedPacket) : x ≠ .packet pp := by
      rintro rfl
      obtain ⟨op, effects, accepted⟩ := c
      cases op with
      | processIncoming b => exact hp ⟨b, rfl⟩
      | _ => cases hx
    refine .of_withheld (fun e hmem => ?_) ?_
    · rw [he] at hmem
      obtain ⟨a, ha, hea⟩ := List.mem_flatMap.1 hmem
      refine ht.forall_labels (I := fun _ => True)
        (P := fun a => ∀ e ∈ a.effects, e.delivers = false) (fun _ _ _ _ _ => trivial)
        (fun _ _ _ _ hm a ha e he => ?_) trivial a ha e hea
      obtain ⟨x, hx', hm⟩ := hm
      exact (hm.withheld (hx hx')).1 e (List.mem_flatMap.2 ⟨a, ha, he⟩)
    · exact ht.invariant (I := fun k => k.gotFinReached = s.kernel.gotFinReached)
        (fun _ _ _ hk' ⟨x, hx', hm⟩ => ((hm.withheld (hx hx')).2.2).trans hk') rfl

theorem finNoted_run {s s' : UtpSocket} {calls : List Call} (h : Trace Step s calls s')
    (hs : s.kernel.FinNoted) : s'.kernel.FinNoted :=
  (run_invariant (I := Kernel.FinNoted) (P := fun _ => True) (G := fun _ => True)
    (fun _ _ _ _ _ hk hm => Kernel.finNoted_micro hk hm) (by simp) h (by simp) hs).1

theorem buffer_run {s s' : UtpSocket} {calls : List Call} (h : Trace Step s calls s')
    (hR : ∀ c ∈ calls, ∀ pp, c.op.Takes (.packet pp) → R pp) (hs : s.kernel.Buffer R) :
    s'.kernel.Buffer R :=
  (run_invariant (I := Kernel.Buffer R) (P := fun _ => True)
    (G := fun x => ∀ pp, x = .packet pp → R pp)
    (fun _ _ _ _ hG hk hm => Kernel.buffer_micro hk hG hm) (by simp) h
    (fun c hc x hx pp hp => hR c hc pp (hp ▸ hx)) hs).1

theorem ends_run {s s' : UtpSocket} {calls : List Call} (h : Trace (StepIf EofKept) s calls s')
    (hk : s.kernel.FinNoted) (hb : s.kernel.Buffer fun _ => True) :
    Ends s.recv.gotFinReached (calls.flatMap Call.effects) s'.recv.gotFinReached := by
  induction h with
  | refl => exact .nil
  | @head s a s₁ l s' h₁ _ ih =>
    have hone : ∃ c, a = [c] := by
      cases h₁
      exact ⟨_, rfl⟩
    obtain ⟨c, rfl⟩ := hone
    have hs := streams_step h₁ hk hb (fun _ _ => trivial)
    have ht : Trace Step s [c] s₁ := .single h₁.step
    have := ih (finNoted_run ht hk) (buffer_run ht (fun _ _ _ _ => trivial) hb)
    rw [List.flatMap_append, List.flatMap_cons, List.flatMap_nil, List.append_nil]
    exact hs.ends.append this

/-- In every run whose packets hand nothing over behind the end of the stream, the end is
reported at most once and `on_read` is not called after it; and each call hands over what was
received next in order, up to the FIN. -/
theorem stream_ends {targetDelay rcvbuf sndbuf : ℕ} {calls : List Call} {s : UtpSocket}
    (h : RunIf EofKept targetDelay rcvbuf sndbuf calls s) :
    (∀ l₁ l₂, calls.flatMap Call.effects = l₁ ++ .onStateChange .eof :: l₂ →
      .onStateChange .eof ∉ l₂ ∧ ∀ b, .onRead b ∉ l₂) ∧
    ∀ c s', StepIf EofKept s [c] s' → ∃ n, Reads (Receives (calls ++ [c])) s.recv.readShutdown
      s.recv.ackNr n (readsOf c.effects) ∧
        (s'.recv.gotFin → n ≤ (s'.recv.eofPkt - s.recv.ackNr).toNat) := by
  have hf : (new targetDelay rcvbuf sndbuf).kernel.FinNoted := Kernel.initial_finNoted
  have hb {R : ParsedPacket → Prop} : (new targetDelay rcvbuf sndbuf).kernel.Buffer R :=
    Kernel.initial_buffer
  refine ⟨fun l₁ l₂ hl => ?_, fun c s' hstep => ?_⟩
  · have hlast := (ends_run h hf hb).after_eof hl
    refine ⟨fun he => ?_, fun b he => ?_⟩
    · cases hlast _ he
    · cases hlast _ he
  · have hbuf : s.kernel.Buffer (Receives (calls ++ [c])) :=
      buffer_run h.run (fun c' hc' pp hp => given_of_takes (List.mem_append_left _ hc') hp) hb
    exact (streams_step hstep (finNoted_run h.run hf) hbuf
      (fun pp hp => given_of_takes (List.mem_append_right _ (List.mem_singleton.2 rfl)) hp)).reads

/-- The connection is set up and the peer has sent nothing yet. -/
def opened : UtpSocket := perform stillHost dialled [.processIncoming (statePacket 101 0)]

/-- An open socket that has got data. -/
def fed : UtpSocket := perform stillHost opened [.processIncoming (dataPacket 101 [1, 2])]

/-- The peer has sent its FIN. -/
def finished : UtpSocket := perform stillHost fed [.processIncoming (finPacket 102)]

/-- A packet numbered past the FIN leaves a gap behind it. -/
def gapped : UtpSocket := perform stillHost finished [.processIncoming (dataPacket 104 [7])]

/-- Before the FIN is reached every packet is allowed. -/
theorem eofKept_of_running {s : UtpSocket} (h : s.recv.gotFinReached = false) (env : Env) (b : Bytes) :
    EofKept env s (.processIncoming b) := by
  intro pp _ _ hr
  exact absurd (h.symm.trans hr) (by simp)

theorem stepIf_opened : ∃ c, StepIf EofKept dialled [c] opened ∧
    c.op = .processIncoming (statePacket 101 0) ∧ c.effects = opened.out :=
  stepIf_perform trivial (eofKept_of_running (by decide +kernel) _ _)

theorem stepIf_fed : ∃ c, StepIf EofKept opened [c] fed ∧
    c.op = .processIncoming (dataPacket 101 [1, 2]) ∧ c.effects = fed.out :=
  stepIf_perform trivial (eofKept_of_running (by decide +kernel) _ _)

theorem runIf_fed : ∃ calls, RunIf EofKept CCONTROL_TARGET 4096 4096 calls fed ∧
    .onRead [1, 2] ∈ calls.flatMap Call.effects := by
  obtain ⟨c, hc, -⟩ := stepIf_opened
  obtain ⟨d, hd, -, hde⟩ := stepIf_fed
  have hread : .onRead [1, 2] ∈ fed.out := by decide +kernel
  have hdial : StepIf EofKept (new CCONTROL_TARGET 4096 4096) _ dialled :=
    .call stillHost 0 0 (.connect ⟨0, 0⟩ 7) trivial trivial
  refine ⟨_, .head hdial (.head hc (.single hd)), ?_⟩
  rw [← hde] at hread
  exact List.mem_flatMap.2 ⟨d, by simp, hread⟩

theorem stepIf_finished : ∃ c, StepIf EofKept fed [c] finished ∧
    c.op = .processIncoming (finPacket 102) ∧ c.effects = finished.out :=
  stepIf_perform trivial (eofKept_of_running (by decide +kernel) _ _)

theorem stepIf_gapped : ∃ c, StepIf EofKept finished [c] gapped ∧
    c.op = .processIncoming (dataPacket 104 [7]) ∧ c.effects = gapped.out := by
  have hgap : ∀ pp, (parseBytes (dataPacket 104 [7]) (finished.lend 0 0).conn.extensions).1 = some pp →
      (finished.lend 0 0).kernel.seqDistance pp ≠ 0 := by decide +kernel
  exact stepIf_perform trivial fun pp hp _ _ _ _ hd => absurd hd (hgap pp hp)

theorem stream_ends_gapped : ∃ calls l₁ l₂, RunIf EofKept CCONTROL_TARGET 4096 4096 calls gapped ∧
    calls.flatMap Call.effects = l₁ ++ Effect.onStateChange .eof :: l₂ ∧ .onRead [1, 2] ∈ l₁ ∧
    .onStateChange .eof ∉ l₂ ∧ ∀ b, .onRead b ∉ l₂ := by
  obtain ⟨calls, h, hread⟩ := runIf_fed
  obtain ⟨c, hc, -, hce⟩ := stepIf_finished
  obtain ⟨d, hd, -, hde⟩ := stepIf_gapped
  have heof : Effect.onStateChange .eof ∈ finished.out := by decide +kernel
  obtain ⟨l, l', hl⟩ := List.append_of_mem heof
  have hrun : RunIf EofKept CCONTROL_TARGET 4096 4096 (calls ++ [c] ++ [d]) gapped :=
    (h.trans (.single hc)).trans (.single hd)
  have hsplit : (calls ++ [c] ++ [d]).flatMap Call.effects =
      (calls.flatMap Call.effects ++ l) ++ .onStateChange .eof :: (l' ++ gapped.out) := by
    simp only [List.flatMap_append, List.flatMap_cons, List.flatMap_nil, hce, hde, hl, List.nil_append,
      List.append_assoc, List.cons_append, List.append_nil]
  exact ⟨_, _, _, hrun, hsplit, List.mem_append_left _ hread, (stream_ends hrun).1 _ _ hsplit⟩

/-- A packet next in order behind the FIN. -/
def continued : UtpSocket := perform stillHost finished [.processIncoming (dataPacket 103 [7])]

/-- It is handed over after the end of the stream. -/
theorem stream_continues : ∃ calls, Run CCONTROL_TARGET 4096 4096 calls continued ∧
    ∃ l₁ l₂, calls.flatMap Call.effects = l₁ ++ .onStateChange .eof :: l₂ ∧ .onRead [7] ∈ l₂ := by
  obtain ⟨calls, h, -⟩ := runIf_fed
  obtain ⟨c, hc, -, hce⟩ := stepIf_finished
  obtain ⟨d, hd, -, hde⟩ : ∃ d, StepIf (fun _ _ _ => True) finished [d] continued ∧
      d.op = .processIncoming (dataPacket 103 [7]) ∧ d.effects = continued.out :=
    stepIf_perform trivial trivial
  have heof : Effect.onStateChange .eof ∈ finished.out := by decide +kernel
  have hread : Effect.onRead [7] ∈ continued.out := by decide +kernel
  obtain ⟨l, l', hl⟩ := List.append_of_mem heof
  refine ⟨_, (h.run.trans (.single hc.step)).trans (.single hd.step), calls.flatMap Call.effects ++ l,
    l' ++ continued.out, ?_, List.mem_append_right _ hread⟩
  simp only [List.flatMap_append, List.flatMap_cons, List.flatMap_nil, hce, hde, hl, List.nil_append,
    List.append_assoc, List.cons_append, List.append_nil]

end UtpSocket

end Utp
