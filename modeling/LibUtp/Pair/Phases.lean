import LibUtp.Pair.Dialling

/-! The sides of a connection before it is open: one that nobody has used, one that has dialled, one
that was dialled and waits, and one that will never open. -/

namespace Utp

open Lts SequenceBuffer Numbering

/-- A stream of which only the SYN has a number. -/
def Sending.begin (first head : ℕ) : Sending where
  first := first
  head := head
  next := first + 1
  body _ := []
  sent n := n = first
  fin := false

@[simp] theorem Sending.upTo_begin (first head m : ℕ) : (Sending.begin first head).upTo m = [] :=
  List.flatMap_eq_nil_iff.2 fun _ _ => rfl

/-- The number of the SYN, with room below it to count from. -/
def firstNumber (seq : UInt16) : ℕ := 2 ^ 16 + seq.toNat

theorem ofNat_firstNumber (seq : UInt16) : UInt16.ofNat (firstNumber seq) = seq := by
  apply UInt16.toNat.inj
  have := seq.toNat_lt
  rw [toNat_ofNat]
  unfold firstNumber
  omega

/-- A datagram with the header of a SYN or of a STATE packet. -/
def Opening (b : Bytes) : Prop :=
  (PacketFormatV1.ofBytes b).type = ST_SYN ∨ (PacketFormatV1.ofBytes b).type = ST_STATE

/-- A STATE packet with the sequence number `q`. -/
def Answer (q : UInt16) (b : Bytes) : Prop :=
  (PacketFormatV1.ofBytes b).type = ST_STATE ∧ (PacketFormatV1.ofBytes b).seqNr = q

namespace Kernel

variable {k k' : Kernel} {g : Sending} {acts acts' : List Act} {x : Input} {T : Input → Prop}
  {P Q : Bytes → Prop} {q : UInt16} {m n : ℕ}

/-- Steps that take nothing in, hand nothing over and send only what `P` allows. -/
structure Idles (P : Bytes → Prop) (acts : List Act) : Prop where
  taken : acts.flatMap Act.taken = []
  withheld : ∀ e ∈ acts.flatMap Act.effects, e.delivers = false
  sends : ∀ b flags, Effect.sendTo b flags ∈ acts.flatMap Act.effects → P b

theorem Idles.append (h : Idles P acts) (h' : Idles P acts') : Idles P (acts ++ acts') where
  taken := by
    rw [List.flatMap_append, h.taken, h'.taken]
    rfl
  withheld e he := by
    rw [List.flatMap_append] at he
    rcases List.mem_append.1 he with he | he
    · exact h.withheld e he
    · exact h'.withheld e he
  sends b flags hb := by
    rw [List.flatMap_append] at hb
    rcases List.mem_append.1 hb with hb | hb
    · exact h.sends b flags hb
    · exact h'.sends b flags hb

theorem Idles.mono (h : Idles P acts) (hP : ∀ b, P b → Q b) : Idles Q acts :=
  ⟨h.taken, h.withheld, fun b flags hb => hP b (h.sends b flags hb)⟩

/-- An invariant under which every step idles. -/
theorem idles_trace {I : Kernel → Prop}
    (hI : ∀ x k acts k', T x → I k → Micro x k acts k' → I k' ∧ Idles P acts)
    (htr : Trace (StepOn T) k acts k') (h : I k) : I k' ∧ Idles P acts := by
  induction htr with
  | refl k => exact ⟨h, rfl, by simp, by simp⟩
  | head hstep _ ih =>
    obtain ⟨x, hx, hm⟩ := hstep
    obtain ⟨h₁, hi₁⟩ := hI _ _ _ _ hx h hm
    obtain ⟨h₂, hi₂⟩ := ih h₁
    exact ⟨h₂, hi₁.append hi₂⟩

theorem seqNr_stateBytes {b : Bytes} (h : k.StateBytes b) : (PacketFormatV1.ofBytes b).seqNr = k.seqNr := by
  cases h with
  | @plain hdr h =>
    have := PacketFormatV1.ofBytes_toBytes hdr []
    rw [List.append_nil] at this
    rw [this]
    exact h.seqNr
  | eack h =>
    rw [PacketFormatV1.ofBytes_toBytes]
    exact h.seqNr

/-! A connection that will never open. -/

/-- The connection is over, or its peer is and the FIN was never queued. -/
structure Barred (k : Kernel) : Prop where
  setUp : k.state ≠ .uninitialized
  closed : ¬ k.IsOpen
  answered : k.state ≠ .synSent
  finSent : k.finSent = false
  each : k.Each fun p => p.hdr.type = ST_SYN

theorem Barred.congr (h : Barred k) (hs : k'.state = k.state) (hf : k'.finSent = k.finSent)
    (hb : k'.outbuf = k.outbuf) : Barred k' where
  setUp := hs ▸ h.setUp
  closed := by
    unfold IsOpen
    rw [hs]
    exact h.closed
  answered := hs ▸ h.answered
  finSent := hf.trans h.finSent
  each := by
    unfold Each
    rw [hb]
    exact h.each

theorem Barred.dead (h : Barred k) (hs : k'.Dead) (hf : k'.finSent = k.finSent) (hb : k'.outbuf = k.outbuf) :
    Barred k' where
  setUp := by rcases hs with hs | hs <;> simp [hs]
  closed := Dead.not_open hs
  answered := by rcases hs with hs | hs <;> simp [hs]
  finSent := hf.trans h.finSent
  each := by
    unfold Each
    rw [hb]
    exact h.each

/-- A STATE packet opens only a connection that has dialled. -/
theorem ackState_barred (h : Barred k) {pp : ParsedPacket} (ht : pp.type = ST_STATE) : k.ackState pp = k := by
  have hd : ¬ (pp.type = ST_DATA ∧ k.state = .synRecv) := by
    rw [ht]
    exact fun hc => absurd hc.1 (by decide)
  unfold ackState
  dsimp only
  rw [if_neg hd, if_neg fun hc => h.answered hc.2, if_neg fun hc => ?_]
  rw [h.finSent] at hc
  cases hc.1

theorem barred_micro (hx : ∀ pp, x = .ack pp ∨ x = .packet pp → pp.type = ST_STATE) (h : Barred k)
    (hm : Micro x k acts k') : Barred k' ∧ Idles Opening acts := by
  have hsend (b : Bytes) (flags : UInt32) (hb : Effect.sendTo b flags ∈ acts.flatMap Act.effects) :
      Act.send b flags ∈ acts := send_micro hm hb
  have hquiet {l : List Act} (ht : l.flatMap Act.taken = [])
      (hw : ∀ e ∈ l.flatMap Act.effects, e.delivers = false) (hs : ∀ b flags, Act.send b flags ∉ l)
      (hl : acts = l) : Idles Opening acts := by
    subst hl
    exact ⟨ht, hw, fun b flags hb => absurd (hsend b flags hb) (hs b flags)⟩
  cases hm with
  | accept hu => exact absurd hu h.setUp
  | connect hu => exact absurd hu h.setUp
  | writable hs => exact absurd (.inr hs) h.closed
  | full hs => exact absurd (.inl hs) h.closed
  | closeAgain hf ho => exact absurd ho h.closed
  | queue hs => exact absurd (.inl hs) h.closed
  | extend hs => exact absurd (.inl hs) h.closed
  | queueFin ho => exact absurd ho h.closed
  | noteFin ho => exact absurd ho h.closed
  | deliver ho => exact absurd ho h.closed
  | store ho => exact absurd ho h.closed
  | synSentAck hs => exact absurd hs h.answered
  | destroy => exact ⟨h.dead (.inr rfl) rfl rfl, rfl, by simp, by simp⟩
  | timeout => exact ⟨h.dead (dead_gaveUp k) rfl rfl, hquiet rfl (by simp [Act.effects, Effect.delivers]) (by simp) rfl⟩
  | broken =>
    refine ⟨h.dead ?_ rfl rfl, hquiet rfl (by simp [Act.effects, Effect.delivers]) (by simp) rfl⟩
    show (if k.closeRequested then ConnState.destroy else .reset) = .reset ∨
      (if k.closeRequested then ConnState.destroy else .reset) = .destroy
    split <;> simp
  | silent hq => exact ⟨h, hquiet rfl (by simpa [Act.effects] using withheld_quiet hq) (by simp) rfl⟩
  | @transmit x k q p p' flags hp hp' =>
    have hsyn : p'.hdr.type = ST_SYN := hp'.type.trans (h.each q p hp)
    have he := h.each.replace (q := q) (k.transmit q p p').inFlight hsyn
    refine ⟨⟨h.setUp, h.closed, h.answered, h.finSent, he⟩, rfl, by simp [Act.effects, Effect.delivers], ?_⟩
    intro b flags hb
    have hb := hsend b flags hb
    simp only [List.mem_singleton, Act.send.injEq] at hb
    rw [hb.1]
    left
    rw [PacketFormatV1.ofBytes_toBytes]
    exact hsyn
  | @mark k q p hc hp ht hn =>
    have he := h.each.replace (q := q) (p := { p with needResend := true }) (k.inFlight - p.payload) (h.each q p hp)
    exact ⟨⟨h.setUp, h.closed, h.answered, h.finSent, he⟩,
      hquiet (taken_removal k p) (withheld_removal k p) (not_send_of_mute (mute_removal k p)) rfl⟩
  | @advance pp k acts k' hs hp =>
    have hk := ackState_barred h (hx pp (.inl rfl))
    rw [hk] at hp
    have hfr := hp.frame
    have he := hp.each h.each
    refine ⟨⟨by rw [hfr.state]; exact h.setUp, ?_, by rw [hfr.state]; exact h.answered,
      hfr.finSent.trans h.finSent, he⟩, hquiet hp.taken hp.withheld (not_send_of_mute hp.mute) rfl⟩
    unfold IsOpen
    rw [hfr.state]
    exact h.closed
  | @sack pp k mask bits v p hm hb hc hv hw hp ht =>
    exact ⟨⟨h.setUp, h.closed, h.answered, h.finSent, h.each.clear v p⟩,
      hquiet (taken_removal k p) (withheld_removal k p) (not_send_of_mute (mute_removal k p)) rfl⟩
  | state hb =>
    refine ⟨h, rfl, by simp [Act.effects, Effect.delivers], fun b flags hm => ?_⟩
    simp only [List.flatMap_cons, List.flatMap_nil, List.append_nil, Act.effects, List.mem_singleton,
      Effect.sendTo.injEq] at hm
    rw [hm.1]
    exact .inr (type_stateBytes hb)
  | keepAlive hb =>
    refine ⟨h, rfl, by simp [Act.effects, Effect.delivers], fun b flags hm => ?_⟩
    simp only [List.flatMap_cons, List.flatMap_nil, List.append_nil, Act.effects, List.mem_singleton,
      Effect.sendTo.injEq] at hm
    rw [hm.1]
    exact .inr (type_stateBytes hb)
  | _ => exact ⟨h.congr rfl rfl rfl, hquiet rfl (by simp [Act.effects, Effect.delivers]) (by simp) rfl⟩

/-! The two ends of the handshake. -/

/-- A window that holds at most the SYN. -/
theorem ships_begin {first head : ℕ} (hq : k.seqNr = UInt16.ofNat (first + 1))
    (hspan : first + 1 = head + k.cur.toNat) (hf : k.finSent = false)
    (hp : ∀ r p, k.outbuf.slot r = some p → p.hdr.type = ST_SYN ∧ p.body = [] ∧ 0 < p.transmissions ∧ Plain p)
    (hh : first ≤ head) : Ships (.begin first head) k where
  next := hq
  span := hspan
  fin := hf
  packet n p h1 h2 hn := by
    obtain ⟨ht, hb, htr, -⟩ := hp _ p hn
    have h1 : head ≤ n := h1
    have h2 : n < first + 1 := h2
    have he : n = first := by omega
    exact ⟨hb, fun _ => htr, fun _ => he, fun _ => ht⟩
  first := rfl
  sent_lt n hn := by
    have hn : n = first := hn
    show n < first + 1
    omega
  later _ _ := rfl
  plain r p hr := (hp r p hr).2.2.2
  bare r p hr _ := (hp r p hr).2.1
  tail r p hr ht := by
    rw [(hp r p hr).1] at ht
    exact absurd ht (by decide)

/-- The window of a side that has just dialled. -/
theorem unanswered_connect {seed : UInt32} {seq : UInt16} {p p' : OutgoingPacket}
    (hp : (initial.dial seed seq).Syn p) (hp' : ((initial.dial seed seq).queue p).Sent p p') :
    Unanswered (.begin (firstNumber seq) (firstNumber seq))
      (((initial.dial seed seq).queue p).transmit seq p p') := by
  have hm : Micro .host initial [.send (p'.hdr.toBytes ++ p'.body) 0] _ := .connect rfl hp hp'
  have hwin := (window_micro initial_window hm).1
  have hnone : (initial.dial seed seq).Each fun _ => False := each_initial
  refine
    { window := hwin
      setUp := by simp [transmit, queue, dial]
      closed := by simp [IsOpen, transmit, queue, dial]
      ships := ships_begin ?_ ?_ rfl ?_ (le_refl _)
      head := rfl
      next := rfl
      stream := Sending.upTo_begin _ _ _
      finSent := rfl
      acked := rfl
      count := rfl
      empty := rfl
      gotFin := rfl
      gotFinReached := rfl }
  · rw [ofNat_succ, ofNat_firstNumber]
    rfl
  · rfl
  · intro r y hy
    have hy : (((initial.dial seed seq).queue p).outbuf.setSlot seq (some p')).slot r = some y := hy
    rw [slot_setSlot] at hy
    split at hy
    · obtain rfl : p' = y := Option.some.inj hy
      refine ⟨hp'.type.trans hp.type, hp'.body.trans hp.body, ?_, hp'.version.trans hp.version,
        hp'.ext.trans hp.ext, .inl (hp'.type.trans hp.type)⟩
      rw [hp'.transmissions]
      omega
    · rename_i hne
      have hy : ((initial.dial seed seq).outbuf.ensureSize seq.toNat 0 |>.setSlot seq (some p)).slot r = some y := hy
      rw [slot_setSlot] at hy
      split at hy
      · rename_i hsame
        exact absurd hsame (by exact hne)
      · obtain ⟨v, -, -, hv⟩ := exists_of_slot_ensureSize hy
        exact (hnone v y hv).elim

/-- The kernel of a side that was dialled. -/
def accepted (id : UInt32) (seq peer : UInt16) : Kernel :=
  { initial with state := .synRecv, idRecv := id + 1, idSend := id, seqNr := seq, ackNr := peer }

/-- A side without anything in its reorder buffer, before the first packet in order. -/
theorem gathers_begin {R : ℕ} (ha : k.ackNr = UInt16.ofNat R) (hs : g.sent R) (hlt : ∀ n, g.sent n → n < g.next)
    (hn : g.next ≤ R + 1025) (hc : k.reorderCount = 0) (he : k.inbuf.occupied = 0) (hg : k.gotFin = false)
    (hf : k.gotFinReached = false) : Gathers g R 2 k where
  ackNr := ha
  sent := hs
  sent_lt := hlt
  near := hn
  queue _ := .of_empty hc he
  noted h := by
    rw [hg] at h
    cases h
  reached h := by
    rw [hf] at h
    cases h

/-- The kernel once it is known that the stream to it begins after `m`. -/
def startAt (k : Kernel) (m : ℕ) : Kernel := { k with ackNr := UInt16.ofNat m }

/-- Once the SYN is accepted, the side that has dialled is a half of the connection: only where the
stream to it begins is not yet known there. -/
theorem Unanswered.half (h : Unanswered g k) {first : ℕ} {G : ℕ → Prop} (hG : G g.first) (hpos : 0 < first) :
    Half g (.begin first (first + 1)) first g.first G (k.startAt first) where
  window := h.window.congr rfl rfl rfl rfl rfl id
  setUp := h.setUp
  ships := h.ships.congr rfl rfl rfl rfl
  covered := by
    refine ⟨by rw [h.next]; omega, by rw [h.head]; omega, fun n h1 h2 _ => ?_, fun ha => ?_⟩
    · rw [h.head] at h1
      rw [h.next] at h2
      obtain rfl : n = g.first := by omega
      exact hG
    · have ha : k.finSentAcked = true := ha
      rw [h.acked] at ha
      cases ha
  gathers := by
    refine gathers_begin rfl rfl (fun n hn => ?_) ?_ h.count h.empty h.gotFin h.gotFinReached
    · have hn : n = first := hn
      show n < first + 1
      omega
    · show first + 1 ≤ first + 1025
      omega
  head_le := le_refl _
  pos := hpos

/-! A side that was dialled and has heard nothing since. -/

/-- The SYN with the number `m` was accepted, the SYN of this side has the number `n`. It can do nothing
but acknowledge the SYN again. -/
structure Awaits (m n : ℕ) (k : Kernel) : Prop where
  window : k.Window
  setUp : k.state ≠ .uninitialized
  closed : ¬ k.IsOpen
  answered : k.state ≠ .synSent
  cur : k.cur = 0
  seqNr : k.seqNr = UInt16.ofNat (n + 1)
  finSent : k.finSent = false
  acked : k.finSentAcked = false
  ackNr : k.ackNr = UInt16.ofNat m
  count : k.reorderCount = 0
  empty : k.inbuf.occupied = 0
  gotFin : k.gotFin = false
  gotFinReached : k.gotFinReached = false

theorem awaits_accepted {id : UInt32} {seq : UInt16} (hq : seq = UInt16.ofNat (n + 1)) :
    Awaits m n (accepted id seq (UInt16.ofNat m)) where
  window := by
    have hm : Micro .host initial [] (accepted id seq (UInt16.ofNat m)) := .accept rfl
    exact (window_micro initial_window hm).1
  setUp := by simp [accepted]
  closed := by simp [accepted, IsOpen]
  answered := by simp [accepted]
  cur := rfl
  seqNr := hq
  finSent := rfl
  acked := rfl
  ackNr := rfl
  count := rfl
  empty := rfl
  gotFin := rfl
  gotFinReached := rfl

/-- An empty window holds no packet. -/
theorem slot_empty (hr : k.Ring) (hc : k.cur = 0) (r : UInt16) : k.outbuf.slot r = none := by
  cases hp : k.outbuf.slot r with
  | none => rfl
  | some p =>
    have := (hr.occupied r p hp).1
    rw [hc] at this
    exact absurd this (by grind)

/-- It is a half of the connection too. -/
theorem Awaits.half (h : Awaits m n k) {G : ℕ → Prop} (hs : g.sent m) (hlt : ∀ i, g.sent i → i < g.next)
    (hnext : g.next ≤ m + 1025) (hhead : g.head ≤ m + 1) (hpos : 0 < m) :
    Half (.begin n (n + 1)) g m n G k where
  window := h.window
  setUp := h.setUp
  ships := by
    refine ships_begin h.seqNr (by rw [h.cur]; rfl) h.finSent (fun r p hp => ?_) (Nat.le_succ _)
    rw [slot_empty h.window.toRing h.cur] at hp
    cases hp
  covered := by
    refine ⟨Nat.lt_succ_self _, le_refl _, fun i h1 h2 _ => ?_, fun ha => ?_⟩
    · have h1 : n + 1 ≤ i := h1
      have h2 : i < n + 1 := h2
      omega
    · rw [h.acked] at ha
      cases ha
  gathers := gathers_begin h.ackNr hs hlt hnext h.count h.empty h.gotFin h.gotFinReached
  head_le := hhead
  pos := hpos

/-- What it sends: an acknowledgement of the SYN, which tells the truth. -/
structure Replies (m n : ℕ) (b : Bytes) : Prop where
  answer : Answer (UInt16.ofNat (n + 1)) b
  tells : ∀ bits pp, (UtpSocket.parseBytes b bits).1 = some pp → Tells (.begin n (n + 1)) m (· ≤ m) (n + 1) m pp

theorem Awaits.replies (h : Awaits m n k) (hpos : 0 < m) {b : Bytes}
    (hb : k.StateBytes b ∨ k.behind.StateBytes b) : Replies m n b where
  answer := by
    rcases hb with hb | hb
    · exact ⟨type_stateBytes hb, (seqNr_stateBytes hb).trans h.seqNr⟩
    · exact ⟨type_stateBytes hb, (seqNr_stateBytes hb).trans h.seqNr⟩
  tells bits pp hp := by
    have hhalf : Half (.begin n (n + 1)) (.begin m m) m n (· ≤ n) k := by
      refine h.half rfl (fun i hi => ?_) ?_ (Nat.le_succ _) hpos
      · have hi : i = m := hi
        show i < m + 1
        omega
      · show m + 1 ≤ m + 1025
        omega
    have ht := tells_posts hhalf (.refl _) (.inr hb) hp
    refine ht.mono (.refl _) (le_refl _) fun i hi => ?_
    rcases hi with hi | ⟨-, -, -, hi⟩
    · exact hi
    · rw [slot_of_occupied_zero h.empty] at hi
      cases hi

theorem awaits_micro (hpos : 0 < m) (hx : ∀ pp, x ≠ .ack pp ∧ x ≠ .packet pp) (h : Awaits m n k)
    (hm : Micro x k acts k') : Awaits m n k' ∧ Idles (Replies m n) acts := by
  have hr := rests_micro h.setUp h.closed hx hm
  have hw := (window_micro h.window hm).1
  have hnone (r : UInt16) (p : OutgoingPacket) : k.outbuf.slot r ≠ some p := by
    rw [slot_empty h.window.toRing h.cur]
    simp
  have hsend : k'.seqNr = k.seqNr ∧ k'.ackNr = k.ackNr ∧ ∀ b flags, Act.send b flags ∈ acts →
      k.StateBytes b ∨ k.behind.StateBytes b := by
    cases hm with
    | accept hu => exact absurd hu h.setUp
    | connect hu => exact absurd hu h.setUp
    | queue hs => exact absurd (.inl hs) h.closed
    | queueFin ho => exact absurd ho h.closed
    | transmit hp => exact absurd hp (hnone _ _)
    | mark hc hp => exact absurd hp (hnone _ _)
    | sack hm hb hc hv hw hp => exact absurd hp (hnone _ _)
    | advance => exact absurd rfl (hx _).1
    | deliver => exact absurd rfl (hx _).2
    | synSentAck => exact absurd rfl (hx _).2
    | state hb =>
      refine ⟨rfl, rfl, fun b flags hm => ?_⟩
      simp only [List.mem_singleton, Act.send.injEq] at hm
      rw [hm.1]
      exact .inl hb
    | keepAlive hb =>
      refine ⟨rfl, rfl, fun b flags hm => ?_⟩
      simp only [List.mem_singleton, Act.send.injEq] at hm
      rw [hm.1]
      exact .inr hb
    | _ => exact ⟨rfl, rfl, by simp⟩
  refine ⟨⟨hw, hr.setUp, hr.closed, answered_micro h.setUp h.answered hm, hr.cur.trans h.cur, hsend.1.trans h.seqNr, hr.finSent.trans h.finSent,
    hr.finSentAcked.trans h.acked, hsend.2.1.trans h.ackNr, hr.reorderCount.trans h.count, ?_,
    hr.gotFin.trans h.gotFin, hr.gotFinReached.trans h.gotFinReached⟩, hr.taken, hr.withheld, fun b flags hb => ?_⟩
  · rw [hr.inbuf]
    exact h.empty
  · exact h.replies hpos (hsend.2.2 b flags (send_micro hm hb))

/-- A side that gave up before it was answered is out of the game. -/
theorem Unanswered.barred (h : Unanswered g k) (hd : k.Dead) : Barred k where
  setUp := h.setUp
  closed := h.closed
  answered := by rcases hd with hd | hd <;> simp [hd]
  finSent := h.finSent
  each r p hp := by
    obtain ⟨n, h1, h2, -, hs⟩ := h.ships.number h.window.toRing hp
    rw [h.head] at h1
    rw [h.next] at h2
    rw [hs.slot_eq] at hp
    exact ((h.ships.packet n p (by rw [h.head]; exact h1) (by rw [h.next]; exact h2) hp).2.2).2 (by omega)

end Kernel

end Utp
