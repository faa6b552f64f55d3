import LibUtp.Invariant.SendWindow

/-! The bytes the application has written, as the packets of the send window hold them. A call
of the application only appends to them, and nothing it does not write makes a packet longer. -/

namespace Utp

open Lts SequenceBuffer

namespace Kernel

variable {x : Input} {k k' : Kernel} {acts : List Act} {P : OutgoingPacket → Prop} {q : UInt16}
  {p : OutgoingPacket} {b : Bytes}

/-! A sent packet stays in the window until it is acknowledged. -/

/-- The window holds a packet of number `q` with the payload `b` that was sent. -/
def HoldsSent (k : Kernel) (q : UInt16) (b : Bytes) : Prop :=
  ∃ p, k.outbuf.slot q = some p ∧ p.hdr.seqNr = q ∧ 0 < p.transmissions ∧ p.body = b

theorem HoldsSent.inWindow (h : k.HoldsSent q b) (hr : k.Ring) : q - k.head < k.cur := by
  obtain ⟨p, hp, hq, -⟩ := h
  rw [← hq]
  exact (hr.occupied q p hp).1

/-- Another slot has changed, or a sent packet of the same number and payload has come. -/
theorem HoldsSent.setSlot (h : k.HoldsSent q b) {v : UInt16} {y : Option OutgoingPacket} {n : ℕ}
    (hv : k.outbuf.Same v q → ∃ p, y = some p ∧ p.hdr.seqNr = q ∧ 0 < p.transmissions ∧ p.body = b) :
    HoldsSent { k with outbuf := k.outbuf.setSlot v y, inFlight := n } q b := by
  obtain ⟨p, hp, hrest⟩ := h
  unfold HoldsSent
  dsimp only
  rw [slot_setSlot]
  split
  · exact hv ‹_›
  · exact ⟨p, hp, hrest⟩

/-- A packet takes the place of `p`. -/
theorem HoldsSent.replace (h : k.HoldsSent q b) {v : UInt16} {p p' : OutgoingPacket} {n : ℕ}
    (hp : k.outbuf.slot v = some p) (hs : p'.hdr.seqNr = p.hdr.seqNr)
    (ht : p.transmissions ≤ p'.transmissions) (hb : 0 < p.transmissions → p'.body = p.body) :
    HoldsSent { k with outbuf := k.outbuf.setSlot v (some p'), inFlight := n } q b := by
  refine h.setSlot fun hv => ⟨p', rfl, ?_⟩
  obtain ⟨p₀, hp₀, hq, ht₀, hb₀⟩ := h
  rw [hv.slot_eq, hp₀] at hp
  cases hp
  exact ⟨hs.trans hq, ht₀.trans_le ht, (hb ht₀).trans hb₀⟩

/-- Another packet has left the window. -/
theorem HoldsSent.clear (h : k.HoldsSent q b) (hr : k.Ring) {v : UInt16} (hv : v - k.head < k.cur)
    (hne : v ≠ q) (p : OutgoingPacket) : (k.clear v p).HoldsSent q b := by
  refine h.setSlot fun hs => absurd ?_ hne
  exact hr.same_eq hs hv (h.inWindow hr)

theorem HoldsSent.queue (h : k.HoldsSent q b) (hr : k.Ring) (p : OutgoingPacket) : (k.queue p).HoldsSent q b := by
  have hin := h.inWindow hr
  obtain ⟨p₀, hp₀, hrest⟩ := h
  refine ⟨p₀, ?_, hrest⟩
  rw [hr.slot_queue hin]
  exact hp₀

theorem Drains.holdsSent (hd : Drains k acts k') (h : k.HoldsSent q b) : k'.HoldsSent q b := by
  induction hd with
  | eof => exact h
  | idle => exact h
  | release _ _ _ _ ih => exact ih h

/-- The packets in front of `q` leave the window. -/
theorem Pops.holdsSent {n : ℕ} (hp : Pops n k acts k') (hr : k.Ring) (h : k.HoldsSent q b)
    (hn : n ≤ (q - k.head).toNat) : k'.HoldsSent q b := by
  -- behind the head there is one packet less
  have hbehind {k : Kernel} (hc : 0 < k.cur) (hne : k.head ≠ q) :
      (q - k.pop.head).toNat = (q - k.head).toNat - 1 := by
    have hhead : k.pop.head = k.head + 1 := by
      unfold head pop
      grind
    rw [hhead, show q - (k.head + 1) = q - k.head - 1 by grind]
    exact UtpSocket.toNat_pred (by grind)
  induction hp with
  | done => exact h
  | @acked n k p acts k' hcur hp ht hpops ih =>
    have hne : k.head ≠ q := by
      rintro rfl
      simp at hn
    have hin : k.head - k.head < k.cur := by grind
    have hpop := hbehind hcur hne
    refine ih ((hr.clear hp ht).pop hcur ?_) (h.clear hr hin hne p) ?_
    · exact slot_setSlot_self _ _ _
    · show n ≤ (q - k.pop.head).toNat
      omega
  | @empty n k acts k' hcur hp hpops ih =>
    have hne : k.head ≠ q := by
      rintro rfl
      obtain ⟨p, hp', -⟩ := h
      rw [show k.outbuf.slot k.head = none from hp] at hp'
      cases hp'
    have hpop := hbehind hcur hne
    exact ih (hr.pop hcur hp) h (by omega)
  | check _ _ ih => exact ih hr h hn

/-- The acknowledgement that `x` brings does not reach `q`. -/
def Spared (x : Input) (k : Kernel) (q : UInt16) : Prop :=
  match x with
  | .ack pp => k.ackCount pp ≤ (q - k.head).toNat
  | .eack pp => ∀ mask, pp.selack = some mask → ∀ bits, UtpSocket.maskBit mask bits →
      UInt16.ofInt (pp.ackNr.toNat + 2 + bits) = q → ¬ k.InEackWindow q
  | _ => True

theorem holdsSent_micro (hw : k.Window) (h : k.HoldsSent q b) (hx : k.Spared x q) (hm : Micro x k acts k') :
    k'.HoldsSent q b := by
  have hin := h.inWindow hw.toRing
  have hcur : k.cur ≠ 0 := by grind
  cases hm with
  | accept hu => exact absurd (hw.unused hu).1 hcur
  | connect hu => exact absurd (hw.unused hu).1 hcur
  | @transmit x k v p p' flags hp hp' =>
    exact h.replace hp hp'.seqNr (by rw [hp'.transmissions]; omega) fun _ => hp'.body
  | queue hs hf hc hp => exact h.queue hw.toRing _
  | extend hs hf hc hp ht hp' =>
    refine h.replace hp hp'.seqNr (by rw [hp'.transmissions]) fun h0 => ?_
    rw [ht] at h0
    exact absurd h0 (lt_irrefl 0)
  | queueFin ho hf hp hb => exact h.queue hw.toRing _
  | mark hc hp ht hn => exact h.replace hp rfl (le_refl _) fun _ => rfl
  | @advance pp k acts k' hs hp =>
    refine hp.holdsSent (hw.toRing.ackState _) ?_ ?_
    · obtain ⟨st, f, he⟩ := k.ackState_eq pp
      rw [he]
      exact h
    · obtain ⟨st, f, he⟩ := k.ackState_eq pp
      rw [he]
      exact hx
  | @sack pp k mask bits v p hmask hbit hc hv hwin hp ht =>
    have hne : v ≠ q := by
      rintro rfl
      exact hx mask hmask bits hbit hv.symm hwin
    exact h.clear hw.toRing (hwin.lt hc).1 hne p
  | deliver ho hd ht hf hdr => exact hdr.holdsSent h
  | _ => exact h

theorem spared_micro (hx : ∀ pp, x ≠ .ack pp) (h : k.Spared x q) (hm : Micro x k acts k') :
    k'.Spared x q := by
  cases x with
  | ack pp => exact absurd rfl (hx pp)
  | eack pp => cases hm <;> exact h
  | _ => trivial

/-- Whatever comes but the acknowledgement of `q`, the packet stays. -/
theorem holdsSent_trace (hx : ∀ pp, x ≠ .ack pp) (ht : Trace (Micro x) k acts k') (hw : k.Window)
    (h : k.HoldsSent q b) (hs : k.Spared x q) : k'.HoldsSent q b :=
  (ht.invariant (I := fun k => k.Window ∧ k.HoldsSent q b ∧ k.Spared x q)
    (fun _ _ _ hk hm => ⟨(window_micro hk.1 hm).1, holdsSent_micro hk.1 hk.2.1 hk.2.2 hm,
      spared_micro hx hk.2.2 hm⟩) ⟨hw, h, hs⟩).2.1

/-! What every packet of the ring satisfies. -/

def Each (P : OutgoingPacket → Prop) (k : Kernel) : Prop := ∀ q p, k.outbuf.slot q = some p → P p

/-- A packet that satisfies `P`, or none, takes a slot. -/
theorem Each.setSlot (h : k.Each P) {y : Option OutgoingPacket} (n : ℕ) (hy : ∀ p, y = some p → P p) :
    Each P { k with outbuf := k.outbuf.setSlot q y, inFlight := n } := by
  intro r p hp
  have hp : (k.outbuf.setSlot q y).slot r = some p := hp
  rw [slot_setSlot] at hp
  split at hp
  · exact hy p hp
  · exact h r p hp

theorem Each.replace (h : k.Each P) {p : OutgoingPacket} (n : ℕ) (hp : P p) :
    Each P { k with outbuf := k.outbuf.setSlot q (some p), inFlight := n } :=
  h.setSlot n fun _ he => Option.some.inj he ▸ hp

theorem Each.clear (h : k.Each P) (q : UInt16) (p : OutgoingPacket) : (k.clear q p).Each P :=
  h.setSlot _ nofun

theorem Each.queue (h : k.Each P) (hp : P p) : (k.queue p).Each P := by
  intro r p' hr
  have hr : ((k.outbuf.ensureSize k.seqNr.toNat k.cur).setSlot k.seqNr (some p)).slot r = some p' := hr
  rw [slot_setSlot] at hr
  split at hr
  · rw [← Option.some.inj hr]
    exact hp
  · obtain ⟨v, -, -, hv⟩ := exists_of_slot_ensureSize hr
    exact h v p' hv

theorem Pops.each {n : ℕ} (hp : Pops n k acts k') (h : k.Each P) : k'.Each P := by
  induction hp with
  | done => exact h
  | @acked n k p acts k' _ _ _ _ ih => exact ih (h.clear k.head p)
  | empty _ _ _ ih => exact ih h
  | check _ _ ih => exact ih h

theorem Drains.each (hd : Drains k acts k') (h : k.Each P) : k'.Each P := by
  induction hd with
  | eof => exact h
  | idle => exact h
  | release _ _ _ _ ih => exact ih h

/-- What holds of the packets a step builds, whatever `b` they take from the application. -/
structure Made (P : OutgoingPacket → Prop) (b : Bytes) : Prop where
  syn : ∀ (k : Kernel) p, k.Syn p → P p
  fin : ∀ (k : Kernel) p, k.Fresh ST_FIN p → p.body = [] → P p
  data : ∀ (k : Kernel) p, k.Fresh ST_DATA p → p.body = b → P p
  extended : ∀ (k : Kernel) p p', k.Extended p b p' → P p → P p'
  sent : ∀ (k : Kernel) p p', k.Sent p p' → P p → P p'
  marked : ∀ p, 0 < p.transmissions → P p → P { p with needResend := true }

theorem each_micro (hP : Made P (acts.flatMap Act.taken)) (h : k.Each P) (hm : Micro x k acts k') :
    k'.Each P := by
  cases hm with
  | @connect k seed seq p p' flags hu hp hp' =>
    have hs := hP.syn _ p hp
    exact (Each.queue (k := k.dial seed seq) h hs).replace _ (hP.sent _ p p' hp' hs)
  | @transmit x k q p p' flags hp hp' => exact h.replace _ (hP.sent k p p' hp' (h q p hp))
  | @queue k p hs hf hc hp => exact h.queue (hP.data k p hp (by simp [Act.taken]))
  | @extend k p b p' hs hf hc hp ht hp' =>
    refine h.replace k.inFlight (hP.extended k p p' ?_ (h _ p hp))
    simpa [Act.taken] using hp'
  | @queueFin k p closing ho hf hp hb => exact Each.queue h (hP.fin k p hp hb)
  | @mark k q p hc hp ht hn => exact h.replace _ (hP.marked p ht (h q p hp))
  | @advance pp k acts k' hs hp =>
    refine hp.each ?_
    obtain ⟨st, f, he⟩ := k.ackState_eq pp
    rw [he]
    exact h
  | @sack pp k mask bits v p hm hb hc hv hw hp ht => exact h.clear v p
  | deliver ho hd ht hf hdr => exact hdr.each h
  | _ => exact h

/-- A packet that is not DATA is empty. -/
def Bare (p : OutgoingPacket) : Prop := p.hdr.type ≠ ST_DATA → p.body = []

theorem made_bare (b : Bytes) : Made Bare b where
  syn _ _ hp _ := hp.body
  fin _ _ _ hb _ := hb
  data _ _ hp _ ht := absurd hp.type ht
  extended _ _ _ hp _ ht := absurd hp.type ht
  sent _ _ _ hp h ht := hp.body.trans (h (hp.type ▸ ht))
  marked _ _ h := h

/-- Only a packet that was sent is marked for resending. -/
def SentIfMarked (p : OutgoingPacket) : Prop := p.needResend → 0 < p.transmissions

theorem made_sentIfMarked (b : Bytes) : Made SentIfMarked b where
  syn _ _ hp hn := absurd (hp.needResend ▸ hn) (by simp)
  fin _ _ hp _ hn := absurd (hp.needResend ▸ hn) (by simp)
  data _ _ hp _ hn := absurd (hp.needResend ▸ hn) (by simp)
  extended _ _ _ hp h hn := hp.transmissions ▸ h (hp.needResend ▸ hn)
  sent _ _ _ hp _ hn := absurd (hp.needResend ▸ hn) (by simp)
  marked _ ht _ _ := ht

def Within (n : ℕ) (p : OutgoingPacket) : Prop := p.payload ≤ n

/-- Nothing but the application's bytes makes a packet longer. -/
theorem made_within (n : ℕ) : Made (Within n) [] where
  syn _ p hp := by
    unfold Within OutgoingPacket.payload
    simp [hp.body]
  fin _ p _ hb := by
    unfold Within OutgoingPacket.payload
    simp [hb]
  data _ p _ hb := by
    unfold Within OutgoingPacket.payload
    simp [hb]
  extended _ p p' hp h := by
    unfold Within OutgoingPacket.payload at *
    rw [hp.body, List.append_nil]
    exact h
  sent _ p p' hp h := by
    unfold Within OutgoingPacket.payload at *
    rw [hp.body]
    exact h
  marked _ _ h := h

theorem each_initial : initial.Each P := by
  intro q p hp
  rw [show initial.outbuf.slot q = none from get_initialized _ _ _ _] at hp
  cases hp

/-- The bytes in flight lie in the window. -/
theorem Ring.inFlight_le {n : ℕ} (h : k.Ring) (hn : k.Each (Within n)) : k.inFlight ≤ 1024 * n := by
  have hflight (y : Option OutgoingPacket) (hy : ∀ p, y = some p → p.payload ≤ n) :
      UtpSocket.flightOf y ≤ n := by
    cases y with
    | none => exact Nat.zero_le n
    | some p =>
      unfold UtpSocket.flightOf
      split
      · rename_i he
        cases he
      · rename_i p' he
        cases he
        split
        · exact Nat.zero_le n
        · exact hy p rfl
  rw [h.inFlight]
  calc k.outstanding ≤ ∑ _i ∈ Finset.range k.cur.toNat, n :=
        Finset.sum_le_sum fun i _ => hflight _ fun p hp => hn _ p hp
    _ = k.cur.toNat * n := by rw [Finset.sum_const, Finset.card_range, smul_eq_mul]
    _ ≤ 1024 * n := Nat.mul_le_mul_right n h.length_le

/-! The bytes of the stream. -/

/-- The bytes of the stream that a slot stands for: those of its DATA packet, or what the packet
carried that has left it. -/
def content (gone : Bytes) : Option OutgoingPacket → Bytes
  | some p => if p.hdr.type = ST_DATA then p.body else []
  | none => gone

/-- The payloads of all DATA packets that were ever queued, in the order of their numbers.
`front` are those of the packets whose numbers have left the window, and `gone q` is the
payload of the packet `q` that was acknowledged while its number is still in the window. -/
def placed (front : Bytes) (gone : UInt16 → Bytes) (k : Kernel) : Bytes :=
  front ++ (List.range k.cur.toNat).flatMap fun i => content (gone (k.nth i)) (k.outbuf.slot (k.nth i))

variable {front : Bytes} {gone : UInt16 → Bytes}

theorem placed_congr (hq : k'.head = k.head) (hc : k'.cur = k.cur)
    (hs : ∀ i < k.cur.toNat, content (gone (k.nth i)) (k'.outbuf.slot (k.nth i)) =
      content (gone (k.nth i)) (k.outbuf.slot (k.nth i))) : k'.placed front gone = k.placed front gone := by
  have hnth (i : ℕ) : k'.nth i = k.nth i := by
    unfold nth
    rw [hq]
  unfold placed
  rw [hc, List.flatMap_congr fun i hi => ?_]
  rw [hnth]
  exact hs i (List.mem_range.1 hi)

/-- A packet with the type and the payload of the old one takes its slot. -/
theorem placed_replace (hp : k.outbuf.slot q = some p) {p' : OutgoingPacket} (n : ℕ)
    (ht : p'.hdr.type = p.hdr.type) (hb : p'.body = p.body) :
    placed front gone { k with outbuf := k.outbuf.setSlot q (some p'), inFlight := n } =
      k.placed front gone := by
  refine placed_congr rfl rfl fun i _ => ?_
  rw [slot_setSlot]
  split
  · rename_i hs
    rw [← hs.slot_eq, hp]
    unfold content
    dsimp only
    rw [ht, hb]
  · rfl

theorem placed_succ {n : ℕ} (hn : k.cur.toNat = n + 1) : k.placed front gone =
    front ++ (List.range n).flatMap (fun i => content (gone (k.nth i)) (k.outbuf.slot (k.nth i))) ++
      content (gone (k.nth n)) (k.outbuf.slot (k.nth n)) := by
  unfold placed
  rw [hn, List.range_succ, List.flatMap_append, List.flatMap_singleton, List.append_assoc]

theorem head_queue (k : Kernel) (p : OutgoingPacket) : (k.queue p).head = k.head := by
  unfold head queue
  grind

/-- A packet that is queued brings its bytes to the end. -/
theorem placed_queue (h : k.Ring) (hc : k.cur.toNat < 1024) (p : OutgoingPacket) :
    (k.queue p).placed front gone = k.placed front gone ++ content [] (some p) := by
  have hhead := head_queue k p
  have hnth (i : ℕ) : (k.queue p).nth i = k.nth i := by
    unfold nth
    rw [hhead]
  have hlast : k.nth k.cur.toNat = k.seqNr := by
    unfold nth head
    rw [UInt16.ofNat_toNat]
    grind
  have hslot : (k.queue p).outbuf.slot k.seqNr = some p := slot_setSlot_self _ _ _
  rw [placed_succ (n := k.cur.toNat) (Ring.toNat_succ hc), hnth, hlast, hslot]
  show _ ++ content [] (some p) = _
  unfold placed
  congr 2
  refine List.flatMap_congr fun i hi => ?_
  rw [hnth, h.slot_queue (k.nth_mem (List.mem_range.1 hi))]

/-- The tail packet takes bytes. -/
theorem placed_extend (h : k.Ring) (hbare : k.Each Bare) (hc : 0 < k.cur)
    (hp : k.outbuf.slot (k.seqNr - 1) = some p) {b : Bytes} {p' : OutgoingPacket}
    (hp' : k.Extended p b p') :
    placed front gone { k with outbuf := k.outbuf.setSlot (k.seqNr - 1) (some p') } =
      k.placed front gone ++ b := by
  have hpred := UtpSocket.toNat_pred hc
  have hpos : 0 < k.cur.toNat := UInt16.lt_iff_toNat_lt.1 hc
  obtain ⟨n, hn⟩ : ∃ n, k.cur.toNat = n + 1 := ⟨k.cur.toNat - 1, by omega⟩
  have hlast : k.nth n = k.seqNr - 1 := by
    have hcur : UInt16.ofNat n = k.cur - 1 := by
      rw [show n = (k.cur - 1).toNat by omega, UInt16.ofNat_toNat]
    unfold nth head
    rw [hcur]
    grind
  have hcontent (g : Bytes) : content g (some p') = content g (some p) ++ b := by
    unfold content
    dsimp only
    rw [hp'.type, hp'.body, if_pos rfl]
    split
    · rfl
    · rename_i ht
      rw [hbare _ _ hp ht]
  rw [placed_succ hn]
  refine (placed_succ (k := { k with outbuf := k.outbuf.setSlot (k.seqNr - 1) (some p') }) hn).trans ?_
  show front ++ (List.range n).flatMap (fun i => content (gone (k.nth i))
    ((k.outbuf.setSlot (k.seqNr - 1) (some p')).slot (k.nth i))) ++ content (gone (k.nth n))
    ((k.outbuf.setSlot (k.seqNr - 1) (some p')).slot (k.nth n)) = _
  rw [hlast, slot_setSlot_self, hp, hcontent, List.append_assoc _ _ b]
  congr 2
  refine List.flatMap_congr fun i hi => ?_
  have hi := List.mem_range.1 hi
  rw [slot_setSlot, if_neg fun hs => ?_]
  -- the slots of the window are distinct
  rw [← hlast] at hs
  have he := congrArg (fun v => (v - k.head).toNat)
    (h.same_eq hs (k.nth_mem (by omega)) (k.nth_mem (by omega)))
  have hlt := k.cur.toNat_lt
  rw [k.toNat_nth (by omega), k.toNat_nth (by omega)] at he
  omega

/-- A step of the application leaves the front of the window and appends what it takes. -/
theorem placed_micro (h : k.Ring) (hbare : k.Each Bare) (hm : Micro .api k acts k') :
    k'.head = k.head ∧ k'.placed front gone = k.placed front gone ++ acts.flatMap Act.taken := by
  cases hm with
  | transmit hp hp' =>
    exact ⟨rfl, (placed_replace hp _ hp'.type hp'.body).trans (by simp [Act.taken])⟩
  | @queue k p hs hf hc hp =>
    refine ⟨head_queue k p, ?_⟩
    rw [placed_queue h (h.length_lt hf)]
    unfold content
    dsimp only
    rw [if_pos hp.type]
    simp [Act.taken]
  | @extend k p b p' hs hf hc hp ht hp' =>
    refine ⟨rfl, ?_⟩
    rw [placed_extend h hbare hc hp hp']
    simp [Act.taken]
  | @queueFin k p closing ho hf hp hb =>
    refine ⟨head_queue k p, ?_⟩
    refine (placed_queue h (h.length_lt hf) p).trans ?_
    unfold content
    dsimp only
    rw [hb, ite_self]
    simp
  | _ => exact ⟨rfl, by simp [Act.taken, placed, nth, head]⟩

end Kernel

end Utp
