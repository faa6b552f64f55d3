import LibUtp.Invariant.EndOfStream
import LibUtp.Pair.Outgoing

/-! The receiving side of a connection, with the numbers of its peer: what has come in order, what
waits in the reorder buffer, and the bytes handed over. -/

namespace Utp

open Lts SequenceBuffer Numbering

namespace Kernel

variable {g g' : Sending} {k k' : Kernel} {acts acts' : List Act} {x : Input} {m n R R' : ℕ} {D : Bytes}
  {pp : ParsedPacket}

/-- A packet of the stream `g` past `R`. -/
def Further (g : Sending) (R : ℕ) (pp : ParsedPacket) : Prop :=
  ∃ n, g.sent n ∧ R < n ∧ pp.seqNr = UInt16.ofNat n ∧ pp.payload = g.body n

/-- Everything of `g` up to `R` has come, and the reorder buffer holds packets of `g` at least `m`
past it. -/
structure Gathers (g : Sending) (R m : ℕ) (k : Kernel) : Prop where
  ackNr : k.ackNr = UInt16.ofNat R
  sent : g.sent R
  sent_lt : ∀ n, g.sent n → n < g.next
  near : g.next ≤ R + 1025
  queue : k.gotFinReached = false → k.Reorder (Further g R) m
  noted : k.gotFin → g.fin ∧ k.eofPkt = UInt16.ofNat (g.next - 1)
  reached : k.gotFinReached → g.fin ∧ R + 1 = g.next

/-- The number `n` of the peer has come. -/
def Has (k : Kernel) (R n : ℕ) : Prop :=
  n ≤ R ∨ k.gotFinReached = false ∧ R < n ∧ n ≤ R + k.inbuf.mask ∧ (k.inbuf.slot (UInt16.ofNat n)).isSome

/-- The bytes handed over are those in order, up to where reading was shut down. -/
def Handed (g : Sending) (R : ℕ) (k : Kernel) (D : Bytes) : Prop :=
  ∃ m ≤ R, D = g.upTo (m + 1) ∧ (k.readShutdown = false → m = R)

def handed (acts : List Act) : Bytes := (readsOf (acts.flatMap Act.effects)).flatten

theorem handed_append (l l' : List Act) : handed (l ++ l') = handed l ++ handed l' := by
  simp only [handed, List.flatMap_append, readsOf_append, List.flatten_append]

theorem handed_withheld (h : ∀ e ∈ acts.flatMap Act.effects, e.delivers = false) : handed acts = [] := by
  rw [handed, readsOf_withheld h]
  rfl

/-- From `k` to `k'` the receiver takes in more of `g`. -/
structure Gains (g : Sending) (R : ℕ) (k : Kernel) (acts : List Act) (R' : ℕ) (k' : Kernel) : Prop where
  le : R ≤ R'
  has : ∀ n, k.Has R n → k'.Has R' n
  handed : ∀ D, Handed g R k D → Handed g R' k' (D ++ handed acts)
  eof : Effect.onStateChange .eof ∈ acts.flatMap Act.effects → k'.gotFinReached
  kept : k.gotFinReached → k'.gotFinReached

theorem Gains.trans {k₁ : Kernel} {R₁ : ℕ} (h : Gains g R k acts R₁ k₁) (h' : Gains g R₁ k₁ acts' R' k') :
    Gains g R k (acts ++ acts') R' k' where
  le := h.le.trans h'.le
  has n hn := h'.has n (h.has n hn)
  handed D hD := by
    rw [handed_append, ← List.append_assoc]
    exact h'.handed _ (h.handed D hD)
  eof he := by
    rw [List.flatMap_append] at he
    rcases List.mem_append.1 he with he | he
    · exact h'.kept (h.eof he)
    · exact h'.eof he
  kept hf := h'.kept (h.kept hf)

/-- A step that only grows the reorder buffer, and hands nothing over. -/
theorem gains_withheld (hq : ∀ e ∈ acts.flatMap Act.effects, e.delivers = false)
    (hf : k'.gotFinReached = k.gotFinReached) (hm : k.inbuf.mask ≤ k'.inbuf.mask)
    (hb : ∀ n, R < n → n ≤ R + k.inbuf.mask → (k.inbuf.slot (UInt16.ofNat n)).isSome →
      (k'.inbuf.slot (UInt16.ofNat n)).isSome)
    (hs : k'.readShutdown = false → k.readShutdown = false) : Gains g R k acts R k' where
  le := le_refl _
  has n hn := by
    rcases hn with hn | ⟨h1, h2, h3, h4⟩
    · exact .inl hn
    · exact .inr ⟨hf.trans h1, h2, by omega, hb n h2 h3 h4⟩
  handed D hD := by
    obtain ⟨m, hm, he, hr⟩ := hD
    rw [handed_withheld hq, List.append_nil]
    exact ⟨m, hm, he, fun h => hr (hs h)⟩
  eof he := by
    have := hq _ he
    cases this
  kept h := hf.trans h

namespace Gathers

theorem congr (h : Gathers g R m k) (ha : k'.ackNr = k.ackNr) (hc : k'.reorderCount = k.reorderCount)
    (hb : k'.inbuf = k.inbuf) (hg : k'.gotFin = k.gotFin) (he : k'.eofPkt = k.eofPkt)
    (hf : k'.gotFinReached = k.gotFinReached) : Gathers g R m k' where
  ackNr := ha.trans h.ackNr
  sent := h.sent
  sent_lt := h.sent_lt
  near := h.near
  queue hr := by
    rw [hf] at hr
    exact (h.queue hr).congr hc hb ha
  noted hn := by
    rw [hg] at hn
    rw [he]
    exact h.noted hn
  reached hr := by
    rw [hf] at hr
    exact h.reached hr

theorem mono (h : Gathers g R m k) (he : g.Extends g' D) (hlt : ∀ n, g'.sent n → n < g'.next)
    (hn : g'.next ≤ R + 1025) : Gathers g' R m k where
  ackNr := h.ackNr
  sent := (he.sent R h.sent).1
  sent_lt := hlt
  near := hn
  queue hr := by
    refine ⟨(h.queue hr).count, fun q p hp => ?_⟩
    obtain ⟨pp, ⟨n, hs, h1, h2, h3⟩, h4, h5⟩ := (h.queue hr).stored q p hp
    obtain ⟨h6, h7⟩ := he.sent n hs
    exact ⟨pp, ⟨n, h6, h1, h2, by rw [h7]; exact h3⟩, h4, h5⟩
  noted hf := by
    obtain ⟨h1, h2⟩ := h.noted hf
    obtain ⟨h3, h4⟩ := he.fin h1
    exact ⟨h3, by rw [h4]; exact h2⟩
  reached hf := by
    obtain ⟨h1, h2⟩ := h.reached hf
    obtain ⟨h3, h4⟩ := he.fin h1
    exact ⟨h3, by rw [h4]; exact h2⟩

theorem lt_next (h : Gathers g R m k) : R < g.next := h.sent_lt R h.sent

theorem unreached (h : Gathers g R m k) (hn : R + 1 < g.next) : k.gotFinReached = false :=
  Bool.eq_false_iff.2 fun hf => hn.ne (h.reached hf).2

theorem stored (h : Gathers g R m k) (hf : k.gotFinReached = false) (hR : R < n) (hn : n ≤ R + k.inbuf.mask)
    {p : InboundPacket} (hp : k.inbuf.slot (UInt16.ofNat n) = some p) :
    g.sent n ∧ p.data = g.body n ∧ R + m ≤ n := by
  obtain ⟨pp, ⟨i, hs, h1, h2, h3⟩, h4, h5, h6, h7⟩ := (h.queue hf).stored _ p hp
  have hlt := mask_lt_size k.inbuf
  have hsz := k.inbuf.size_le
  have hi := h.sent_lt i hs
  have hnear := h.near
  have hdist := toNat_sub_of_le hR.le (by omega)
  rw [← h.ackNr] at hdist
  have he : UInt16.ofNat n = pp.seqNr := h5.eq (s := k.ackNr) (by omega) (by omega)
  rw [← he, hdist] at h6
  obtain rfl : n = i := eq_of_ofNat_eq (he.trans h2) (by omega) (by omega)
  exact ⟨hs, h4.trans h3, by omega⟩

theorem has_lt (h : Gathers g R m k) (hn : k.Has R n) : n < g.next := by
  rcases hn with hn | ⟨h1, h2, h3, h4⟩
  · exact hn.trans_lt h.lt_next
  · obtain ⟨p, hp⟩ := Option.isSome_iff_exists.1 h4
    exact h.sent_lt n (h.stored h1 h2 h3 hp).1

theorem not_has (h : Gathers g R 2 k) : ¬ k.Has R (R + 1) := by
  rintro (hn | ⟨h1, h2, h3, h4⟩)
  · omega
  · obtain ⟨p, hp⟩ := Option.isSome_iff_exists.1 h4
    have := (h.stored h1 h2 h3 hp).2.2
    omega

theorem ahead (hr : k.Reorder (Further g R) m) (ha : k.ackNr = UInt16.ofNat (R + 1)) (hm : 0 < m) :
    k.Reorder (Further g (R + 1)) m := by
  refine ⟨hr.count, fun q p hp => ?_⟩
  obtain ⟨pp, ⟨n, hs, h1, h2, h3⟩, h4, h5, h6, h7⟩ := hr.stored q p hp
  refine ⟨pp, ⟨n, hs, ?_, h2, h3⟩, h4, h5, h6, h7⟩
  rcases Nat.lt_or_ge (R + 1) n with hlt | hge
  · exact hlt
  · obtain rfl : n = R + 1 := by omega
    rw [h2, ha, UInt16.sub_self, UInt16.toNat_zero] at h6
    omega

/-- The end is reached with nothing left in the buffer. -/
theorem eof (h : Gathers g R m k) (he : k.atEof) : R + 1 = g.next ∧ g.fin := by
  obtain ⟨-, hg, hack⟩ := he
  obtain ⟨hf, hnext⟩ := h.noted hg
  have hlt := h.lt_next
  have hnear := h.near
  have := eq_of_ofNat_eq (hnext.symm.trans (hack.trans h.ackNr)) (by omega) (by omega)
  exact ⟨by omega, hf⟩

end Gathers

theorem Handed.read (hr : k'.readShutdown = k.readShutdown) (h : Handed g R k D) :
    Handed g (R + 1) k' (D ++ handed (k.readAct (g.body (R + 1)))) := by
  obtain ⟨m, hm, rfl, hs⟩ := h
  unfold readAct
  by_cases hc : 0 < (g.body (R + 1)).length ∧ k.readShutdown = false
  · obtain rfl := hs hc.2
    rw [if_pos hc]
    refine ⟨m + 1, le_refl _, ?_, fun _ => rfl⟩
    rw [Sending.upTo_succ g (m + 1)]
    simp [Kernel.handed, Act.effects, readsOf]
  · rw [if_neg hc]
    by_cases hsd : k.readShutdown = false
    · obtain rfl := hs hsd
      have hnil : g.body (m + 1) = [] := List.length_eq_zero_iff.1 (by
        by_contra hne
        exact hc ⟨Nat.pos_of_ne_zero hne, hsd⟩)
      refine ⟨m + 1, le_refl _, ?_, fun _ => rfl⟩
      rw [Sending.upTo_succ g (m + 1), hnil]
      simp [Kernel.handed, readsOf]
    · refine ⟨m, hm.trans (Nat.le_succ _), by simp [Kernel.handed, readsOf], fun h => ?_⟩
      rw [hr] at h
      exact absurd h hsd

theorem gains_read (hf : k'.gotFinReached = k.gotFinReached) (hs : k'.readShutdown = k.readShutdown)
    (hm : k'.inbuf.mask = k.inbuf.mask)
    (hb : ∀ n, R + 1 < n → n ≤ R + k.inbuf.mask → k'.inbuf.slot (UInt16.ofNat n) = k.inbuf.slot (UInt16.ofNat n)) :
    Gains g R k (k.readAct (g.body (R + 1))) (R + 1) k' where
  le := Nat.le_succ _
  has n hn := by
    rcases hn with hn | ⟨h1, h2, h3, h4⟩
    · exact .inl (hn.trans (Nat.le_succ _))
    · rcases Nat.lt_or_ge (R + 1) n with hlt | hge
      · refine .inr ⟨hf.trans h1, hlt, by omega, ?_⟩
        rw [hb n hlt h3]
        exact h4
      · exact .inl hge
  handed D hD := hD.read hs
  eof he := by
    unfold readAct at he
    split at he <;> simp [Act.effects] at he
  kept h := hf.trans h

/-- What the reorder buffer then releases. -/
theorem Drains.gathers (hd : Drains k acts k') (h : Gathers g R 1 k) (hf : k.gotFinReached = false) :
    ∃ R', Gathers g R' 2 k' ∧ Gains g R k acts R' k' := by
  induction hd generalizing R with
  | @eof k he =>
    obtain ⟨hlast, hfin⟩ := h.eof he
    refine ⟨R, ⟨h.ackNr, h.sent, h.sent_lt, h.near, (by simp), h.noted, fun _ => ⟨hfin, hlast⟩⟩,
      le_refl _, fun n hn => .inl ?_, fun D hD => ?_, fun _ => rfl, fun _ => rfl⟩
    · have := h.has_lt hn
      omega
    · rw [show handed [Act.eof] = [] from rfl, List.append_nil]
      exact hD
  | @idle k he hr =>
    refine ⟨R, ⟨h.ackNr, h.sent, h.sent_lt, h.near, fun hf => (h.queue hf).two hr, h.noted, h.reached⟩, ?_⟩
    exact gains_withheld (by simp) rfl (le_refl _) (fun _ _ _ h => h) id
  | @release k p acts k' he hr hp hd ih =>
    have hsz := k.inbuf.two_le_size
    have hle := k.inbuf.size_le
    have hmask : k.inbuf.mask + 1 = k.inbuf.size := by
      have := mask_lt_size k.inbuf
      unfold mask at this ⊢
      omega
    have hnum : k.ackNr + 1 = UInt16.ofNat (R + 1) := by rw [h.ackNr, ofNat_succ]
    have hp' : k.inbuf.slot (UInt16.ofNat (R + 1)) = some p := by rw [← hnum]; exact hp
    obtain ⟨hsent, hdata, -⟩ := h.stored hf (Nat.lt_succ_self R) (by omega) hp'
    have h' : Gathers g (R + 1) 1 k.release :=
      { ackNr := hnum
        sent := hsent
        sent_lt := h.sent_lt
        near := h.near.trans (by omega)
        queue := fun _ => Gathers.ahead ((h.queue hf).release hr hp) hnum Nat.one_pos
        noted := h.noted
        reached := fun hc => absurd (hf.symm.trans hc) Bool.false_ne_true }
    obtain ⟨R', hg, hgain⟩ := ih h' hf
    have hstep : Gains g R k (k.readAct p.data) (R + 1) k.release := by
      rw [hdata]
      refine gains_read rfl rfl (congrArg (· - 1) (size_setSlot _ _ _)) fun n h1 h2 => ?_
      show (k.inbuf.setSlot (k.ackNr + 1) none).slot (UInt16.ofNat n) = _
      rw [slot_setSlot, if_neg]
      -- a number further on has another slot
      intro hs
      rw [hnum] at hs
      have hd1 := toNat_sub_of_le (m := R) (n := R + 1) (by omega) (by omega)
      have hd2 := toNat_sub_of_le (m := R) (n := n) (by omega) (by omega)
      have := eq_of_ofNat_eq (hs.eq (s := UInt16.ofNat R) (by omega) (by omega)) (by omega) (by omega)
      omega
    exact ⟨R', hg, hstep.trans hgain⟩

/-- What is true of a packet of the peer that is not too old: it is of the stream. -/
structure Heard (g : Sending) (pp : ParsedPacket) : Prop where
  data : pp.type ≠ ST_STATE → ∃ n, g.sent n ∧ g.next + 1024 ≤ n + 2 ^ 16 ∧ pp.seqNr = UInt16.ofNat n ∧
    pp.payload = g.body n ∧ (pp.type = ST_FIN → g.fin ∧ n + 1 = g.next)

theorem Gathers.fresh (h : Gathers g R m k) (hn : g.next + 1024 ≤ n + 2 ^ 16)
    (hq : pp.seqNr = UInt16.ofNat n) (hd : (k.seqDistance pp).toNat < 1024) : R < n := by
  by_contra hle
  have hle := Nat.le_of_not_lt hle
  have hlt := h.lt_next
  have he : k.seqDistance pp = UInt16.ofNat n - UInt16.ofNat (R + 1) := by
    unfold seqDistance
    rw [hq, h.ackNr, ofNat_succ]
    grind
  rw [he] at hd
  have := toNat_sub_of_lt (m := n) (n := R + 1) (by omega) (by omega)
  omega

/-- Every step of the receiver keeps what it knows of its peer, as long as the packets come from
there. -/
theorem gathers_micro (hset : k.state ≠ .uninitialized) (h : Gathers g R 2 k)
    (hx : ∀ pp, x = .packet pp → Heard g pp ∧ k.state ≠ .synSent) (hm : Micro x k acts k') :
    ∃ R', Gathers g R' 2 k' ∧ Gains g R k acts R' k' := by
  by_cases hpkt : ∀ pp, x ≠ .packet pp
  · have hw := (hm.withheld hpkt).1
    have hidle (ha : k'.ackNr = k.ackNr) (hc : k'.reorderCount = k.reorderCount) (hb : k'.inbuf = k.inbuf)
        (hg : k'.gotFin = k.gotFin) (he : k'.eofPkt = k.eofPkt) (hf : k'.gotFinReached = k.gotFinReached)
        (hs : k'.readShutdown = false → k.readShutdown = false) :
        ∃ R', Gathers g R' 2 k' ∧ Gains g R k acts R' k' :=
      ⟨R, h.congr ha hc hb hg he hf, gains_withheld hw hf (by rw [hb]) (fun n _ _ hn => by rw [hb]; exact hn) hs⟩
    cases hm with
    | accept hu => exact absurd hu hset
    | connect hu => exact absurd hu hset
    | @advance pp k acts k' hs hp =>
      obtain ⟨q, w, c, o, f, rfl⟩ := hp.frame
      obtain ⟨st, f, heq⟩ := k.ackState_eq pp
      rw [heq] at hidle ⊢
      exact hidle rfl rfl rfl rfl rfl rfl id
    | readShutdown => exact hidle rfl rfl rfl rfl rfl rfl (by simp)
    | synSentAck => exact absurd rfl (hpkt _)
    | noteFin => exact absurd rfl (hpkt _)
    | deliver => exact absurd rfl (hpkt _)
    | clearReorder => exact absurd rfl (hpkt _)
    | growInbuf => exact absurd rfl (hpkt _)
    | failStore => exact absurd rfl (hpkt _)
    | store => exact absurd rfl (hpkt _)
    | _ => exact hidle rfl rfl rfl rfl rfl rfl id
  obtain ⟨pp, hpp⟩ := not_forall.1 hpkt
  obtain rfl : x = .packet pp := not_not.1 hpp
  obtain ⟨hheard, hsyn⟩ := hx pp rfl
  have hlt := h.lt_next
  have hnear := h.near
  have hidle (ha : k'.ackNr = k.ackNr) (hc : k'.reorderCount = k.reorderCount) (hb : k'.inbuf = k.inbuf)
      (hg : k'.gotFin = k.gotFin) (he : k'.eofPkt = k.eofPkt) (hf : k'.gotFinReached = k.gotFinReached)
      (hs : k'.readShutdown = k.readShutdown) (hw : ∀ e ∈ acts.flatMap Act.effects, e.delivers = false) :
      ∃ R', Gathers g R' 2 k' ∧ Gains g R k acts R' k' :=
    ⟨R, h.congr ha hc hb hg he hf, gains_withheld hw hf (by rw [hb]) (fun n _ _ hn => by rw [hb]; exact hn)
      (fun h => hs.symm.trans h)⟩
  cases hm with
  | silent hq => exact hidle rfl rfl rfl rfl rfl rfl rfl (by simpa [Act.effects] using withheld_quiet hq)
  | synSentAck hs => exact absurd hs hsyn
  | noteFin ho ht hf hd =>
    obtain ⟨n, -, -, hq, -, hfin⟩ := hheard.data (by rw [ht]; decide)
    obtain ⟨h1, h2⟩ := hfin ht
    refine ⟨R, ⟨h.ackNr, h.sent, h.sent_lt, hnear, fun hr => (h.queue hr).congr rfl rfl rfl, fun _ => ⟨h1, ?_⟩,
      h.reached⟩, gains_withheld (by simp) rfl (le_refl _) (fun _ _ _ h => h) id⟩
    rw [← h2]
    exact hq
  | clearReorder hr =>
    refine ⟨R, ⟨h.ackNr, h.sent, h.sent_lt, hnear, fun hf => ?_, h.noted, h.reached⟩,
      gains_withheld (by simp) rfl (le_refl _) (fun _ _ _ h => h) id⟩
    exact absurd (hr.symm.trans hf) (by simp)
  | growInbuf hd =>
    have hgrow := (k.inbuf.size_ensureSize (pp.seqNr + 1).toNat (k.seqDistance pp + 1)).1
    have hmask := mask_lt_size k.inbuf
    refine ⟨R, ⟨h.ackNr, h.sent, h.sent_lt, hnear, fun hr => (h.queue hr).grow, h.noted, h.reached⟩,
      gains_withheld (by simp) rfl (Nat.sub_le_sub_right hgrow 1) (fun n h1 h2 hn => ?_) id⟩
    show ((k.inbuf.ensureSize _ _).slot _).isSome
    rw [slot_ensureSize _ _ _ _ ?_]
    · exact hn
    · have hstart : pp.seqNr + 1 - (k.seqDistance pp + 1) = UInt16.ofNat (R + 1) := by
        unfold seqDistance
        rw [h.ackNr, ofNat_succ]
        grind
      have hsz := k.inbuf.size_le
      rw [hstart, toNat_sub_of_le (by omega) (by omega)]
      omega
  | deliver ho hd ht hf hdr =>
    obtain ⟨n, hsent, hold, hq, hbody, -⟩ := hheard.data ht
    have hR := h.fresh hold hq (by rw [hd]; decide)
    have hn := h.sent_lt n hsent
    have hnum : k.ackNr + 1 = UInt16.ofNat (R + 1) := by rw [h.ackNr, ofNat_succ]
    obtain rfl : n = R + 1 := by
      refine eq_of_ofNat_eq ?_ (by omega) (by omega)
      rw [← hq, ← hnum]
      unfold seqDistance at hd
      grind
    have hun := h.unreached hn
    have h' : Gathers g (R + 1) 1 { k with ackNr := k.ackNr + 1 } :=
      { ackNr := hnum
        sent := hsent
        sent_lt := h.sent_lt
        near := h.near.trans (by omega)
        queue := fun _ => Gathers.ahead (h.queue hun).succ hnum Nat.one_pos
        noted := h.noted
        reached := fun hc => absurd (hun.symm.trans hc) Bool.false_ne_true }
    obtain ⟨R', hg, hgain⟩ := hdr.gathers h' hun
    refine ⟨R', hg, Gains.trans ?_ hgain⟩
    rw [hbody]
    exact gains_read rfl rfl rfl fun _ _ _ => rfl
  | store ho hd hd' ht hf he hz hn =>
    obtain ⟨n, hsent, hold, hq, hbody, -⟩ := hheard.data ht
    have hR := h.fresh hold hq hd'
    have hn' := h.sent_lt n hsent
    have hun := h.unreached (by omega)
    refine ⟨R, ⟨h.ackNr, h.sent, h.sent_lt, hnear, fun _ => (h.queue hun).store ⟨n, hsent, hR, hq, hbody⟩ hd hz hn,
      h.noted, h.reached⟩, gains_withheld (by simp) rfl ?_ (fun i h1 h2 hi => ?_) id⟩
    · exact (congrArg (· - 1) (size_setSlot k.inbuf pp.seqNr (some ⟨pp.payload⟩))).ge
    · show ((k.inbuf.setSlot pp.seqNr (some ⟨pp.payload⟩)).slot _).isSome
      rw [slot_setSlot]
      split
      · rfl
      · exact hi
  | _ => exact hidle rfl rfl rfl rfl rfl rfl rfl (by simp [Act.effects, Effect.delivers])

end Kernel

end Utp
