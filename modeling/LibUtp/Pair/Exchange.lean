import LibUtp.Invariant.EackAgreement
import LibUtp.Pair.Incoming

/-! One side of a connection in a call: what its datagrams tell the peer, whenever they arrive, and
what it keeps as long as those of the peer tell the truth. -/

namespace Utp

open Lts SequenceBuffer Numbering UtpSocket

namespace Kernel

variable {g g' g₁ : Sending} {k k' k₁ : Kernel} {acts : List Act} {x : Input} {n R R' R₁ own peer : ℕ}
  {G H H' : ℕ → Prop} {b D : Bytes} {pp : ParsedPacket}

/-- What a packet tells of the sender `g`, which has everything of its peer up to `R` and the numbers
`H`. When it was sent the heads of the two windows had reached `own` and `peer`. -/
structure Tells (g : Sending) (R : ℕ) (H : ℕ → Prop) (own peer : ℕ) (pp : ParsedPacket) : Prop where
  data : pp.type ≠ ST_STATE → ∃ n, g.sent n ∧ own ≤ n ∧ pp.seqNr = UInt16.ofNat n ∧
    pp.payload = g.body n ∧ (pp.type = ST_FIN → g.fin ∧ n + 1 = g.next)
  state : pp.type = ST_STATE → ∃ m, own ≤ m ∧ m ≤ g.next ∧ pp.seqNr = UInt16.ofNat m
  ack : ∃ r, pp.ackNr = UInt16.ofNat r ∧ r ≤ R ∧ peer ≤ r + 2 ∧ ∀ mask, pp.selack = some mask →
    ∀ i : ℕ, maskBit mask i → H (r + 2 + i)

theorem Tells.mono (h : Tells g R H own peer pp) (he : g.Extends g' D) (hR : R ≤ R')
    (hH : ∀ n, H n → H' n) : Tells g' R' H' own peer pp where
  data ht := by
    obtain ⟨n, hs, h1, h2, h3, h4⟩ := h.data ht
    obtain ⟨h5, h6⟩ := he.sent n hs
    refine ⟨n, h5, h1, h2, by rw [h6]; exact h3, fun hf => ?_⟩
    obtain ⟨h7, h8⟩ := h4 hf
    obtain ⟨h9, h10⟩ := he.fin h7
    exact ⟨h9, by rw [h10]; exact h8⟩
  state ht := by
    obtain ⟨m, h1, h2, h3⟩ := h.state ht
    exact ⟨m, h1, h2.trans he.next_le, h3⟩
  ack := by
    obtain ⟨r, h1, h2, h3, h4⟩ := h.ack
    exact ⟨r, h1, h2.trans hR, h3, fun mask hm i hi => hH _ (h4 mask hm i hi)⟩

/-- A packet that is not too old is what the receiver's steps need. -/
theorem Tells.told (h : Tells g R H own peer pp) {next : ℕ} (hn : next + 2 ≤ peer + 2 ^ 16)
    (hH : ∀ n, H n → n < next) : Told R H next pp where
  said := by
    obtain ⟨r, h1, h2, h3, h4⟩ := h.ack
    exact ⟨r, h1, h2, by omega, fun mask hm i hi => ⟨hH _ (h4 mask hm i hi), h4 mask hm i hi⟩⟩

theorem Tells.heard (h : Tells g R H own peer pp) (hn : g.next + 1024 ≤ own + 2 ^ 16) : Heard g pp where
  data ht := by
    obtain ⟨n, hs, h1, h2, h3, h4⟩ := h.data ht
    exact ⟨n, hs, by omega, h2, h3, h4⟩

/-- What one side knows in a connection: its stream `g`, that of its peer `g'`, how far it has come in
that, and that its peer has `R'` in order and the numbers `G`. -/
structure Half (g g' : Sending) (R R' : ℕ) (G : ℕ → Prop) (k : Kernel) : Prop where
  window : k.Window
  setUp : k.state ≠ .uninitialized
  ships : Ships g k
  covered : Covered R' G g k
  gathers : Gathers g' R 2 k
  head_le : g'.head ≤ R + 1
  pos : 0 < R

theorem Half.next_le (h : Half g g' R R' G k) : g.next ≤ g.head + 1024 := by
  have := h.window.length_le
  have := h.ships.span
  omega

/-- What the peer reads in a packet of the window. -/
theorem tells_segment {hdr : PacketFormatV1} (hseg : Segment g k.ackNr n hdr) (hb : own ≤ g.head) (ha : k.ackNr = UInt16.ofNat R)
    (hp : peer ≤ R + 1) {bits : Bytes}
    (hpp : (parseBytes (hdr.toBytes ++ g.body n) bits).1 = some pp) : Tells g R H own peer pp := by
  have htype : hdr.type < ST_NUM_STATES := by
    rcases hseg.type with h | h | h <;> rw [h] <;> decide
  rw [parseBytes_segment htype hseg.ext] at hpp
  obtain rfl := Option.some.inj hpp
  refine ⟨fun _ => ⟨n, hseg.sent, hb.trans hseg.head_le, hseg.seqNr, rfl, hseg.fin⟩, fun ht => ?_,
    ⟨R, hseg.ackNr.trans ha, le_refl _, by omega, fun mask hm => by cases hm⟩⟩
  rcases hseg.type with h | h | h <;> rw [show hdr.type = ST_STATE from ht] at h <;>
    exact absurd h (by decide)

/-- The bits of an acknowledgement, or of a keep-alive, which counts from one number earlier, are
numbers that have come. -/
theorem Gathers.bits (h : Gathers g' R 2 k) {d : ℕ} (hd : d ≤ 1) (hdR : d ≤ R) {i : ℕ}
    (hf : k.gotFinReached = false)
    (hb : (eackMask { k with ackNr := UInt16.ofNat (R - d) }).testBit i = true) : k.Has R (R - d + 2 + i) := by
  obtain ⟨hi, hs⟩ := (testBit_eackMask _ i).1 hb
  have hnum : UInt16.ofNat (R - d) + UInt16.ofNat i + 2 = UInt16.ofNat (R - d + 2 + i) := by
    rw [UInt16.ofNat_add, UInt16.ofNat_add (R - d)]
    grind
  have hs : (k.inbuf.slot (UInt16.ofNat (R - d) + UInt16.ofNat i + 2)).isSome := hs
  have hi : i < min 30 k.inbuf.size := hi
  rw [hnum] at hs
  have hdist := toNat_sub_of_le (m := R) (n := R - d + 2 + i) (by omega) (by omega)
  have hholds := (h.queue hf).holds (q := UInt16.ofNat (R - d + 2 + i)) (by
    rw [h.ackNr, hdist]
    omega) hs
  have hle := hholds.1
  rw [h.ackNr, hdist] at hle
  exact .inr ⟨hf, by omega, by omega, hs⟩

/-- What the peer reads in an acknowledgement. -/
theorem tells_state (h : Gathers g' R 2 k) (hs : Ships g k) (ho : own ≤ g.head) {d : ℕ} (hd : d ≤ 1)
    (hdR : d ≤ R) (hp : peer ≤ R + 1) {bits : Bytes}
    (hst : StateBytes { k with ackNr := UInt16.ofNat (R - d) } b)
    (hpp : (parseBytes b bits).1 = some pp) : Tells g R (k.Has R) own peer pp := by
  have hspan := hs.span
  cases hst with
  | @plain hdr hst hext hr =>
    rw [parseBytes_plain hst.type hext bits] at hpp
    obtain rfl := Option.some.inj hpp
    exact ⟨fun ht => absurd hst.type ht, fun _ => ⟨g.next, by omega, le_refl _, hst.seqNr.trans hs.next⟩,
      R - d, hst.ackNr, Nat.sub_le _ _, by omega, fun mask hm => by cases hm⟩
  | @eack hdr hst hext hr hf =>
    rw [parseBytes_eack hst.type hext (eackMask { k with ackNr := UInt16.ofNat (R - d) }) bits] at hpp
    obtain rfl := Option.some.inj hpp
    refine ⟨fun ht => absurd hst.type ht, fun _ => ⟨g.next, by omega, le_refl _, hst.seqNr.trans hs.next⟩,
      R - d, hst.ackNr, Nat.sub_le _ _, by omega, fun mask hm i hi => ?_⟩
    obtain rfl := Option.some.inj hm
    have hlt : i < 32 := by
      obtain ⟨j, hj, hlt⟩ := maskBit_range hi
      have : (eackBytes (eackMask { k with ackNr := UInt16.ofNat (R - d) })).length = 4 := rfl
      omega
    rw [maskBit_eackBytes _ hlt] at hi
    exact h.bits hd hdR hf hi

/-- What a step sends tells the truth. -/
theorem tells_posts (h : Half g g' R R' G k) (he : g.Extends g₁ D) (hp : Posts g₁ k b) {bits : Bytes}
    (hpp : (parseBytes b bits).1 = some pp) : Tells g₁ R (k.Has R) g.head g'.head pp := by
  have hpos := h.pos
  rcases hp with ⟨n, hdr, rfl, hseg⟩ | hst | hst
  · exact tells_segment hseg he.head_le h.gathers.ackNr h.head_le hpp
  · have hack : k.ackNr = UInt16.ofNat (R - 0) := h.gathers.ackNr
    refine (tells_state h.gathers h.ships (le_refl _) (Nat.zero_le 1) (Nat.zero_le R) h.head_le ?_ hpp).mono
      he (le_refl _) fun _ => id
    rw [← hack]
    exact hst
  · have hack : k.ackNr - 1 = UInt16.ofNat (R - 1) := by
      have := ofNat_succ (R - 1)
      rw [Nat.sub_add_cancel hpos] at this
      rw [h.gathers.ackNr]
      grind
    refine (tells_state h.gathers h.ships (le_refl _) (le_refl 1) hpos h.head_le ?_ hpp).mono
      he (le_refl _) fun _ => id
    rw [← hack]
    exact hst

/-- A step of one side, while its peer waits. -/
theorem half_micro (h : Half g g' R R' G k) (hG : ¬ G (R' + 1))
    (ht : ∀ pp, x = .ack pp ∨ x = .eack pp → Told R' G g.next pp)
    (hx : ∀ pp, x = .packet pp → Heard g' pp ∧ k.state ≠ .synSent) (hm : Micro x k acts k') :
    ∃ g₁ R₁, Half g₁ g' R₁ R' G k' ∧ Moves x g g₁ (acts.flatMap Act.taken) ∧ Gains g' R k acts R₁ k' ∧
      ∀ b flags, Act.send b flags ∈ acts → ∀ bits pp, (parseBytes b bits).1 = some pp →
        Tells g₁ R (k.Has R) g.head g'.head pp := by
  obtain ⟨g₁, h1, h2, h3, h4⟩ := ships_micro h.window h.setUp h.ships h.covered hG ht hm
  obtain ⟨R₁, h5, h6⟩ := gathers_micro h.setUp h.gathers hx hm
  refine ⟨g₁, R₁, ⟨(window_micro h.window hm).1, set_micro h.setUp hm, h1, h2, h5,
    h.head_le.trans (Nat.succ_le_succ h6.le), h.pos.trans_le h6.le⟩, h3, h6, fun b flags hb bits pp hpp => ?_⟩
  exact tells_posts h h3.extend (h4 b flags hb) hpp

/-- No step leads back to `CS_SYN_SENT`. -/
theorem answered_micro (hset : k.state ≠ .uninitialized) (h : k.state ≠ .synSent) (hm : Micro x k acts k') :
    k'.state ≠ .synSent := by
  cases hm with
  | broken =>
    dsimp only
    split <;> simp
  | closeAgain =>
    dsimp only
    split
    · simp
    · exact h
  | @advance pp k acts k' hs hp =>
    obtain ⟨q, w, c, o, f, rfl⟩ := hp.frame
    show (k.ackState pp).state ≠ .synSent
    unfold ackState
    dsimp only
    split_ifs <;> simp_all
  | deliver ho hd ht hf hdr =>
    rw [hdr.state]
    exact h
  | accept hu => exact absurd hu hset
  | connect hu => exact absurd hu hset
  | timeout => exact k.gaveUp_ne (by simp) (by simp)
  | _ => first | exact h | simp

/-- The datagrams of a step are those it is said to send. -/
theorem send_micro (hm : Micro x k acts k') {flags : UInt32} (hb : Effect.sendTo b flags ∈ acts.flatMap Act.effects) :
    Act.send b flags ∈ acts := by
  cases hm with
  | silent hq =>
    simp only [List.flatMap_cons, List.flatMap_nil, List.append_nil, Act.effects] at hb
    exact absurd (hq _ hb) (by simp [Effect.quiet])
  | connect => simpa [Act.effects] using hb
  | transmit => simpa [Act.effects] using hb
  | state => simpa [Act.effects] using hb
  | keepAlive => simpa [Act.effects] using hb
  | advance hs hp => exact absurd hb (hp.mute b flags)
  | mark hc hp ht hn => exact absurd hb (mute_removal _ _ b flags)
  | sack hm hb' hc hv hw hp ht => exact absurd hb (mute_removal _ _ b flags)
  | deliver ho hd ht hf hdr => exact absurd hb ((mute_readAct _ _).append hdr.mute.2 b flags)
  | _ => simp [Act.effects] at hb

/-- What one side does in a call, while its peer waits: its stream grows by what it takes, it gathers
more of its peer's, and its datagrams tell the truth. -/
structure Outcome (g g' : Sending) (R : ℕ) (k : Kernel) (acts : List Act) (g₁ : Sending) (R₁ : ℕ) (k₁ : Kernel) :
    Prop where
  extend : g.Extends g₁ (acts.flatMap Act.taken)
  gains : Gains g' R k acts R₁ k₁
  tells : ∀ b flags, Effect.sendTo b flags ∈ acts.flatMap Act.effects → ∀ bits pp,
    (parseBytes b bits).1 = some pp → Tells g₁ R₁ (k₁.Has R₁) g.head g'.head pp

theorem gains_refl (g : Sending) (R : ℕ) (k : Kernel) : Gains g R k [] R k :=
  gains_withheld (by simp) rfl (le_refl _) (fun _ _ _ h => h) id

theorem Tells.weaken (h : Tells g R H own peer pp) {own' peer' : ℕ} (ho : own' ≤ own) (hp : peer' ≤ peer) :
    Tells g R H own' peer' pp where
  data ht := by
    obtain ⟨n, h1, h2, h3⟩ := h.data ht
    exact ⟨n, h1, ho.trans h2, h3⟩
  state ht := by
    obtain ⟨m, h1, h2, h3⟩ := h.state ht
    exact ⟨m, ho.trans h1, h2, h3⟩
  ack := by
    obtain ⟨r, h1, h2, h3, h4⟩ := h.ack
    exact ⟨r, h1, h2, hp.trans h3, h4⟩

theorem Outcome.refl (g g' : Sending) (R : ℕ) (k : Kernel) : Outcome g g' R k [] g R k :=
  ⟨.refl g, gains_refl g' R k, by simp⟩

theorem Outcome.trans {g₂ : Sending} {R₂ : ℕ} {k₂ : Kernel} {acts' : List Act} (h : Outcome g g' R k acts g₁ R₁ k₁)
    (h' : Outcome g₁ g' R₁ k₁ acts' g₂ R₂ k₂) : Outcome g g' R k (acts ++ acts') g₂ R₂ k₂ where
  extend := by
    rw [List.flatMap_append]
    exact h.extend.trans h'.extend
  gains := h.gains.trans h'.gains
  tells b flags hb bits pp hpp := by
    rw [List.flatMap_append] at hb
    rcases List.mem_append.1 hb with hb | hb
    · exact (h.tells b flags hb bits pp hpp).mono h'.extend h'.gains.le h'.gains.has
    · exact (h'.tells b flags hb bits pp hpp).weaken h.extend.head_le (le_refl _)

/-- A step on one of the inputs `T`. -/
def StepOn (T : Input → Prop) (k : Kernel) (acts : List Act) (k' : Kernel) : Prop := ∃ x, T x ∧ Micro x k acts k'

/-- The steps of a call. The end of the stream moves only if the application called, its head only if
a packet arrived. -/
theorem half_trace {T : Input → Prop} (h : Half g g' R R' G k) (hG : ¬ G (R' + 1))
    (ht : ∀ pp, T (.ack pp) ∨ T (.eack pp) → Told R' G g.next pp ∧ ¬ T .api)
    (hx : ∀ pp, T (.packet pp) → Heard g' pp ∧ k.state ≠ .synSent) (htr : Trace (StepOn T) k acts k') :
    ∃ g₁ R₁, Half g₁ g' R₁ R' G k' ∧ Outcome g g' R k acts g₁ R₁ k' ∧
      (¬ T .api → g₁.next = g.next) ∧ ((∀ pp, ¬ T (.ack pp)) → g₁.head = g.head) := by
  induction htr generalizing g R with
  | refl k => exact ⟨g, R, h, .refl g g' R k, fun _ => rfl, fun _ => rfl⟩
  | @head k a k₁ l k' hstep _ ih =>
    obtain ⟨x, hTx, hm⟩ := hstep
    obtain ⟨g₁, R₁, h₁, hmv, hgain, htell⟩ := half_micro h hG (by
      rintro pp (rfl | rfl)
      · exact (ht pp (.inl hTx)).1
      · exact (ht pp (.inr hTx)).1) (by
      rintro pp rfl
      exact hx pp hTx) hm
    have hout : Outcome g g' R k a g₁ R₁ k₁ := by
      refine ⟨hmv.extend, hgain, fun b flags hb bits pp hp => ?_⟩
      exact (htell b flags (send_micro hm hb) bits pp hp).mono (.refl _) hgain.le hgain.has
    have hnext (ha : ¬ T .api) : g₁.next = g.next := hmv.next (by
      rintro rfl
      exact ha hTx)
    obtain ⟨g₂, R₂, h₂, hout', hnext', hhead⟩ := ih h₁ (by
      intro pp hp
      rw [hnext (ht pp hp).2]
      exact ht pp hp) fun pp hp => ⟨(hx pp hp).1, answered_micro h.setUp (hx pp hp).2 hm⟩
    refine ⟨g₂, R₂, h₂, hout.trans hout', fun ha => (hnext' ha).trans (hnext ha), fun ha => (hhead ha).trans ?_⟩
    refine hmv.head fun pp => ?_
    rintro rfl
    exact ha pp hTx

theorem answered_trace {T : Input → Prop} (hset : k.state ≠ .uninitialized) (h : k.state ≠ .synSent)
    (htr : Trace (StepOn T) k acts k') : k'.state ≠ .uninitialized ∧ k'.state ≠ .synSent :=
  htr.invariant (I := fun k => k.state ≠ .uninitialized ∧ k.state ≠ .synSent)
    (fun _ _ _ hk hstep => by
      obtain ⟨x, -, hm⟩ := hstep
      exact ⟨set_micro hk.1 hm, answered_micro hk.1 hk.2 hm⟩) ⟨hset, h⟩

/-- The peer has made a call: what this side knows of it goes on. -/
theorem Half.follow (h : Half g g' R R' (k'.Has R') k) (h₁ : Half g₁ g R₁ R G k₁) (he : g'.Extends g₁ D)
    (hR : R' ≤ R₁) (hH : ∀ n, k'.Has R' n → k₁.Has R₁ n) : Half g g₁ R R₁ (k₁.Has R₁) k where
  window := h.window
  setUp := h.setUp
  ships := h.ships
  covered := by
    refine ⟨h₁.gathers.lt_next, h.covered.head_le.trans (Nat.succ_le_succ hR),
      fun n h1 h2 hn => hH n (h.covered.gone n h1 h2 hn), fun ha => ?_⟩
    obtain ⟨hf, hle⟩ := h.covered.acked ha
    exact ⟨hf, hle.trans (Nat.succ_le_succ hR)⟩
  gathers := by
    refine h.gathers.mono he h₁.ships.sent_lt ?_
    have := h₁.next_le
    have := h₁.covered.head_le
    omega
  head_le := h₁.covered.head_le
  pos := h.pos

end Kernel

end Utp
