import LibUtp.Lib.Numbering
import LibUtp.Invariant.WrittenBytes
import LibUtp.Kernel.Packets

/-! The sending side of a connection with its numbers counted without wrapping. `Sending` is what
an observer knows of the stream: the payload under each number, and which numbers were sent. -/

namespace Utp

open Lts SequenceBuffer Numbering

/-- The stream of one direction as its sender has assigned it. `first` is the number of the SYN, and
`fin` says that the FIN has the last number. -/
structure Sending where
  first : ℕ
  head : ℕ
  next : ℕ
  body : ℕ → Bytes
  sent : ℕ → Prop
  fin : Bool

namespace Sending

variable {g g' g'' : Sending} {n m : ℕ} {b b' : Bytes}

/-- The bytes under the numbers below `m`. -/
def upTo (g : Sending) (m : ℕ) : Bytes := (List.range m).flatMap g.body

def stream (g : Sending) : Bytes := g.upTo g.next

theorem upTo_succ (g : Sending) (m : ℕ) : g.upTo (m + 1) = g.upTo m ++ g.body m := by
  unfold upTo
  rw [List.range_succ, List.flatMap_append, List.flatMap_singleton]

theorem upTo_congr (h : ∀ n < m, g'.body n = g.body n) : g'.upTo m = g.upTo m := by
  unfold upTo
  exact List.flatMap_congr fun n hn => h n (List.mem_range.1 hn)

theorem upTo_prefix (h : n ≤ m) : g.upTo n <+: g.upTo m := by
  induction h with
  | refl => exact List.prefix_refl _
  | step _ ih =>
    rw [upTo_succ]
    exact ih.trans (List.prefix_append _ _)

/-- `g'` is `g` after the stream has grown by `b`. What was sent stays as it was. -/
structure Extends (g g' : Sending) (b : Bytes) : Prop where
  first : g'.first = g.first
  head_le : g.head ≤ g'.head
  next_le : g.next ≤ g'.next
  sent : ∀ n, g.sent n → g'.sent n ∧ g'.body n = g.body n
  below : ∀ n, n + 1 < g.next → g'.body n = g.body n
  fin : g.fin → g'.fin ∧ g'.next = g.next
  stream : g'.stream = g.stream ++ b

theorem Extends.refl (g : Sending) : g.Extends g [] :=
  ⟨rfl, le_refl _, le_refl _, fun _ h => ⟨h, rfl⟩, fun _ _ => rfl, fun h => ⟨h, rfl⟩,
    (List.append_nil _).symm⟩

theorem Extends.trans (h : g.Extends g' b) (h' : g'.Extends g'' b') : g.Extends g'' (b ++ b') where
  first := h'.first.trans h.first
  head_le := h.head_le.trans h'.head_le
  next_le := h.next_le.trans h'.next_le
  sent n hn := by
    obtain ⟨h1, h2⟩ := h.sent n hn
    obtain ⟨h3, h4⟩ := h'.sent n h1
    exact ⟨h3, h4.trans h2⟩
  below n hn := (h'.below n (hn.trans_le h.next_le)).trans (h.below n hn)
  fin hf := by
    obtain ⟨h1, h2⟩ := h.fin hf
    obtain ⟨h3, h4⟩ := h'.fin h1
    exact ⟨h3, h4.trans h2⟩
  stream := by rw [h'.stream, h.stream, List.append_assoc]

/-- A number is noted as sent. -/
def note (g : Sending) (n : ℕ) : Sending := { g with sent := fun m => g.sent m ∨ m = n }

theorem extends_note (g : Sending) (n : ℕ) : g.Extends (g.note n) [] :=
  ⟨rfl, le_refl _, le_refl _, fun _ h => ⟨.inl h, rfl⟩, fun _ _ => rfl, fun h => ⟨h, rfl⟩,
    (List.append_nil _).symm⟩

/-- A number is assigned to the payload `b`. -/
def push (g : Sending) (b : Bytes) (fin : Bool) : Sending :=
  { g with next := g.next + 1, body := Function.update g.body g.next b, fin := fin }

/-- The last payload grows. -/
def grow (g : Sending) (b : Bytes) : Sending :=
  { g with body := Function.update g.body (g.next - 1) (g.body (g.next - 1) ++ b) }

/-- The head has left the window. -/
def shift (g : Sending) : Sending := { g with head := g.head + 1 }

end Sending

namespace Kernel

variable {g g' : Sending} {k k' : Kernel} {q : UInt16} {p p' : OutgoingPacket} {n m : ℕ}

/-- A packet as the sender builds it. -/
structure Plain (p : OutgoingPacket) : Prop where
  version : p.hdr.version = 1
  ext : p.hdr.ext = 0
  type : p.hdr.type = ST_SYN ∨ p.hdr.type = ST_DATA ∨ p.hdr.type = ST_FIN

theorem made_plain (b : Bytes) : Made Plain b where
  syn _ _ hp := ⟨hp.version, hp.ext, .inl hp.type⟩
  fin _ _ hp _ := ⟨hp.version, hp.ext, .inr (.inr hp.type)⟩
  data _ _ hp _ := ⟨hp.version, hp.ext, .inr (.inl hp.type)⟩
  extended _ _ _ hp _ := ⟨hp.version, hp.ext, .inr (.inl hp.type)⟩
  sent _ _ _ hp h := ⟨hp.version.trans h.version, hp.ext.trans h.ext, by rw [hp.type]; exact h.type⟩
  marked _ _ h := ⟨h.version, h.ext, h.type⟩

/-- The send window of `k` holds the stream `g` from its head on. -/
structure Ships (g : Sending) (k : Kernel) : Prop where
  next : k.seqNr = UInt16.ofNat g.next
  span : g.next = g.head + k.cur.toNat
  fin : k.finSent = g.fin
  packet : ∀ n p, g.head ≤ n → n < g.next → k.outbuf.slot (UInt16.ofNat n) = some p →
    p.body = g.body n ∧ (g.sent n → 0 < p.transmissions) ∧ (p.hdr.type = ST_SYN ↔ n = g.first)
  first : g.sent g.first
  sent_lt : ∀ n, g.sent n → n < g.next
  later : ∀ n, g.next ≤ n → g.body n = []
  plain : k.Each Plain
  bare : k.Each Bare
  tail : ∀ q p, k.outbuf.slot q = some p → p.hdr.type = ST_FIN → g.fin ∧ p.hdr.seqNr + 1 = k.seqNr

namespace Ships

theorem head_eq (h : Ships g k) : k.head = UInt16.ofNat g.head := by
  unfold head
  rw [h.next, h.span, UInt16.ofNat_add, UInt16.ofNat_toNat]
  grind

theorem cur_lt (h : Ships g k) : g.next < g.head + 2 ^ 16 := by
  have := h.span
  have := k.cur.toNat_lt
  omega

/-- A number of the window, as the ring sees it. -/
theorem mem (h : Ships g k) (h1 : g.head ≤ n) (h2 : n < g.next) : UInt16.ofNat n - k.head < k.cur := by
  have := h.cur_lt
  have := h.span
  rw [h.head_eq, UInt16.lt_iff_toNat_lt, toNat_sub_of_le h1 (by omega)]
  omega

/-- The number of a packet of the window. -/
theorem number (h : Ships g k) (hr : k.Ring) (hp : k.outbuf.slot q = some p) :
    ∃ n, g.head ≤ n ∧ n < g.next ∧ p.hdr.seqNr = UInt16.ofNat n ∧ k.outbuf.Same q (UInt16.ofNat n) := by
  obtain ⟨hwin, hsame⟩ := hr.occupied q p hp
  have hlt := UInt16.lt_iff_toNat_lt.1 hwin
  have hspan := h.span
  have hn : UInt16.ofNat (g.head + (p.hdr.seqNr - k.head).toNat) = p.hdr.seqNr := by
    rw [h.head_eq]
    exact ofNat_add_toNat
  refine ⟨g.head + (p.hdr.seqNr - k.head).toNat, by omega, by omega, hn.symm, ?_⟩
  rw [hn]
  exact hsame

/-- Different numbers of the window have different slots. -/
theorem eq_of_same (h : Ships g k) (hr : k.Ring) (h1 : g.head ≤ n) (h2 : n < g.next) (h3 : g.head ≤ m)
    (h4 : m < g.next) (hs : k.outbuf.Same (UInt16.ofNat n) (UInt16.ofNat m)) : n = m := by
  have := h.cur_lt
  exact eq_of_ofNat_eq (hr.same_eq hs (h.mem h1 h2) (h.mem h3 h4)) (by omega) (by omega)

/-- Fields beside the window. -/
theorem congr (h : Ships g k) (hq : k'.seqNr = k.seqNr) (hc : k'.cur = k.cur) (hb : k'.outbuf = k.outbuf)
    (hf : k'.finSent = k.finSent) : Ships g k' where
  next := hq.trans h.next
  span := by rw [hc]; exact h.span
  fin := hf.trans h.fin
  packet := by rw [hb]; exact h.packet
  first := h.first
  sent_lt := h.sent_lt
  later := h.later
  plain := by unfold Each; rw [hb]; exact h.plain
  bare := by unfold Each; rw [hb]; exact h.bare
  tail := by rw [hb, hq]; exact h.tail

/-- A packet of the same number and payload takes its place. -/
theorem replace (h : Ships g k) (hplain : Plain p') (hp : k.outbuf.slot q = some p)
    (hs : p'.hdr.seqNr = p.hdr.seqNr) (hb : p'.body = p.body) (ht : p.transmissions ≤ p'.transmissions)
    (hty : p'.hdr.type = p.hdr.type) (i : ℕ) :
    Ships g { k with outbuf := k.outbuf.setSlot q (some p'), inFlight := i } where
  next := h.next
  span := h.span
  fin := h.fin
  packet n r h1 h2 hn := by
    have hn : (k.outbuf.setSlot q (some p')).slot (UInt16.ofNat n) = some r := hn
    rw [slot_setSlot] at hn
    split at hn
    · rename_i hsame
      obtain rfl : p' = r := Option.some.inj hn
      have hold := h.packet n p h1 h2 (by rw [← hsame.slot_eq, hp])
      exact ⟨hb.trans hold.1, fun hsent => (hold.2.1 hsent).trans_le ht, by rw [hty]; exact hold.2.2⟩
    · exact h.packet n r h1 h2 hn
  first := h.first
  sent_lt := h.sent_lt
  later := h.later
  plain := h.plain.replace i hplain
  bare := h.bare.replace i (by
    intro hd
    rw [hb]
    exact h.bare q p hp (by rw [← hty]; exact hd))
  tail r p₀ hr' ht' := by
    have hr' : (k.outbuf.setSlot q (some p')).slot r = some p₀ := hr'
    rw [slot_setSlot] at hr'
    split at hr'
    · obtain rfl : p' = p₀ := Option.some.inj hr'
      obtain ⟨h1, h2⟩ := h.tail q p hp (by rw [← hty]; exact ht')
      exact ⟨h1, by rw [hs]; exact h2⟩
    · exact h.tail r p₀ hr' ht'

/-- A slot is emptied. -/
theorem clear (h : Ships g k) (q : UInt16) (p : OutgoingPacket) : Ships g (k.clear q p) where
  next := h.next
  span := h.span
  fin := h.fin
  packet n r h1 h2 hn := by
    have hn : (k.outbuf.setSlot q none).slot (UInt16.ofNat n) = some r := hn
    rw [slot_setSlot] at hn
    split at hn
    · cases hn
    · exact h.packet n r h1 h2 hn
  first := h.first
  sent_lt := h.sent_lt
  later := h.later
  plain := h.plain.clear q p
  bare := h.bare.clear q p
  tail r p₀ hr ht := by
    have hr : (k.outbuf.setSlot q none).slot r = some p₀ := hr
    rw [slot_setSlot] at hr
    split at hr
    · cases hr
    · exact h.tail r p₀ hr ht

theorem pop (h : Ships g k) (hc : 0 < k.cur) : Ships g.shift k.pop where
  next := h.next
  span := by
    have hpred := UtpSocket.toNat_pred hc
    have hspan := h.span
    have hpos := UInt16.lt_iff_toNat_lt.1 hc
    rw [UInt16.toNat_zero] at hpos
    show g.next = g.head + 1 + (k.cur - 1).toNat
    omega
  fin := h.fin
  packet n p h1 h2 := h.packet n p (le_trans (Nat.le_succ _) h1) h2
  first := h.first
  sent_lt := h.sent_lt
  later := h.later
  plain := h.plain
  bare := h.bare
  tail := h.tail

/-- A number whose packet, if it is still there, was sent. -/
theorem note (h : Ships g k) (hn : n < g.next)
    (hp : ∀ p, g.head ≤ n → k.outbuf.slot (UInt16.ofNat n) = some p → 0 < p.transmissions) :
    Ships (g.note n) k where
  next := h.next
  span := h.span
  fin := h.fin
  packet m p h1 h2 hm := by
    obtain ⟨h3, h4, h5⟩ := h.packet m p h1 h2 hm
    refine ⟨h3, fun hs => ?_, h5⟩
    rcases hs with hs | rfl
    · exact h4 hs
    · exact hp p h1 hm
  first := .inl h.first
  sent_lt m hs := by
    rcases hs with hs | rfl
    · exact h.sent_lt m hs
    · exact hn
  later := h.later
  plain := h.plain
  bare := h.bare
  tail := h.tail

/-- A packet is queued. -/
theorem queue (h : Ships g k) (hr : k.Ring) (fin closing : Bool) (hc : k.cur.toNat < 1024)
    (hf : g.fin = false) (hs : p.hdr.seqNr = k.seqNr) (hplain : Plain p) (hbare : Bare p)
    (hfin : p.hdr.type = ST_FIN → fin) (hsyn : p.hdr.type ≠ ST_SYN) :
    Ships (g.push p.body fin) { k.queue p with finSent := fin, closeRequested := closing } where
  next := by
    show k.seqNr + 1 = UInt16.ofNat (g.next + 1)
    rw [h.next, ofNat_succ]
  span := by
    have hspan := h.span
    have hsucc := Ring.toNat_succ hc
    show g.next + 1 = g.head + (k.cur + 1).toNat
    omega
  fin := rfl
  packet n r h1 h2 hn := by
    have h2 : n < g.next + 1 := h2
    have h1 : g.head ≤ n := h1
    show r.body = Function.update g.body g.next p.body n ∧ (g.sent n → 0 < r.transmissions) ∧
      (r.hdr.type = ST_SYN ↔ n = g.first)
    have hn : (k.queue p).outbuf.slot (UInt16.ofNat n) = some r := hn
    rcases Nat.lt_or_ge n g.next with hlt | hge
    · rw [hr.slot_queue (h.mem h1 hlt)] at hn
      rw [Function.update_of_ne (by omega)]
      exact h.packet n r h1 hlt hn
    · obtain rfl : n = g.next := by omega
      have hlast : (k.queue p).outbuf.slot k.seqNr = some p := slot_setSlot_self _ _ _
      rw [← h.next, hlast] at hn
      obtain rfl : p = r := Option.some.inj hn
      rw [Function.update_self]
      exact ⟨rfl, fun hsent => absurd (h.sent_lt _ hsent) (lt_irrefl _),
        fun ht => absurd ht hsyn, fun he => absurd he (h.sent_lt _ h.first).ne'⟩
  first := h.first
  sent_lt n hn := (h.sent_lt n hn).trans (Nat.lt_succ_self _)
  later n hn := by
    have hn : g.next + 1 ≤ n := hn
    show Function.update g.body g.next p.body n = []
    rw [Function.update_of_ne (by omega)]
    exact h.later n (by omega)
  plain := h.plain.queue hplain
  bare := h.bare.queue hbare
  tail r p₀ hr' ht := by
    have hr' : ((k.outbuf.ensureSize k.seqNr.toNat k.cur).setSlot k.seqNr (some p)).slot r = some p₀ := hr'
    rw [slot_setSlot] at hr'
    split at hr'
    · obtain rfl : p = p₀ := Option.some.inj hr'
      refine ⟨hfin ht, ?_⟩
      rw [hs]
      rfl
    · obtain ⟨v, -, -, hv⟩ := exists_of_slot_ensureSize hr'
      rw [(h.tail v p₀ hv ht).1] at hf
      cases hf

/-- The last packet grows. -/
theorem extend (h : Ships g k) (hr : k.Ring) (hc : 0 < k.cur) (hp : k.outbuf.slot (k.seqNr - 1) = some p)
    (ht : p.transmissions = 0) (hp' : k.Extended p b p') :
    Ships (g.grow b) { k with outbuf := k.outbuf.setSlot (k.seqNr - 1) (some p') } ∧
      ¬ g.sent (g.next - 1) ∧ 0 < g.next := by
  have hspan := h.span
  have hpos := UInt16.lt_iff_toNat_lt.1 hc
  rw [UInt16.toNat_zero] at hpos
  have hlast : k.seqNr - 1 = UInt16.ofNat (g.next - 1) := by
    rw [h.next, show g.next = g.next - 1 + 1 by omega, ofNat_succ]
    grind
  have hold := h.packet (g.next - 1) p (by omega) (by omega) (by rw [← hlast, hp])
  have hunsent : ¬ g.sent (g.next - 1) := by
    intro hs
    have := hold.2.1 hs
    omega
  have hne : g.next - 1 ≠ g.first := by
    intro he
    rw [he] at hunsent
    exact hunsent h.first
  refine ⟨?_, hunsent, by omega⟩
  exact
    { next := h.next
      span := h.span
      fin := h.fin
      packet := by
        intro n r h1 h2 hn
        have h1 : g.head ≤ n := h1
        have h2 : n < g.next := h2
        have hn : (k.outbuf.setSlot (k.seqNr - 1) (some p')).slot (UInt16.ofNat n) = some r := hn
        show r.body = Function.update g.body (g.next - 1) (g.body (g.next - 1) ++ b) n ∧ _
        rw [slot_setSlot] at hn
        split at hn
        · rename_i hsame
          obtain rfl : p' = r := Option.some.inj hn
          rw [hlast] at hsame
          obtain rfl : g.next - 1 = n := h.eq_of_same hr (by omega) (by omega) h1 h2 hsame
          rw [Function.update_self, hp'.body, hold.1]
          exact ⟨rfl, fun hs => absurd hs hunsent, fun ht => absurd (hp'.type.symm.trans ht) (by decide),
            fun he => absurd he hne⟩
        · rename_i hsame
          have hn' : n ≠ g.next - 1 := by
            rintro rfl
            exact hsame (by rw [hlast]; exact same_refl _ _)
          rw [Function.update_of_ne hn']
          exact h.packet n r h1 h2 hn
      first := h.first
      sent_lt := h.sent_lt
      later := by
        intro n hn
        have hn : g.next ≤ n := hn
        show Function.update g.body (g.next - 1) _ n = []
        rw [Function.update_of_ne (by omega)]
        exact h.later n hn
      plain := h.plain.replace k.inFlight ⟨hp'.version, hp'.ext, .inr (.inl hp'.type)⟩
      bare := h.bare.replace k.inFlight fun hd => absurd hp'.type hd
      tail := by
        intro r p₀ hr' hty
        have hr' : (k.outbuf.setSlot (k.seqNr - 1) (some p')).slot r = some p₀ := hr'
        rw [slot_setSlot] at hr'
        split at hr'
        · obtain rfl : p' = p₀ := Option.some.inj hr'
          rw [hp'.type] at hty
          exact absurd hty (by decide)
        · exact h.tail r p₀ hr' hty }

end Ships

end Kernel

namespace Sending

variable {g : Sending} {k : Kernel}

/-- A number is assigned. -/
theorem extends_push (h : Kernel.Ships g k) (hf : g.fin = false) (b : Bytes) (fin : Bool) :
    g.Extends (g.push b fin) b where
  first := rfl
  head_le := le_refl _
  next_le := Nat.le_succ _
  sent n hn := ⟨hn, Function.update_of_ne (h.sent_lt n hn).ne _ _⟩
  below n hn := Function.update_of_ne (by omega) _ _
  fin hfin := by
    rw [hf] at hfin
    cases hfin
  stream := by
    show (g.push b fin).upTo (g.next + 1) = g.upTo g.next ++ b
    rw [upTo_succ, upTo_congr (g := g) fun n hn => Function.update_of_ne hn.ne _ _]
    exact congrArg (g.upTo g.next ++ ·) (Function.update_self _ _ _)

/-- The last payload grows. -/
theorem extends_grow (hs : ¬ g.sent (g.next - 1)) (hn : 0 < g.next) (b : Bytes) : g.Extends (g.grow b) b where
  first := rfl
  head_le := le_refl _
  next_le := le_refl _
  sent n hn := by
    refine ⟨hn, Function.update_of_ne ?_ _ _⟩
    rintro rfl
    exact hs hn
  below n hn := Function.update_of_ne (by omega) _ _
  fin hf := ⟨hf, rfl⟩
  stream := by
    obtain ⟨m, hm⟩ : ∃ m, g.next = m + 1 := ⟨g.next - 1, by omega⟩
    show (g.grow b).upTo g.next = g.upTo g.next ++ b
    rw [hm, upTo_succ, upTo_succ, upTo_congr (g := g) fun n hn => Function.update_of_ne (by omega) _ _,
      List.append_assoc]
    congr 1
    show Function.update g.body (g.next - 1) (g.body (g.next - 1) ++ b) m = g.body m ++ b
    rw [show g.next - 1 = m by omega, Function.update_self]

theorem extends_shift (g : Sending) : g.Extends g.shift [] :=
  ⟨rfl, Nat.le_succ _, le_refl _, fun _ h => ⟨h, rfl⟩, fun _ _ => rfl, fun h => ⟨h, rfl⟩,
    (List.append_nil _).symm⟩

end Sending

namespace Kernel

variable {g g' : Sending} {k k' : Kernel} {acts : List Act} {x : Input} {R : ℕ} {G : ℕ → Prop} {b : Bytes}

/-! What the sender gives up. -/

/-- The receiver has `G`, the numbers up to `R` in order among them; what has left the window is
there. -/
structure Covered (R : ℕ) (G : ℕ → Prop) (g : Sending) (k : Kernel) : Prop where
  got_lt : R < g.next
  head_le : g.head ≤ R + 1
  gone : ∀ n, g.head ≤ n → n < g.next → k.outbuf.slot (UInt16.ofNat n) = none → G n
  acked : k.finSentAcked → g.fin ∧ g.next ≤ R + 1

/-- What a packet of the receiver says, whenever it was sent: everything up to `r` has come, and the
numbers of the bitmap too. -/
structure Told (R : ℕ) (G : ℕ → Prop) (next : ℕ) (pp : ParsedPacket) : Prop where
  said : ∃ r, pp.ackNr = UInt16.ofNat r ∧ r ≤ R ∧ next ≤ r + 2 ^ 16 ∧ ∀ mask, pp.selack = some mask →
    ∀ i : ℕ, UtpSocket.maskBit mask i → r + 2 + i < next ∧ G (r + 2 + i)

theorem Covered.congr (h : Covered R G g k) (hb : k'.outbuf = k.outbuf)
    (hf : k'.finSentAcked = k.finSentAcked) : Covered R G g k' :=
  ⟨h.got_lt, h.head_le, by rw [hb]; exact h.gone, by rw [hf]; exact h.acked⟩

/-- A slot takes a packet. -/
theorem Covered.fill (h : Covered R G g k) (q : UInt16) (p : OutgoingPacket) (i : ℕ) :
    Covered R G g { k with outbuf := k.outbuf.setSlot q (some p), inFlight := i } := by
  refine ⟨h.got_lt, h.head_le, fun n h1 h2 hn => ?_, h.acked⟩
  have hn : (k.outbuf.setSlot q (some p)).slot (UInt16.ofNat n) = none := hn
  rw [slot_setSlot] at hn
  split at hn
  · cases hn
  · exact h.gone n h1 h2 hn

/-- The cumulative acknowledgement reaches no further than the receiver. -/
theorem Covered.count_le (h : Covered R G g k) (hs : Ships g k) {pp : ParsedPacket}
    (ht : Told R G g.next pp) : g.head + k.ackCount pp ≤ R + 1 := by
  obtain ⟨r, hr, hle, hnear, -⟩ := ht.said
  have hspan := hs.span
  have hhead := h.head_le
  have hlt := h.got_lt
  have he : pp.ackNr - (k.seqNr - 1 - k.cur) = UInt16.ofNat (r + 1) - UInt16.ofNat g.head := by
    have := hs.head_eq
    unfold head at this
    rw [hr, ofNat_succ, ← this]
    grind
  unfold ackCount
  dsimp only
  rw [he]
  rcases Nat.lt_or_ge (r + 1) g.head with hlt' | hge
  · -- an old acknowledgement counts too many packets and is left out
    have hwrap := toNat_sub_of_lt hlt' (by omega)
    rw [if_pos (by omega)]
    omega
  · have hcur := hs.cur_lt
    rw [toNat_sub_of_le hge (by omega)]
    split <;> omega

/-- The packets that leave the window are there. -/
theorem Pops.ships {n : ℕ} (hp : Pops n k acts k') (hr : k.Ring) (hs : Ships g k) (hc : Covered R G g k)
    (hG : ¬ G (R + 1)) (hn : g.head + n ≤ R + 1) :
    ∃ g', Ships g' k' ∧ Covered R G g' k' ∧ g.Extends g' [] ∧ g'.next = g.next := by
  induction hp generalizing g with
  | done => exact ⟨g, hs, hc, .refl g, rfl⟩
  | @acked n k p acts k' hcur hp ht hpops ih =>
    have hpos := UInt16.lt_iff_toNat_lt.1 hcur
    rw [UInt16.toNat_zero] at hpos
    have hspan := hs.span
    have hs' : Ships g.shift (k.clear k.head p).pop := (hs.clear k.head p).pop hcur
    have hc' : Covered R G g.shift (k.clear k.head p).pop := by
      refine ⟨hc.got_lt, ?_, fun m h1 h2 hm => ?_, hc.acked⟩
      · show g.head + 1 ≤ R + 1
        omega
      · have h1 : g.head + 1 ≤ m := h1
        have h2 : m < g.next := h2
        have hm : (k.outbuf.setSlot k.head none).slot (UInt16.ofNat m) = none := hm
        rw [slot_setSlot] at hm
        split at hm
        · rename_i hsame
          rw [hs.head_eq] at hsame
          have := hs.eq_of_same hr (le_refl _) (by omega) (by omega) h2 hsame
          omega
        · exact hc.gone m (by omega) h2 hm
    obtain ⟨g', h1, h2, h3, h4⟩ := ih ((hr.clear hp ht).pop hcur (slot_setSlot_self _ _ _)) hs' hc' (by
      show g.head + 1 + n ≤ R + 1
      omega)
    exact ⟨g', h1, h2, (Sending.extends_shift g).trans h3, h4⟩
  | @empty n k acts k' hcur hp hpops ih =>
    have hpos := UInt16.lt_iff_toNat_lt.1 hcur
    rw [UInt16.toNat_zero] at hpos
    have hspan := hs.span
    -- the receiver has the head, so everything up to it
    have hhead : G g.head := hc.gone g.head (le_refl _) (by omega) (by rw [← hs.head_eq]; exact hp)
    have hle := hc.head_le
    have hne : g.head ≠ R + 1 := by
      intro he
      rw [he] at hhead
      exact hG hhead
    have hc' : Covered R G g.shift k.pop := by
      refine ⟨hc.got_lt, ?_, fun m h1 h2 hm => hc.gone m (le_trans (Nat.le_succ _) h1) h2 hm, hc.acked⟩
      show g.head + 1 ≤ R + 1
      omega
    obtain ⟨g', h1, h2, h3, h4⟩ := ih (hr.pop hcur hp) (hs.pop hcur) hc' (by
      show g.head + 1 + (n - 1) ≤ R + 1
      omega)
    exact ⟨g', h1, h2, (Sending.extends_shift g).trans h3, h4⟩
  | check _ _ ih => exact ih hr hs hc hn

theorem acked_ackState {pp : ParsedPacket} (h : (k.ackState pp).finSentAcked) :
    k.finSentAcked ∨ k.finSent ∧ k.cur.toNat = k.ackCount pp := by
  rw [or_iff_not_imp_right]
  intro hn
  unfold Kernel.ackState at h
  dsimp only at h
  have hopen : (if pp.type = ST_DATA ∧ k.state = .synRecv then { k with state := .connected } else k).finSent =
      k.finSent ∧ (if pp.type = ST_DATA ∧ k.state = .synRecv then { k with state := .connected } else k).cur =
      k.cur ∧ (if pp.type = ST_DATA ∧ k.state = .synRecv then { k with state := .connected } else k).finSentAcked =
      k.finSentAcked := by
    split <;> exact ⟨rfl, rfl, rfl⟩
  generalize (if pp.type = ST_DATA ∧ k.state = .synRecv then { k with state := .connected } else k) = k₁
    at h hopen
  obtain ⟨h1, h2, h3⟩ := hopen
  rw [← h3]
  split at h
  · exact h
  · split at h
    · rename_i hc
      rw [h1, h2] at hc
      exact absurd hc hn
    · exact h

/-- The acknowledgement of the FIN is what it seems. -/
theorem Covered.ackState (h : Covered R G g k) (hs : Ships g k) {pp : ParsedPacket}
    (ht : Told R G g.next pp) : Covered R G g (k.ackState pp) := by
  have hcount := h.count_le hs ht
  have hspan := hs.span
  obtain ⟨st, f, he⟩ := k.ackState_eq pp
  refine ⟨h.got_lt, h.head_le, by rw [he]; exact h.gone, fun hf => ?_⟩
  rcases acked_ackState hf with hf | ⟨hfin, hcur⟩
  · exact h.acked hf
  · exact ⟨hs.fin ▸ hfin, by omega⟩

/-- A packet that the bitmap names is there. -/
theorem Covered.sack (h : Covered R G g k) (hs : Ships g k) (hr : k.Ring) {pp : ParsedPacket}
    (ht : Told R G g.next pp) {mask : Bytes} {bits : ℤ} {v : UInt16} {p : OutgoingPacket}
    (hm : pp.selack = some mask) (hb : UtpSocket.maskBit mask bits) (hcur : 0 < k.cur)
    (hv : v = UInt16.ofInt (pp.ackNr.toNat + 2 + bits)) (hw : k.InEackWindow v)
    (hp : k.outbuf.slot v = some p) : Covered R G g (k.clear v p) := by
  obtain ⟨r, hack, hle, hnear, hbits⟩ := ht.said
  have hspan := hs.span
  have hcap := hr.length_le
  obtain ⟨i, rfl⟩ : ∃ i : ℕ, bits = i := by
    refine ⟨bits.toNat, ?_⟩
    unfold UtpSocket.maskBit at hb
    rw [Bool.and_eq_true, Bool.and_eq_true, decide_eq_true_eq] at hb
    omega
  obtain ⟨hlt, hgot⟩ := hbits mask hm i hb
  have hv' : v = UInt16.ofNat (r + 2 + i) := by
    rw [hv, hack]
    apply UInt16.toNat.inj
    have := toNat_ofInt (((UInt16.ofNat r).toNat : ℤ) + 2 + i)
    simp only [toNat_ofNat] at this ⊢
    omega
  -- the slot holds the packet of this number
  obtain ⟨m, h1, h2, h3, h4⟩ := hs.number hr hp
  have hvm : v = UInt16.ofNat m := hr.same_eq h4 (hw.lt hcur).1 (hs.mem h1 h2)
  obtain rfl : m = r + 2 + i := eq_of_ofNat_eq (by rw [← hvm, hv']) (by omega) (by omega)
  refine ⟨h.got_lt, h.head_le, fun n h5 h6 hn => ?_, h.acked⟩
  have hn : (k.outbuf.setSlot v none).slot (UInt16.ofNat n) = none := hn
  rw [slot_setSlot] at hn
  split at hn
  · rename_i hsame
    rw [hv'] at hsame
    obtain rfl := hs.eq_of_same hr h1 h2 h5 h6 hsame
    exact hgot
  · exact h.gone n h5 h6 hn

/-! What is sent. -/

/-- A packet of the window as it is sent. -/
structure Segment (g : Sending) (ack : UInt16) (n : ℕ) (hdr : PacketFormatV1) : Prop where
  sent : g.sent n
  head_le : g.head ≤ n
  seqNr : hdr.seqNr = UInt16.ofNat n
  ackNr : hdr.ackNr = ack
  version : hdr.version = 1
  ext : hdr.ext = 0
  type : hdr.type = ST_SYN ∨ hdr.type = ST_DATA ∨ hdr.type = ST_FIN
  syn : hdr.type = ST_SYN ↔ n = g.first
  fin : hdr.type = ST_FIN → g.fin ∧ n + 1 = g.next

/-- A datagram: a packet of the window, or an acknowledgement, which may name one number too few. -/
def Posts (g : Sending) (k : Kernel) (b : Bytes) : Prop :=
  (∃ n hdr, b = hdr.toBytes ++ g.body n ∧ Segment g k.ackNr n hdr) ∨ k.StateBytes b ∨ k.behind.StateBytes b

/-- What a step does to the stream: only an acknowledgement moves the head, and only a call of the
application the end. -/
structure Moves (x : Input) (g g' : Sending) (b : Bytes) : Prop where
  extend : g.Extends g' b
  head : (∀ pp, x ≠ .ack pp) → g'.head = g.head
  next : x ≠ .api → g'.next = g.next

theorem Moves.refl (x : Input) (g : Sending) : Moves x g g [] := ⟨.refl g, fun _ => rfl, fun _ => rfl⟩

/-- A packet of the window is sent. -/
theorem Ships.transmit (hs : Ships g k) (hw : k.Window) {q : UInt16} {p p' : OutgoingPacket}
    (hp : k.outbuf.slot q = some p) (hp' : k.Sent p p') :
    ∃ n, Ships (g.note n) (k.transmit q p p') ∧
      ∃ hdr, p'.hdr.toBytes ++ p'.body = hdr.toBytes ++ (g.note n).body n ∧ Segment (g.note n) k.ackNr n hdr := by
  obtain ⟨n, h1, h2, h3, h4⟩ := hs.number hw.toRing hp
  have hslot : k.outbuf.slot (UInt16.ofNat n) = some p := by rw [← h4.slot_eq, hp]
  have hplain := hs.plain q p hp
  obtain ⟨hbody, -, hsyn⟩ := hs.packet n p h1 h2 hslot
  have hplain' : Plain p' := by
    refine ⟨hp'.version.trans hplain.version, hp'.ext.trans hplain.ext, ?_⟩
    rw [hp'.type]
    exact hplain.type
  have hpos : 0 < p'.transmissions := by
    rw [hp'.transmissions]
    omega
  have hs' : Ships g (k.transmit q p p') := hs.replace hplain' hp hp'.seqNr hp'.body
    (by rw [hp'.transmissions]; omega) hp'.type _
  refine ⟨n, hs'.note h2 fun r _ hr => ?_, p'.hdr, ?_, ?_⟩
  · have hr : (k.outbuf.setSlot q (some p')).slot (UInt16.ofNat n) = some r := hr
    rw [slot_setSlot, if_pos h4] at hr
    rw [← Option.some.inj hr]
    exact hpos
  · rw [hp'.body, hbody]
    rfl
  · refine ⟨.inr rfl, h1, hp'.seqNr.trans h3, hp'.ackNr, hplain'.version, hplain'.ext, hplain'.type,
      by rw [hp'.type]; exact hsyn, fun ht => ?_⟩
    obtain ⟨hf, htail⟩ := hs.tail q p hp (by rw [← hp'.type]; exact ht)
    refine ⟨hf, ?_⟩
    have hcap := hw.length_le
    have hspan := hs.span
    rw [h3, ← ofNat_succ, hs.next] at htail
    show n + 1 = g.next
    exact eq_of_ofNat_eq htail (by omega) (by omega)

/-- A step that leaves the window, the FIN and the network alone. -/
theorem ships_idle (hs : Ships g k) (hc : Covered R G g k) (x : Input) (hq : k'.seqNr = k.seqNr)
    (hcur : k'.cur = k.cur) (hb : k'.outbuf = k.outbuf) (hf : k'.finSent = k.finSent)
    (ha : k'.finSentAcked = k.finSentAcked) {acts : List Act} (ht : acts.flatMap Act.taken = [])
    (hp : ∀ b flags, Act.send b flags ∈ acts → Posts g k b) :
    ∃ g', Ships g' k' ∧ Covered R G g' k' ∧ Moves x g g' (acts.flatMap Act.taken) ∧
      ∀ b flags, Act.send b flags ∈ acts → Posts g' k b := by
  refine ⟨g, hs.congr hq hcur hb hf, hc.congr hb ha, ?_, hp⟩
  rw [ht]
  exact .refl x g

theorem Drains.ships {k k' : Kernel} {acts : List Act} (hd : Drains k acts k') :
    k'.seqNr = k.seqNr ∧ k'.cur = k.cur ∧ k'.outbuf = k.outbuf ∧ k'.finSent = k.finSent ∧
      k'.finSentAcked = k.finSentAcked ∧ acts.flatMap Act.taken = [] := by
  have hread (k : Kernel) (b : Bytes) : (k.readAct b).flatMap Act.taken = [] := by
    unfold readAct
    split <;> rfl
  induction hd with
  | eof => exact ⟨rfl, rfl, rfl, rfl, rfl, rfl⟩
  | idle => exact ⟨rfl, rfl, rfl, rfl, rfl, rfl⟩
  | @release k p acts k' _ _ _ _ ih =>
    obtain ⟨h1, h2, h3, h4, h5, h6⟩ := ih
    refine ⟨h1, h2, h3, h4, h5, ?_⟩
    rw [List.flatMap_append, hread, h6]
    rfl

theorem not_send_of_mute {acts : List Act} (h : Mute acts) (b : Bytes) (flags : UInt32) :
    Act.send b flags ∉ acts := by
  intro hm
  exact h b flags (List.mem_flatMap.2 ⟨_, hm, List.mem_singleton.2 rfl⟩)

/-- What every step of a socket that is set up does to its stream, as long as the packets of the peer
tell the truth. -/
theorem ships_micro (hw : k.Window) (hset : k.state ≠ .uninitialized) (hs : Ships g k)
    (hc : Covered R G g k) (hG : ¬ G (R + 1))
    (hx : ∀ pp, x = .ack pp ∨ x = .eack pp → Told R G g.next pp) (hm : Micro x k acts k') :
    ∃ g', Ships g' k' ∧ Covered R G g' k' ∧ Moves x g g' (acts.flatMap Act.taken) ∧
      ∀ b flags, Act.send b flags ∈ acts → Posts g' k b := by
  have hnone {l : List Act} (h : ∀ b flags, Act.send b flags ∉ l) (g' : Sending) :
      ∀ b flags, Act.send b flags ∈ l → Posts g' k b := fun b flags hl => absurd hl (h b flags)
  cases hm with
  | accept hu => exact absurd hu hset
  | connect hu => exact absurd hu hset
  | @transmit x k q p p' flags hp hp' =>
    obtain ⟨n, hn, hdr, he, hseg⟩ := hs.transmit hw hp hp'
    refine ⟨g.note n, hn, ?_, ⟨g.extends_note n, fun _ => rfl, fun _ => rfl⟩, fun b f hb => ?_⟩
    · have hf := hc.fill q p' (k.transmit q p p').inFlight
      exact ⟨hf.got_lt, hf.head_le, hf.gone, hf.acked⟩
    · simp only [List.mem_singleton, Act.send.injEq] at hb
      rw [hb.1]
      exact .inl ⟨n, hdr, he, hseg⟩
  | @queue k p hst hf hcur hp =>
    have hf' : g.fin = false := hs.fin ▸ hf
    have hlen := hw.length_lt hf
    have hplain : Plain p := ⟨hp.version, hp.ext, .inr (.inl hp.type)⟩
    have hq := hs.queue hw.toRing false k.closeRequested hlen hf' hp.seqNr hplain
      (fun hd => absurd hp.type hd) (fun ht => by rw [hp.type] at ht; exact absurd ht (by decide))
      (by rw [hp.type]; decide)
    have hext := Sending.extends_push hs hf' p.body false
    refine ⟨g.push p.body false, ?_, ?_, ?_, hnone (by simp) _⟩
    · have hk : ({ k.queue p with finSent := false, closeRequested := k.closeRequested } : Kernel) = k.queue p := by
        rw [← hf]
        rfl
      rw [hk] at hq
      exact hq
    · refine ⟨hc.got_lt.trans (Nat.lt_succ_self _), hc.head_le, fun n h1 h2 hn => ?_, fun ha => ?_⟩
      · have h1 : g.head ≤ n := h1
        have h2 : n < g.next + 1 := h2
        rcases Nat.lt_or_ge n g.next with hlt | hge
        · rw [hw.toRing.slot_queue (hs.mem h1 hlt)] at hn
          exact hc.gone n h1 hlt hn
        · obtain rfl : n = g.next := by omega
          have hlast : (k.queue p).outbuf.slot k.seqNr = some p := slot_setSlot_self _ _ _
          rw [← hs.next, hlast] at hn
          cases hn
      · have := (hc.acked ha).1
        rw [hf'] at this
        cases this
    · refine ⟨?_, fun _ => rfl, fun h => absurd rfl h⟩
      simpa [Act.taken] using hext
  | @extend k p b p' hst hf hcur hp ht hp' =>
    obtain ⟨h1, h2, h3⟩ := hs.extend hw.toRing hcur hp ht hp'
    refine ⟨g.grow b, h1, ?_, ⟨?_, fun _ => rfl, fun _ => rfl⟩, hnone (by simp) _⟩
    · have hfill := hc.fill (k.seqNr - 1) p' k.inFlight
      exact ⟨hfill.got_lt, hfill.head_le, hfill.gone, hfill.acked⟩
    · simpa [Act.taken] using Sending.extends_grow h2 h3 b
  | @queueFin k p closing ho hf hp hb =>
    have hf' : g.fin = false := hs.fin ▸ hf
    have hlen := hw.length_lt hf
    have hplain : Plain p := ⟨hp.version, hp.ext, .inr (.inr hp.type)⟩
    have hq := hs.queue hw.toRing true (k.closeRequested || closing) hlen hf' hp.seqNr hplain
      (fun _ => hb) (fun _ => rfl) (by rw [hp.type]; decide)
    have hext := Sending.extends_push hs hf' p.body true
    rw [hb] at hq hext
    refine ⟨g.push [] true, hq, ?_, ⟨hext, fun _ => rfl, fun h => absurd rfl h⟩, hnone (by simp) _⟩
    refine ⟨hc.got_lt.trans (Nat.lt_succ_self _), hc.head_le, fun n h1 h2 hn => ?_, fun ha => ?_⟩
    · have h1 : g.head ≤ n := h1
      have h2 : n < g.next + 1 := h2
      have hn : (k.queue p).outbuf.slot (UInt16.ofNat n) = none := hn
      rcases Nat.lt_or_ge n g.next with hlt | hge
      · rw [hw.toRing.slot_queue (hs.mem h1 hlt)] at hn
        exact hc.gone n h1 hlt hn
      · obtain rfl : n = g.next := by omega
        have hlast : (k.queue p).outbuf.slot k.seqNr = some p := slot_setSlot_self _ _ _
        rw [← hs.next, hlast] at hn
        cases hn
    · have := (hc.acked ha).1
      rw [hf'] at this
      cases this
  | @mark k q p hcu hp ht hn =>
    have hplain := hs.plain q p hp
    have hplain' : Plain { p with needResend := true } := ⟨hplain.version, hplain.ext, hplain.type⟩
    have hrep := hs.replace hplain' hp rfl rfl (le_refl _) rfl (k.inFlight - p.payload)
    have htaken : (k.removal p).flatMap Act.taken = [] := by
      unfold removal
      split <;> rfl
    refine ⟨g, hrep, hc.fill _ _ _, ?_, hnone (fun b f => not_send_of_mute (mute_removal k p) b f) _⟩
    rw [htaken]
    exact .refl _ g
  | @advance pp k acts k' hst hp =>
    have ht := hx pp (.inl rfl)
    have hs' : Ships g (k.ackState pp) := by
      obtain ⟨st, f, he⟩ := k.ackState_eq pp
      rw [he]
      exact hs.congr rfl rfl rfl rfl
    obtain ⟨g', h1, h2, h3, h4⟩ := hp.ships (hw.toRing.ackState pp) hs' (hc.ackState hs ht) hG (hc.count_le hs ht)
    refine ⟨g', h1, h2, ⟨?_, fun h => absurd rfl (h pp), fun _ => h4⟩, hnone (fun b f => not_send_of_mute hp.mute b f) _⟩
    rw [hp.taken]
    exact h3
  | @sack pp k mask bits v p hmask hbit hcu hv hwin hp ht =>
    have htaken : (k.removal p).flatMap Act.taken = [] := by
      unfold removal
      split <;> rfl
    refine ⟨g, hs.clear v p, hc.sack hs hw.toRing (hx pp (.inr rfl)) hmask hbit hcu hv hwin hp, ?_,
      hnone (fun b f => not_send_of_mute (mute_removal k p) b f) _⟩
    rw [htaken]
    exact .refl _ g
  | @deliver pp k acts k' ho hd ht hf hdr =>
    obtain ⟨h1, h2, h3, h4, h5, h6⟩ := hdr.ships
    have hmute : Mute (k.readAct pp.payload ++ acts) := (mute_readAct _ _).append hdr.mute.2
    refine ships_idle hs hc _ h1 h2 h3 h4 h5 ?_ (hnone (fun b f => not_send_of_mute hmute b f) _)
    rw [List.flatMap_append, h6, List.append_nil]
    unfold readAct
    split <;> rfl
  | state hb =>
    refine ships_idle hs hc _ rfl rfl rfl rfl rfl ?_ fun b f hm => ?_
    · rfl
    simp only [List.mem_singleton, Act.send.injEq] at hm
    rw [hm.1]
    exact .inr (.inl hb)
  | keepAlive hb =>
    refine ships_idle hs hc _ rfl rfl rfl rfl rfl ?_ fun b f hm => ?_
    · rfl
    simp only [List.mem_singleton, Act.send.injEq] at hm
    rw [hm.1]
    exact .inr (.inr hb)
  | _ =>
    refine ships_idle hs hc _ ?_ ?_ ?_ ?_ ?_ ?_ (hnone ?_ _)
    all_goals first | rfl | simp

end Kernel

end Utp
