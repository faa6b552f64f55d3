import LibUtp.Invariant.SendWindow
import LibUtp.Kernel.Life
import LibUtp.Kernel.Sends

/-! The cursor of the flush: what lies in the send window before the place where the scan starts is
acknowledged, or sent and not marked for resend, as long as no packet is queued while the cursor is
one past its number. -/

namespace Utp

open Lts SequenceBuffer

namespace Kernel

variable {x : Input} {k k' : Kernel} {acts : List Act}

/-- How many numbers of the window the scan leaves out. -/
def skipped (k : Kernel) : ℕ := if k.cur < k.cursor - k.head then 0 else (k.cursor - k.head).toNat

theorem skipped_le (k : Kernel) : k.skipped ≤ k.cur.toNat := by
  unfold skipped
  split
  · exact Nat.zero_le _
  · rename_i h
    exact UInt16.le_iff_toNat_le.1 (UInt16.not_lt.1 h)

theorem flushBegin_eq (k : Kernel) : k.flushBegin = k.nth k.skipped := by
  unfold flushBegin skipped
  by_cases h : k.cur < k.cursor - k.head
  · rw [if_pos h, if_pos h, nth_zero]
  · rw [if_neg h, if_neg h, nth_offset]

/-- The numbers that the scan leaves out need no scan. -/
def Swept (k : Kernel) : Prop := ∀ i < k.skipped, UtpSocket.settled (k.outbuf.slot (k.nth i))

theorem swept_of_skipped (h : k.skipped = 0) : k.Swept := by
  intro i hi
  omega

theorem swept_of_empty (h : k.cur = 0) : k.Swept := by
  refine swept_of_skipped ?_
  have hle := k.skipped_le
  rw [h, UInt16.toNat_zero] at hle
  omega

theorem swept_of_rewound (h : k.cursor = k.head) : k.Swept := by
  refine swept_of_skipped ?_
  have hz : k.cursor - k.head = 0 := by
    rw [h]
    exact UInt16.sub_self _
  unfold skipped
  rw [hz]
  split <;> rfl

theorem Swept.congr (h : k.Swept) (hq : k'.seqNr = k.seqNr) (hc : k'.cur = k.cur)
    (hcur : k'.cursor = k.cursor) (hb : k'.outbuf = k.outbuf) : k'.Swept := by
  have hhead : k'.head = k.head := by
    unfold head
    rw [hq, hc]
  unfold Swept skipped nth at *
  rw [hc, hcur, hb, hhead]
  exact h

/-- A slot is emptied or its packet sent. -/
theorem Swept.setSlot (h : k.Swept) (q : UInt16) {p : Option OutgoingPacket} (hp : UtpSocket.settled p)
    (n : ℕ) : Swept { k with outbuf := k.outbuf.setSlot q p, inFlight := n } := by
  intro i hi
  show UtpSocket.settled ((k.outbuf.setSlot q p).slot (k.nth i))
  rw [slot_setSlot]
  split
  · exact hp
  · exact h i hi

/-- The unsent packet at the end of the window grows. -/
theorem Swept.extend (h : k.Swept) {q : UInt16} {p : OutgoingPacket} (hp : k.outbuf.slot q = some p)
    (ht : p.transmissions = 0) (p' : OutgoingPacket) :
    Swept { k with outbuf := k.outbuf.setSlot q (some p') } := by
  intro i hi
  have hi' := h i hi
  show UtpSocket.settled ((k.outbuf.setSlot q (some p')).slot (k.nth i))
  rw [slot_setSlot]
  split
  · rename_i hs
    rw [← hs.slot_eq, hp] at hi'
    simp [UtpSocket.settled, ht] at hi'
  · exact hi'

theorem Ring.extend (h : k.Ring) {q : UInt16} {p p' : OutgoingPacket} (hp : k.outbuf.slot q = some p)
    (ht : p.transmissions = 0) (hs : p'.hdr.seqNr = p.hdr.seqNr) (ht' : p'.transmissions = 0) :
    Ring { k with outbuf := k.outbuf.setSlot q (some p') } := by
  refine h.replace hp (x := some p') (by rintro _ ⟨⟩; exact hs) (n := k.inFlight) ?_
  rw [flightOf_idle (.inl ht), flightOf_idle (.inl ht')]

/-- The head leaves the window. -/
theorem Swept.pop (h : k.Swept) (hc : 0 < k.cur) : k.pop.Swept := by
  have hskip : k.pop.skipped + 1 ≤ k.skipped ∨ k.pop.skipped = 0 := by
    have hpop : k.pop.cursor - k.pop.head = k.cursor - k.head - 1 := by
      unfold head Kernel.pop
      grind
    have hcur := UtpSocket.toNat_pred hc
    have hc := UInt16.lt_iff_toNat_lt.1 hc
    unfold skipped
    rw [hpop]
    show (if k.cur - 1 < k.cursor - k.head - 1 then 0 else (k.cursor - k.head - 1).toNat) + 1 ≤ _ ∨
      (if k.cur - 1 < k.cursor - k.head - 1 then 0 else (k.cursor - k.head - 1).toNat) = 0
    generalize k.cursor - k.head = d
    simp only [UInt16.lt_iff_toNat_lt] at hc ⊢
    rcases Nat.eq_zero_or_pos d.toNat with hd | hd
    · have hd : d = 0 := UInt16.toNat_inj.1 hd
      have hlt := k.cur.toNat_lt
      have hmax : (0 - 1 : UInt16).toNat = 2 ^ 16 - 1 := rfl
      rw [UInt16.toNat_zero] at hc
      rw [hd, if_pos (by omega)]
      exact .inr rfl
    · have hpred := UtpSocket.toNat_pred (UInt16.lt_iff_toNat_lt.2 (by rwa [UInt16.toNat_zero] : (0 : UInt16).toNat < d.toNat))
      split_ifs <;> omega
  intro i hi
  show UtpSocket.settled (k.outbuf.slot (k.pop.nth i))
  rw [nth_pop]
  exact h (i + 1) (by omega)

/-- A packet is queued, and its number is not the one before the cursor. -/
theorem Swept.queue (h : k.Swept) (hk : k.Ring) (hc : k.cur.toNat < 1024) (hcur : k.cursor ≠ k.seqNr + 1)
    (p : OutgoingPacket) : (k.queue p).Swept := by
  have hsucc := Ring.toNat_succ hc
  have hhead : (k.queue p).head = k.head := by
    unfold head Kernel.queue
    grind
  have hskip : (k.queue p).skipped ≤ k.skipped := by
    have hne : k.cursor - k.head ≠ k.cur + 1 := by
      unfold head
      grind
    unfold skipped
    rw [hhead]
    show (if k.cur + 1 < k.cursor - k.head then 0 else (k.cursor - k.head).toNat) ≤ _
    generalize k.cursor - k.head = d at hne
    rw [Ne, ← UInt16.toNat_inj] at hne
    simp only [UInt16.lt_iff_toNat_lt]
    split_ifs <;> omega
  intro i hi
  have hle := k.skipped_le
  show UtpSocket.settled ((k.queue p).outbuf.slot ((k.queue p).nth i))
  unfold nth
  rw [hhead]
  have hslot := hk.slot_queue (p := p) (k.nth_mem (i := i) (by omega))
  unfold nth at hslot
  rw [hslot]
  exact h i (by omega)

/-- The rounds of a write: the unsent packet at the end of the window grows, and at most one packet
is queued. -/
inductive Rounds : Kernel → Kernel → Prop
  | stay {k : Kernel} : Rounds k k
  | grow {k k' : Kernel} {q p p'} (hp : k.outbuf.slot q = some p) (ht : p.transmissions = 0)
      (hs : p'.hdr.seqNr = p.hdr.seqNr) (ht' : p'.transmissions = 0)
      (h : Rounds { k with outbuf := k.outbuf.setSlot q (some p') } k') : Rounds k k'
  | queue {k : Kernel} {p} : Rounds k (k.queue p)

theorem Rounds.swept (h : k.Rounds k') (hr : k.Ring) (hs : k.Swept) (hc : k.cur.toNat < 1024)
    (ha : k'.seqNr ≠ k.seqNr → k.cursor ≠ k.seqNr + 1) : k'.Swept := by
  induction h with
  | stay => exact hs
  | grow hp ht hseq ht' h ih => exact ih (hr.extend hp ht hseq ht') (hs.extend hp ht _) hc ha
  | @queue k p =>
    refine hs.queue hr hc (ha ?_) p
    show k.seqNr + 1 ≠ k.seqNr
    grind

theorem Pops.swept {n : ℕ} (h : Pops n k acts k') (hk : k.Swept) : k'.Swept := by
  induction h with
  | done => exact hk
  | @acked n k p acts k' hcur hp ht h ih =>
    exact ih (Swept.pop (k := k.clear k.head p) (hk.setSlot k.head (p := none) rfl _) hcur)
  | empty hcur hp h ih => exact ih (hk.pop hcur)
  | check h hr ih => exact ih hk

theorem Drains.swept (h : Drains k acts k') (hk : k.Swept) : k'.Swept := by
  induction h with
  | eof => exact hk.congr rfl rfl rfl rfl
  | idle => exact hk
  | release _ _ _ _ ih => exact ih (hk.congr rfl rfl rfl rfl)

theorem settled_sent {k₀ : Kernel} {p p' : OutgoingPacket} (h : k₀.Sent p p') :
    UtpSocket.settled (some p') := by
  simp [UtpSocket.settled, h.transmissions, h.needResend]

/-- Every step but a write keeps it. -/
theorem swept_micro (hw : k.Window) (h : k.Swept) (hx : x ≠ .api) (hm : Micro x k acts k') :
    k'.Swept := by
  cases hm with
  | accept hu => exact swept_of_empty (hw.unused hu).1
  | @connect k seed seq p p' flags hu hp hp' =>
    -- the window holds the SYN, which is sent
    obtain ⟨h0, -⟩ := hw.unused hu
    have hcur : (((k.dial seed seq).queue p).transmit seq p p').cur = 1 := by
      show k.cur + 1 = 1
      rw [h0]
      rfl
    have hhead : (((k.dial seed seq).queue p).transmit seq p p').head = seq := by
      unfold head
      rw [hcur]
      show seq + 1 - 1 = seq
      grind
    intro i hi
    have hle := skipped_le (((k.dial seed seq).queue p).transmit seq p p')
    rw [hcur, UInt16.toNat_one] at hle
    obtain rfl : i = 0 := by omega
    rw [nth_zero, hhead]
    show UtpSocket.settled ((((k.dial seed seq).queue p).outbuf.setSlot seq (some p')).slot seq)
    rw [slot_setSlot_self]
    exact settled_sent hp'
  | transmit hp hp' => exact h.setSlot _ (settled_sent hp') _
  | queue => exact absurd rfl hx
  | extend => exact absurd rfl hx
  | queueFin => exact absurd rfl hx
  | rewind => exact swept_of_rewound rfl
  | mark hc hp ht hn => exact swept_of_rewound hc
  | @scan x k q hb hq hs =>
    rw [flushBegin_eq] at hb
    have hlt : k.skipped < k.cur.toNat := by
      refine lt_of_le_of_ne k.skipped_le fun he => hq ?_
      rw [← hb, he]
      unfold nth head
      rw [UInt16.ofNat_toNat]
      grind
    have hle := hw.length_le
    have hskip : skipped { k with cursor := q + 1 } ≤ k.skipped + 1 := by
      have hd : (q + 1 - k.head).toNat = k.skipped + 1 := by
        have h1 : q + 1 - k.head = k.nth (k.skipped + 1) - k.head := by
          rw [← hb]
          unfold nth
          rw [UInt16.ofNat_add, show UInt16.ofNat 1 = 1 from rfl]
          grind
        rw [h1]
        exact k.toNat_nth (by omega)
      show (if k.cur < q + 1 - k.head then 0 else (q + 1 - k.head).toNat) ≤ k.skipped + 1
      rw [hd]
      split_ifs <;> omega
    intro i hi
    show UtpSocket.settled (k.outbuf.slot (k.nth i))
    rcases Nat.lt_or_ge i k.skipped with hi' | hi'
    · exact h i hi'
    · rw [show i = k.skipped by omega, hb]
      exact hs
  | @advance pp k acts k' hs hp =>
    refine hp.swept ?_
    obtain ⟨st, f, he⟩ := k.ackState_eq pp
    rw [he]
    exact h.congr rfl rfl rfl rfl
  | sack => exact h.setSlot _ rfl _
  | deliver ho hd ht hf hdr => exact hdr.swept (h.congr rfl rfl rfl rfl)
  | _ => exact h.congr rfl rfl rfl rfl

end Kernel

namespace UtpSocket

variable (env : Env)

/-- What the flush rests on. -/
structure CursorOk (s : UtpSocket) : Prop where
  window : s.kernel.Window
  swept : s.kernel.Swept

theorem CursorOk.quiet {s t : UtpSocket} (h : s.CursorOk) (hq : Quiet s t) : t.CursorOk := by
  obtain ⟨hw, hs⟩ := h
  rw [← hq.1] at hw hs
  exact ⟨hw, hs⟩

theorem CursorOk.trace {k k' : Kernel} {acts : List Act} (hw : k.Window) (hs : k.Swept)
    (h : Trace (fun k l k' => ∃ x, x ≠ .api ∧ Kernel.Micro x k l k') k acts k') : k'.Window ∧ k'.Swept :=
  h.invariant (I := fun k => k.Window ∧ k.Swept)
    (fun _ _ _ hk hm => by
      obtain ⟨x, hx, hm⟩ := hm
      exact ⟨(Kernel.window_micro hk.1 hm).1, Kernel.swept_micro hk.1 hk.2 hx hm⟩) ⟨hw, hs⟩

theorem CursorOk.runs {s t : UtpSocket} (h : s.CursorOk) {x : Input} {b : Bytes} (hx : x ≠ .api)
    (hr : Runs x b s t) : t.CursorOk := by
  obtain ⟨acts, ht, -⟩ := hr
  obtain ⟨hw, hs⟩ := CursorOk.trace h.window h.swept (ht.mono fun _ _ _ hm => ⟨x, hx, hm⟩)
  exact ⟨hw, hs⟩

/-! The flush. -/

/-- The flush that scans the whole window. -/
def plainFlush (s : UtpSocket) : Bool × UtpSocket :=
  s.flushLoop env s.getPacketSize s.send.curWindowPackets.toNat s.windowStart true

/-- The scan passes what needs none, and takes the cursor along. -/
theorem flushLoop_settled (packetSize m : ℕ) {n : ℕ} {q : UInt16} {s : UtpSocket}
    (h : ∀ i < n, settled (s.kernel.outbuf.slot (q + UInt16.ofNat i))) :
    s.flushLoop env packetSize (n + m) q true =
      (if n = 0 then s else s.setSend { s.send with flushScanStart := q + UInt16.ofNat n }).flushLoop
        env packetSize m (q + UInt16.ofNat n) true := by
  induction n generalizing q s with
  | zero =>
    rw [if_pos rfl, Nat.zero_add, show UInt16.ofNat 0 = 0 from rfl, UInt16.add_zero]
  | succ n ih =>
    have hnext (i : ℕ) : q + 1 + UInt16.ofNat i = q + UInt16.ofNat (i + 1) := by
      rw [UInt16.ofNat_add, show UInt16.ofNat 1 = 1 from rfl]
      grind
    have hq : settled (s.send.outbuf.get q.toNat) := by
      have h0 := h 0 (Nat.succ_pos n)
      rw [show UInt16.ofNat 0 = 0 from rfl, UInt16.add_zero] at h0
      exact h0
    rw [Nat.succ_add, flushLoop, if_pos hq]
    have hmove : s.moveCursor true q = s.setSend { s.send with flushScanStart := q + 1 } := rfl
    rw [hmove]
    have hi := @ih (q + 1) (s.setSend { s.send with flushScanStart := q + 1 }) fun i hi => by
      rw [hnext]
      exact h (i + 1) (by omega)
    rw [hi, hnext, if_neg (Nat.succ_ne_zero n)]
    congr 1
    split
    · rename_i hz
      subst hz
      rfl
    · rfl

/-- The flush that starts at the cursor does what the plain one does. -/
theorem CursorOk.flush {s : UtpSocket} (h : s.CursorOk) : s.flushPackets env = s.plainFlush env := by
  have hle : s.kernel.skipped ≤ s.send.curWindowPackets.toNat := s.kernel.skipped_le
  have hbegin : s.flushBegin = s.windowStart + UInt16.ofNat s.kernel.skipped := s.kernel.flushBegin_eq
  have hcount : (s.send.seqNr - s.flushBegin).toNat = s.send.curWindowPackets.toNat - s.kernel.skipped := by
    have hlt := s.send.curWindowPackets.toNat_lt
    have hd : s.send.seqNr - s.flushBegin = s.send.curWindowPackets - UInt16.ofNat s.kernel.skipped := by
      rw [hbegin]
      unfold windowStart
      grind
    have hof : (UInt16.ofNat s.kernel.skipped).toNat = s.kernel.skipped := by
      rw [UInt16.toNat_ofNat', Nat.mod_eq_of_lt (by omega)]
    rw [hd, UInt16.toNat_sub_of_le _ _ (UInt16.le_iff_toNat_le.2 (by rw [hof]; exact hle)), hof]
  -- the cursor ends where it is
  have hcursor : s.kernel.skipped ≠ 0 → s.windowStart + UInt16.ofNat s.kernel.skipped = s.send.flushScanStart := by
    intro h0
    have hs : s.kernel.skipped = (s.kernel.cursor - s.kernel.head).toNat := by
      unfold Kernel.skipped at h0 ⊢
      split at h0
      · exact absurd rfl h0
      · rename_i hn
        exact if_neg hn
    rw [hs]
    exact s.kernel.nth_offset s.kernel.cursor
  unfold flushPackets plainFlush
  rw [hcount, hbegin]
  have hskip := flushLoop_settled env s.getPacketSize (s.send.curWindowPackets.toNat - s.kernel.skipped)
    (q := s.windowStart) (n := s.kernel.skipped) (s := s) h.swept
  rw [Nat.add_sub_cancel' hle] at hskip
  rw [hskip]
  congr 1
  split
  · rfl
  · rename_i h0
    rw [hcursor h0]
    rfl

/-- A packet is queued only while the cursor is not one past its number. -/
def Ahead (s t : UtpSocket) : Prop :=
  t.send.seqNr ≠ s.send.seqNr → s.send.flushScanStart ≠ s.send.seqNr + 1

instance (s t : UtpSocket) : Decidable (Ahead s t) :=
  inferInstanceAs (Decidable (t.send.seqNr ≠ s.send.seqNr → s.send.flushScanStart ≠ s.send.seqNr + 1))

def aheadWatch : FlushWatch := ⟨Ahead, fun _ => True⟩

def plainWatch : FlushWatch := ⟨fun _ _ => True, fun s => s.flushPackets env = s.plainFlush env⟩

/-! The writes. -/

theorem grow_spec {s t : UtpSocket} (hk : t.kernel = s.kernel) (flags : UInt8) (p : OutgoingPacket) (b : Bytes) :
    ∃ p', (t.putOutbuf (t.send.seqNr.toNat - 1) { p with body := b, hdr := t.fillHdr flags p.hdr }).kernel =
        { s.kernel with outbuf := s.kernel.outbuf.setSlot (s.kernel.seqNr - 1) (some p') } ∧
      p'.hdr.seqNr = p.hdr.seqNr ∧ p'.transmissions = p.transmissions := by
  have hseq : t.send.seqNr = s.kernel.seqNr := congrArg Kernel.seqNr hk
  have hs : (t.fillHdr flags p.hdr).seqNr = p.hdr.seqNr := rfl
  generalize t.fillHdr flags p.hdr = hdr at hs ⊢
  refine ⟨{ p with body := b, hdr := hdr }, ?_, hs, rfl⟩
  rw [kernel_putOutbuf, ofInt_sub_one, hseq, hk]

theorem growTail_spec (flags : UInt8) (p : OutgoingPacket) (added : ℕ) (iov : List Bytes) (s : UtpSocket) :
    ∃ p', (s.growTail env flags p added iov).kernel =
        { s.kernel with outbuf := s.kernel.outbuf.setSlot (s.kernel.seqNr - 1) (some p') } ∧
      p'.hdr.seqNr = p.hdr.seqNr ∧ p'.transmissions = p.transmissions := by
  rw [growTail]
  exact grow_spec (quiet_growStart env flags p added (gather added iov).1.length s).1 flags p _

theorem rounds_writeLoop {flags : UInt8} (hf : flags = ST_DATA ∨ flags = ST_FIN) (packetSize fuel payload : ℕ)
    (iov : List Bytes) (s : UtpSocket) :
    s.kernel.Rounds (s.writeLoop env packetSize flags fuel payload iov).2.kernel := by
  induction fuel generalizing payload iov s with
  | zero => exact .stay
  | succ fuel ih =>
    rw [writeLoop]
    have hk := (quiet_roundStart flags s).1
    generalize (s.assert (s.send.curWindowPackets.toNat < OUTGOING_BUFFER_MAX_SIZE) .windowPackets
      ).assert (flags = ST_DATA ∨ flags = ST_FIN) .packetFlags = t at hk ⊢
    rw [← hk]
    dsimp only
    cases hp : t.openTail packetSize payload with
    | none =>
      obtain ⟨p, l, -, -, hk', -⟩ := queuePacket_spec env hf payload iov t
      dsimp only
      rw [hk']
      exact .queue
    | some p =>
      obtain ⟨-, -, hslot, ht, -⟩ := openTail_spec hp
      obtain ⟨p', hk', hs, ht'⟩ := growTail_spec env flags p
        (min (payload + p.payload) (max packetSize p.payload) - p.payload) iov t
      dsimp only
      generalize t.growTail env flags p
        (min (payload + p.payload) (max packetSize p.payload) - p.payload) iov = u at hk' ⊢
      refine .grow hslot ht hs (ht'.trans ht) ?_
      rw [← hk']
      split
      · exact .stay
      · exact ih _ _ u

theorem rounds_queueRounds {flags : UInt8} (hf : flags = ST_DATA ∨ flags = ST_FIN) (payload : ℕ)
    (iov : List Bytes) (s : UtpSocket) : s.kernel.Rounds (s.queueRounds env payload flags iov).2.kernel := by
  unfold queueRounds
  rw [← (startRto_spec s).1]
  exact rounds_writeLoop env hf _ _ payload iov _

/-- A write of data. -/
theorem CursorOk.write {s : UtpSocket} (h : s.CursorOk) {payload : ℕ} {iov : List Bytes}
    (hs : s.kernel.state = .connected) (hf : s.kernel.finSent = false) (hc : s.kernel.cur < 1023)
    (hl : payload ≤ iov.flatten.length)
    (ha : s.writeFlushes env aheadWatch payload ST_DATA iov) :
    s.writeFlushes env (plainWatch env) payload ST_DATA iov ∧
      (s.writeOutgoingPacket env payload ST_DATA iov).2.CursorOk := by
  have hlt : s.kernel.cur.toNat < 1024 := lt_trans (UInt16.lt_iff_toNat_lt.1 hc) (by decide)
  have hq : (s.queueRounds env payload ST_DATA iov).2.CursorOk :=
    ⟨window_runs (runs_queueRounds env hs hf hc hl).1 h.window,
      (rounds_queueRounds env (.inl rfl) payload iov s).swept h.window.toRing h.swept hlt ha.1⟩
  refine ⟨⟨trivial, hq.flush env⟩, ?_⟩
  rw [writeOutgoingPacket_eq]
  exact hq.runs (x := .nothing) (by simp) (runs_flushPackets env _)

/-- A write of the FIN. -/
theorem CursorOk.fin {s t : UtpSocket} (h : s.CursorOk) {c : Bool} (ho : s.kernel.IsOpen)
    (hf : s.kernel.finSent = false)
    (hk : t.kernel = { s.kernel with closeRequested := s.kernel.closeRequested || c })
    (hout : t.out = s.out) (ha : t.finFlushes env aheadWatch) :
    t.finFlushes env (plainWatch env) ∧ (t.sendFin env).CursorOk := by
  have hlt : s.kernel.cur.toNat < 1024 := h.window.length_lt hf
  have hq : ((t.setSend { t.send with finSent := true }).queueRounds env 0 ST_FIN []).2.CursorOk := by
    refine ⟨window_runs (runs_queueFin env ho hf hk hout) h.window, ?_⟩
    have hk' : (t.setSend { t.send with finSent := true }).kernel = { s.kernel with
        finSent := true, closeRequested := s.kernel.closeRequested || c } := by
      rw [kernel_setSend]
      show { t.kernel with finSent := true } = _
      rw [hk]
    have hr := h.window.toRing
    refine (rounds_queueRounds env (.inr rfl) 0 [] _).swept ?_ ?_ ?_ ha.1
    · rw [hk']
      exact ⟨hr.length_le, fun hn => absurd hn (by simp), hr.length_size, hr.occupied, hr.inFlight,
        fun hu => absurd hu ho.ne_uninitialized⟩
    · rw [hk']
      exact h.swept.congr rfl rfl rfl rfl
    · rw [hk']
      exact hlt
  refine ⟨⟨trivial, hq.flush env⟩, ?_⟩
  rw [sendFin, writeOutgoingPacket_eq]
  exact hq.runs (x := .nothing) (by simp) (runs_flushPackets env _)

theorem CursorOk.writevLoop (packetSize fuel : ℕ) {bytes : ℕ} (sent : ℕ) {iov : List Bytes} {s : UtpSocket}
    (h : s.CursorOk) (hs : s.kernel.state = .connected) (hf : s.kernel.finSent = false)
    (hb : bytes = iov.flatten.length)
    (ha : s.writevLoopFlushes env aheadWatch packetSize fuel bytes iov) :
    s.writevLoopFlushes env (plainWatch env) packetSize fuel bytes iov ∧
      (s.writevLoop env packetSize fuel bytes sent iov).2.CursorOk := by
  induction fuel generalizing bytes sent iov s with
  | zero => exact ⟨trivial, h⟩
  | succ fuel ih =>
    rw [UtpSocket.writevLoop]
    unfold writevLoopFlushes at ha ⊢
    set num := min bytes packetSize with hnum
    have hq := quiet_isFull (int32 num) s
    by_cases hfull : (s.isFull (int32 num)).1
    · dsimp only
      rw [if_pos hfull, if_pos hfull]
      exact ⟨trivial, h.quiet hq⟩
    have hcur : s.kernel.cur < 1023 := by
      refine cur_lt_of_windowFull (b := int32 num) ?_
      unfold isFull at hfull
      split at hfull
      · exact absurd rfl hfull
      · exact Bool.eq_false_iff.2 ‹_›
    dsimp only at ha ⊢
    rw [if_neg hfull] at ha ⊢
    rw [if_neg hfull]
    have ht := h.quiet hq
    generalize (s.isFull (int32 num)).2 = t at hq ht ha ⊢
    rw [← hq.1] at hs hf hcur
    have hle : num ≤ iov.flatten.length := by omega
    obtain ⟨-, hrest⟩ := runs_writeOutgoingPacket env hs hf hcur hle
    have hfr := frame_writeOutgoingPacket env (.inl rfl) num iov t
    obtain ⟨hw, hok⟩ := ht.write env hs hf hcur hle ha.1
    obtain ⟨-, ha⟩ := ha
    generalize t.writeOutgoingPacket env num ST_DATA iov = w at hrest hfr hok ha ⊢
    by_cases hz : min (bytes - num) packetSize = 0
    · rw [if_pos hz]
      exact ⟨⟨hw, .inl hz⟩, hok⟩
    · rw [if_neg hz]
      obtain ⟨hi, hj⟩ := @ih (bytes - num) (sent + num) w.1 w.2 hok (hfr.state.trans hs)
        (hfr.finSent.trans hf) (by rw [hrest, List.length_drop, hb]) (ha.resolve_left hz)
      exact ⟨⟨hw, .inr hi⟩, hj⟩

/-- A change beside the window. -/
theorem CursorOk.state {s t : UtpSocket} (h : s.CursorOk) {x : Input} {b : Bytes} (hr : Runs x b s t)
    (hq : t.kernel.seqNr = s.kernel.seqNr) (hc : t.kernel.cur = s.kernel.cur)
    (hcur : t.kernel.cursor = s.kernel.cursor) (hb : t.kernel.outbuf = s.kernel.outbuf) : t.CursorOk :=
  ⟨window_runs hr h.window, h.swept.congr hq hc hcur hb⟩

theorem CursorOk.writev {s : UtpSocket} (h : s.CursorOk) {iov : List Bytes}
    (ha : s.writevFlushes env aheadWatch iov) :
    s.writevFlushes env (plainWatch env) iov ∧ (s.writev env iov).2.CursorOk := by
  rw [UtpSocket.writev]
  unfold writevFlushes at ha ⊢
  dsimp only at ha ⊢
  by_cases hw : writable s.conn.state = false ∨ s.send.finSent
  · rw [if_pos hw, if_pos hw]
    exact ⟨trivial, h⟩
  rw [if_neg hw] at ha ⊢
  rw [if_neg hw]
  push Not at hw
  have hst : s.kernel.state = .connected := by
    have hw := hw.1
    show s.conn.state = .connected
    unfold writable at hw
    split at hw
    · assumption
    · exact absurd rfl hw
  have hf : s.kernel.finSent = false := Bool.eq_false_iff.2 hw.2
  have hq := quiet_refreshClock env s
  have ht := h.quiet hq
  generalize s.refreshClock env = t at hq ht ha ⊢
  rw [← hq.1] at hst hf
  have hlen : totalLength (iov.take UTP_IOV_MAX) = (iov.take UTP_IOV_MAX).flatten.length := by
    rw [totalLength, List.length_flatten]
  obtain ⟨hplain, hok⟩ := ht.writevLoop env t.getPacketSize (totalLength (iov.take UTP_IOV_MAX) + 1) 0
    hst hf hlen ha
  obtain ⟨n, -, -, -, hfr⟩ := runs_writevLoop env t.getPacketSize
    (totalLength (iov.take UTP_IOV_MAX) + 1) 0 hst hf hlen
  refine ⟨hplain, ?_⟩
  generalize t.writevLoop env t.getPacketSize (totalLength (iov.take UTP_IOV_MAX) + 1)
    (totalLength (iov.take UTP_IOV_MAX)) 0 (iov.take UTP_IOV_MAX) = r at hok hfr ⊢
  split
  · exact hok
  · have hq' := quiet_isFull (-1) r.2
    have hok' := hok.quiet hq'
    generalize r.2.isFull (-1) = f at hq' hok' ⊢
    dsimp only
    split
    · have hm : Kernel.Micro .api f.2.kernel [] (f.2.setState .connectedFull).kernel := by
        refine .full ?_
        rw [hq'.1]
        exact hfr.state.trans hst
      exact hok'.state (Runs.micro (t := f.2.setState .connectedFull) (l := []) hm (by simp)) rfl rfl rfl rfl
    · exact hok'

theorem CursorOk.closeConnected {s : UtpSocket} (h : s.CursorOk) (ho : s.kernel.IsOpen)
    (ha : s.markReadShutdown.requestClose.send.finSent = false →
      s.markReadShutdown.requestClose.finFlushes env aheadWatch) :
    (s.markReadShutdown.requestClose.send.finSent = false →
      s.markReadShutdown.requestClose.finFlushes env (plainWatch env)) ∧
      (s.closeConnected env).CursorOk := by
  have hr := runs_closeConnected env ho
  have h' : s.markReadShutdown.CursorOk := h.state (runs_markReadShutdown s) rfl rfl rfl rfl
  have hfin (hf : s.markReadShutdown.requestClose.send.finSent = false) :=
    h'.fin env (t := s.markReadShutdown.requestClose) (c := true) ho hf (by rw [Bool.or_true]; rfl) rfl (ha hf)
  refine ⟨fun hf => (hfin hf).1, ?_⟩
  unfold UtpSocket.closeConnected at hr ⊢
  dsimp only at hr ⊢
  by_cases hf : s.markReadShutdown.requestClose.send.finSent = false
  · rw [if_pos hf]
    exact (hfin hf).2
  · rw [if_neg hf] at hr ⊢
    split_ifs at hr ⊢
    · exact h.state hr rfl rfl rfl rfl
    · exact h.state hr rfl rfl rfl rfl

theorem CursorOk.close {s : UtpSocket} (h : s.CursorOk) (ha : s.closeFlushes env aheadWatch) :
    s.closeFlushes env (plainWatch env) ∧ (s.close env).CursorOk := by
  unfold closeFlushes at ha ⊢
  unfold UtpSocket.close
  have ht := h.quiet (quiet_assert (s.conn.state ≠ .uninitialized ∧ s.conn.state ≠ .destroy)
    (a := .closeState) s rfl)
  generalize s.assert (s.conn.state ≠ .uninitialized ∧ s.conn.state ≠ .destroy) .closeState = t
    at ht ha ⊢
  dsimp only at ha ⊢
  split at ha
  · rename_i hc
    rw [hc]
    exact ht.closeConnected env (.inl hc) ha
  · rename_i hc
    rw [hc]
    exact ht.closeConnected env (.inr hc) ha
  · rename_i h1 h2
    refine ⟨trivial, ?_⟩
    split
    · exact absurd ‹_› h1
    · exact absurd ‹_› h2
    · have hb := ht.quiet (quiet_backoffRtoForClose env t)
      exact hb.state (runs_setDestroy (.inl rfl) _) rfl rfl rfl rfl
    · exact ht.state (runs_setDestroy (.inl rfl) t) rfl rfl rfl rfl

theorem CursorOk.shutdown {s : UtpSocket} (h : s.CursorOk) {how : ShutdownHow}
    (ha : s.shutdownFlushes env aheadWatch how) :
    s.shutdownFlushes env (plainWatch env) how ∧ (s.shutdown env how).CursorOk := by
  unfold shutdownFlushes at ha ⊢
  unfold UtpSocket.shutdown
  have ht := h.quiet (quiet_assert (s.conn.state ≠ .uninitialized ∧ s.conn.state ≠ .destroy)
    (a := .closeState) s rfl)
  generalize s.assert (s.conn.state ≠ .uninitialized ∧ s.conn.state ≠ .destroy) .closeState = t
    at ht ha ⊢
  have hu : (if how ≠ .wr then t.markReadShutdown else t).CursorOk := by
    split
    · exact ht.state (runs_markReadShutdown t) rfl rfl rfl rfl
    · exact ht
  dsimp only at ha ⊢
  generalize (if how ≠ .wr then t.markReadShutdown else t) = u at hu ha ⊢
  have hfin (ho : u.kernel.IsOpen) (ha : how ≠ .rd ∧ u.send.finSent = false → u.finFlushes env aheadWatch) :
      (how ≠ .rd ∧ u.send.finSent = false → u.finFlushes env (plainWatch env)) ∧
        (if how ≠ .rd ∧ u.send.finSent = false then u.sendFin env else u).CursorOk := by
    have hf (hc : how ≠ .rd ∧ u.send.finSent = false) :=
      hu.fin env (c := false) ho hc.2 (by rw [Bool.or_false]) rfl (ha hc)
    refine ⟨fun hc => (hf hc).1, ?_⟩
    split
    · exact (hf ‹_›).2
    · exact hu
  split at ha
  · rename_i hc
    rw [hc]
    exact hfin (.inl hc) ha
  · rename_i hc
    rw [hc]
    exact hfin (.inr hc) ha
  · rename_i h1 h2
    refine ⟨trivial, ?_⟩
    split
    · exact absurd ‹_› h1
    · exact absurd ‹_› h2
    · split
      · exact hu.quiet (quiet_backoffRtoForClose env u)
      · exact hu
    · exact hu

/-- The flush of the timer. -/
theorem CursorOk.timeouts {s : UtpSocket} (h : s.CursorOk) : s.timeoutsFlushes (plainWatch env) := by
  intro _
  have hr : Runs .host [] s (s.checkInvariant.assert s.headPresent .timeoutHead) := by
    refine (runs_checkInvariant s).trans_nil (runs_assert _ _ _ fun h => .fail ?_)
    rw [headPresent_kernel, ← kernel_checkInvariant] at h
    exact h
  exact (h.runs (by simp) hr).flush env

theorem Op.Takes.ne_api {op : Op} {x : Input} (h : op.Takes x)
    (ho : (∀ iov, op ≠ .writev iov) ∧ op ≠ .close ∧ ∀ how, op ≠ .shutdown how) : x ≠ .api := by
  rintro rfl
  obtain ⟨h1, h2, h3⟩ := ho
  cases op with
  | writev iov => exact h1 iov rfl
  | close => exact h2 rfl
  | shutdown how => exact h3 how rfl
  | _ => cases h

/-- A call that queues only ahead of the cursor flushes as the plain scan does. -/
theorem CursorOk.op {s : UtpSocket} (h : s.CursorOk) {op : Op} (ho : op.Enabled s)
    (ha : op.Flushes env aheadWatch s) :
    op.Flushes env (plainWatch env) s ∧ (op.run env s).CursorOk := by
  have hrest (hx : (∀ iov, op ≠ .writev iov) ∧ op ≠ .close ∧ ∀ how, op ≠ .shutdown how) :
      (op.run env s).CursorOk := by
    obtain ⟨acts, ht, -⟩ := runs_op env ho
    obtain ⟨hw, hs⟩ := CursorOk.trace h.window h.swept
      (ht.mono fun _ _ _ ⟨x, hx', hm⟩ => ⟨x, hx'.ne_api hx, hm⟩)
    exact ⟨hw, hs⟩
  cases op with
  | writev iov => exact h.writev env ha
  | close => exact h.close env ha
  | shutdown how => exact h.shutdown env ha
  | checkTimeouts => exact ⟨h.timeouts env, hrest (by simp)⟩
  | _ => exact ⟨trivial, hrest (by simp)⟩

theorem cursorOk_new (targetDelay rcvbuf sndbuf : ℕ) : (new targetDelay rcvbuf sndbuf).CursorOk := by
  refine ⟨Kernel.initial_window, Kernel.swept_of_empty rfl⟩

theorem CursorOk.lend {s : UtpSocket} (h : s.CursorOk) (ms : UInt64) (tick : ℕ) : (s.lend ms tick).CursorOk :=
  ⟨h.window, h.swept⟩

/-- The calls of a run write only ahead of the cursor. -/
def aheadOnly (env : Env) (s : UtpSocket) (op : Op) : Prop := op.Flushes env aheadWatch s

theorem cursorOk_run {targetDelay rcvbuf sndbuf : ℕ} {calls : List Call} {s : UtpSocket}
    (h : RunIf aheadOnly targetDelay rcvbuf sndbuf calls s) : s.CursorOk :=
  Trace.invariant (I := CursorOk) (by
    intro s l t hs hstep
    cases hstep with
    | call env ms tick op ho hC => exact ((hs.lend ms tick).op env (ho.lend ms tick) hC).2) h
    (cursorOk_new _ _ _)

/-- In every run that queues a packet only while the cursor is not one past its number, the flush
does what the flush over the whole window does, between the calls and inside of the next one. -/
theorem flush_eq_plain {targetDelay rcvbuf sndbuf : ℕ} {calls : List Call} {s : UtpSocket}
    (h : RunIf aheadOnly targetDelay rcvbuf sndbuf calls s) (env : Env) :
    s.flushPackets env = s.plainFlush env ∧
      ∀ ms tick (op : Op), op.Enabled s → aheadOnly env (s.lend ms tick) op →
        op.Flushes env (plainWatch env) (s.lend ms tick) := by
  have hs := cursorOk_run h
  exact ⟨hs.flush env, fun ms tick op ho ha => ((hs.lend ms tick).op env (ho.lend ms tick) ha).1⟩

/-- The first write of a connection. -/
def firstWrite (n : UInt32) : List Op :=
  [.connect ⟨0, 0⟩ 7, .processIncoming (statePacket 5 n.toUInt16), .writev [[1, 2, 3]]]

theorem ahead_firstWrite : ∃ calls, RunIf aheadOnly CCONTROL_TARGET 4096 4096 calls
    (perform (drawingHost 0) (new CCONTROL_TARGET 4096 4096) (firstWrite 0)) := by
  refine ⟨_, .head (.call (drawingHost 0) 0 0 (.connect ⟨0, 0⟩ 7) trivial trivial)
    (.head (.call (drawingHost 0) 0 0 (.processIncoming (statePacket 5 0)) trivial trivial)
      (.single (.call (drawingHost 0) 0 0 (.writev [[1, 2, 3]]) trivial ?_)))⟩
  unfold aheadOnly Op.Flushes writevFlushes
  dsimp only
  rw [if_neg (by decide +kernel)]
  unfold writevLoopFlushes
  dsimp only
  rw [if_neg (by decide +kernel)]
  refine ⟨⟨?_, trivial⟩, .inl (by decide +kernel)⟩
  show Ahead _ _
  decide +kernel

theorem flush_eq_plain_firstWrite :
    (perform (drawingHost 0) (new CCONTROL_TARGET 4096 4096) (firstWrite 0)).flushPackets (drawingHost 0) =
      (perform (drawingHost 0) (new CCONTROL_TARGET 4096 4096) (firstWrite 0)).plainFlush (drawingHost 0) ∧
    Op.checkTimeouts.Flushes (drawingHost 0) (plainWatch (drawingHost 0))
      ((perform (drawingHost 0) (new CCONTROL_TARGET 4096 4096) (firstWrite 0)).lend 0 0) := by
  obtain ⟨calls, h⟩ := ahead_firstWrite
  obtain ⟨h1, h2⟩ := flush_eq_plain h (drawingHost 0)
  exact ⟨h1, h2 0 0 .checkTimeouts trivial (fun _ => trivial)⟩

/-- With the SYN numbered 0xffff the cursor is one past the number of the first bytes, and they are not
flushed. -/
theorem not_flush_eq_plain :
    ¬ ∀ (targetDelay rcvbuf sndbuf : ℕ) (calls : List Call) (s : UtpSocket) (env : Env),
      Run targetDelay rcvbuf sndbuf calls s →
      datagrams (s.flushPackets env).2.out = datagrams (s.plainFlush env).2.out ∧
        (s.flushPackets env).1 = (s.plainFlush env).1 := by
  intro h
  obtain ⟨calls, ht⟩ := trace_perform (drawingHost 0xffff) (new CCONTROL_TARGET 4096 4096)
    (l := firstWrite 0xffff) (by simp [firstWrite, Op.Enabled])
  have hd : datagrams ((perform (drawingHost 0xffff) (new CCONTROL_TARGET 4096 4096)
      (firstWrite 0xffff)).flushPackets (drawingHost 0xffff)).2.out ≠
      datagrams ((perform (drawingHost 0xffff) (new CCONTROL_TARGET 4096 4096)
      (firstWrite 0xffff)).plainFlush (drawingHost 0xffff)).2.out := by decide +kernel
  exact hd (h _ _ _ calls _ (drawingHost 0xffff) ht).1

end UtpSocket

end Utp
