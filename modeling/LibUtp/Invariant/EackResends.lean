import LibUtp.Invariant.EackScan
import LibUtp.Kernel.Calls

/-! The packets that an EACK bitmap has resent. All that the scan of the bitmap collects are lost
packets of the window; the number before the bitmap is added without a look at the window. -/

namespace Utp

open Lts SequenceBuffer

namespace Kernel

/-- The window is the same, and each of its packets was sent at least as often. -/
structure Resent (k k' : Kernel) : Prop where
  seqNr : k'.seqNr = k.seqNr
  cur : k'.cur = k.cur
  packets : ∀ q p, k.outbuf.slot q = some p → ∃ p', k'.outbuf.slot q = some p' ∧
    p'.hdr.seqNr = p.hdr.seqNr ∧ p.transmissions ≤ p'.transmissions
  empty : ∀ q, k.outbuf.slot q = none → k'.outbuf.slot q = none

theorem Resent.refl (k : Kernel) : k.Resent k :=
  ⟨rfl, rfl, fun _ p hp => ⟨p, hp, rfl, le_refl _⟩, fun _ => id⟩

theorem Resent.trans {k k' k'' : Kernel} (h : k.Resent k') (h' : k'.Resent k'') : k.Resent k'' where
  seqNr := h'.seqNr.trans h.seqNr
  cur := h'.cur.trans h.cur
  packets q p hp := by
    obtain ⟨p', hp', hq, ht⟩ := h.packets q p hp
    obtain ⟨p'', hp'', hq', ht'⟩ := h'.packets q p' hp'
    exact ⟨p'', hp'', hq'.trans hq, ht.trans ht'⟩
  empty q hq := h'.empty q (h.empty q hq)

theorem resent_transmit {k : Kernel} {v : UInt16} {p p' : OutgoingPacket} (hp : k.outbuf.slot v = some p)
    (h : k.Sent p p') : k.Resent (k.transmit v p p') where
  seqNr := rfl
  cur := rfl
  packets q p₀ hq := by
    show ∃ p'', (k.outbuf.setSlot v (some p')).slot q = some p'' ∧ _
    rw [slot_setSlot]
    split
    · rename_i hs
      rw [← hs.slot_eq, hp] at hq
      cases hq
      exact ⟨p', rfl, h.seqNr, by rw [h.transmissions]; omega⟩
    · exact ⟨p₀, hq, rfl, le_refl _⟩
  empty q hq := by
    show (k.outbuf.setSlot v (some p')).slot q = none
    rw [slot_setSlot, if_neg]
    · exact hq
    · intro hs
      rw [← hs.slot_eq, hp] at hq
      cases hq

end Kernel

namespace UtpSocket

variable (env : Env) {s t : UtpSocket} {base : ℤ} {mask : Bytes}

theorem resent_sendPacket (i : ℤ) (s : UtpSocket) : s.kernel.Resent (s.sendPacket env i).kernel := by
  cases hp : s.send.outbuf.get i with
  | none =>
    unfold sendPacket
    rw [hp]
    exact .refl _
  | some p =>
    obtain ⟨p', flags, l, hs, hk, -⟩ := sendPacket_spec env hp
    rw [hk]
    exact Kernel.resent_transmit ((get_eq_slot _ _).symm.trans hp) hs

theorem length_resent (vs : List ℤ) {i : ℕ} (hi : 0 < i) (s : UtpSocket) :
    (resent env vs i s).length ≤ i := by
  induction vs generalizing i s with
  | nil => exact Nat.zero_le _
  | cons v vs ih =>
    unfold resent
    split
    · rw [List.length_cons]
      split
      · exact hi
      · have := ih (i := i - 1) (by omega) ((s.sendPacket env v).setTiming
          { (s.sendPacket env v).timing with fastResendSeqNr := UInt16.ofInt (v + 1) })
        omega
    · exact ih hi s

/-- Each call takes a number of the list whose slot is full, in the window as it was. -/
theorem mem_resent {vs : List ℤ} {i : ℕ} {v : ℤ} {u : UtpSocket} (h : (v, u) ∈ resent env vs i s) :
    v ∈ vs ∧ s.kernel.Resent u.kernel ∧ (u.send.outbuf.get v).isSome := by
  induction vs generalizing i s with
  | nil => cases h
  | cons w vs ih =>
    unfold resent at h
    split at h
    · rename_i hw
      rcases List.mem_cons.1 h with he | h
      · cases he
        exact ⟨List.mem_cons_self, .refl _, hw⟩
      · split at h
        · cases h
        · obtain ⟨hv, hr, hu⟩ := ih h
          exact ⟨List.mem_cons_of_mem _ hv, (resent_sendPacket env w s).trans hr, hu⟩
    · obtain ⟨hv, hr, hu⟩ := ih h
      exact ⟨List.mem_cons_of_mem _ hv, hr, hu⟩

/-- `u` hands the packet `v` to `send_packet`: it has this number, which lies in the window, was
sent and is not marked by the bitmap, and three marked packets of the window follow it. -/
structure SoundResend (s : UtpSocket) (base : ℤ) (mask : Bytes) (v : ℤ) (u : UtpSocket) : Prop where
  packet : ∃ p, u.send.outbuf.get v = some p ∧ p.hdr.seqNr = UInt16.ofInt v ∧ 0 < p.transmissions
  window : UInt16.ofInt v - u.windowStart < u.send.curWindowPackets
  marked : ∃ n : ℕ, UInt16.ofInt v = UInt16.ofInt (base + (n - 1)) ∧ maskBit mask (n - 1) = false ∧
    3 ≤ s.marks base mask n

/-- If three packets of the window are marked and the number before the bitmap is not far from the
pointer, its slot holds nothing but the packet of this number, sent before, or a packet that the
bitmap itself acknowledges. -/
def BaseSound (s : UtpSocket) (base : ℤ) (mask : Bytes) : Prop :=
  s.send.curWindowPackets ≠ 0 → 3 ≤ s.marks base mask 0 →
  (UInt16.ofInt (base - 1) - s.timing.fastResendSeqNr).toNat ≤ OUTGOING_BUFFER_MAX_SIZE →
  ∀ p, s.send.outbuf.get (base - 1) = some p →
    p.hdr.seqNr = UInt16.ofInt (base - 1) ∧ 0 < p.transmissions ∨ s.sacked base mask p

theorem sound_of_packet {v : ℤ} {r u : UtpSocket} (hr : s.kernel.Ring) (hp : SamePlace s r)
    (hu : r.kernel.Resent u.kernel)
    (h : ∃ p, r.kernel.outbuf.slot (UInt16.ofInt v) = some p ∧ p.hdr.seqNr = UInt16.ofInt v ∧
      0 < p.transmissions)
    (hs : ∀ q p, r.kernel.outbuf.slot q = some p → s.kernel.outbuf.slot q = some p) {n : ℕ}
    (hn : UInt16.ofInt v = UInt16.ofInt (base + (n - 1))) (hb : maskBit mask (n - 1) = false)
    (hc : 3 ≤ s.marks base mask n) : s.SoundResend base mask v u := by
  obtain ⟨p, hslot, hq, ht⟩ := h
  obtain ⟨p', hp', hq', ht'⟩ := hu.packets _ p hslot
  refine ⟨⟨p', (get_eq_slot _ _).trans hp', hq'.trans hq, ht.trans_le ht'⟩, ?_, n, hn, hb, hc⟩
  have hwin := (hr.occupied _ p (hs _ p hslot)).1
  have hseq : u.send.seqNr = s.send.seqNr := hu.seqNr.trans hp.1
  have hcur : u.send.curWindowPackets = s.send.curWindowPackets := hu.cur.trans hp.2.1
  unfold windowStart
  rw [hseq, hcur, ← hq]
  exact hwin

theorem lt_of_marks {n : ℕ} (h : 0 < s.marks base mask n) : n < 8 * mask.length := by
  by_contra hn
  rw [marks_top s base (not_lt.1 hn)] at h
  exact absurd h (lt_irrefl 0)

/-- What the scan has collected is sound to resend. -/
theorem sound_of_lost {v : ℤ} {a : ℕ × List ℤ × UtpSocket} {u : UtpSocket} (hr : s.kernel.Ring)
    (hm : mask.length ≤ 255) (ha : Scan s base mask 0 a) (hu : a.2.2.kernel.Resent u.kernel)
    (h : s.Lost base mask v) : s.SoundResend base mask v u := by
  obtain ⟨n, hv, hw, hb, hc, p, hp, hq, ht⟩ := h
  have hc : 3 ≤ s.marks base mask n := hc
  refine sound_of_packet hr ha.place hu ⟨p, ?_, hq, ht⟩ (fun q p => ha.slot_some) (by rw [hv]) hb hc
  rw [ha.slots, hp, Option.filter_some, if_pos]
  rw [Bool.not_eq_true', Bool.and_eq_false_iff]
  refine .inl (Bool.eq_false_iff.2 fun hsa => ?_)
  -- its bit is the one that was looked at
  have hbit := (sacked_iff.1 hsa).2.2
  obtain ⟨b, he, hlt⟩ := maskBit_range hbit
  have hn := lt_of_marks (show 0 < s.marks base mask n by omega)
  have h₁ := toNat_ofInt (base + bitOf base p)
  have h₂ := toNat_ofInt (base + ((n : ℤ) - 1))
  rw [ofInt_bitOf] at h₁
  rw [← hv, ← hq] at h₂
  rw [show (n : ℤ) - 1 = bitOf base p by omega, hbit] at hb
  cases hb

/-- The resends are sound exactly if the one of the number before the bitmap is. -/
theorem sound_iff_base (hr : s.kernel.Ring) (hm : mask.length ≤ 255) :
    (∀ x ∈ s.eackResends env base mask, s.SoundResend base mask x.1 x.2) ↔ s.BaseSound base mask := by
  unfold eackResends
  by_cases h0 : s.send.curWindowPackets = 0
  · rw [if_pos h0]
    exact ⟨fun _ h => absurd h0 h, fun _ x hx => by cases hx⟩
  rw [if_neg h0]
  have hc : 0 < s.kernel.cur := by
    have h0 : s.kernel.cur ≠ 0 := h0
    grind
  have ha := scan_eackLoop env base hr hc hm
  unfold eackList
  generalize s.eackLoop env base mask (8 * mask.length + 1) 0 [] = a at ha ⊢
  dsimp only
  have hcount : a.1 = s.marks base mask 0 := ha.count
  have hfast : a.2.2.fastResend (base - 1) a.1 ↔
      (UInt16.ofInt (base - 1) - s.timing.fastResendSeqNr).toNat ≤ OUTGOING_BUFFER_MAX_SIZE ∧
        3 ≤ s.marks base mask 0 := by
    unfold fastResend
    rw [Bool.and_eq_true, decide_eq_true_eq, decide_eq_true_eq, hcount, ha.place.2.2]
    rfl
  have hlost {v : ℤ} {u : UtpSocket} (hu : a.2.2.kernel.Resent u.kernel) (hv : v ∈ a.2.1) :=
    sound_of_lost hr hm ha hu (ha.resends v hv)
  constructor
  · intro h _ hmarks hnear p hp
    rw [get_eq_slot] at hp
    have hp : s.kernel.outbuf.slot (UInt16.ofInt (base - 1)) = some p := hp
    by_cases hsa : s.sacked base mask p
    · exact .inr hsa
    -- the packet is the first to be resent
    rw [if_pos (hfast.2 ⟨hnear, hmarks⟩), List.reverse_append, List.reverse_singleton,
      List.singleton_append] at h
    have hslot : a.2.2.send.outbuf.get ((base - 1) % 2 ^ 16) = some p := by
      rw [get_eq_slot, ofInt_mod]
      show a.2.2.kernel.outbuf.slot _ = _
      rw [ha.slots, hp, Option.filter_some, Bool.eq_false_iff.2 hsa]
      rfl
    have hmem : ((base - 1) % 2 ^ 16, a.2.2) ∈
        resent env ((base - 1) % 2 ^ 16 :: a.2.1.reverse) 4 a.2.2 := by
      unfold resent
      rw [if_pos (by rw [hslot]; rfl)]
      exact List.mem_cons_self
    obtain ⟨p', hp', hq, ht⟩ := (h _ hmem).packet
    rw [hslot] at hp'
    cases hp'
    rw [ofInt_mod] at hq
    exact .inl ⟨hq, ht⟩
  · rintro h ⟨v, u⟩ hx
    obtain ⟨hv, hu, hsome⟩ := mem_resent env hx
    rw [List.mem_reverse] at hv
    split at hv
    · rename_i hf
      rcases List.mem_append.1 hv with hv | hv
      · exact hlost hu hv
      · obtain ⟨hnear, hmarks⟩ := hfast.1 hf
        have hv : v = (base - 1) % 2 ^ 16 := List.mem_singleton.1 hv
        have hofv : UInt16.ofInt v = UInt16.ofInt (base - 1) := by rw [hv, ofInt_mod]
        obtain ⟨p, hp⟩ : ∃ p, a.2.2.kernel.outbuf.slot (UInt16.ofInt (base - 1)) = some p := by
          refine Option.ne_none_iff_exists'.1 fun hn => ?_
          have := hu.empty _ hn
          rw [get_eq_slot, hofv] at hsome
          have hsome : (u.kernel.outbuf.slot (UInt16.ofInt (base - 1))).isSome := hsome
          rw [this] at hsome
          cases hsome
        have hs := ha.slot_some hp
        have hnot : ¬ s.sacked base mask p := by
          intro hsa
          rw [ha.slots, hs, Option.filter_some, hsa, decide_eq_true (Nat.zero_le _)] at hp
          cases hp
        obtain ⟨hq, ht⟩ := (h h0 hmarks hnear p ((get_eq_slot _ _).trans hs)).resolve_right hnot
        refine sound_of_packet hr ha.place hu ⟨p, by rw [hofv]; exact hp, by rw [hofv]; exact hq, ht⟩
          (fun q p => ha.slot_some) (n := 0) ?_ rfl hmarks
        rw [hofv]
        rfl
    · exact hlost hu hv

/-- The sockets between two calls, and those in the midst of an incoming packet when the window has
advanced. -/
inductive EackState : UtpSocket → Prop
  | idle {targetDelay rcvbuf sndbuf calls s} (h : Run targetDelay rcvbuf sndbuf calls s) : EackState s
  | received {targetDelay rcvbuf sndbuf calls s pp} (h : Run targetDelay rcvbuf sndbuf calls s)
      (ms : UInt64) (tick : ℕ) (b : Bytes) (time : UInt64)
      (hp : (parseBytes b s.conn.extensions).1 = some pp) (ha : (s.lend ms tick).Accepts pp) :
      EackState (((s.lend ms tick).openPacket env b pp).advanced env pp time)

theorem window_advanced {pp : ParsedPacket} (time : UInt64) (hw : s.kernel.Window)
    (hs : s.kernel.state = .synSent → s.kernel.ackNr = pp.seqNr - 1) :
    (s.advanced env pp time).kernel.Window := by
  have hq : Quiet s ((s.countDuplicate pp).processAcks env pp (s.kernel.ackCount pp) time) :=
    (quiet_countDuplicate pp s).trans (quiet_processAcks env pp _ time _)
  unfold advanced
  dsimp only
  rw [show s.ackCount pp = s.kernel.ackCount pp by rfl]
  generalize (s.countDuplicate pp).processAcks env pp (s.kernel.ackCount pp) time = t at hq ⊢
  rw [← hq.1] at hs hw ⊢
  have ha := runs_of_advanced (advanced_advanceSendWindow env pp hs)
  rw [advanceSendWindow_eq env (t.kernel.ackCount_le pp), advance_eq]
  refine window_runs (x := .nothing) (b := []) ?_ (window_runs ha hw)
  refine (runs_assertHead (a := .advanceHead) (fun k => Iff.rfl) _).trans_nil ?_
  exact (runs_sendLast env _).trans_nil (runs_fastTimeout env _)

theorem EackState.window (h : EackState env s) : s.kernel.Window := by
  cases h with
  | idle h => exact (window_run h).1
  | @received _ _ _ _ s pp h ms tick b time hp ha =>
    obtain ⟨hk, -⟩ := unmoved_opened env b pp (s.lend ms tick)
    refine window_advanced env time ?_ ?_
    · rw [hk]
      exact (window_run h).1.expect pp
    · rw [hk]
      exact Kernel.expect_synSent pp

theorem length_eackList (hr : s.kernel.Ring) (hc : 0 < s.kernel.cur) (hm : mask.length ≤ 255) :
    (s.eackList env base mask).length < MAX_EACK := by
  have h := (scan_eackLoop env base hr hc hm).length
  unfold eackList MAX_EACK at *
  dsimp only
  split
  · rw [List.length_append, List.length_singleton]
    omega
  · omega

/-- `selective_ack` calls `send_packet` for the resends one after the other, and sends nothing else. After any
number of rounds of its scan the array has room for another number, and for the last one. At most four packets
are resent, and the resends are sound exactly if the one of the number before the bitmap is. -/
theorem eackResends_sound (h : EackState env s) (base : ℤ) {mask : Bytes} (hm : mask.length ≤ 255) :
    Trace (SendStep env) s (s.eackResends env base mask) (s.selectiveAck env base mask) ∧
      (s.send.curWindowPackets ≠ 0 → (s.eackList env base mask).length < MAX_EACK ∧
        ∀ m ≤ 8 * mask.length + 1, (((List.range (8 * mask.length + 1)).reverse.take m).foldl
          (eackStep env base mask) (0, [], s)).2.1.length < MAX_EACK) ∧
      (s.eackResends env base mask).length ≤ 4 ∧
      ((∀ x ∈ s.eackResends env base mask, s.SoundResend base mask x.1 x.2) ↔ s.BaseSound base mask) := by
  have hr := h.window.toRing
  refine ⟨trace_selectiveAck env base mask s, fun h0 => ?_, ?_, sound_iff_base env hr hm⟩
  · have hc : 0 < s.kernel.cur := by
      have h0 : s.kernel.cur ≠ 0 := h0
      grind
    refine ⟨length_eackList env hr hc hm, fun m hle => ?_⟩
    exact (scan_take env base hr hc hm hle).length.trans_lt (by decide)
  · unfold eackResends
    split
    · exact Nat.zero_le _
    · exact length_resent env _ (by decide) _

/-- A connected socket with one packet in flight and four empty ones behind it, not yet sent. -/
def queued : UtpSocket :=
  perform stillHost dialled
    [.processIncoming (statePacket 100 0), .writev [[1]], .writev [], .writev [], .writev [], .writev []]

theorem run_queued : ∃ calls, Run CCONTROL_TARGET 4096 4096 calls queued := run_performed (by simp [Op.Enabled])

/-- Five empty packets are in flight, and a sixth waits. -/
def flying : UtpSocket :=
  perform stillHost dialled [.processIncoming (statePacket 100 0), .writev [], .writev [], .writev [], .writev [],
    .writev [], .writev []]

/-- A bitmap that marks the packets 3, 4 and 5 has 1 and 2 resent. -/
theorem eackResends_sound_flying : (flying.eackResends stillHost 2 [14]).map Prod.fst = [1, 2] ∧
    Trace (SendStep stillHost) flying (flying.eackResends stillHost 2 [14]) (flying.selectiveAck stillHost 2 [14]) ∧
      ∀ x ∈ flying.eackResends stillHost 2 [14], flying.SoundResend 2 [14] x.1 x.2 := by
  obtain ⟨calls, h⟩ : ∃ calls, Run CCONTROL_TARGET 4096 4096 calls flying := run_performed (by simp [Op.Enabled])
  obtain ⟨htrace, -, -, hiff⟩ := eackResends_sound stillHost (.idle h) 2 (show ([14] : Bytes).length ≤ 255 by decide)
  refine ⟨by decide +kernel, htrace, hiff.2 fun _ _ _ p hp => .inl ?_⟩
  have hall : ∀ p ∈ flying.send.outbuf.get (2 - 1), p.hdr.seqNr = UInt16.ofInt (2 - 1) ∧ 0 < p.transmissions := by
    decide +kernel
  exact hall p hp

/-- The packet in flight is acknowledged, and three of the four that were never sent are marked. -/
def answer : Bytes := eackPacket 100 1 [7, 0, 0, 0]

/-- A STATE packet without data, as it is parsed. -/
def stateParsed (seqNr ackNr : UInt16) (selack : Option Bytes) : ParsedPacket where
  payload := []
  selack := selack
  seqNr := seqNr
  ackNr := ackNr
  type := ST_STATE
  timestamp := 0
  replyMicro := 0
  windowsize := 65536

def parsedAnswer : ParsedPacket := stateParsed 100 1 (some [7, 0, 0, 0])

def answeredQueue : UtpSocket :=
  ((queued.lend 0 0).openPacket stillHost answer parsedAnswer).advanced stillHost parsedAnswer 0

/-- The first of the four packets is resent although it was never sent. -/
theorem eackResends_unsent : EackState stillHost answeredQueue ∧
    Trace (SendStep stillHost) answeredQueue (answeredQueue.eackResends stillHost 3 [7, 0, 0, 0])
      (answeredQueue.selectiveAck stillHost 3 [7, 0, 0, 0]) ∧
    ∃ x ∈ answeredQueue.eackResends stillHost 3 [7, 0, 0, 0], ¬ answeredQueue.SoundResend 3 [7, 0, 0, 0] x.1 x.2 := by
  obtain ⟨calls, h⟩ := run_queued
  have hs : EackState stillHost answeredQueue := .received h 0 0 answer 0 (by decide +kernel) (by decide +kernel)
  refine ⟨hs, trace_selectiveAck stillHost 3 [7, 0, 0, 0] answeredQueue, ?_⟩
  by_contra hall
  push Not at hall
  have hbase := (sound_iff_base stillHost hs.window.toRing (by decide)).1 hall
  have hun : ∀ p ∈ answeredQueue.send.outbuf.get 2, p.transmissions = 0 := by decide +kernel
  have hsome : (answeredQueue.send.outbuf.get 2).isSome := by decide +kernel
  obtain ⟨p, hp⟩ := Option.isSome_iff_exists.1 hsome
  have ht := hun p hp
  rcases hbase (by decide +kernel) (by decide +kernel) (by decide +kernel) p hp with h | h
  · rw [ht] at h
    exact absurd h.2 (lt_irrefl 0)
  · have h := (sacked_iff.1 h).1
    rw [ht] at h
    exact absurd h (lt_irrefl 0)

end UtpSocket

end Utp
