import LibUtp.Invariant.FastResend
import LibUtp.Pair.Phases

/-! One end of a connection in a call of its host, before the connection is open. -/

namespace Utp

open Lts SequenceBuffer Numbering Kernel

namespace UtpSocket

theorem mem_datagrams {l : List Effect} {b : Bytes} : b ∈ datagrams l ↔ ∃ flags, Effect.sendTo b flags ∈ l := by
  unfold datagrams
  rw [List.mem_filterMap]
  constructor
  · intro h
    obtain ⟨e, he, hb⟩ := h
    cases e with
    | sendTo b' flags =>
      obtain rfl := Option.some.inj hb
      exact ⟨flags, he⟩
    | _ => cases hb
  · intro h
    obtain ⟨flags, hf⟩ := h
    exact ⟨_, hf, rfl⟩

theorem Op.Local.enabled {op : Op} {s : UtpSocket} (h : op.Local s) : op.Enabled s := by
  cases op <;> trivial

theorem Op.Local.lend {op : Op} {s : UtpSocket} (h : op.Local s) (ms : UInt64) (tick : ℕ) :
    op.Local (s.lend ms tick) := by
  cases op <;> exact h

theorem Op.Local.no_packet {op : Op} {s : UtpSocket} (h : op.Local s) (b : Bytes) : op ≠ .processIncoming b := by
  rintro rfl
  exact h

theorem seqNr_parseBytes {b bits : Bytes} {pp : ParsedPacket} (h : (parseBytes b bits).1 = some pp) :
    pp.seqNr = (PacketFormatV1.ofBytes b).seqNr := by
  unfold parseBytes at h
  dsimp only at h
  split at h
  · cases h
  · split at h
    · cases h
    · split at h
      · cases h
        rfl
      · obtain ⟨x, hx, rfl⟩ := Option.map_eq_some_iff.1 h
        rfl

/-- A call other than the arrival of a datagram brings no packet. -/
theorem not_takes_packet {op : Op} (h : ∀ b, op ≠ .processIncoming b) (pp : ParsedPacket) :
    ¬ op.Takes (.ack pp) ∧ ¬ op.Takes (.packet pp) ∧ ¬ op.Takes (.eack pp) := by
  cases op with
  | processIncoming b => exact absurd rfl (h b)
  | _ => exact ⟨nofun, nofun, nofun⟩

theorem takes_processIncoming {op : Op} {pp : ParsedPacket}
    (h : op.Takes (.ack pp) ∨ op.Takes (.eack pp) ∨ op.Takes (.packet pp)) :
    ∃ b bits, op = .processIncoming b ∧ (parseBytes b bits).1 = some pp := by
  cases op with
  | processIncoming b =>
    rcases h with ⟨bits, h⟩ | ⟨bits, h⟩ | ⟨bits, h⟩ <;> exact ⟨b, bits, rfl, h⟩
  | _ => rcases h with h | h | h <;> cases h

theorem pendingAck_append (b : Bool) (l l' : List Effect) :
    pendingAck b (l ++ l') = pendingAck (pendingAck b l) l' := List.foldl_append

/-- Nothing is due if nothing was and nothing is scheduled. -/
theorem pendingAck_hushed {l : List Effect} (h : ∀ e ∈ l, e.hushed) : pendingAck false l = false := by
  induction l with
  | nil => rfl
  | cons e l ih =>
    have he := h e List.mem_cons_self
    have hs : (if e = .scheduleAck then true else if e = .removeAck then false else false) = false := by
      cases e <;> first | rfl | cases he
    show pendingAck (if e = .scheduleAck then true else if e = .removeAck then false else false) l = false
    rw [hs]
    exact ih fun e' he' => h e' (List.mem_cons_of_mem _ he')

namespace Endpoint

variable {env : Env} {ms : UInt64} {tick : ℕ} {e : Endpoint} {op : Op} {acts : List Act} {P : Bytes → Prop}
  {g : Sending}

theorem trace_after (e : Endpoint) (env : Env) (ms : UInt64) (tick : ℕ) (h : op.Enabled e.socket) :
    ∃ acts, Trace (StepOn op.Takes) e.socket.kernel acts (e.after env ms tick op).kernel ∧
      (e.after env ms tick op).out = acts.flatMap Act.effects ∧
      acts.flatMap Act.taken = op.accepted env (e.socket.lend ms tick) := trace_run env h ms tick

/-- No byte has gone in or out. -/
structure Silent (e : Endpoint) : Prop where
  accepted : e.accepted = []
  delivered : e.delivered = []
  posted : e.posted = false
  eof : e.eof = false

theorem not_posted_of_idles (hi : Idles P acts) (ho : (e.after env ms tick op).out = acts.flatMap Act.effects) :
    Effect.onStateChange .eof ∉ (e.after env ms tick op).out := by
  rw [ho]
  intro hm
  have := hi.withheld _ hm
  cases this

theorem Silent.call (h : e.Silent) (hi : Idles P acts)
    (ho : (e.after env ms tick op).out = acts.flatMap Act.effects)
    (ht : acts.flatMap Act.taken = op.accepted env (e.socket.lend ms tick)) : (e.call env ms tick op).Silent where
  accepted := by
    show e.accepted ++ _ = []
    rw [h.accepted, ← ht, hi.taken]
    rfl
  delivered := by
    show e.delivered ++ (readsOf (e.after env ms tick op).out).flatten = []
    rw [h.delivered, ho, readsOf_withheld hi.withheld]
    rfl
  posted := by
    show (e.posted || _) = false
    rw [h.posted, decide_eq_false (not_posted_of_idles hi ho)]
    rfl
  eof := by
    show (e.eof || _) = false
    rw [h.eof, decide_eq_false (not_posted_of_idles hi ho)]
    rfl

theorem sends_of_idles (hi : Idles P acts) (ho : (e.after env ms tick op).out = acts.flatMap Act.effects) :
    ∀ b ∈ datagrams (e.after env ms tick op).out, P b := by
  intro b hb
  rw [ho] at hb
  obtain ⟨flags, hf⟩ := mem_datagrams.1 hb
  exact hi.sends b flags hf

/-! A side that will never open. -/

structure Lost (e : Endpoint) : Prop extends e.Silent where
  kernel : Barred e.socket.kernel

theorem Lost.call (h : e.Lost) (env : Env) (ms : UInt64) (tick : ℕ) (hop : op.Enabled e.socket)
    (hb : ∀ b, op = .processIncoming b → (PacketFormatV1.ofBytes b).type = ST_STATE) :
    (e.call env ms tick op).Lost ∧ ∀ b ∈ datagrams (e.after env ms tick op).out, Opening b := by
  obtain ⟨acts, htr, ho, ht⟩ := trace_after e env ms tick hop
  obtain ⟨hk, hi⟩ := idles_trace (I := Barred) (fun x k acts k' hx hk hm => barred_micro (by
    intro pp hpp
    have htakes : op.Takes (.ack pp) ∨ op.Takes (.eack pp) ∨ op.Takes (.packet pp) := by
      rcases hpp with rfl | rfl
      · exact .inl hx
      · exact .inr (.inr hx)
    obtain ⟨b, bits, rfl, hp⟩ := takes_processIncoming htakes
    rw [type_parseBytes hp]
    exact hb b rfl) hk hm) htr h.kernel
  exact ⟨⟨h.toSilent.call hi ho ht, hk⟩, sends_of_idles hi ho⟩

/-! A side that nobody has used. -/

structure Blank (e : Endpoint) : Prop extends e.Silent where
  kernel : e.socket.kernel = initial
  assigned : e.assigned = 0
  ackDue : e.ackDue = false

theorem Blank.state (h : e.Blank) : e.socket.conn.state = .uninitialized := congrArg Kernel.state h.kernel

/-- A call that does not reach the kernel. -/
theorem Blank.idle (h : e.Blank) (hq : Quiet (e.socket.lend ms tick) (e.after env ms tick op))
    (hh : Hushed (e.socket.lend ms tick) (e.after env ms tick op))
    (ha : op.accepted env (e.socket.lend ms tick) = []) :
    (e.call env ms tick op).Blank ∧ datagrams (e.after env ms tick op).out = [] := by
  have hst := h.state
  have hk : (e.after env ms tick op).kernel = initial := hq.1.trans h.kernel
  obtain ⟨l, ho, hhush⟩ := hh.out (by
    rw [kernel_lend, h.kernel]
    exact each_initial)
  obtain ⟨-, l', ho', hquiet⟩ := hq
  rw [out_lend, List.nil_append] at ho ho'
  obtain rfl : l = l' := ho.symm.trans ho'
  have hi : Idles (fun _ => False) [.silent l] := by
    refine ⟨rfl, by simpa [Act.effects] using withheld_quiet hquiet, fun b flags hb => ?_⟩
    have hb : Effect.sendTo b flags ∈ l := by simpa [Act.effects] using hb
    have := hquiet _ hb
    cases this
  have hout : (e.after env ms tick op).out = [.silent l].flatMap Act.effects := by
    rw [ho]
    simp [Act.effects]
  refine ⟨⟨h.toSilent.call hi hout ha.symm, hk, ?_, ?_⟩, List.eq_nil_iff_forall_not_mem.2 (sends_of_idles hi hout)⟩
  · show e.assigned + numbers e.socket (e.after env ms tick op) = 0
    have hc : (e.after env ms tick op).send.curWindowPackets = 0 := congrArg Kernel.cur hk
    unfold numbers
    rw [h.assigned, if_pos hst, hc]
    rfl
  · show pendingAck e.ackDue (e.after env ms tick op).out = false
    rw [h.ackDue, ho]
    exact pendingAck_hushed hhush

/-- Its options can be set, and it takes no bytes. -/
theorem Blank.call (h : e.Blank) (env : Env) (ms : UInt64) (tick : ℕ) (hl : op.Local e.socket) :
    (e.call env ms tick op).Blank ∧ datagrams (e.after env ms tick op).out = [] := by
  have hst := h.state
  cases op with
  | setOption opt val =>
    exact h.idle (quiet_setOption opt val (e.socket.lend ms tick)) (hushed_setOption opt val (e.socket.lend ms tick)) rfl
  | writev iov =>
    have hw : (e.socket.lend ms tick).writev env iov = (0, e.socket.lend ms tick) :=
      writev_refused env iov (by
        rw [show (e.socket.lend ms tick).conn.state = .uninitialized from hst]
        rfl)
    have hafter : e.after env ms tick (.writev iov) = e.socket.lend ms tick := congrArg Prod.snd hw
    refine h.idle ?_ ?_ ?_
    · rw [hafter]
      exact .refl _
    · rw [hafter]
      exact .refl _
    · show iov.flatten.take ((e.socket.lend ms tick).writev env iov).1 = []
      rw [hw]
      rfl
  | readDrained => exact absurd hst hl.1
  | _ => exact absurd hst (by first | exact hl | cases hl)

/-! A side that has dialled. -/

/-- A datagram with the header of the SYN of `g`. -/
def Summons (g : Sending) (b : Bytes) : Prop :=
  (PacketFormatV1.ofBytes b).type = ST_SYN ∧ (PacketFormatV1.ofBytes b).seqNr = UInt16.ofNat g.first

structure Dials (g : Sending) (e : Endpoint) : Prop extends e.Silent where
  kernel : Unanswered g e.socket.kernel
  state : e.socket.kernel.state = .synSent
  assigned : e.assigned = 1
  ackDue : e.ackDue = false
  pos : 0 < g.first

theorem Blank.dial (h : e.Blank) (env : Env) (ms : UInt64) (tick : ℕ) (addr : Address) (seed : UInt32) :
    ∃ g, (e.call env ms tick (.connect addr seed)).Dials g ∧
      ∀ b ∈ datagrams (e.after env ms tick (.connect addr seed)).out, Summons g b := by
  have hst := h.state
  have hlend : (e.socket.lend ms tick).kernel = initial := h.kernel
  obtain ⟨seq, p, p', flags, l, hp, hp', hk, ho, hq⟩ := dialled_connectWith env addr seed (e.socket.lend ms tick)
  rw [hlend] at hp hp' hk
  have hafter : e.after env ms tick (.connect addr seed) = (e.socket.lend ms tick).connectWith env addr seed := if_pos hst
  rw [← hafter] at hk ho
  have hsyn : Summons (.begin (firstNumber seq) (firstNumber seq)) (p'.hdr.toBytes ++ p'.body) := by
    unfold Summons
    rw [PacketFormatV1.ofBytes_toBytes]
    refine ⟨hp'.type.trans hp.type, (hp'.seqNr.trans hp.seqNr).trans (ofNat_firstNumber seq).symm⟩
  have ho : (e.after env ms tick (.connect addr seed)).out =
      [.silent l, .send (p'.hdr.toBytes ++ p'.body) flags, .silent [.removeAck]].flatMap Act.effects := by
    rw [ho]
    simp [Act.effects, out_lend]
  have hi : Idles (Summons (.begin (firstNumber seq) (firstNumber seq)))
      [.silent l, .send (p'.hdr.toBytes ++ p'.body) flags, .silent [.removeAck]] := by
    refine ⟨rfl, fun e he => ?_, fun b f hb => ?_⟩
    · simp only [List.flatMap_cons, List.flatMap_nil, List.append_nil, Act.effects, List.mem_append,
        List.mem_singleton] at he
      rcases he with he | rfl | rfl
      · exact withheld_quiet hq e he
      · rfl
      · rfl
    · simp only [List.flatMap_cons, List.flatMap_nil, List.append_nil, Act.effects, List.mem_append,
        List.mem_singleton, Effect.sendTo.injEq, reduceCtorEq, or_false] at hb
      rcases hb with hb | hb
      · exact absurd (hq _ hb) (by simp [Effect.quiet])
      · rw [hb.1]
        exact hsyn
  refine ⟨_, ⟨h.toSilent.call hi ho rfl, ?_, ?_, ?_, ?_, ?_⟩, sends_of_idles hi ho⟩
  · show Unanswered _ (e.after env ms tick (.connect addr seed)).kernel
    rw [hk]
    exact unanswered_connect hp hp'
  · show (e.after env ms tick (.connect addr seed)).kernel.state = .synSent
    rw [hk]
    rfl
  · have hc : (e.after env ms tick (.connect addr seed)).send.curWindowPackets = 1 := congrArg Kernel.cur hk
    show e.assigned + numbers e.socket (e.after env ms tick (.connect addr seed)) = 1
    unfold numbers
    rw [h.assigned, if_pos hst, hc]
    rfl
  · show pendingAck e.ackDue (e.after env ms tick (.connect addr seed)).out = false
    rw [ho]
    simp only [List.flatMap_cons, List.flatMap_nil, List.append_nil, Act.effects, ← List.append_assoc,
      pendingAck_append]
    rfl
  · show 0 < firstNumber seq
    unfold firstNumber
    omega

/-- A call that leaves the numbers as they are. -/
theorem numbers_same {s t : UtpSocket} (hu : s.conn.state ≠ .uninitialized) (hq : t.send.seqNr = s.send.seqNr) :
    numbers s t = 0 := by
  unfold numbers
  rw [if_neg hu, hq, UInt16.sub_self]
  rfl

/-- It calls again, or it gives up. -/
theorem Dials.call (h : e.Dials g) (env : Env) (ms : UInt64) (tick : ℕ) (hl : op.Local e.socket) :
    (∃ g', g.Extends g' [] ∧ (e.call env ms tick op).Dials g' ∧
      ∀ b ∈ datagrams (e.after env ms tick op).out, Summons g b) ∨
    (e.call env ms tick op).Lost ∧ ∀ b ∈ datagrams (e.after env ms tick op).out, Opening b := by
  obtain ⟨acts, htr, ho, ht⟩ := trace_after e env ms tick hl.enabled
  obtain ⟨g', h', hext, hr, hcalls⟩ := unanswered_trace h.kernel (not_takes_packet hl.no_packet) htr
  rcases hushed_local env (hl.lend ms tick) h.state with hh | hd
  · left
    have heach : (e.socket.lend ms tick).kernel.Each fun p => p.hdr.type ≠ ST_STATE := by
      intro q p hp
      rcases (h.kernel.ships.plain q p hp).type with h | h | h <;> rw [h] <;> decide
    obtain ⟨l, hol, hhush⟩ := hh.out heach
    have hol : (e.after env ms tick op).out = l := hol
    have hi : Idles (Summons g) acts := by
      refine ⟨hr.taken, hr.withheld, fun b flags hb => ?_⟩
      rcases hcalls b flags hb with hc | hc
      · exact hc
      · rw [← ho, hol] at hb
        have := hhush _ hb
        simp [Effect.hushed, hc] at this
    have hq : (e.after env ms tick op).send.seqNr = e.socket.send.seqNr := by
      have h1 : (e.after env ms tick op).send.seqNr = UInt16.ofNat g'.next := h'.ships.next
      have h2 : e.socket.send.seqNr = UInt16.ofNat g.next := h.kernel.ships.next
      rw [h1, h2, h'.next, h.kernel.next, hext.first]
    refine ⟨g', hext, ⟨h.toSilent.call hi ho ht, h', hh.state.trans h.state, ?_, ?_, ?_⟩, sends_of_idles hi ho⟩
    · show e.assigned + numbers e.socket (e.after env ms tick op) = 1
      rw [numbers_same h.kernel.setUp hq, h.assigned]
    · show pendingAck e.ackDue (e.after env ms tick op).out = false
      rw [h.ackDue, hol]
      exact pendingAck_hushed hhush
    · rw [hext.first]
      exact h.pos
  · right
    have hi : Idles Opening acts := ⟨hr.taken, hr.withheld, fun b flags hb => (hcalls b flags hb).imp And.left id⟩
    exact ⟨⟨h.toSilent.call hi ho ht, h'.barred hd⟩, sends_of_idles hi ho⟩

/-! A side that was dialled. -/

/-- Its SYN counts as the number `n`, that of its peer as `m`. -/
structure Waits (m n : ℕ) (e : Endpoint) : Prop extends e.Silent where
  kernel : Awaits m n e.socket.kernel
  assigned : e.assigned = 0

theorem Blank.accept (h : e.Blank) (env : Env) (ms : UInt64) (tick : ℕ) (addr : Address) {syn : Bytes} {m : ℕ} (hpos : 0 < m)
    (hm : (PacketFormatV1.ofBytes syn).seqNr = UInt16.ofNat m) :
    ∃ n, 0 < n ∧ (e.call env ms tick (.accept addr syn)).Waits m n ∧
      ∀ b ∈ datagrams (e.after env ms tick (.accept addr syn)).out, Replies m n b := by
  have hst := h.state
  have hlend : (e.socket.lend ms tick).kernel = initial := h.kernel
  obtain ⟨t, ⟨seq, l, hk, ho, hq⟩, he⟩ := acceptWith_spec env addr syn (e.socket.lend ms tick)
  rw [hlend] at hk
  obtain ⟨hk', l', b, hb, ho', hl'⟩ := sendAck_spec env true t
  have hafter : e.after env ms tick (.accept addr syn) = t.sendAck env true := he
  rw [← hafter] at hk' ho'
  rw [hk] at hk' hb
  have hwith : ∀ e ∈ l ++ l', e.delivers = false ∧ ∀ b flags, e ≠ .sendTo b flags := by
    intro e hm
    rcases List.mem_append.1 hm with hm | hm
    · refine ⟨withheld_quiet hq e hm, ?_⟩
      rintro b flags rfl
      have := hq _ hm
      cases this
    · obtain ⟨a, rfl, -⟩ := hl' e hm
      exact ⟨rfl, nofun⟩
  have hout : (e.after env ms tick (.accept addr syn)).out =
      [.silent (l ++ l'), .send b 0, .silent [.removeAck, .removeAck]].flatMap Act.effects := by
    rw [ho', ho]
    simp [Act.effects, out_lend]
  have hi : Idles (Kernel.accepted (PacketFormatV1.ofBytes syn).connid.toUInt32 seq
      (PacketFormatV1.ofBytes syn).seqNr).StateBytes
      [.silent (l ++ l'), .send b 0, .silent [.removeAck, .removeAck]] := by
    refine ⟨rfl, fun e he => ?_, fun b' f hm => ?_⟩
    · simp only [List.flatMap_cons, List.flatMap_nil, List.append_nil, Act.effects, List.mem_append,
        List.mem_cons, List.not_mem_nil, or_false] at he
      rcases he with he | rfl | rfl | rfl
      · exact (hwith e (List.mem_append.2 he)).1
      · rfl
      · rfl
      · rfl
    · simp only [List.flatMap_cons, List.flatMap_nil, List.append_nil, Act.effects, List.mem_append,
        List.mem_cons, List.not_mem_nil, or_false, Effect.sendTo.injEq, reduceCtorEq] at hm
      rcases hm with hm | hm
      · exact absurd rfl ((hwith _ (List.mem_append.2 hm)).2 b' f)
      · rw [hm.1]
        exact hb
  have hseq : seq = UInt16.ofNat (firstNumber seq - 1 + 1) := by
    rw [Nat.sub_add_cancel (by unfold firstNumber; omega), ofNat_firstNumber]
  have hk' : (e.after env ms tick (.accept addr syn)).kernel =
      Kernel.accepted (PacketFormatV1.ofBytes syn).connid.toUInt32 seq (UInt16.ofNat m) := by
    rw [hk', hm]
    rfl
  rw [hm] at hi
  have haw : Awaits m (firstNumber seq - 1) (e.after env ms tick (.accept addr syn)).kernel := by
    rw [hk']
    exact awaits_accepted hseq
  refine ⟨firstNumber seq - 1, by unfold firstNumber; omega, ⟨h.toSilent.call hi hout rfl, haw, ?_⟩, fun b hb => ?_⟩
  swap
  · exact (awaits_accepted hseq).replies hpos (.inl (sends_of_idles hi hout b hb))
  have hc : (e.after env ms tick (.accept addr syn)).send.curWindowPackets = 0 := congrArg Kernel.cur hk'
  show e.assigned + numbers e.socket (e.after env ms tick (.accept addr syn)) = 0
  unfold numbers
  rw [h.assigned, if_pos hst, hc]
  rfl

/-- The first packet that a side which has dialled reads is its answer: from then on it is as if it had
known all along where the stream to it begins. -/
theorem Dials.answer (h : e.Dials g) (env : Env) (ms : UInt64) (tick : ℕ) {b : Bytes} {n : ℕ} (ha : Answer (UInt16.ofNat (n + 1)) b) :
    ((e.after env ms tick (.processIncoming b)).kernel = e.socket.kernel ∧
      (e.after env ms tick (.processIncoming b)).out = []) ∨
    ∃ pp bits acts, (parseBytes b bits).1 = some pp ∧
      Trace (StepOn (AckInput pp)) (e.socket.kernel.startAt n) acts
        (e.after env ms tick (.processIncoming b)).kernel ∧
      (e.after env ms tick (.processIncoming b)).out = acts.flatMap Act.effects ∧
      acts.flatMap Act.taken = [] ∧ (e.after env ms tick (.processIncoming b)).kernel.state ≠ .synSent := by
  have hst : (e.socket.lend ms tick).kernel.state = .synSent := h.state
  rcases processIncoming_synSent env b hst with hd | ⟨pp, t, time, hp, ⟨hk, l, ho, hq⟩, he⟩
  · exact .inl hd
  · right
    have htype : pp.type = ST_STATE := (type_parseBytes hp).trans ha.1
    have hseq : pp.seqNr - 1 = UInt16.ofNat n := by
      rw [seqNr_parseBytes hp, ha.2, ofNat_succ]
      grind
    have hk : t.kernel = e.socket.kernel.startAt n := by
      rw [hk, kernel_lend, Kernel.expect, if_pos h.state, hseq]
      rfl
    have htst : t.kernel.state = .synSent := by
      rw [hk]
      exact h.state
    obtain ⟨acts, htr, hout, htk, hns⟩ := trace_answer env time htype htst (by rw [hk, hseq]; rfl)
    have hafter : e.after env ms tick (.processIncoming b) = t.processAck env pp time := he htype
    rw [← hafter] at htr hout hns
    rw [hk] at htr
    have hsil : StepOn (AckInput pp) (e.socket.kernel.startAt n) [.silent l] (e.socket.kernel.startAt n) := ⟨.ack pp, .inl rfl, .silent hq⟩
    refine ⟨pp, _, [.silent l] ++ acts, hp, .head hsil htr, ?_, ?_, hns⟩
    · rw [hout, ho, out_lend]
      simp [Act.effects]
    · rw [List.flatMap_append, htk]
      rfl

/-- It acknowledges again, or nothing happens. -/
theorem Waits.call {m n : ℕ} (h : e.Waits m n) (env : Env) (ms : UInt64) (tick : ℕ) (hpos : 0 < m) (hop : op.Enabled e.socket)
    (hb : ∀ b, op ≠ .processIncoming b) :
    (e.call env ms tick op).Waits m n ∧ ∀ b ∈ datagrams (e.after env ms tick op).out, Replies m n b := by
  obtain ⟨acts, htr, ho, ht⟩ := trace_after e env ms tick hop
  obtain ⟨hk, hi⟩ := idles_trace (I := Awaits m n) (fun x k acts k' hx hk hm => awaits_micro hpos
    (fun pp => ⟨fun he => (not_takes_packet hb pp).1 (he ▸ hx), fun he => (not_takes_packet hb pp).2.1 (he ▸ hx)⟩)
    hk hm) htr h.kernel
  refine ⟨⟨h.toSilent.call hi ho ht, hk, ?_⟩, sends_of_idles hi ho⟩
  have hq : (e.after env ms tick op).send.seqNr = e.socket.send.seqNr := hk.seqNr.trans h.kernel.seqNr.symm
  show e.assigned + numbers e.socket (e.after env ms tick op) = 0
  rw [numbers_same h.kernel.setUp hq, h.assigned]

/-- An accepted connection whose peer is gone. -/
theorem Waits.lost {m n : ℕ} (h : e.Waits m n) : e.Lost where
  toSilent := h.toSilent
  kernel := ⟨h.kernel.setUp, h.kernel.closed, h.kernel.answered, h.kernel.finSent, fun q p hp => by
    rw [slot_empty h.kernel.window.toRing h.kernel.cur] at hp
    cases hp⟩

/-- A datagram that is dropped unread. -/
theorem Dials.drop (h : e.Dials g) {b : Bytes}
    (hk : (e.after env ms tick (.processIncoming b)).kernel = e.socket.kernel)
    (ho : (e.after env ms tick (.processIncoming b)).out = []) : (e.call env ms tick (.processIncoming b)).Dials g where
  toSilent := by
    have hi : Idles (fun _ => False) [] := ⟨rfl, by simp, by simp⟩
    exact h.toSilent.call hi ho rfl
  kernel := by
    show Unanswered g (e.after env ms tick (.processIncoming b)).kernel
    rw [hk]
    exact h.kernel
  state := (congrArg Kernel.state hk).trans h.state
  assigned := by
    show e.assigned + numbers e.socket (e.after env ms tick (.processIncoming b)) = 1
    rw [numbers_same h.kernel.setUp (congrArg Kernel.seqNr hk), h.assigned]
  ackDue := by
    show pendingAck e.ackDue (e.after env ms tick (.processIncoming b)).out = false
    rw [ho, h.ackDue]
    rfl
  pos := h.pos

end Endpoint

end UtpSocket

end Utp
