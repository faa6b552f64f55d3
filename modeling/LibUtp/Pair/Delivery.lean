import LibUtp.Pair.Ends

/-! Both ends of a connection and the network between them: what each side hands over is what the
other has taken, in order and nothing else, and no byte is lost on the way. -/

namespace Utp

open Relation Lts SequenceBuffer Numbering Kernel

namespace Kernel

variable {g g' : Sending} {R m n : ℕ} {k : Kernel} {D : Bytes}

/-- What has come in order stays as it is. -/
theorem Gathers.upTo_eq (h : Gathers g R m k) (he : g.Extends g' D) (hn : n ≤ R + 1) : g'.upTo n = g.upTo n := by
  refine Sending.upTo_congr fun i hi => ?_
  rcases Nat.lt_or_ge i R with hlt | hge
  · have := h.lt_next
    exact he.below i (by omega)
  · obtain rfl : i = R := by omega
    exact (he.sent i h.sent).2

theorem Handed.extend (hD : Handed g R k D) (h : Gathers g R m k) {B : Bytes} (he : g.Extends g' B) :
    Handed g' R k D := by
  obtain ⟨i, hi, rfl, hs⟩ := hD
  exact ⟨i, hi, (h.upTo_eq he (Nat.succ_le_succ hi)).symm, hs⟩

/-- Everything has come. -/
theorem Gathers.stream_eq (h : Gathers g R m k) (hf : k.gotFinReached) : g.upTo (R + 1) = g.stream := by
  unfold Sending.stream
  rw [(h.reached hf).2]

/-- After the end nothing more is handed over. -/
theorem Gathers.handed_all (h : Gathers g R m k) (hf : k.gotFinReached) {B : Bytes} (hD : Handed g R k (D ++ B))
    (he : D = g.stream) : D ++ B = g.stream := by
  obtain ⟨i, hi, hu, -⟩ := hD
  have hp : D ++ B <+: g.upTo (R + 1) := by
    rw [hu]
    exact Sending.upTo_prefix (Nat.succ_le_succ hi)
  rw [h.stream_eq hf, ← he] at hp
  have hl := hp.length_le
  rw [List.length_append] at hl
  rw [List.eq_nil_of_length_eq_zero (l := B) (by omega), List.append_nil]
  exact he

/-- A number that was assigned and has not come in order is in the window, or in the reorder buffer of the
peer. -/
theorem Half.kept {g' : Sending} {R' i : ℕ} {k' : Kernel} (h : Half g g' R R' (k'.Has R') k) (h' : Gathers g R' 2 k')
    (hi : R' < i) (hn : i < g.next) :
    (∃ p, k.outbuf.slot (UInt16.ofNat i) = some p ∧ p.hdr.seqNr = UInt16.ofNat i ∧ p.body = g.body i) ∨
      ∃ x, k'.inbuf.slot (UInt16.ofNat i) = some x ∧ x.data = g.body i := by
  have hhead : g.head ≤ i := h.covered.head_le.trans hi
  cases hp : k.outbuf.slot (UInt16.ofNat i) with
  | none =>
    right
    rcases h.covered.gone i hhead hn hp with hle | ⟨hf, -, hmask, hsome⟩
    · omega
    · obtain ⟨x, hx⟩ := Option.isSome_iff_exists.1 hsome
      exact ⟨x, hx, (h'.stored hf hi hmask hx).2.1⟩
  | some p =>
    left
    obtain ⟨j, h1, h2, h3, h4⟩ := h.ships.number h.window.toRing hp
    obtain rfl := h.ships.eq_of_same h.window.toRing hhead hn h1 h2 h4
    exact ⟨p, rfl, h3, (h.ships.packet i p hhead hn hp).1⟩

end Kernel

namespace UtpSocket

theorem Endpoint.eof_call {e : Endpoint} {env : Env} {ms : UInt64} {tick : ℕ} {op : Op}
    (h : (e.call env ms tick op).eof) :
    e.eof ∨ Effect.onStateChange .eof ∈ (e.after env ms tick op).out ∧
      (e.after env ms tick op).kernel.readShutdown = false := by
  have h : (e.eof || (decide (Effect.onStateChange .eof ∈ (e.after env ms tick op).out) &&
    !(e.after env ms tick op).recv.readShutdown)) = true := h
  simp only [Bool.or_eq_true, Bool.and_eq_true, decide_eq_true_eq, Bool.not_eq_true'] at h
  exact h

theorem Endpoint.posted_call {e : Endpoint} {env : Env} {ms : UInt64} {tick : ℕ} {op : Op}
    (h : (e.call env ms tick op).posted) :
    e.posted ∨ Effect.onStateChange .eof ∈ (e.after env ms tick op).out := by
  have h : (e.posted || decide (Effect.onStateChange .eof ∈ (e.after env ms tick op).out)) = true := h
  simp only [Bool.or_eq_true, decide_eq_true_eq] at h
  exact h

variable {n : Network} {env : Env} {ms : UInt64} {tick : ℕ} {i j : Side} {op : Op} {d : Datagram}

namespace Network

def kernels (n : Network) (i : Side) : Kernel := (n.ends i).socket.kernel

theorem kernels_call : (n.call env ms tick i op).kernels =
    Function.update n.kernels i ((n.ends i).after env ms tick op).kernel := by
  funext j
  unfold kernels
  rcases i.eq_or_eq_other j with rfl | rfl
  · rw [Function.update_self, ends_call_self]
    rfl
  · rw [Function.update_of_ne i.other_ne, ends_call_other]

/-- The side is set up and knows where the stream to it begins. -/
def Answered (n : Network) (i : Side) : Prop :=
  (n.ends i).socket.kernel.state ≠ .uninitialized ∧ (n.ends i).socket.kernel.state ≠ .synSent

end Network

/-- What the other side reads in a datagram, whenever it comes. -/
def Carries (k : Side → Kernel) (g : Side → Sending) (R base : Side → ℕ) (d : Datagram) : Prop :=
  ∃ own peer, base d.sender + d.stamp d.sender ≤ own + 1024 ∧
    base d.sender.other + d.stamp d.sender.other ≤ peer + 1024 ∧
    ∀ bits pp, (parseBytes d.bytes bits).1 = some pp →
      Tells (g d.sender) (R d.sender) ((k d.sender).Has (R d.sender)) own peer pp

/-- The invariant of an open connection. The numbers of a side are counted from `base`. -/
structure Linked (n : Network) (k : Side → Kernel) (g : Side → Sending) (R base : Side → ℕ) : Prop where
  half : ∀ i, Half (g i) (g i.other) (R i) (R i.other) ((k i.other).Has (R i.other)) (k i)
  seqNr : ∀ i, (n.ends i).socket.send.seqNr = (k i).seqNr
  count : ∀ i, (g i).next = base i + (n.ends i).assigned
  accepted : ∀ i, (n.ends i).accepted = (g i).stream
  delivered : ∀ i, Handed (g i.other) (R i) (k i) (n.ends i).delivered
  posted : ∀ i, (n.ends i).posted → (k i).gotFinReached
  eof : ∀ i, (n.ends i).eof → (k i).gotFinReached ∧ (n.ends i).delivered = (g i.other).stream
  flight : ∀ d ∈ n.flight, d.type ≠ ST_SYN → Carries k g R base d

namespace Linked

variable {k : Side → Kernel} {g : Side → Sending} {R base : Side → ℕ} {acts : List Act} {g₁ : Sending}
  {R₁ : ℕ}

/-- A datagram that is not too old tells the truth. -/
theorem truth (h : Linked n k g R base) (hd : d ∈ n.flight) (hs : d.sender = i.other) (hf : n.Fresh d)
    (ht : d.type ≠ ST_SYN) {bits : Bytes} {pp : ParsedPacket} (hp : (parseBytes d.bytes bits).1 = some pp) :
    Told (R i.other) ((k i.other).Has (R i.other)) (g i).next pp ∧ Heard (g i.other) pp := by
  obtain ⟨own, peer, h1, h2, h3⟩ := h.flight d hd ht
  have htell := h3 bits pp hp
  rw [hs] at h1 h2 htell
  rw [Side.other_other] at h2
  have hi := hf i
  have hj := hf i.other
  have hci := h.count i
  have hcj := h.count i.other
  have hhas := (h.half i.other).gathers
  rw [Side.other_other] at hhas
  exact ⟨htell.told (by omega) fun m hm => hhas.has_lt hm, htell.heard (by omega)⟩

theorem unheard (h : Linked n k g R base) (i : Side) : ¬ (k i.other).Has (R i.other) (R i.other + 1) := by
  have := (h.half i.other).gathers
  exact this.not_has

/-- A call of one side, from what its steps do. -/
theorem call (h : Linked n k g R base) (hset : (n.ends i).socket.conn.state ≠ .uninitialized)
    (hhalf : Half g₁ (g i.other) R₁ (R i.other) ((k i.other).Has (R i.other)) ((n.ends i).after env ms tick op).kernel)
    (hout : Outcome (g i) (g i.other) (R i) (k i) acts g₁ R₁ ((n.ends i).after env ms tick op).kernel)
    (hwin : g₁.next ≤ (g i).head + 1024)
    (ho : ((n.ends i).after env ms tick op).out = acts.flatMap Act.effects)
    (ht : acts.flatMap Act.taken = op.accepted env ((n.ends i).socket.lend ms tick)) :
    Linked (n.call env ms tick i op) (Function.update k i ((n.ends i).after env ms tick op).kernel)
      (Function.update g i g₁) (Function.update R i R₁) base := by
  have hne := i.other_ne
  have hpeer := h.half i.other
  rw [Side.other_other] at hpeer
  have hspan := hhalf.ships.span
  have hspan₀ := (h.half i).ships.span
  have hnext := hout.extend.next_le
  have hcount : g₁.next = base i + ((n.call env ms tick i op).ends i).assigned := by
    rw [Network.ends_call_self]
    show g₁.next = base i + ((n.ends i).assigned + Endpoint.numbers _ _)
    have h1 : ((n.ends i).after env ms tick op).send.seqNr = UInt16.ofNat g₁.next := hhalf.ships.next
    have h2 : (n.ends i).socket.send.seqNr = UInt16.ofNat (g i).next := (h.seqNr i).trans (h.half i).ships.next
    have h3 := h.count i
    unfold Endpoint.numbers
    rw [if_neg hset, h1, h2, toNat_sub_of_le hnext (by omega)]
    omega
  have hdel : Handed (g i.other) R₁ ((n.ends i).after env ms tick op).kernel
      ((n.call env ms tick i op).ends i).delivered := by
    rw [Network.ends_call_self]
    show Handed _ _ _ ((n.ends i).delivered ++ (readsOf ((n.ends i).after env ms tick op).out).flatten)
    rw [ho]
    exact hout.gains.handed _ (h.delivered i)
  refine ⟨fun j => ?_, fun j => ?_, fun j => ?_, fun j => ?_, fun j => ?_, fun j he => ?_, fun j he => ?_, fun d hd ht => ?_⟩
  · rcases i.eq_or_eq_other j with rfl | rfl
    · simp only [Function.update_self, Function.update_of_ne hne]
      exact hhalf
    · simp only [Side.other_other, Function.update_self, Function.update_of_ne hne]
      exact hpeer.follow hhalf hout.extend hout.gains.le hout.gains.has
  · rcases i.eq_or_eq_other j with rfl | rfl
    · simp only [Function.update_self, Network.ends_call_self]
      rfl
    · simp only [Function.update_of_ne hne, Network.ends_call_other]
      exact h.seqNr _
  · rcases i.eq_or_eq_other j with rfl | rfl
    · rw [Function.update_self]
      exact hcount
    · simp only [Function.update_of_ne hne, Network.ends_call_other]
      exact h.count _
  · rcases i.eq_or_eq_other j with rfl | rfl
    · rw [Function.update_self, Network.ends_call_self, hout.extend.stream, ht]
      show (n.ends j).accepted ++ _ = _
      rw [h.accepted]
    · simp only [Function.update_of_ne hne, Network.ends_call_other]
      exact h.accepted _
  · rcases i.eq_or_eq_other j with rfl | rfl
    · simp only [Function.update_self, Function.update_of_ne hne]
      exact hdel
    · simp only [Side.other_other, Function.update_self, Function.update_of_ne hne, Network.ends_call_other]
      have hj := h.delivered i.other
      rw [Side.other_other] at hj
      exact hj.extend hpeer.gathers hout.extend
  · rcases i.eq_or_eq_other j with rfl | rfl
    · rw [Function.update_self]
      rw [Network.ends_call_self] at he
      rcases Endpoint.posted_call he with he | he
      · exact hout.gains.kept (h.posted j he)
      · rw [ho] at he
        exact hout.gains.eof he
    · rw [Function.update_of_ne hne]
      rw [Network.ends_call_other] at he
      exact h.posted _ he
  · rcases i.eq_or_eq_other j with rfl | rfl
    · simp only [Function.update_self, Function.update_of_ne hne]
      have hreach : ((n.ends j).after env ms tick op).kernel.gotFinReached := by
        rw [Network.ends_call_self] at he
        rcases Endpoint.eof_call he with he | ⟨he, -⟩
        · exact hout.gains.kept (h.eof j he).1
        · rw [ho] at he
          exact hout.gains.eof he
      refine ⟨hreach, ?_⟩
      rw [Network.ends_call_self] at he hdel ⊢
      rcases Endpoint.eof_call he with he | ⟨-, hs⟩
      · exact hhalf.gathers.handed_all hreach hdel (h.eof j he).2
      · obtain ⟨m, hm, hD, hall⟩ := hdel
        rw [hD, hall hs]
        exact hhalf.gathers.stream_eq hreach
    · simp only [Side.other_other, Function.update_self, Function.update_of_ne hne, Network.ends_call_other] at he ⊢
      obtain ⟨hf, hD⟩ := h.eof i.other he
      rw [Side.other_other] at hD
      refine ⟨hf, ?_⟩
      have hup := hpeer.gathers.upTo_eq hout.extend (le_refl _)
      obtain ⟨hfin, -⟩ := hpeer.gathers.reached hf
      rw [hD, ← hpeer.gathers.stream_eq hf, ← hup, (hpeer.gathers.reached hf).2]
      unfold Sending.stream
      rw [(hout.extend.fin hfin).2]
  · rcases Network.mem_flight_call.1 hd with hd | ⟨b, hb, rfl⟩
    · obtain ⟨own, peer, h1, h2, h3⟩ := h.flight d hd ht
      refine ⟨own, peer, h1, h2, fun bits pp hp => ?_⟩
      have htell := h3 bits pp hp
      rcases i.eq_or_eq_other d.sender with hs | hs
      · rw [hs] at htell ⊢
        simp only [Function.update_self]
        exact htell.mono hout.extend hout.gains.le hout.gains.has
      · rw [hs] at htell ⊢
        simp only [Function.update_of_ne hne]
        exact htell
    · refine ⟨(g i).head, (g i.other).head, ?_, ?_, fun bits pp hp => ?_⟩
      · show base i + ((n.call env ms tick i op).ends i).assigned ≤ _
        omega
      · show base i.other + ((n.call env ms tick i op).ends i.other).assigned ≤ _
        have h1 := h.count i.other
        have h2 := hpeer.next_le
        rw [Network.ends_call_other]
        omega
      · simp only [Function.update_self]
        rw [ho] at hb
        obtain ⟨flags, hf⟩ := mem_datagrams.1 hb
        exact hout.tells b flags hf bits pp hp

/-- The window that a call leaves is not far from where it began. -/
theorem window_step {T : Input → Prop} {g g₁ g' : Sending} {R R' R₁ : ℕ} {G : ℕ → Prop} {k k' : Kernel}
    (h : Half g g' R R' G k) (h₁ : Half g₁ g' R₁ R' G k') (hT : ¬ T .api ∨ ∀ pp, ¬ T (.ack pp))
    (hn : ¬ T .api → g₁.next = g.next) (hh : (∀ pp, ¬ T (.ack pp)) → g₁.head = g.head) :
    g₁.next ≤ g.head + 1024 := by
  rcases hT with ha | ha
  · rw [hn ha]
    exact h.next_le
  · rw [← hh ha]
    exact h₁.next_le

theorem api_or_ack (op : Op) : ¬ op.Takes .api ∨ ∀ pp, ¬ op.Takes (.ack pp) := by
  cases op with
  | processIncoming b => exact .inl id
  | _ => exact .inr fun pp => nofun

/-- A call of a side that is answered. -/
theorem step (h : Linked n n.kernels g R base) (env : Env) (ms : UInt64) (tick : ℕ)
    (hs : ∀ i, n.Answered i) (hop : op.Enabled (n.ends i).socket)
    (hpkt : ∀ b, op = .processIncoming b → ∃ d ∈ n.flight, d.bytes = b ∧ d.sender = i.other ∧ n.Fresh d ∧ d.type ≠ ST_SYN) :
    ∃ g R, Linked (n.call env ms tick i op) (n.call env ms tick i op).kernels g R base ∧
      ∀ j, (n.call env ms tick i op).Answered j := by
  obtain ⟨hset, hans⟩ := hs i
  obtain ⟨acts, htr, ho, ht⟩ := (n.ends i).trace_after env ms tick hop
  have hpp (pp : ParsedPacket) (hx : op.Takes (.ack pp) ∨ op.Takes (.eack pp) ∨ op.Takes (.packet pp)) :
      (Told (R i.other) ((n.kernels i.other).Has (R i.other)) (g i).next pp ∧ Heard (g i.other) pp) ∧
        ¬ op.Takes .api := by
    obtain ⟨b, bits, rfl, hp⟩ := takes_processIncoming hx
    obtain ⟨d, hd, rfl, h1, h2, h3⟩ := hpkt b rfl
    exact ⟨h.truth hd h1 h2 h3 hp, id⟩
  obtain ⟨g₁, R₁, hhalf, hout, hnext, hhead⟩ := half_trace (h.half i) (h.unheard i)
    (fun pp hx => ⟨(hpp pp (by tauto)).1.1, (hpp pp (by tauto)).2⟩)
    (fun pp hx => ⟨(hpp pp (by tauto)).1.2, hans⟩) htr
  have hl := h.call hset hhalf hout (window_step (h.half i) hhalf (api_or_ack op) hnext hhead) ho ht
  rw [← Network.kernels_call] at hl
  refine ⟨_, _, hl, fun j => ?_⟩
  rcases i.eq_or_eq_other j with rfl | rfl
  · have := answered_trace hset hans htr
    unfold Network.Answered
    rw [Network.ends_call_self]
    exact this
  · unfold Network.Answered
    rw [Network.ends_call_other]
    exact hs _

end Linked

/-! The handshake. -/

/-- A value for each side. -/
def Side.elim {α : Type} (a b : α) : Side → α
  | .initiator => a
  | .acceptor => b

theorem Side.forall {P : Side → Prop} (ha : P .initiator) (hb : P .acceptor) (i : Side) : P i := by
  cases i
  · exact ha
  · exact hb

/-- A datagram in flight before the side that has dialled is answered. -/
def Early (g : Sending) (m : ℕ) (d : Datagram) : Prop :=
  d.sender = .initiator ∧ Endpoint.Summons g d.bytes ∨
    d.sender = .acceptor ∧ Replies g.first m d.bytes ∧ d.stamp .initiator = 1 ∧ d.stamp .acceptor = 0

variable {g : Sending} {m : ℕ}

/-- Both sides and what is in flight, once the SYN is accepted. -/
theorem linked_accepted (ha : (n.ends .initiator).Dials g) (hb : (n.ends .acceptor).Waits g.first m) (hpos : 0 < m)
    (hf : ∀ d ∈ n.flight, Early g m d) :
    Linked n (Side.elim ((n.kernels .initiator).startAt m) (n.kernels .acceptor))
      (Side.elim g (.begin m (m + 1))) (Side.elim m g.first) (Side.elim g.first (m + 1)) where
  half := Side.forall (ha.kernel.half (.inl (le_refl _)) hpos) (hb.kernel.half ha.kernel.ships.first
    ha.kernel.ships.sent_lt (ha.kernel.next.trans_le (by omega)) (ha.kernel.head.trans_le (by omega)) ha.pos)
  seqNr := Side.forall rfl rfl
  count := Side.forall (by
    show g.next = g.first + (n.ends .initiator).assigned
    rw [ha.assigned, ha.kernel.next]) (by
    show m + 1 = m + 1 + (n.ends .acceptor).assigned
    rw [hb.assigned])
  accepted := Side.forall (ha.accepted.trans ha.kernel.stream.symm)
    (hb.accepted.trans (Sending.upTo_begin m (m + 1) (m + 1)).symm)
  delivered := Side.forall
    ⟨m, le_refl _, ha.delivered.trans (Sending.upTo_begin m (m + 1) (m + 1)).symm, fun _ => rfl⟩ (by
    refine ⟨g.first, le_refl _, hb.delivered.trans ?_, fun _ => rfl⟩
    show [] = g.upTo (g.first + 1)
    rw [← ha.kernel.next]
    exact ha.kernel.stream.symm)
  posted := Side.forall (fun he => by rw [ha.posted] at he; cases he) (fun he => by rw [hb.posted] at he; cases he)
  eof := Side.forall (fun he => by rw [ha.eof] at he; cases he) (fun he => by rw [hb.eof] at he; cases he)
  flight d hd ht := by
    rcases hf d hd with ⟨hs, hc⟩ | ⟨hs, hr, h1, h2⟩
    · exact absurd hc.1 ht
    · refine ⟨m + 1, g.first, ?_, ?_, fun bits pp hp => ?_⟩
      · rw [hs, h2]
        show m + 1 + 0 ≤ m + 1 + 1024
        omega
      · rw [hs]
        show g.first + d.stamp .initiator ≤ g.first + 1024
        rw [h1]
        omega
      · rw [hs]
        exact (hr.tells bits pp hp).mono (.refl _) (le_refl _) fun i hi => .inl hi

/-- The answer arrives. -/
theorem linked_answered (env : Env) (ms : UInt64) (tick : ℕ) (ha : (n.ends .initiator).Dials g) (hb : (n.ends .acceptor).Waits g.first m) (hpos : 0 < m)
    (hf : ∀ d ∈ n.flight, Early g m d) (hd : d ∈ n.flight) (hs : d.sender = .acceptor) (hr : Replies g.first m d.bytes)
    (hfr : n.Fresh d) :
    (((n.ends .initiator).after env ms tick (.processIncoming d.bytes)).kernel = (n.ends .initiator).socket.kernel ∧
      ((n.ends .initiator).after env ms tick (.processIncoming d.bytes)).out = []) ∨
    ∃ g R base, Linked (n.call env ms tick .initiator (.processIncoming d.bytes))
      (n.call env ms tick .initiator (.processIncoming d.bytes)).kernels g R base ∧
      ∀ j, (n.call env ms tick .initiator (.processIncoming d.bytes)).Answered j := by
  have hl := linked_accepted ha hb hpos hf
  rcases ha.answer env ms tick hr.answer with h | ⟨pp, bits, acts, hp, htr, ho, ht, hns⟩
  · exact .inl h
  right
  have htype : d.type ≠ ST_SYN := by
    rw [show d.type = ST_STATE from hr.answer.1]
    decide
  obtain ⟨htold, -⟩ := hl.truth (i := .initiator) hd hs hfr htype hp
  have hset : (n.ends .initiator).socket.kernel.state ≠ .uninitialized := ha.kernel.setUp
  have hapi : ¬ AckInput pp .api := nofun
  obtain ⟨g₁, R₁, hhalf, hout, hnext, hhead⟩ := half_trace (hl.half .initiator) (hl.unheard .initiator)
    (T := AckInput pp) (fun pp' hx => by
      obtain rfl : pp' = pp := by
        rcases hx with (hx | hx) | (hx | hx) <;> first | cases hx; rfl | cases hx
      exact ⟨htold, hapi⟩)
    (fun pp' hx => by rcases hx with hx | hx <;> cases hx) htr
  have hl' := hl.call hset hhalf hout (Linked.window_step (hl.half .initiator) hhalf (.inl hapi) hnext hhead) ho ht
  have hk : (n.call env ms tick .initiator (.processIncoming d.bytes)).kernels = Function.update
      (Side.elim ((n.kernels .initiator).startAt m) (n.kernels .acceptor)) .initiator
      ((n.ends .initiator).after env ms tick (.processIncoming d.bytes)).kernel := by
    rw [Network.kernels_call]
    funext j
    cases j <;> rfl
  rw [← hk] at hl'
  exact ⟨_, _, _, hl', Side.forall ⟨hhalf.setUp, hns⟩ ⟨hb.kernel.setUp, hb.kernel.answered⟩⟩

/-! Every reachable network. -/

/-- The phases of a pair of sockets. -/
inductive Phase (n : Network) : Prop
  | fresh (hi : ∀ i, (n.ends i).Blank) (hf : n.flight = [])
  | dialling {g : Sending} (ha : (n.ends .initiator).Dials g) (hb : (n.ends .acceptor).Blank)
      (hf : ∀ d ∈ n.flight, d.sender = .initiator ∧ Endpoint.Summons g d.bytes)
  | waiting {g : Sending} {m : ℕ} (ha : (n.ends .initiator).Dials g) (hb : (n.ends .acceptor).Waits g.first m)
      (hpos : 0 < m) (hf : ∀ d ∈ n.flight, Early g m d)
  | linked {g : Side → Sending} {R base : Side → ℕ} (h : Linked n n.kernels g R base) (hs : ∀ i, n.Answered i)
  | lost (ha : (n.ends .initiator).Lost) (hb : (n.ends .acceptor).Blank ∨ (n.ends .acceptor).Lost)
      (hf : ∀ d ∈ n.flight, Opening d.bytes)

theorem phase_start (targetDelay rcvbuf sndbuf : Side → ℕ) : Phase (.start targetDelay rcvbuf sndbuf) :=
  .fresh (fun _ => ⟨⟨rfl, rfl, rfl, rfl⟩, rfl, rfl, rfl⟩) rfl

/-- A step is a call of one side for which there is a reason. -/
inductive Network.Reason (n : Network) : Side → Op → Prop
  | dial (addr : Address) (seed : UInt32) (hu : (n.ends .initiator).socket.conn.state = .uninitialized) :
      Reason n .initiator (.connect addr seed)
  | accept (addr : Address) {d : Datagram} (hd : d ∈ n.flight) (hs : d.sender = .initiator) (ht : d.type = ST_SYN)
      (hu : (n.ends .acceptor).socket.conn.state = .uninitialized) : Reason n .acceptor (.accept addr d.bytes)
  | deliver {i : Side} {d : Datagram} (hd : d ∈ n.flight) (hs : d.sender = i.other) (hf : n.Fresh d)
      (ht : d.type ≠ ST_SYN) (hu : (n.ends i).socket.conn.state ≠ .uninitialized) :
      Reason n i (.processIncoming d.bytes)
  | deferredAck {i : Side} (h : (n.ends i).ackDue) : Reason n i .sendAck
  | call {i : Side} {op : Op} (h : op.Local (n.ends i).socket) : Reason n i op

theorem Network.Step.reason {n n' : Network} (h : Network.Step n n') :
    ∃ env ms tick i op, n.Reason i op ∧ n' = n.call env ms tick i op := by
  cases h with
  | dial env ms tick addr seed hu => exact ⟨env, ms, tick, _, _, .dial addr seed hu, rfl⟩
  | accept env ms tick addr hd hs hf ht hu => exact ⟨env, ms, tick, _, _, .accept addr hd hs ht hu, rfl⟩
  | deliver env ms tick i hd hs hf ht hu => exact ⟨env, ms, tick, i, _, .deliver hd hs hf ht hu, rfl⟩
  | deferredAck env ms tick i h => exact ⟨env, ms, tick, i, _, .deferredAck h, rfl⟩
  | call env ms tick i op h => exact ⟨env, ms, tick, i, op, .call h, rfl⟩

/-- What is in flight after a call, if what was there and what is sent meets `P`. -/
theorem forall_flight_call {P : Datagram → Prop} (h : ∀ d ∈ n.flight, P d)
    (hb : ∀ b ∈ datagrams ((n.ends i).after env ms tick op).out, P { sender := i, bytes := b, stamp := fun j =>
      ((n.call env ms tick i op).ends j).assigned }) : ∀ d ∈ (n.call env ms tick i op).flight, P d := by
  intro d hd
  rcases Network.mem_flight_call.1 hd with hd | ⟨b, hm, rfl⟩
  · exact h d hd
  · exact hb b hm

theorem phase_fresh (hi : ∀ i, (n.ends i).Blank) (hf : n.flight = []) (hr : n.Reason i op) :
    Phase (n.call env ms tick i op) := by
  have hnone (d : Datagram) : d ∉ n.flight := by
    rw [hf]
    exact List.not_mem_nil
  cases hr with
  | dial addr seed hu =>
    obtain ⟨g, hg, hb⟩ := (hi .initiator).dial env ms tick addr seed
    refine .dialling (g := g) ?_ ?_ (forall_flight_call (fun d hd => absurd hd (hnone d)) fun b hm => ⟨rfl, hb b hm⟩)
    · rw [Network.ends_call_self]
      exact hg
    · have := hi .acceptor
      exact this
  | accept addr hd => exact absurd hd (hnone _)
  | deliver hd => exact absurd hd (hnone _)
  | deferredAck h =>
    rw [(hi i).ackDue] at h
    cases h
  | call h =>
    obtain ⟨h1, h2⟩ := (hi i).call env ms tick h
    refine .fresh (fun j => ?_) (List.eq_nil_iff_forall_not_mem.2 (forall_flight_call hnone fun b hm => ?_))
    · rcases i.eq_or_eq_other j with rfl | rfl
      · rw [Network.ends_call_self]
        exact h1
      · rw [Network.ends_call_other]
        exact hi _
    · rw [h2] at hm
      cases hm

theorem phase_dialling (ha : (n.ends .initiator).Dials g) (hb : (n.ends .acceptor).Blank)
    (hf : ∀ d ∈ n.flight, d.sender = .initiator ∧ Endpoint.Summons g d.bytes) (hr : n.Reason i op) :
    Phase (n.call env ms tick i op) := by
  cases hr with
  | dial addr seed hu => exact absurd hu ha.kernel.setUp
  | @accept addr d hd hs ht hu =>
    obtain ⟨m, hm, hw, hsend⟩ := hb.accept env ms tick addr ha.pos (hf d hd).2.2
    refine .waiting (g := g) (m := m) ?_ ?_ hm (forall_flight_call (fun d hd => .inl (hf d hd)) fun b hb' =>
      .inr ⟨rfl, hsend b hb', ?_, ?_⟩)
    · exact ha
    · rw [Network.ends_call_self]
      exact hw
    · exact ha.assigned
    · show ((n.call env ms tick .acceptor (.accept addr d.bytes)).ends .acceptor).assigned = 0
      rw [Network.ends_call_self]
      exact hw.assigned
  | @deliver i d hd hs hfr ht hu => exact absurd (hf d hd).2.1 ht
  | @deferredAck i h =>
    cases i with
    | initiator =>
      rw [ha.ackDue] at h
      cases h
    | acceptor =>
      rw [hb.ackDue] at h
      cases h
  | @call i op h =>
    cases i with
    | initiator =>
      rcases ha.call env ms tick h with ⟨g', he, hd, hsend⟩ | ⟨hl, hsend⟩
      · refine .dialling (g := g') ?_ ?_ (forall_flight_call (fun d hd => ?_) fun b hb' => ⟨rfl, ?_⟩)
        · rw [Network.ends_call_self]
          exact hd
        · exact hb
        · unfold Endpoint.Summons
          rw [he.first]
          exact hf d hd
        · unfold Endpoint.Summons
          rw [he.first]
          exact hsend b hb'
      · refine .lost ?_ (.inl ?_) (forall_flight_call (fun d hd => .inl (hf d hd).2.1) hsend)
        · rw [Network.ends_call_self]
          exact hl
        · exact hb
    | acceptor =>
      obtain ⟨h1, h2⟩ := hb.call env ms tick h
      refine .dialling (g := g) ?_ ?_ (forall_flight_call hf fun b hm => ?_)
      · exact ha
      · rw [Network.ends_call_self]
        exact h1
      · rw [h2] at hm
        cases hm

theorem Early.opening (h : Early g m d) : Opening d.bytes := by
  rcases h with ⟨-, h⟩ | ⟨-, h, -⟩
  · exact .inl h.1
  · exact .inr h.answer.1

theorem phase_waiting (ha : (n.ends .initiator).Dials g) (hb : (n.ends .acceptor).Waits g.first m) (hpos : 0 < m)
    (hf : ∀ d ∈ n.flight, Early g m d) (hr : n.Reason i op) : Phase (n.call env ms tick i op) := by
  -- the acceptor acknowledges its SYN again
  have hagain {op : Op} (hop : op.Enabled (n.ends .acceptor).socket) (hp : ∀ b, op ≠ .processIncoming b) :
      Phase (n.call env ms tick .acceptor op) := by
    obtain ⟨hw, hsend⟩ := hb.call env ms tick ha.pos hop hp
    refine .waiting (g := g) (m := m) ?_ ?_ hpos (forall_flight_call hf fun b hb' => .inr ⟨rfl, hsend b hb', ?_, ?_⟩)
    · exact ha
    · rw [Network.ends_call_self]
      exact hw
    · exact ha.assigned
    · show ((n.call env ms tick .acceptor op).ends .acceptor).assigned = 0
      rw [Network.ends_call_self]
      exact hw.assigned
  cases hr with
  | dial addr seed hu => exact absurd hu ha.kernel.setUp
  | accept addr hd hs ht hu => exact absurd hu hb.kernel.setUp
  | @deliver i d hd hs hfr ht hu =>
    rcases hf d hd with ⟨-, hsum⟩ | ⟨hsend, hrep, -⟩
    · exact absurd hsum.1 ht
    · obtain rfl : i = .initiator := by
        rw [hsend] at hs
        cases i
        · rfl
        · cases hs
      rcases linked_answered env ms tick ha hb hpos hf hd hsend hrep hfr with
        ⟨hk, ho⟩ | ⟨g', R, base, hl, hans⟩
      · refine .waiting (g := g) (m := m) ?_ ?_ hpos (forall_flight_call hf fun b hm => ?_)
        · rw [Network.ends_call_self]
          exact ha.drop hk ho
        · exact hb
        · rw [ho] at hm
          cases hm
      · exact .linked hl hans
  | @deferredAck i h =>
    cases i with
    | initiator =>
      rw [ha.ackDue] at h
      cases h
    | acceptor => exact hagain trivial nofun
  | @call i op h =>
    cases i with
    | initiator =>
      rcases ha.call env ms tick h with ⟨g', he, hd, hsend⟩ | ⟨hl, hsend⟩
      · refine .waiting (g := g') (m := m) ?_ ?_ hpos (forall_flight_call (fun d hd => ?_) fun b hb' => .inl ⟨rfl, ?_⟩)
        · rw [Network.ends_call_self]
          exact hd
        · rw [he.first]
          exact hb
        · unfold Early Endpoint.Summons
          rw [he.first]
          exact hf d hd
        · unfold Endpoint.Summons
          rw [he.first]
          exact hsend b hb'
      · refine .lost ?_ (.inr ?_) (forall_flight_call (fun d hd => (hf d hd).opening) hsend)
        · rw [Network.ends_call_self]
          exact hl
        · exact hb.lost
    | acceptor => exact hagain h.enabled h.no_packet

theorem phase_linked {g : Side → Sending} {R base : Side → ℕ} (h : Linked n n.kernels g R base)
    (hs : ∀ i, n.Answered i) (hr : n.Reason i op) : Phase (n.call env ms tick i op) := by
  have hstep (hop : op.Enabled (n.ends i).socket) (hpkt : ∀ b, op = .processIncoming b →
      ∃ d ∈ n.flight, d.bytes = b ∧ d.sender = i.other ∧ n.Fresh d ∧ d.type ≠ ST_SYN) :
      Phase (n.call env ms tick i op) := by
    obtain ⟨g', R', hl, hans⟩ := h.step env ms tick hs hop hpkt
    exact .linked hl hans
  cases hr with
  | dial addr seed hu => exact absurd hu (hs .initiator).1
  | accept addr hd hs' ht hu => exact absurd hu (hs .acceptor).1
  | @deliver i d hd hsd hfr ht hu =>
    refine hstep trivial fun b hb => ?_
    obtain rfl := Op.processIncoming.inj hb
    exact ⟨d, hd, rfl, hsd, hfr, ht⟩
  | deferredAck => exact hstep trivial nofun
  | call hl => exact hstep hl.enabled fun b hb => absurd hb (hl.no_packet b)

theorem phase_lost (ha : (n.ends .initiator).Lost) (hb : (n.ends .acceptor).Blank ∨ (n.ends .acceptor).Lost)
    (hf : ∀ d ∈ n.flight, Opening d.bytes) (hr : n.Reason i op) : Phase (n.call env ms tick i op) := by
  -- a side that is lost stays lost
  have hlost (hi : (n.ends i).Lost) (hop : op.Enabled (n.ends i).socket)
      (hp : ∀ b, op = .processIncoming b → (PacketFormatV1.ofBytes b).type = ST_STATE) :
      Phase (n.call env ms tick i op) := by
    obtain ⟨hl, hsend⟩ := hi.call env ms tick hop hp
    have hfl := forall_flight_call (P := fun d => Opening d.bytes) hf hsend
    cases i with
    | initiator =>
      refine .lost ?_ ?_ hfl
      · rw [Network.ends_call_self]
        exact hl
      · exact hb
    | acceptor =>
      refine .lost ?_ (.inr ?_) hfl
      · exact ha
      · rw [Network.ends_call_self]
        exact hl
  cases hr with
  | dial addr seed hu => exact absurd hu ha.kernel.setUp
  | @accept addr d hd hs ht hu =>
    rcases hb with hb | hb
    · obtain ⟨m, -, hw, hsend⟩ := hb.accept env ms tick addr
        (m := firstNumber (PacketFormatV1.ofBytes d.bytes).seqNr) (by unfold firstNumber; omega)
        (ofNat_firstNumber _).symm
      refine .lost ?_ (.inr ?_) (forall_flight_call hf fun b hm => .inr (hsend b hm).answer.1)
      · exact ha
      · rw [Network.ends_call_self]
        exact hw.lost
    · exact absurd hu hb.kernel.setUp
  | @deliver i d hd hs hfr ht hu =>
    refine hlost ?_ trivial fun b hb' => ?_
    · cases i with
      | initiator => exact ha
      | acceptor =>
        rcases hb with hb | hb
        · exact absurd hb.state hu
        · exact hb
    · obtain rfl := Op.processIncoming.inj hb'
      rcases hf d hd with h | h
      · exact absurd h ht
      · exact h
  | @deferredAck i h =>
    refine hlost ?_ trivial nofun
    cases i with
    | initiator => exact ha
    | acceptor =>
      rcases hb with hb | hb
      · rw [hb.ackDue] at h
        cases h
      · exact hb
  | @call i op h =>
    cases i with
    | initiator => exact hlost ha h.enabled fun b hb' => absurd hb' (h.no_packet b)
    | acceptor =>
      rcases hb with hb | hb
      · obtain ⟨h1, h2⟩ := hb.call env ms tick h
        refine .lost ?_ (.inl ?_) (forall_flight_call hf fun b hm => ?_)
        · exact ha
        · rw [Network.ends_call_self]
          exact h1
        · rw [h2] at hm
          cases hm
      · exact hlost hb h.enabled fun b hb' => absurd hb' (h.no_packet b)

theorem phase_step {n n' : Network} (h : Phase n) (hs : n.Step n') : Phase n' := by
  obtain ⟨env, ms, tick, i, op, hr, rfl⟩ := hs.reason
  cases h with
  | fresh hi hf => exact phase_fresh hi hf hr
  | dialling ha hb hf => exact phase_dialling ha hb hf hr
  | waiting ha hb hpos hf => exact phase_waiting ha hb hpos hf hr
  | linked h hs => exact phase_linked h hs hr
  | lost ha hb hf => exact phase_lost ha hb hf hr

theorem phase_reachable {targetDelay rcvbuf sndbuf : Side → ℕ} (h : n.Reachable targetDelay rcvbuf sndbuf) :
    Phase n := by
  induction h with
  | refl => exact phase_start targetDelay rcvbuf sndbuf
  | tail _ hs ih => exact phase_step ih hs

/-- Either nothing has gone in or out on any side, or the connection is open. -/
theorem Phase.silent_or_linked (h : Phase n) : (∀ i, (n.ends i).Silent) ∨ ∃ g R base, Linked n n.kernels g R base := by
  cases h with
  | fresh hi hf => exact .inl fun i => (hi i).toSilent
  | dialling ha hb hf => exact .inl (Side.forall ha.toSilent hb.toSilent)
  | waiting ha hb hpos hf => exact .inl (Side.forall ha.toSilent hb.toSilent)
  | linked h hs => exact .inr ⟨_, _, _, h⟩
  | lost ha hb hf => exact .inl (Side.forall ha.toSilent (hb.elim Endpoint.Blank.toSilent Endpoint.Lost.toSilent))

/-- What a side has handed over is a beginning of what its peer has taken, and all of it once the end was
reported. -/
theorem stream_integrity {targetDelay rcvbuf sndbuf : Side → ℕ} (h : n.Reachable targetDelay rcvbuf sndbuf) (i : Side) :
    (n.ends i).delivered <+: (n.ends i.other).accepted ∧
      ((n.ends i).eof → (n.ends i).delivered = (n.ends i.other).accepted) := by
  rcases (phase_reachable h).silent_or_linked with hs | ⟨g, R, base, hl⟩
  · rw [(hs i).delivered, (hs i.other).accepted]
    exact ⟨List.prefix_refl _, fun _ => rfl⟩
  · rw [hl.accepted]
    refine ⟨?_, fun he => (hl.eof i he).2⟩
    obtain ⟨m, hm, hD, -⟩ := hl.delivered i
    have := (hl.half i).gathers.lt_next
    rw [hD]
    exact Sending.upTo_prefix (by omega)

theorem stream_integrity_closedPair : (Network.closedPair.ends .acceptor).eof = true ∧
    (Network.closedPair.ends .acceptor).delivered = [1, 2, 3] ∧
      (Network.closedPair.ends .acceptor).delivered = (Network.closedPair.ends .initiator).accepted :=
  ⟨by decide +kernel, by decide +kernel,
    (stream_integrity Network.reachable_closedPair .acceptor).2 (by decide +kernel)⟩

/-- The bytes that a side has taken, number by number: those below `got` were handed over by its peer, any
other is in a packet of the send window or in the reorder buffer of the peer. The side assigns `next`, and
its peer expects `got`. -/
structure Accounted (e e' : Endpoint) (chunk : ℕ → Bytes) (got next : ℕ) : Prop where
  le : got ≤ next
  near : next ≤ got + 1024
  seqNr : e.socket.send.seqNr = UInt16.ofNat next
  ackNr : got < next → e'.socket.recv.ackNr + 1 = UInt16.ofNat got
  accepted : e.accepted = (List.range next).flatMap chunk
  delivered : e'.delivered = (List.range got).flatMap chunk
  kept : ∀ i, got ≤ i → i < next →
    (∃ p, e.socket.send.outbuf.slot (UInt16.ofNat i) = some p ∧ p.hdr.seqNr = UInt16.ofNat i ∧ p.body = chunk i) ∨
      ∃ x, e'.socket.recv.inbuf.slot (UInt16.ofNat i) = some x ∧ x.data = chunk i

/-- As long as a side has not shut down reading no byte for it is lost. Once the FIN is acknowledged it has
them all. -/
theorem no_byte_lost {targetDelay rcvbuf sndbuf : Side → ℕ} (h : n.Reachable targetDelay rcvbuf sndbuf) (i : Side)
    (hr : (n.ends i.other).socket.recv.readShutdown = false) :
    (∃ chunk got next, Accounted (n.ends i) (n.ends i.other) chunk got next) ∧
      ((n.ends i).socket.send.finSentAcked → (n.ends i.other).delivered = (n.ends i).accepted) := by
  rcases (phase_reachable h).silent_or_linked with hs | ⟨g, R, base, hl⟩
  · have hd : (n.ends i.other).delivered = (n.ends i).accepted := (hs i.other).delivered.trans (hs i).accepted.symm
    have hnil (m : ℕ) : [] = (List.range m).flatMap fun _ => ([] : Bytes) := by simp
    refine ⟨⟨fun _ => [], (n.ends i).socket.send.seqNr.toNat, (n.ends i).socket.send.seqNr.toNat, le_refl _,
      Nat.le_add_right _ _, UInt16.ofNat_toNat.symm, fun hlt => absurd hlt (lt_irrefl _),
      (hs i).accepted.trans (hnil _), (hs i.other).delivered.trans (hnil _), fun j h1 h2 => ?_⟩, fun _ => hd⟩
    omega
  · have hhalf := hl.half i
    have hpeer := (hl.half i.other).gathers
    have hdel := hl.delivered i.other
    rw [Side.other_other] at hpeer hdel
    obtain ⟨m, hm, hD, hall⟩ := hdel
    obtain rfl := hall hr
    have hnear := hpeer.near
    have hseq : (n.ends i).socket.send.seqNr = UInt16.ofNat (g i).next := hhalf.ships.next
    have hack : (n.ends i.other).socket.recv.ackNr = UInt16.ofNat (R i.other) := hpeer.ackNr
    refine ⟨⟨(g i).body, R i.other + 1, (g i).next, hpeer.lt_next, by omega, hseq, fun _ => by rw [hack, ofNat_succ],
      hl.accepted i, hD, fun j h1 h2 => ?_⟩, fun hf => ?_⟩
    · exact hhalf.kept hpeer h1 h2
    · obtain ⟨-, hle⟩ := hhalf.covered.acked hf
      have := hpeer.lt_next
      rw [hD, hl.accepted, show R i.other + 1 = (g i).next by omega]
      rfl

theorem no_byte_lost_donePair : (Network.donePair.ends .initiator).socket.send.finSentAcked = true ∧
    (∃ chunk got next, Accounted (Network.donePair.ends .initiator) (Network.donePair.ends .acceptor) chunk got next) ∧
      (Network.donePair.ends .acceptor).delivered = (Network.donePair.ends .initiator).accepted := by
  have h := no_byte_lost Network.reachable_donePair .initiator (by decide +kernel)
  exact ⟨by decide +kernel, h.1, h.2 (by decide +kernel)⟩

end UtpSocket

end Utp
