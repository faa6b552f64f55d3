import LibUtp.Registry.Attribution

/-! Two contexts, one of which has accepted the SYN of a socket of the other: the ids under which
the two sockets find each other from then on, and what another copy of the SYN does. -/

namespace Utp

open Relation

namespace UtpContext

variable {c d A B A' B' : UtpContext} {P : Handle → UtpSocket.Op → Prop} {x y : Handle}
  {addrA addrB : Address} {env : Env} {syn : Bytes}

/-- Any calls on a context. -/
abbrev Steps : UtpContext → UtpContext → Prop := ReflTransGen (Step fun _ _ => True)

/-- Socket `x` has given the datagram to the host. -/
def HasSent (c : UtpContext) (x : Handle) (peer : Address) (b : Bytes) : Prop :=
  ∃ flags, .socket x peer (.sendTo b flags) ∈ c.log

def IsSyn (b : Bytes) : Prop := (PacketFormatV1.ofBytes b).type = ST_SYN

instance (b : Bytes) : Decidable (IsSyn b) := inferInstanceAs (Decidable (_ = _))

/-- The id a datagram carries, as `process_udp` reads it. -/
def idOf (b : Bytes) : UInt32 := (PacketFormatV1.ofBytes b).connid.toUInt32

/-! A socket keeps its identity. -/

/-- The socket of handle `x`, as long as there is one, is set up with the given address and ids. -/
def Identified (c : UtpContext) (x : Handle) (addr : Address) (idRecv idSend : UInt32) : Prop :=
  x < c.nextHandle ∧ ∀ s, c.heap x = some s → s.conn.state ≠ .uninitialized ∧ s.conn.addr = addr ∧
    s.conn.connIdRecv = idRecv ∧ s.conn.connIdSend = idSend

theorem Identified.move {addr : Address} {idRecv idSend : UInt32} (hc : c.Consistent)
    (hi : c.Identified x addr idRecv idSend) (h : Move P c d) : d.Identified x addr idRecv idSend := by
  obtain ⟨hx, hi⟩ := hi
  refine ⟨hx.trans_le h.next_le, fun t ht => ?_⟩
  cases h.became hc ht with
  | @same s i hs =>
    have hs := hi s hs
    exact hs
  | @call s env op i hs hP ho hop =>
    obtain ⟨hu, ha, hr, hsend⟩ := hi s hs
    obtain ⟨h₁, h₂, h₃, h₄, -⟩ := UtpSocket.key_run env hu ho c.currentMs c.tick
    exact ⟨h₁, h₂.trans ha, h₃.trans hr, h₄.trans hsend⟩
  | connect env addr seed i hs hu => exact absurd hu (hi _ hs).1
  | accept env addr b i hx' => exact absurd hx' hx.ne
  | new hx' => exact absurd hx' hx.ne

theorem Identified.steps {addr : Address} {idRecv idSend : UInt32} (hc : c.Consistent)
    (hi : c.Identified x addr idRecv idSend) (h : Steps c d) : d.Consistent ∧ d.Identified x addr idRecv idSend := by
  induction h with
  | refl => exact ⟨hc, hi⟩
  | tail _ hs ih =>
    obtain ⟨hc, hi⟩ := ih
    have hm := hs.moves hc
    clear hs
    induction hm with
    | refl => exact ⟨hc, hi⟩
    | tail _ hm ih =>
      obtain ⟨hc, hi⟩ := ih
      exact ⟨hc.move hm, hi.move hc hm⟩

theorem Reachable.steps (h : c.Reachable) (hs : Steps c d) : d.Reachable := h.trans hs

/-- A datagram of a socket goes to its peer, and carries the id of its SYN, or else its send id in
16 bits. -/
structure Carries (addr : Address) (idRecv idSend : UInt32) (peer : Address) (b : Bytes) : Prop where
  peer : peer = addr
  syn : IsSyn b → idSend = idRecv + 1 ∧ idOf b = idRecv
  other : ¬ IsSyn b → idOf b = idSend.toUInt16.toUInt32

/-- The connection of socket `x`, whether the socket is still there or not. -/
structure Names (c : UtpContext) (x : Handle) (addr : Address) (idRecv idSend : UInt32) : Prop where
  identified : c.Identified x addr idRecv idSend
  carries : ∀ peer b, c.HasSent x peer b → Carries addr idRecv idSend peer b

theorem SentBy.carries {s : UtpSocket} {peer : Address} {b : Bytes} (h : SentBy s peer b) (hn : s.Named) :
    Carries s.conn.addr s.conn.connIdRecv s.conn.connIdSend peer b := by
  obtain ⟨hset, ha, hdr, rest, rfl, htag⟩ := h
  have hsyn {b : Bytes} : IsSyn b ↔ (PacketFormatV1.ofBytes b).type = ST_SYN := Iff.rfl
  refine ⟨ha, fun h => ?_, fun h => ?_⟩
  · rw [hsyn, PacketFormatV1.ofBytes_toBytes] at h
    obtain ⟨hinit, hid⟩ := htag.syn h
    refine ⟨hinit, ?_⟩
    unfold idOf
    rw [PacketFormatV1.ofBytes_toBytes, hid]
    exact widen_narrow (initiator_narrow (hn.paired hset) hinit)
  · rw [hsyn, PacketFormatV1.ofBytes_toBytes] at h
    unfold idOf
    rw [PacketFormatV1.ofBytes_toBytes]
    exact congrArg UInt16.toUInt32 (htag.other h)

theorem Identified.names (h : c.Reachable) {addr : Address} {idRecv idSend : UInt32}
    (hi : c.Identified x addr idRecv idSend) {s : UtpSocket} (hs : c.heap x = some s) :
    c.Names x addr idRecv idSend := by
  obtain ⟨hn, ht⟩ := h.truthful
  refine ⟨hi, fun peer b ⟨flags, hlog⟩ => ?_⟩
  obtain ⟨-, rfl, rfl, rfl⟩ := hi.2 s hs
  exact ((ht x peer b flags hlog).2 s hs).carries (hn x s hs)

theorem Names.move {addr : Address} {idRecv idSend : UInt32} (hc : c.Consistent)
    (hn : ∀ x s, c.heap x = some s → s.Named) (hi : c.Names x addr idRecv idSend) (h : Move P c d) :
    d.Names x addr idRecv idSend := by
  have hd := hi.identified.move hc h
  refine ⟨hd, fun peer b ⟨flags, hlog⟩ => ?_⟩
  rcases h.sent hn hlog with he | ⟨t, hx, hsent⟩
  · exact hi.carries peer b ⟨flags, he⟩
  · obtain ⟨-, rfl, rfl, rfl⟩ := hd.2 t hx
    exact hsent.carries ((h.became hc hx).named hn)

/-- A socket that has sent a datagram has a connection. -/
theorem Reachable.names (h : c.Reachable) {peer : Address} {b : Bytes} (hb : c.HasSent x peer b) :
    ∃ addr idRecv idSend, c.Names x addr idRecv idSend := by
  have hinv := h.invariant (I := fun c => (∀ x s, c.heap x = some s → s.Named) ∧
      ∀ x, (∃ peer b, c.HasSent x peer b) → ∃ addr idRecv idSend, c.Names x addr idRecv idSend)
    ⟨by simp, by simp [HasSent]⟩ fun c d hc ⟨hn, hi⟩ hm => ?_
  · exact hinv.2 x ⟨peer, b, hb⟩
  have hn' : ∀ x s, d.heap x = some s → s.Named := fun _ _ hs => (hm.became hc hs).named hn
  refine ⟨hn', fun x ⟨peer, b, flags, hlog⟩ => ?_⟩
  by_cases hold : ∃ peer b, c.HasSent x peer b
  · obtain ⟨addr, idRecv, idSend, h⟩ := hi x hold
    exact ⟨addr, idRecv, idSend, h.move hc hn hm⟩
  -- the first datagrams of the socket
  have hnew {peer : Address} {b : Bytes} {flags : UInt32} (hlog : .socket x peer (.sendTo b flags) ∈ d.log) :
      ∃ s, d.heap x = some s ∧ SentBy s peer b :=
    (hm.sent hn hlog).resolve_left fun he => hold ⟨peer, b, flags, he⟩
  obtain ⟨s, hx, hsent⟩ := hnew hlog
  refine ⟨s.conn.addr, s.conn.connIdRecv, s.conn.connIdSend,
    ⟨(hc.move hm).lt_next hx, fun t ht => ?_⟩, fun peer b ⟨flags, hlog⟩ => ?_⟩
  · rw [hx] at ht
    cases ht
    exact ⟨hsent.1, rfl, rfl, rfl⟩
  · obtain ⟨t, ht, hsent⟩ := hnew hlog
    rw [hx] at ht
    cases ht
    exact hsent.carries (hn' x s hx)

theorem Names.steps {addr : Address} {idRecv idSend : UInt32} (hr : c.Reachable)
    (hi : c.Names x addr idRecv idSend) (h : Steps c d) : d.Names x addr idRecv idSend := by
  suffices d.Consistent ∧ (∀ x s, d.heap x = some s → s.Named) ∧ d.Names x addr idRecv idSend from this.2.2
  induction h with
  | refl => exact ⟨hr.moves.1, hr.truthful.1, hi⟩
  | tail _ hs ih =>
    have hm := hs.moves ih.1
    clear hs
    induction hm with
    | refl => exact ih
    | tail _ hm ih =>
      obtain ⟨hc, hn, hi⟩ := ih
      exact ⟨hc.move hm, fun _ _ hs => (hm.became hc hs).named hn, hi.move hc hn hm⟩

/-! The SYN and its acceptance. -/

/-- The context `B` accepts the SYN that socket `x` of `A` has sent it. The new socket has the next
handle of `B`. -/
structure Accepts (A : UtpContext) (addrA : Address) (x : Handle) (B : UtpContext) (addrB : Address)
    (env : Env) (syn : Bytes) : Prop where
  initiator : A.Reachable
  acceptor : B.Reachable
  sent : A.HasSent x addrB syn
  isSyn : IsSyn syn
  accepted : ((B.processUdp env syn addrA).heap B.nextHandle).isSome

/-- The initiator receives under the id of its SYN. -/
theorem Accepts.initiator_names (h : Accepts A addrA x B addrB env syn) :
    A.Names x addrB (idOf syn) (idOf syn + 1) := by
  obtain ⟨addr, idRecv, idSend, hn⟩ := h.initiator.names h.sent
  have hc := hn.carries _ _ h.sent
  obtain ⟨hinit, hid⟩ := hc.syn h.isSyn
  rw [hid, ← hinit, hc.peer]
  exact hn

theorem processUdp_eq (hsyn : IsSyn syn) : c.processUdp env syn addrA =
    if wellFormed syn = false then c else c.processSyn env addrA (idOf syn) syn := by
  unfold IsSyn at hsyn
  unfold processUdp idOf
  dsimp only
  refine if_congr Iff.rfl rfl ?_
  rw [hsyn, if_neg (by decide), if_neg (by simp)]

/-- A SYN is answered by a new socket or not at all. -/
theorem processUdp_isSyn (hc : c.Keyed) (hsyn : IsSyn syn)
    (h : ((c.processUdp env syn addrA).heap c.nextHandle).isSome) :
    c.find ⟨addrA, idOf syn + 1⟩ = none ∧
      c.processUdp env syn addrA = accept env addrA syn { c with tick := c.tick + 1 } := by
  have hfresh : c.heap c.nextHandle = none := hc.fresh _ le_rfl
  have hnone {d : UtpContext} (hd : d.heap = c.heap) (hs : (d.heap c.nextHandle).isSome) : False := by
    rw [hd, hfresh] at hs
    cases hs
  rw [processUdp_eq hsyn] at h ⊢
  by_cases hwf : wellFormed syn = false
  · rw [if_pos hwf] at h
    exact (hnone rfl h).elim
  rw [if_neg hwf] at h ⊢
  unfold processSyn at h ⊢
  by_cases hdup : c.hasSocket addrA (idOf syn + 1) = true
  · rw [if_pos hdup] at h
    exact (hnone rfl h).elim
  rw [if_neg hdup] at h ⊢
  by_cases hmany : c.sockets.length > 3000
  · rw [if_pos hmany] at h
    exact (hnone rfl h).elim
  rw [if_neg hmany] at h ⊢
  by_cases hfw : env.firewall c.tick = true
  · rw [if_pos hfw] at h
    exact (hnone rfl h).elim
  rw [if_neg hfw]
  refine ⟨?_, rfl⟩
  unfold hasSocket at hdup
  rw [Bool.not_eq_true, Option.isSome_eq_false_iff, Option.isNone_iff_eq_none] at hdup
  exact hdup

/-- The acceptor receives under one more than the id of the SYN. -/
theorem Accepts.acceptor_names (h : Accepts A addrA x B addrB env syn) :
    (B.processUdp env syn addrA).Names B.nextHandle addrA (idOf syn + 1) (idOf syn) := by
  have hc := h.acceptor.moves.1
  obtain ⟨hfree, he⟩ := processUdp_isSyn hc.toKeyed h.isSyn h.accepted
  rw [he]
  generalize hB : ({ B with tick := B.tick + 1 } : UtpContext) = B₁
  have hcons : B₁.Consistent := by
    rw [← hB]
    exact hc.host ⟨rfl, [], by simp, by simp⟩
  have hmove : Move (fun _ _ => True) B₁ (accept env addrA syn B₁) :=
    .accept env addrA syn (by rw [← hB]; exact hfree)
  have hnext : B.nextHandle = B₁.nextHandle := by rw [← hB]
  obtain ⟨i, hi⟩ := heap_accept B₁ env addrA syn
  have hid : (accept env addrA syn B₁).Identified B.nextHandle addrA (idOf syn + 1) (idOf syn) := by
    rw [hnext]
    refine ⟨(hcons.move hmove).lt_next hi, fun s hs => ?_⟩
    rw [hi] at hs
    cases hs
    exact ⟨UtpSocket.set_acceptWith env addrA syn _, (UtpSocket.addr_acceptWith env addrA syn _).1,
      UtpSocket.ids_acceptWith env addrA syn _⟩
  have hr := h.acceptor.steps (.single (.call env (.processUdp syn addrA) trivial trivial rfl))
  rw [he, hB] at hr
  rw [← hnext] at hi
  exact hid.names hr hi

/-! What the two sockets send each other. -/

/-- The datagrams that the socket `x` of the initiator and the socket `y` of the acceptor have sent:
the lookup of the other side finds its socket, if it is still there. A SYN finds it as the connection
that exists already. -/
structure Agree (A : UtpContext) (addrA : Address) (x : Handle) (B : UtpContext) (addrB : Address)
    (y : Handle) : Prop where
  toAcceptor : (B.heap y).isSome → ∀ peer b, A.HasSent x peer b → peer = addrB ∧
    (¬ IsSyn b → (B.route addrA (idOf b)).1 = some y) ∧ (IsSyn b → B.find ⟨addrA, idOf b + 1⟩ = some y)
  toInitiator : (A.heap x).isSome → ∀ peer b, B.HasSent y peer b → peer = addrA ∧ ¬ IsSyn b ∧
    (A.route addrB (idOf b)).1 = some x

theorem Identified.find_iff {addr : Address} {idRecv idSend : UInt32} (hc : c.Keyed)
    (hi : c.Identified x addr idRecv idSend) (hx : (c.heap x).isSome) {key : UtpSocketKey} :
    c.find key = some x ↔ key = ⟨addr, idRecv⟩ := by
  obtain ⟨s, hs⟩ := Option.isSome_iff_exists.1 hx
  obtain ⟨hset, rfl, rfl, -⟩ := hi.2 s hs
  rw [hc.find_iff]
  constructor
  · rintro ⟨t, ht, rfl, -⟩
    rw [hs] at ht
    cases ht
    rfl
  · rintro rfl
    exact ⟨s, hs, rfl, hset⟩

/-- One more than an id of 16 bits has 16 bits unless the id is the largest. -/
theorem narrow_succ_iff (id : UInt16) :
    (id.toUInt32 + 1).toUInt16.toUInt32 = id.toUInt32 + 1 ↔ id.toUInt32 ≠ 0xffff := by
  have hlt := id.toNat_lt
  rw [← UInt32.toNat_inj, Ne, ← UInt32.toNat_inj]
  simp only [UInt16.toNat_toUInt32, UInt32.toNat_toUInt16, UInt32.toNat_add, UInt32.toNat_one]
  have h : (0xffff : UInt32).toNat = 65535 := rfl
  rw [h]
  omega

/-- Whatever has happened on both sides since the SYN was accepted, the datagrams of each of the two
sockets find the other, unless the SYN has the largest id: then no datagram of the initiator but the
SYN finds the acceptor's socket. -/
theorem connids_agree (h : Accepts A addrA x B addrB env syn) (hA : Steps A A')
    (hB : Steps (B.processUdp env syn addrA) B') :
    (idOf syn ≠ 0xffff → Agree A' addrA x B' addrB B.nextHandle) ∧
      (idOf syn = 0xffff → ∀ peer b, A'.HasSent x peer b → ¬ IsSyn b →
        (B'.route addrA (idOf b)).1 ≠ some B.nextHandle) := by
  have hrB := h.acceptor.steps (.single (.call env (.processUdp syn addrA) trivial trivial rfl))
  obtain ⟨hiA, hsA⟩ := h.initiator_names.steps h.initiator hA
  obtain ⟨hiB, hsB⟩ := h.acceptor_names.steps hrB hB
  have hcA := (h.initiator.steps hA).moves.1.toKeyed
  have hcB := (hrB.steps hB).moves.1.toKeyed
  -- the lookup of a datagram of the initiator
  have hto {peer : Address} {b : Bytes} (hb : A'.HasSent x peer b) (hsyn : ¬ IsSyn b)
      (hy : (B'.heap B.nextHandle).isSome) :
      (B'.route addrA (idOf b)).1 = some B.nextHandle ↔ idOf syn ≠ 0xffff := by
    rw [hcB.route_eq, hiB.find_iff hcB hy, UtpSocketKey.mk.injEq, (hsA _ _ hb).other hsyn]
    unfold idOf
    rw [narrow_succ_iff]
    simp
  refine ⟨fun hne => ⟨fun hy peer b hb => ?_, fun hx peer b hb => ?_⟩, fun he peer b hb hsyn hr => ?_⟩
  · have hcar := hsA peer b hb
    refine ⟨hcar.peer, fun hsyn => (hto hb hsyn hy).2 hne, fun hsyn => ?_⟩
    rw [hiB.find_iff hcB hy, (hcar.syn hsyn).2]
  · have hcar := hsB peer b hb
    have hsyn : ¬ IsSyn b := by
      intro hsyn
      have hself := (hcar.syn hsyn).1
      grind
    refine ⟨hcar.peer, hsyn, ?_⟩
    rw [hcA.route_eq, hiA.find_iff hcA hx, hcar.other hsyn]
    unfold idOf
    rw [widen_narrow (by rw [UInt16.toNat_toUInt32]; exact UInt16.toNat_lt _)]
  · have hy : (B'.heap B.nextHandle).isSome := by
      obtain ⟨t, ht, -⟩ := hcB.find_iff.1 ((hcB.route_eq _ _).symm.trans hr)
      rw [ht]
      rfl
    exact (hto hb hsyn hy).1 hr he

/-- The SYN of `dialling` and its acknowledgement. -/
def firstSyn : Bytes := { UtpSocket.freshHdr ST_SYN with windowsize := 0x100000 : PacketFormatV1 }.toBytes

def firstAck : Bytes := { UtpSocket.freshHdr ST_STATE with windowsize := 0x100000 : PacketFormatV1 }.toBytes

def answering : UtpContext := processUdp UtpSocket.stillHost firstSyn ⟨1, 0⟩ {}

theorem accepts_dialling : Accepts dialling ⟨1, 0⟩ 0 {} ⟨0, 0⟩ UtpSocket.stillHost firstSyn where
  initiator := reachable_dialling
  acceptor := .refl
  sent := ⟨0, by decide +kernel⟩
  isSyn := by decide
  accepted := by decide +kernel

theorem connids_agree_answering :
    answering.HasSent 0 ⟨1, 0⟩ firstAck ∧ Agree dialling ⟨1, 0⟩ 0 answering ⟨0, 0⟩ 0 :=
  ⟨⟨0, by decide +kernel⟩, (connids_agree accepts_dialling .refl .refl).1 (by decide)⟩

/-- A host that draws the largest id. -/
def edgeHost : Env :=
  { UtpSocket.stillHost with random := fun n => if n = 0 then 0xffff else 5 }

def edgeDialled : UtpContext :=
  (({ createSocket {} |>.2 with tick := 1 }).call 0
    (UtpSocket.connectWith edgeHost ⟨1, 0⟩ 0xffff)).registerSocket 0

def edgeSyn : Bytes :=
  { UtpSocket.freshHdr ST_SYN with
    connid := 0xffff, windowsize := 0x100000, seqNr := 5 : PacketFormatV1 }.toBytes

def edgeAck : Bytes :=
  { UtpSocket.freshHdr ST_STATE with
    connid := 0xffff, windowsize := 0x100000, seqNr := 5, ackNr := 5 : PacketFormatV1 }.toBytes

def edgeConnected : UtpContext := edgeDialled.processUdp edgeHost edgeAck ⟨1, 0⟩

def edgeWritten : UtpContext := edgeConnected.call 0 fun s => (UtpSocket.Op.writev [[1]]).run edgeHost s

def edgeData : Bytes :=
  { UtpSocket.freshHdr ST_DATA with
    windowsize := 0x100000, seqNr := 6, ackNr := 4 : PacketFormatV1 }.toBytes ++ [1]

theorem accepts_edgeDialled : Accepts edgeDialled ⟨2, 0⟩ 0 {} ⟨1, 0⟩ edgeHost edgeSyn where
  initiator := .tail (.single (.call edgeHost .createSocket trivial trivial rfl))
    (.call edgeHost (.connect 0 ⟨1, 0⟩ 1) trivial trivial rfl)
  acceptor := .refl
  sent := ⟨0, by decide +kernel⟩
  isSyn := by decide
  accepted := by decide +kernel

theorem not_connids_agree : ¬ ∀ (A : UtpContext) (addrA : Address) (x : Handle) (B : UtpContext)
    (addrB : Address) (env : Env) (syn : Bytes) (A' B' : UtpContext), Accepts A addrA x B addrB env syn →
      Steps A A' → Steps (B.processUdp env syn addrA) B' → Agree A' addrA x B' addrB B.nextHandle := by
  intro h
  have hsteps : Steps edgeDialled edgeWritten :=
    .tail (.single (.call edgeHost (.processUdp edgeAck ⟨1, 0⟩) trivial trivial rfl))
      (.call edgeHost (.socket 0 (.writev [[1]])) ⟨trivial, fun _ _ _ => trivial⟩ trivial rfl)
  have hagree := h _ _ _ _ _ _ _ _ _ accepts_edgeDialled hsteps .refl
  have hdata := (hagree.toAcceptor (by decide +kernel) ⟨1, 0⟩ edgeData ⟨0, by decide +kernel⟩).2.1
    (by decide)
  exact absurd hdata (by decide +kernel)

/-! Another copy of the SYN. -/

def StateOf (c : UtpContext) (x : Handle) (state : ConnState) : Prop :=
  ∃ s, c.heap x = some s ∧ s.conn.state = state

/-- The socket `y` of `B'` has acknowledged the SYN since `B`, and its datagram connects the socket `x`
of `A`. -/
def Acknowledges (env : Env) (A : UtpContext) (addrA : Address) (x : Handle) (B B' : UtpContext)
    (addrB : Address) (y : Handle) (syn : Bytes) : Prop :=
  ∃ b flags, .socket y addrA (.sendTo b flags) ∈ B'.log.drop B.log.length ∧
    (PacketFormatV1.ofBytes b).type = ST_STATE ∧
    (PacketFormatV1.ofBytes b).ackNr = (PacketFormatV1.ofBytes syn).seqNr ∧
    StateOf (A.processUdp env b addrB) x .connected

/-- What leaves the acceptor as it was acknowledges nothing. -/
theorem not_acknowledges_self (env : Env) (A : UtpContext) (addrA : Address) (x : Handle) (B : UtpContext)
    (addrB : Address) (y : Handle) (syn : Bytes) : ¬ Acknowledges env A addrA x B B addrB y syn := by
  rintro ⟨b, flags, hlog, -⟩
  rw [List.drop_length] at hlog
  cases hlog

/-- A SYN of the initiator for a connection that exists is dropped: it opens no socket, sends nothing
and changes nothing, so it is not acknowledged. -/
theorem processUdp_duplicateSyn (h : Accepts A addrA x B addrB env syn) (hA : Steps A A')
    (hB : Steps (B.processUdp env syn addrA) B') (hy : (B'.heap B.nextHandle).isSome) {peer : Address}
    {b : Bytes} (hb : A'.HasSent x peer b) (hsyn : IsSyn b) (env' : Env) :
    B'.processUdp env' b addrA = B' ∧
      ¬ Acknowledges env' A' addrA x B' (B'.processUdp env' b addrA) addrB B.nextHandle b := by
  have hrB := h.acceptor.steps (.single (.call env (.processUdp syn addrA) trivial trivial rfl))
  have hiB := (h.acceptor_names.steps hrB hB).identified
  have hcar := (h.initiator_names.steps h.initiator hA).carries peer b hb
  have hfind : B'.find ⟨addrA, idOf b + 1⟩ = some B.nextHandle := by
    rw [hiB.find_iff (hrB.steps hB).moves.1.toKeyed hy, (hcar.syn hsyn).2]
  have hsame : B'.processUdp env' b addrA = B' := by
    rw [processUdp_eq hsyn]
    by_cases hwf : wellFormed b = false
    · rw [if_pos hwf]
    · rw [if_neg hwf]
      unfold processSyn hasSocket
      rw [hfind, Option.isSome_some, if_pos rfl]
  refine ⟨hsame, ?_⟩
  rw [hsame]
  exact not_acknowledges_self env' A' addrA x B' addrB B.nextHandle b

theorem processUdp_duplicateSyn_answering :
    answering.processUdp UtpSocket.stillHost firstSyn ⟨1, 0⟩ = answering ∧
      ¬ Acknowledges UtpSocket.stillHost dialling ⟨1, 0⟩ 0 answering
        (answering.processUdp UtpSocket.stillHost firstSyn ⟨1, 0⟩) ⟨0, 0⟩ 0 firstSyn :=
  processUdp_duplicateSyn accepts_dialling .refl .refl (by decide +kernel)
    accepts_dialling.sent accepts_dialling.isSyn UtpSocket.stillHost

/-- The SYN-ACK was lost, and the SYN comes once more. -/
theorem not_acknowledges : ¬ ∀ (A : UtpContext) (addrA : Address) (x : Handle) (B : UtpContext)
    (addrB : Address) (env : Env) (syn : Bytes) (A' B' : UtpContext), Accepts A addrA x B addrB env syn →
      Steps A A' → Steps (B.processUdp env syn addrA) B' → StateOf A' x .synSent →
      StateOf B' B.nextHandle .synRecv → ∀ (peer : Address) (b : Bytes), A'.HasSent x peer b → IsSyn b →
      Acknowledges env A' addrA x B' (B'.processUdp env b addrA) addrB B.nextHandle b := by
  intro h
  obtain ⟨b, flags, hlog, -⟩ := h _ _ _ _ _ _ _ _ _ accepts_dialling .refl .refl
    ⟨_, rfl, by decide +kernel⟩ ⟨_, rfl, by decide +kernel⟩ ⟨0, 0⟩ firstSyn
    accepts_dialling.sent accepts_dialling.isSyn
  have hsame : (answering.processUdp UtpSocket.stillHost firstSyn ⟨1, 0⟩).log.drop answering.log.length = [] := by
    decide +kernel
  have hlog : _ ∈ (answering.processUdp UtpSocket.stillHost firstSyn ⟨1, 0⟩).log.drop answering.log.length := hlog
  rw [hsame] at hlog
  cases hlog

end UtpContext

end Utp
