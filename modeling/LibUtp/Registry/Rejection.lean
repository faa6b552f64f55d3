import LibUtp.Registry.Moves

/-! Datagrams that are rejected: what they leave as it was, and what they do not. -/

namespace Utp

namespace UtpSocket

variable (env : Env)

/-- A socket but for what it has of its host. -/
def own (s : UtpSocket) : UtpSocket := s.lend 0 0

/-- The parser rejects `b`, or its acknowledgement number is not allowed. -/
def Rejects (b : Bytes) (s : UtpSocket) : Prop :=
  ∀ pp, (parseBytes b s.conn.extensions).1 = some pp → s.invalidAck pp

/-- The bodies of the blocks of extension bits that stand whole before the chain ends or breaks. -/
def bitsBlocks (b : Bytes) : ℕ → UInt8 → ℕ → List Bytes
  | 0, _, _ => []
  | fuel + 1, extension, pos =>
    let body := pos + 2
    let left := int32 ((b.length : ℤ) - body)
    let len := (rd8 b (pos + 1)).toNat
    if left < 0 ∨ left < len then []
    else if extension = 2 ∧ len ≠ 8 then []
    else
      let rest := if rd8 b pos = 0 then [] else bitsBlocks b fuel (rd8 b pos) (body + len)
      if extension = 2 then ((b.drop body).take len) :: rest else rest

/-- The extension bits that a datagram carries, in order. -/
def carriedBits (b : Bytes) : List Bytes :=
  let pf := PacketFormatV1.ofBytes b
  if ST_NUM_STATES ≤ pf.type ∨ b.length < PacketFormatV1.size ∨ pf.ext = 0 then []
  else bitsBlocks b b.length pf.ext PacketFormatV1.size

theorem bits_parseExtensions (b : Bytes) (fuel : ℕ) (t : UInt8) (pos : ℕ) (selack : Option Bytes)
    (bits : Bytes) :
    (parseExtensions b fuel t pos selack bits).2 = (bitsBlocks b fuel t pos).getLastD bits := by
  induction fuel generalizing t pos selack bits with
  | zero => rfl
  | succ fuel ih =>
    unfold parseExtensions bitsBlocks
    dsimp only
    generalize (if t = 1 then _ else selack) = selack'
    by_cases hshort : int32 ((b.length : ℤ) - (pos + 2 : ℕ)) < 0 ∨
        int32 ((b.length : ℤ) - (pos + 2 : ℕ)) < (rd8 b (pos + 1)).toNat
    · rw [if_pos hshort, if_pos hshort]
      rfl
    rw [if_neg hshort, if_neg hshort]
    by_cases hlen : t = 2 ∧ (rd8 b (pos + 1)).toNat ≠ 8
    · rw [if_pos hlen, if_pos hlen]
      rfl
    rw [if_neg hlen, if_neg hlen]
    by_cases hend : rd8 b pos = 0
    · rw [if_pos hend, if_pos hend]
      split <;> rfl
    · rw [if_neg hend, if_neg hend, ih]
      split
      · rw [List.getLastD_cons]
      · rfl

/-- The last of them is stored, whatever becomes of the datagram. -/
theorem bits_parseBytes (b bits : Bytes) : (parseBytes b bits).2 = (carriedBits b).getLastD bits := by
  unfold parseBytes carriedBits
  dsimp only
  by_cases htype : ST_NUM_STATES ≤ (PacketFormatV1.ofBytes b).type
  · rw [if_pos htype, if_pos (.inl htype)]
    rfl
  by_cases hsize : b.length < PacketFormatV1.size
  · rw [if_neg htype, if_pos hsize, if_pos (.inr (.inl hsize))]
    rfl
  by_cases hext : (PacketFormatV1.ofBytes b).ext = 0
  · rw [if_neg htype, if_neg hsize, if_pos hext, if_pos (.inr (.inr hext))]
    rfl
  · rw [if_neg htype, if_neg hsize, if_neg hext, if_neg (by simp [htype, hsize, hext])]
    exact bits_parseExtensions b _ _ _ _ _

/-- Of a rejected datagram the extension bits remain. -/
theorem processIncoming_rejects {b : Bytes} {s : UtpSocket} (h : s.Rejects b) :
    ∃ host, host.out = s.out ∧ s.processIncoming env b false =
      { s with conn := { s.conn with host := host, extensions := (parseBytes b s.conn.extensions).2 } } := by
  have hparse : ((s.refreshClock env).parsePacket b).1 = (parseBytes b s.conn.extensions).1 := rfl
  have hsock : ∃ host, host.out = s.out ∧ ((s.refreshClock env).parsePacket b).2 =
      { s with conn := { s.conn with host := host, extensions := (parseBytes b s.conn.extensions).2 } } :=
    ⟨(s.refreshClock env).conn.host, rfl, rfl⟩
  unfold processIncoming
  generalize (s.refreshClock env).parsePacket b = r at hparse hsock ⊢
  obtain ⟨host, hout, he⟩ := hsock
  dsimp only
  split
  · exact ⟨host, hout, he⟩
  · rename_i pp hpp
    have hinv : r.2.asked.invalidAck pp = s.invalidAck pp := by
      rw [he]
      rfl
    rw [hinv, if_pos (h pp (hparse.symm.trans hpp)), he]
    exact ⟨{ host with tick := host.tick + 1 }, hout, rfl⟩

end UtpSocket

namespace UtpContext

variable {c : UtpContext} {env : Env} {b : Bytes} {addr : Address}

/-- Only the clock and the lookup cache differ, and what the sockets have of their host. -/
structure Untouched (c c' : UtpContext) : Prop where
  rest : c' = { c with
    currentMs := c'.currentMs
    tick := c'.tick
    lastUtpSocket := c'.lastUtpSocket
    heap := c'.heap }
  heap : ∀ h, (c'.heap h).map UtpSocket.own = (c.heap h).map UtpSocket.own

/-- The parser rejects the datagram for every socket, or the socket it is for rejects it. -/
def Rejected (b : Bytes) (addr : Address) (c : UtpContext) : Prop :=
  (∀ bits, (UtpSocket.parseBytes b bits).1 = none) ∨
    ∃ h s, c.udpSocket b addr = some h ∧ c.heap h = some s ∧ s.Rejects b

/-- A packet of an unknown connection finds its entry as fresh as it could be, or the entries full. -/
def UnknownQuiet (env : Env) (addr : Address) (id : UInt32) (seqNr : UInt16) (c : UtpContext) : Prop :=
  match c.rstInfo.findIdx? fun r => r.connid = id ∧ r.addr = addr ∧ r.ackNr = seqNr with
  | some i => ∀ r, c.rstInfo[i]? = some r → r.timestamp = env.milliseconds c.tick
  | none => RST_INFO_LIMIT < c.rstInfo.length

/-- The datagram is no RST for a socket and no SYN that is accepted, it is not answered as one for an
unknown connection, and the last extension bits it carries are those that the socket has. -/
def Harmless (env : Env) (b : Bytes) (addr : Address) (c : UtpContext) : Prop :=
  let pf := PacketFormatV1.ofBytes b
  let id := pf.connid.toUInt32
  wellFormed b = false ∨
    if pf.type = ST_RESET then c.findSocketForId addr id = none
    else if pf.type ≠ ST_SYN then
      match (c.route addr id).1 with
      | some h => ∀ s, c.heap h = some s → ∀ bits ∈ (UtpSocket.carriedBits b).getLast?, bits = s.conn.extensions
      | none => c.UnknownQuiet env addr id pf.seqNr
    else c.hasSocket addr (id + 1) ∨ 3000 < c.sockets.length ∨ env.firewall c.tick

theorem Untouched.refl (c : UtpContext) : Untouched c c := ⟨rfl, fun _ => rfl⟩

/-- The datagram goes to the socket that rejects it, which keeps its bits. -/
theorem untouched_call_iff {h : Handle} {s : UtpSocket} (hs : c.heap h = some s) (hr : s.Rejects b)
    (last : Option Handle) :
    Untouched c (({ c with lastUtpSocket := last }).call h (UtpSocket.processIncoming env b false)) ↔
      ∀ bits ∈ (UtpSocket.carriedBits b).getLast?, bits = s.conn.extensions := by
  have hlast : (∀ bits ∈ (UtpSocket.carriedBits b).getLast?, bits = s.conn.extensions) ↔
      (UtpSocket.parseBytes b s.conn.extensions).2 = s.conn.extensions := by
    rw [UtpSocket.bits_parseBytes, List.getLastD_eq_getLast?]
    cases (UtpSocket.carriedBits b).getLast? <;> simp
  rw [hlast]
  obtain ⟨host, hout, he⟩ := UtpSocket.processIncoming_rejects env (s := s.lend c.currentMs c.tick) hr
  have hnil : ((s.lend c.currentMs c.tick).processIncoming env b false).out = [] := by
    rw [he]
    exact hout
  have hcall : ({ c with lastUtpSocket := last }).call h (UtpSocket.processIncoming env b false) =
      ({ c with lastUtpSocket := last }).absorb h ((s.lend c.currentMs c.tick).processIncoming env b false) := by
    rw [call_eq (c := { c with lastUtpSocket := last }) hs]
    show List.foldl _ _ ((s.lend c.currentMs c.tick).processIncoming env b false).out = _
    rw [hnil]
    rfl
  rw [hcall]
  constructor
  · intro hu
    have hx := hu.heap h
    rw [heap_absorb, if_pos rfl, hs, he] at hx
    exact congrArg (fun s : UtpSocket => s.conn.extensions) (Option.some.inj hx)
  · intro hbits
    have hown : ((s.lend c.currentMs c.tick).processIncoming env b false).own = s.own := by
      rw [he]
      unfold UtpSocket.own UtpSocket.lend
      dsimp only
      rw [hbits]
    refine ⟨?_, fun x => ?_⟩
    · unfold absorb
      rw [hnil, List.map_nil, List.append_nil]
      rfl
    · rw [heap_absorb]
      split
      · rename_i hx
        rw [hx, hs, Option.map_some, Option.map_some, hown]
      · rfl

/-- A RST is reported to the application. -/
theorem not_untouched_onReset {h : Handle} {s : UtpSocket} (hs : c.heap h = some s) :
    ¬ Untouched c (c.call h UtpSocket.onReset) := by
  intro hu
  have hlog : (c.call h UtpSocket.onReset).log = c.log := by rw [hu.rest]
  rw [call_eq hs, (frame_reacts h _ _).log] at hlog
  have hlen := congrArg List.length hlog
  simp [absorb, UtpSocket.onReset] at hlen

theorem not_untouched_accept (env : Env) (addr : Address) (b : Bytes) (c : UtpContext) (tick : ℕ) :
    ¬ Untouched c (({ c with tick := tick }).accept env addr b) := by
  intro hu
  have hn : (({ c with tick := tick }).accept env addr b).nextHandle = c.nextHandle := by rw [hu.rest]
  have hacc : (({ c with tick := tick }).accept env addr b).nextHandle = c.nextHandle + 1 := by
    unfold accept
    show (((({ c with tick := tick }).createSocket.2).call _ _).registerSocket _).nextHandle = _
    rw [next_registerSocket, next_call]
    rfl
  rw [hacc] at hn
  exact Nat.succ_ne_self _ hn

theorem untouched_processSyn_iff (env : Env) (addr : Address) (id : UInt32) (b : Bytes) (c : UtpContext) :
    Untouched c (c.processSyn env addr id b) ↔
      c.hasSocket addr (id + 1) ∨ 3000 < c.sockets.length ∨ env.firewall c.tick := by
  unfold processSyn
  split_ifs with h₁ h₂ h₃
  · exact ⟨fun _ => .inl h₁, fun _ => .refl c⟩
  · exact ⟨fun _ => .inr (.inl h₂), fun _ => .refl c⟩
  · exact ⟨fun _ => .inr (.inr h₃), fun _ => ⟨rfl, fun _ => rfl⟩⟩
  · refine ⟨fun hu => absurd hu (not_untouched_accept env addr b c _), fun h => ?_⟩
    rcases h with h | h | h
    · exact absurd h h₁
    · exact absurd h h₂
    · exact absurd h h₃

theorem modify_eq_self_iff {α : Type} {l : List α} {i : ℕ} {f : α → α} :
    l.modify i f = l ↔ ∀ x, l[i]? = some x → f x = x := by
  constructor
  · intro h x hx
    have := congrArg (·[i]?) h
    simp only [List.getElem?_modify, if_pos, hx] at this
    exact Option.some.inj this
  · intro h
    apply List.ext_getElem?
    intro n
    rw [List.getElem?_modify]
    cases hn : l[n]? with
    | none => rfl
    | some x =>
      by_cases hi : i = n
      · subst hi
        simp [h x hn]
      · simp [hi]

theorem untouched_answerUnknown_iff (env : Env) (addr : Address) (id : UInt32) (seqNr : UInt16)
    (c : UtpContext) (last : Option Handle) :
    Untouched c (({ c with lastUtpSocket := last }).answerUnknown env addr id seqNr) ↔
      c.UnknownQuiet env addr id seqNr := by
  unfold answerUnknown UnknownQuiet
  dsimp only
  cases List.findIdx? (fun r => decide (r.connid = id ∧ r.addr = addr ∧ r.ackNr = seqNr)) c.rstInfo with
  | some i =>
    have hmod := modify_eq_self_iff (l := c.rstInfo) (i := i)
      (f := fun r => { r with timestamp := env.milliseconds c.tick })
    constructor
    · intro hu r hr
      have hsame := hmod.1 (congrArg rstInfo hu.rest) r hr
      exact (congrArg RstInfo.timestamp hsame).symm
    · intro hq
      refine ⟨?_, fun _ => rfl⟩
      dsimp only
      rw [hmod.2 fun r hr => by rw [← hq r hr]]
  | none =>
    dsimp only
    split_ifs with hlim
    · exact ⟨fun _ => hlim, fun _ => ⟨rfl, fun _ => rfl⟩⟩
    · refine ⟨fun hu => ?_, fun h => absurd h hlim⟩
      have hlog := congrArg (fun c => c.log.length) hu.rest
      simp at hlog

theorem route_cache (addr : Address) (id : UInt32) (c : UtpContext) :
    ∃ last, (c.route addr id).2 = { c with lastUtpSocket := last } := by
  unfold route
  split
  · exact ⟨c.lastUtpSocket, rfl⟩
  · split
    · exact ⟨_, rfl⟩
    · exact ⟨c.lastUtpSocket, rfl⟩

theorem rejects_of_rejected (hrej : Rejected b addr c) {h : Handle} (hu : c.udpSocket b addr = some h)
    {s : UtpSocket} (hs : c.heap h = some s) : s.Rejects b := by
  rcases hrej with hnone | ⟨h', s', hu', hs', hr⟩
  · intro pp hpp
    rw [hnone] at hpp
    cases hpp
  · rw [hu] at hu'
    cases hu'
    rw [hs] at hs'
    cases hs'
    exact hr

/-- What a rejected datagram does on every route. -/
theorem untouched_iff (hc : c.Keyed) (hrej : Rejected b addr c) :
    Untouched c (c.processUdp env b addr) ↔ Harmless env b addr c := by
  unfold Harmless
  unfold processUdp
  dsimp only
  by_cases hwf : wellFormed b = false
  · rw [if_pos hwf]
    exact ⟨fun _ => .inl hwf, fun _ => .refl c⟩
  rw [if_neg hwf]
  have hor (p : Prop) : (wellFormed b = false ∨ p) ↔ p := ⟨fun h => h.resolve_left hwf, .inr⟩
  rw [hor]
  split
  · rename_i ht
    cases hf : c.findSocketForId addr (PacketFormatV1.ofBytes b).connid.toUInt32 with
    | none => exact ⟨fun _ => rfl, fun _ => .refl c⟩
    | some h =>
      obtain ⟨s, hs, -⟩ := hc.alive (registered_findSocketForId hf)
      exact ⟨fun hu => absurd hu (not_untouched_onReset hs), nofun⟩
  · rename_i ht
    split
    · rename_i ht'
      obtain ⟨last, hlast⟩ := route_cache addr (PacketFormatV1.ofBytes b).connid.toUInt32 c
      have hudp : c.udpSocket b addr = (c.route addr (PacketFormatV1.ofBytes b).connid.toUInt32).1 := by
        unfold udpSocket
        rw [if_neg hwf, if_neg ht, if_pos ht']
      have hreg := hc.route_eq addr (PacketFormatV1.ofBytes b).connid.toUInt32
      generalize c.route addr (PacketFormatV1.ofBytes b).connid.toUInt32 = r at hlast hudp hreg ⊢
      obtain ⟨o, c'⟩ := r
      dsimp only at hlast hudp hreg ⊢
      subst hlast
      cases o with
      | none => exact untouched_answerUnknown_iff env addr _ _ c last
      | some h =>
        obtain ⟨s, hs, -⟩ := hc.alive (registered_find hreg.symm)
        dsimp only
        rw [untouched_call_iff hs (rejects_of_rejected hrej hudp hs), hs]
        simp
    · exact untouched_processSyn_iff env addr _ b c

/-- In every context that a run leads to, a datagram that the parser rejects, or whose socket does
not allow its acknowledgement number, has no effect exactly when it is harmless. -/
theorem rejected_untouched (h : c.Reachable) (hrej : Rejected b addr c) (env : Env) :
    Untouched c (c.processUdp env b addr) ↔ Harmless env b addr c :=
  untouched_iff h.moves.1.toKeyed hrej

/-- A header that announces an extension, and nothing behind it. -/
def brokenPacket (type : UInt8) : Bytes :=
  { UtpSocket.freshHdr type with ext := 1 : PacketFormatV1 }.toBytes

theorem parseBytes_brokenPacket {type : UInt8} (h : type = ST_STATE ∨ type = ST_SYN) (bits : Bytes) :
    (UtpSocket.parseBytes (brokenPacket type) bits).1 = none := by
  rcases h with rfl | rfl <;> rfl

theorem rejected_untouched_dialling :
    Untouched dialling (dialling.processUdp UtpSocket.stillHost (brokenPacket ST_STATE) ⟨0, 0⟩) := by
  refine (rejected_untouched reachable_dialling
    (.inl (parseBytes_brokenPacket (.inl rfl))) UtpSocket.stillHost).2 (.inr ?_)
  have hroute : (dialling.route ⟨0, 0⟩ 0).1 = some 0 := by
    rw [reachable_dialling.moves.1.route_eq]
    unfold find
    rw [sockets_dialling]
    rfl
  have hid : (PacketFormatV1.ofBytes (brokenPacket ST_STATE)).connid.toUInt32 = 0 := by decide
  rw [if_neg (by decide), if_pos (by decide), hid, hroute]
  intro s _ bits hbits
  cases hbits

/-- A SYN with a broken chain makes a socket. -/
theorem rejected_accepted : ¬ ∀ c : UtpContext, c.Reachable → ∀ b addr, Rejected b addr c →
    ∀ env, Untouched c (c.processUdp env b addr) := by
  intro h
  have hsyn := h {} .refl (brokenPacket ST_SYN) ⟨0, 0⟩ (.inl (parseBytes_brokenPacket (.inr rfl)))
    UtpSocket.stillHost
  rw [processUdp_syn (by decide) (by decide) rfl (Nat.zero_le _) rfl] at hsyn
  exact not_untouched_accept _ _ _ _ _ hsyn

end UtpContext

end Utp
