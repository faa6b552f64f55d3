import LibUtp.Registry.Attribution

/-! Whatever an address sends, the connections with other addresses go on as if it had not. -/

namespace Utp

open Relation

namespace UtpContext

variable {c c' d : UtpContext} {x h : Handle} {s : UtpSocket} {addr : Address} {op : Op} {env : Env}

/-- The events of socket `x`. -/
def eventsOf (x : Handle) (c : UtpContext) : List Event :=
  c.log.filter fun
    | .socket h _ _ => h = x
    | _ => false

/-- From `c` to `d` socket `x` keeps all but its index in the list of delayed acknowledgements, and does
nothing. -/
structure Rests (x : Handle) (c d : UtpContext) : Prop where
  heap : (d.heap x).map UtpSocket.core = (c.heap x).map UtpSocket.core
  events : d.eventsOf x = c.eventsOf x

namespace Rests

theorem refl (x : Handle) (c : UtpContext) : Rests x c c := ⟨rfl, rfl⟩

theorem trans (h : Rests x c c') (h' : Rests x c' d) : Rests x c d :=
  ⟨h'.heap.trans h.heap, h'.events.trans h.events⟩

theorem of_eq (hh : d.heap = c.heap) (hl : d.log = c.log) : Rests x c d := by
  refine ⟨by rw [hh], ?_⟩
  unfold eventsOf
  rw [hl]

/-- The rest of the socket is as it was. -/
theorem some (h : Rests x c d) (hs : c.heap x = .some s) : ∃ i, d.heap x = .some { s with ida := i } := by
  have hx := h.heap
  rw [hs, Option.map_some, Option.map_eq_some_iff] at hx
  obtain ⟨s', hs', he⟩ := hx
  refine ⟨s'.ida, hs'.trans (congrArg Option.some ?_)⟩
  exact congrArg (fun t : UtpSocket => { t with ida := s'.ida }) he

end Rests

theorem eventsOf_append {l : List Event} (hl : d.log = c.log ++ l)
    (hn : ∀ e ∈ l, ∀ peer e', e ≠ .socket x peer e') : d.eventsOf x = c.eventsOf x := by
  unfold eventsOf
  rw [hl, List.filter_append]
  refine (congrArg _ (List.filter_eq_nil_iff.2 ?_)).trans (List.append_nil _)
  intro e he
  split
  · rename_i h peer e'
    simp only [decide_eq_true_eq]
    rintro rfl
    exact hn _ he peer e' rfl
  · simp

theorem rests_host (h : HostOnly c d) : Rests x c d := by
  obtain ⟨l, hl, hn⟩ := h.log
  refine ⟨?_, eventsOf_append hl fun e he => hn e he x⟩
  rw [h.rest]

theorem rests_create (hc : c.Keyed) (hs : c.heap x = some s) : Rests x c c.createSocket.2 := by
  refine ⟨?_, rfl⟩
  rw [heap_createSocket, if_neg]
  rintro rfl
  rw [hc.fresh _ le_rfl] at hs
  cases hs

/-- A call of another socket. -/
theorem rests_call (hx : x ≠ h) (f : UtpSocket → UtpSocket) (c : UtpContext) : Rests x c (c.call h f) := by
  cases hs : c.heap h with
  | none =>
    rw [call_none hs]
    exact .refl x c
  | some s =>
    have hf := frame_call hs f
    refine ⟨?_, eventsOf_append (hf.log.trans rfl) fun e he peer e' heq => ?_⟩
    · rw [hf.heap x, heap_absorb, if_neg hx]
    · obtain ⟨e₁, -, rfl⟩ := List.mem_map.1 he
      exact hx (Event.socket.inj heq).1.symm

theorem rests_registerSocket (c : UtpContext) (h : Handle) : Rests x c (c.registerSocket h) :=
  .of_eq (heap_registerSocket c h) (log_registerSocket c h)

theorem rests_accept (hc : c.Keyed) (hs : c.heap x = some s) (env : Env) (addr : Address) (b : Bytes) :
    Rests x c (c.accept env addr b) := by
  have hx : x ≠ c.nextHandle := by
    rintro rfl
    rw [hc.fresh _ le_rfl] at hs
    cases hs
  have hreg : Rests x c ((c.createSocket.2.call c.nextHandle (UtpSocket.acceptWith env addr b)).registerSocket
      c.nextHandle) :=
    ((rests_create hc hs).trans (rests_call hx _ _)).trans (rests_registerSocket _ _)
  exact hreg.trans (rests_host ⟨rfl, [.onAccept c.nextHandle], rfl, by simp⟩)

/-- A datagram or an ICMP message from `addr`. -/
def Op.From (addr : Address) : Op → Prop
  | .processUdp _ a | .processIcmpFragmentation _ a _ | .processIcmpError _ a => a = addr
  | _ => False

/-- A lookup under an address finds no socket with another peer. -/
theorem Keyed.ne_of_find (hc : c.Keyed) (hs : c.heap x = some s) {key : UtpSocketKey} (ha : s.conn.addr ≠ key.addr)
    (hf : c.find key = some h) : x ≠ h := by
  rintro rfl
  obtain ⟨t, ht, rfl, -⟩ := hc.find_iff.1 hf
  rw [hs] at ht
  cases ht
  exact ha rfl

theorem Keyed.ne_of_findSocketForId (hc : c.Keyed) (hs : c.heap x = some s) (ha : s.conn.addr ≠ addr) {id : UInt32}
    (hf : c.findSocketForId addr id = some h) : x ≠ h := by
  rcases findSocketForId_iff.1 hf with hf | ⟨-, hf | ⟨-, hf⟩⟩
  · exact hc.ne_of_find hs ha hf
  · exact hc.ne_of_find hs ha (Option.filter_eq_some_iff.1 hf).1
  · exact hc.ne_of_find hs ha (Option.filter_eq_some_iff.1 hf).1

theorem rests_icmp (hc : c.Keyed) (hs : c.heap x = some s) (ha : s.conn.addr ≠ addr) (b : Bytes)
    (f : UtpSocket → UtpSocket) : Rests x c (match c.icmpSocket b addr with
      | some h => c.call h f
      | none => c) := by
  unfold icmpSocket
  split
  · rename_i h hf
    split at hf
    · exact rests_call (hc.ne_of_findSocketForId hs ha hf) f c
    · cases hf
  · exact .refl x c

theorem rests_processUdp (hc : c.Keyed) (hs : c.heap x = some s) (ha : s.conn.addr ≠ addr) (env : Env) (b : Bytes) :
    Rests x c (c.processUdp env b addr) := by
  unfold processUdp
  dsimp only
  split_ifs with hwf hrst hsyn
  · exact .refl x c
  · split
    · rename_i h hf
      exact rests_call (hc.ne_of_findSocketForId hs ha hf) _ c
    · exact .refl x c
  · have hroute := hc.route_eq addr (PacketFormatV1.ofBytes b).connid.toUInt32
    have hcache : Rests x c (c.route addr (PacketFormatV1.ofBytes b).connid.toUInt32).2 := by
      unfold route
      split
      · exact .refl x c
      · split <;> exact .of_eq rfl rfl
    split
    · rename_i h c₁ hr
      rw [hr] at hroute hcache
      exact hcache.trans (rests_call (hc.ne_of_find hs ha hroute.symm) _ _)
    · rename_i c₁ hr
      rw [hr] at hcache
      exact hcache.trans (rests_host (hostOnly_answerUnknown env _ _ _ _))
  · have htick : HostOnly c { c with tick := c.tick + 1 } := ⟨rfl, [], (List.append_nil _).symm, by simp⟩
    unfold processSyn
    split_ifs
    · exact .refl x c
    · exact .refl x c
    · exact rests_host htick
    · have hc' : Keyed { c with tick := c.tick + 1 } :=
        ⟨hc.keyed, hc.registered, hc.nodup, hc.last, hc.fresh⟩
      exact (rests_host htick).trans (rests_accept hc' hs env addr b)

theorem rests_step (hc : c.Keyed) (hs : c.heap x = some s) (ha : s.conn.addr ≠ addr)
    (h : Step (fun _ op => op.From addr) c d) : Rests x c d := by
  cases h with
  | call env op ho hP hr =>
    cases op with
    | processUdp b a =>
      obtain rfl : a = addr := hP
      obtain rfl := Option.some.inj hr
      exact rests_processUdp hc hs ha env b
    | processIcmpFragmentation b a nextHopMtu =>
      obtain rfl : a = addr := hP
      obtain rfl := Option.some.inj hr
      exact rests_icmp hc hs ha b _
    | processIcmpError b a =>
      obtain rfl : a = addr := hP
      obtain rfl := Option.some.inj hr
      exact rests_icmp hc hs ha b _
    | _ => exact hP.elim

/-- However many datagrams and ICMP messages an address sends, and whatever is in them, a socket with another
peer stays as it was, its index in the list of delayed acknowledgements apart; it makes no callback, and it is
found under its key as before. -/
theorem flood_isolated (h : c.Reachable) (hs : c.heap x = some s) (ha : s.conn.addr ≠ addr)
    (hd : ReflTransGen (Step fun _ op => op.From addr) c d) :
    (∃ i, d.heap x = some { s with ida := i }) ∧ d.eventsOf x = c.eventsOf x ∧
      (s.conn.state ≠ .uninitialized → d.find s.key = some x) := by
  have hmain : d.Consistent ∧ Rests x c d := by
    induction hd with
    | refl => exact ⟨h.moves.1, .refl x c⟩
    | tail _ hstep ih =>
      obtain ⟨hc, hr⟩ := ih
      obtain ⟨i, hi⟩ := hr.some hs
      exact ⟨hc.moves (hstep.moves hc), hr.trans (rests_step hc.toKeyed hi ha hstep)⟩
  obtain ⟨hc, hr⟩ := hmain
  obtain ⟨i, hi⟩ := hr.some hs
  exact ⟨⟨i, hi⟩, hr.events, fun hu => hc.find_iff.2 ⟨_, hi, rfl, hu⟩⟩

/-- A RST under the ids of a dialling socket, but not from its peer. -/
theorem flood_isolated_dialling : ∃ s i, dialling.heap 0 = some s ∧
    (dialling.processUdp UtpSocket.stillHost (UtpSocket.freshHdr ST_RESET).toBytes ⟨1, 1⟩).heap 0 =
      some { s with ida := i } := by
  have hsome : ((dialling.heap 0).map fun s => s.conn.addr) = some ⟨0, 0⟩ := by decide +kernel
  obtain ⟨s, hs, ha⟩ := Option.map_eq_some_iff.1 hsome
  have hne : s.conn.addr ≠ ⟨1, 1⟩ := by
    rw [ha]
    decide
  obtain ⟨⟨i, hi⟩, -⟩ := flood_isolated reachable_dialling hs hne
    (.single (.call UtpSocket.stillHost (.processUdp (UtpSocket.freshHdr ST_RESET).toBytes ⟨1, 1⟩) trivial rfl rfl))
  exact ⟨s, i, hs, hi⟩

end UtpContext

end Utp
