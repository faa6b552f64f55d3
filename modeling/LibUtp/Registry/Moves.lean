import LibUtp.Registry.Run

/-! Every step of a context is a sequence of moves, so the registry is consistent in every
context that a run leads to. -/

namespace Utp

open Relation

namespace UtpContext

/-- The socket a datagram concerns. -/
def udpSocket (b : Bytes) (addr : Address) (c : UtpContext) : Option Handle :=
  let pf := PacketFormatV1.ofBytes b
  let id := pf.connid.toUInt32
  if wellFormed b = false then none
  else if pf.type = ST_RESET then c.findSocketForId addr id
  else if pf.type ≠ ST_SYN then (c.route addr id).1
  else none

/-- The calls of sockets that an operation makes, set-up apart. -/
def Op.Calls (c : UtpContext) : Op → Handle → UtpSocket.Op → Prop
  | .connect h _ _, x, op => x = h ∧ ∃ addr seed, op = .connect addr seed
  | .socket h op, x, op' => x = h ∧ op' = op
  | .processUdp b addr, h, op => c.udpSocket b addr = some h ∧
    (op = .onReset ∨ op = .processIncoming b)
  | .processIcmpFragmentation b addr nextHopMtu, h, op => c.icmpSocket b addr = some h ∧
    op = .onIcmpFragmentation nextHopMtu
  | .processIcmpError b addr, h, op => c.icmpSocket b addr = some h ∧ op = .onIcmpError
  | .issueDeferredAcks, _, op => op = .sendAck
  | .checkTimeouts _, _, op => op = .checkTimeouts
  | _, _, _ => False

theorem registered_find {c : UtpContext} {key : UtpSocketKey} {h : Handle}
    (hf : c.find key = some h) : c.Registered h := by
  obtain ⟨e, he, rfl⟩ := Option.map_eq_some_iff.1 hf
  exact List.mem_map.2 ⟨e, List.mem_of_find?_eq_some he, rfl⟩

theorem registered_findSocketForId {c : UtpContext} {addr : Address} {id : UInt32} {h : Handle}
    (hf : c.findSocketForId addr id = some h) : c.Registered h := by
  unfold findSocketForId at hf
  dsimp only at hf
  split at hf
  · rename_i x hx
    cases hf
    exact registered_find hx
  · split at hf
    · rename_i x hx
      cases hf
      exact registered_find (Option.filter_eq_some_iff.1 hx).1
    · exact registered_find (Option.filter_eq_some_iff.1 hf).1

/-- The cached socket is the one the lookup finds. -/
theorem Keyed.route_eq {c : UtpContext} (hc : c.Keyed) (addr : Address) (id : UInt32) :
    (c.route addr id).1 = c.find ⟨addr, id⟩ := by
  unfold route
  cases hl : c.lastMatches addr id with
  | none =>
    dsimp only
    split
    · rename_i h hf
      exact hf.symm
    · rename_i hf
      exact hf.symm
  | some h =>
    obtain ⟨hlast, hany⟩ := Option.filter_eq_some_iff.1 hl
    obtain ⟨s, hs, hu⟩ := hc.alive (hc.last h hlast)
    rw [hs, Option.any_some] at hany
    exact (hc.find_iff.2 ⟨s, hs, of_decide_eq_true hany, hu⟩).symm

theorem Keyed.nodup_handles {c : UtpContext} (hc : c.Keyed) : (c.sockets.map Prod.snd).Nodup := by
  have hpw := List.pairwise_map.1 hc.nodup
  refine List.pairwise_map.2 (hpw.imp_of_mem fun {e e'} he he' hne heq => hne ?_)
  obtain ⟨s, hs, hk, -⟩ := hc.keyed e he
  obtain ⟨s', hs', hk', -⟩ := hc.keyed e' he'
  rw [heq, hs'] at hs
  cases hs
  exact hk.symm.trans hk'

theorem drawSeed_spec {env : Env} {taken : UInt32 → Bool} {fuel tick t : ℕ} {seed : UInt32}
    (h : drawSeed env taken fuel tick = some (seed, t)) : taken seed = false ∧ seed.toNat < 2 ^ 16 := by
  induction fuel generalizing tick with
  | zero => cases h
  | succ fuel ih =>
    unfold drawSeed at h
    dsimp only at h
    split at h
    · exact ih h
    · rename_i ht
      cases h
      refine ⟨by simpa using ht, ?_⟩
      rw [UInt32.toNat_and]
      exact Nat.lt_succ_of_le Nat.and_le_right

section

variable {P : Handle → UtpSocket.Op → Prop} {c d : UtpContext}

theorem Move.mono {Q : Handle → UtpSocket.Op → Prop} (hPQ : ∀ h op, P h op → Q h op)
    (h : Move P c d) : Move Q c d := by
  cases h with
  | host h => exact .host h
  | create => exact .create
  | call env op hs hP ho hop => exact .call env op hs (hPQ _ _ hP) ho hop
  | connect env addr seed hs hu hseed hfree => exact .connect env addr seed hs hu hseed hfree
  | accept env addr b hfree => exact .accept env addr b hfree
  | cache hr => exact .cache hr
  | destroy hs hd => exact .destroy hs hd

theorem moves_host (h : HostOnly c d) : ReflTransGen (Move P) c d := .single (.host h)

theorem Consistent.moves (hc : c.Consistent) (h : ReflTransGen (Move P) c d) : d.Consistent := by
  induction h with
  | refl => exact hc
  | tail _ hm ih => exact ih.move hm

/-- A registered socket is called. -/
theorem Keyed.move_call (hc : c.Keyed) {h : Handle} (hr : c.Registered h) (env : Env)
    (op : UtpSocket.Op) (hP : P h op) (ho : ∀ s, op.Enabled s) :
    Move P c (c.call h fun s => op.run env s) := by
  obtain ⟨s, hs, hu⟩ := hc.alive hr
  exact .call env op hs hP (ho s) fun h' => absurd h' hu

theorem registered_call (c : UtpContext) (h : Handle) (f : UtpSocket → UtpSocket) (x : Handle) :
    (c.call h f).Registered x ↔ c.Registered x := by
  cases hs : c.heap h with
  | none =>
    unfold call
    rw [hs]
  | some s => rw [(frame_call hs f).registered, registered_absorb]

theorem moves_ackRounds (hc : c.Consistent) (env : Env) (hP : ∀ h, P h .sendAck) (n : ℕ) :
    ReflTransGen (Move P) c (c.ackRounds env n) := by
  induction n generalizing c with
  | zero => exact .refl
  | succ n ih =>
    unfold ackRounds
    split
    · exact .refl
    · rename_i h l hack
      have hr := hc.ackRegistered h (by rw [hack]; exact List.mem_cons_self)
      have hm : Move P c (c.call h (UtpSocket.sendAck env false)) :=
        hc.move_call hr env _ (hP h) fun _ => trivial
      exact .head hm (ih (hc.move hm))

/-- One turn of the sweep; the other sockets stay registered. -/
theorem moves_checkSocket (hc : c.Consistent) (env : Env) (hP : ∀ h, P h .checkTimeouts)
    {h : Handle} (hr : c.Registered h) : ReflTransGen (Move P) c (c.checkSocket env h) ∧
      ∀ x, x ≠ h → c.Registered x → (c.checkSocket env h).Registered x := by
  have hm : Move P c (c.call h (UtpSocket.checkTimeouts env)) :=
    hc.move_call hr env _ (hP h) fun _ => trivial
  have hreg := registered_call c h (UtpSocket.checkTimeouts env)
  have hd := hc.move hm
  unfold checkSocket
  dsimp only
  generalize c.call h (UtpSocket.checkTimeouts env) = d at hm hreg hd
  cases hs : d.heap h with
  | none => exact ⟨.single hm, fun x _ hx => (hreg x).2 hx⟩
  | some s =>
    dsimp only
    split
    · rename_i hst
      have hset : s.conn.state ≠ .uninitialized := by
        rw [hst]
        simp
      refine ⟨.tail (.single hm) (.destroy hs hst), fun x hne hx => ?_⟩
      obtain ⟨hd', -, -, hcore⟩ := hd.destroy hs hset
      obtain ⟨t, ht, htu⟩ := hd.alive ((hreg x).2 hx)
      have hx' := hcore x hne
      rw [ht, Option.map_some, Option.map_eq_some_iff] at hx'
      obtain ⟨t', ht', he⟩ := hx'
      refine hd'.registered_iff.2 ⟨t', ht', ?_⟩
      have : t'.core.conn.state = t.core.conn.state := by rw [he]
      exact fun hu => htu (this.symm.trans hu)
    · exact ⟨.single hm, fun x _ hx => (hreg x).2 hx⟩

theorem moves_sweep (hc : c.Consistent) (env : Env) (hP : ∀ h, P h .checkTimeouts)
    {l : List Handle} (hnd : l.Nodup) (hr : ∀ h ∈ l, c.Registered h) :
    ReflTransGen (Move P) c (l.foldl (checkSocket env) c) ∧
      ∀ x, x ∉ l → c.Registered x → (l.foldl (checkSocket env) c).Registered x := by
  induction l generalizing c with
  | nil => exact ⟨.refl, fun x _ hx => hx⟩
  | cons h l ih =>
    rw [List.nodup_cons] at hnd
    obtain ⟨hm, hreg⟩ := moves_checkSocket hc env hP (hr h List.mem_cons_self)
    obtain ⟨hm', hreg'⟩ := ih (hc.moves hm) hnd.2 fun x hx => by
      refine hreg x ?_ (hr x (List.mem_cons_of_mem _ hx))
      rintro rfl
      exact hnd.1 hx
    refine ⟨hm.trans hm', fun x hx hrx => ?_⟩
    rw [List.mem_cons, not_or] at hx
    exact hreg' x hx.2 (hreg x hx.1 hrx)

theorem call_none {h : Handle} (hs : c.heap h = none) (f : UtpSocket → UtpSocket) :
    c.call h f = c := by
  unfold call
  rw [hs]

theorem call_congr {h : Handle} {s : UtpSocket} (hs : c.heap h = some s) {f g : UtpSocket → UtpSocket}
    (hfg : f (s.lend c.currentMs c.tick) = g (s.lend c.currentMs c.tick)) : c.call h f = c.call h g := by
  rw [call_eq hs, call_eq hs, hfg]

/-- Only the host fields differ. -/
theorem hostOnly_answerUnknown (env : Env) (addr : Address) (id : UInt32) (seqNr : UInt16)
    (c : UtpContext) : HostOnly c (c.answerUnknown env addr id seqNr) := by
  unfold answerUnknown
  dsimp only
  split
  · exact ⟨rfl, [], (List.append_nil _).symm, by simp⟩
  · split
    · exact ⟨rfl, [], (List.append_nil _).symm, by simp⟩
    · exact ⟨rfl, [.sendRst _ addr], rfl, by simp⟩

theorem moves_processSyn (env : Env) (addr : Address) (b : Bytes) (c : UtpContext) :
    ReflTransGen (Move P) c (c.processSyn env addr (PacketFormatV1.ofBytes b).connid.toUInt32 b) := by
  have htick : HostOnly c { c with tick := c.tick + 1 } :=
    ⟨rfl, [], (List.append_nil _).symm, by simp⟩
  unfold processSyn
  split
  · exact .refl
  · split
    · exact .refl
    · rename_i hfree _
      split
      · exact moves_host htick
      · refine .tail (moves_host htick) (.accept env addr b ?_)
        have := hfree
        unfold hasSocket at this
        exact Option.not_isSome_iff_eq_none.1 this

/-- A datagram that is no RST is handed to the socket of its id. -/
theorem moves_processUdp_of_ne (hc : c.Consistent) (env : Env) (b : Bytes) (addr : Address)
    (hrst : (PacketFormatV1.ofBytes b).type ≠ ST_RESET) :
    ReflTransGen (Move fun x op => c.udpSocket b addr = some x ∧ op = .processIncoming b) c
      (c.processUdp env b addr) := by
  unfold processUdp udpSocket
  dsimp only
  rw [if_neg hrst, if_neg hrst]
  split_ifs with hwf hsyn
  · exact .refl
  · have hroute := hc.route_eq addr (PacketFormatV1.ofBytes b).connid.toUInt32
    unfold route at hroute ⊢
    cases hl : c.lastMatches addr (PacketFormatV1.ofBytes b).connid.toUInt32 with
    | some h =>
      rw [hl] at hroute
      exact .single (hc.move_call (registered_find hroute.symm) env (.processIncoming b)
        ⟨rfl, rfl⟩ fun _ => trivial)
    | none =>
      dsimp only
      cases hf : c.find ⟨addr, (PacketFormatV1.ofBytes b).connid.toUInt32⟩ with
      | some h =>
        have hcache : Move (fun x op => some h = some x ∧ op = UtpSocket.Op.processIncoming b) c
            { c with lastUtpSocket := some h } := .cache (registered_find hf)
        exact .tail (.single hcache) ((hc.move hcache).move_call (registered_find hf) env
          (.processIncoming b) ⟨rfl, rfl⟩ fun _ => trivial)
      | none => exact moves_host (hostOnly_answerUnknown env _ _ _ c)
  · exact moves_processSyn env addr b c

theorem moves_processUdp (hc : c.Consistent) (env : Env) (b : Bytes) (addr : Address) :
    ReflTransGen (Move ((Op.processUdp b addr).Calls c)) c (c.processUdp env b addr) := by
  by_cases hrst : (PacketFormatV1.ofBytes b).type = ST_RESET
  · have hcall : (Op.processUdp b addr).Calls c = fun h op => c.udpSocket b addr = some h ∧
        (op = .onReset ∨ op = .processIncoming b) := rfl
    rw [hcall]
    unfold processUdp udpSocket
    dsimp only
    rw [if_pos hrst, if_pos hrst]
    split_ifs
    · exact .refl
    · split
      · rename_i h hf
        exact .single (hc.move_call (registered_findSocketForId hf) env .onReset
          ⟨hf, .inl rfl⟩ fun _ => trivial)
      · exact .refl
  · refine ReflTransGen.mono (fun _ _ hm => hm.mono fun x op hop => ?_) _ _
      (moves_processUdp_of_ne hc env b addr hrst)
    exact ⟨hop.1, .inr hop.2⟩

theorem moves_connect (env : Env) (fuel : ℕ) (h : Handle) (addr : Address)
    (hr : c.connect env fuel h addr = some d) :
    ReflTransGen (Move ((Op.connect h addr fuel).Calls c)) c d := by
  unfold connect at hr
  cases hs : c.heap h with
  | none =>
    rw [hs] at hr
    cases hr
    exact .refl
  | some s =>
    rw [hs] at hr
    dsimp only at hr
    split at hr
    · rename_i hu
      cases hr
      have hcong : c.call h UtpSocket.connectAgain =
          c.call h fun s => UtpSocket.Op.run env s (.connect addr 0) := by
        refine call_congr hs ?_
        simp only [UtpSocket.Op.run]
        rw [if_neg (show (s.lend c.currentMs c.tick).conn.state ≠ .uninitialized from hu)]
      rw [hcong]
      exact .single (.call env (.connect addr 0) hs ⟨rfl, addr, 0, rfl⟩ trivial fun h' => absurd h' hu)
    · rename_i hu
      obtain ⟨r, hdraw, rfl⟩ := Option.map_eq_some_iff.1 hr
      obtain ⟨hfree, hseed⟩ := drawSeed_spec (show _ = some (r.1, r.2) from hdraw)
      have htick : HostOnly c { c with tick := r.2 } := ⟨rfl, [], (List.append_nil _).symm, by simp⟩
      unfold hasSocket at hfree
      have hnone : c.find ⟨addr, r.1⟩ = none :=
        Option.not_isSome_iff_eq_none.1 (by rw [hfree]; simp)
      exact .tail (moves_host htick) (.connect env addr r.1 hs (not_not.1 hu) hseed hnone)

theorem moves_checkTimeouts (hc : c.Consistent) (env : Env) {order : List Handle}
    (ho : order.Perm (c.sockets.map Prod.snd)) :
    ReflTransGen (Move ((Op.checkTimeouts order).Calls c)) c (c.checkTimeouts env order) := by
  unfold checkTimeouts
  dsimp only
  split
  · exact moves_host ⟨rfl, [], (List.append_nil _).symm, by simp⟩
  · have hh : HostOnly c { c with
        currentMs := env.milliseconds c.tick
        tick := c.tick + 1
        lastCheck := env.milliseconds c.tick
        rstInfo := purgeRst (env.milliseconds c.tick) c.rstInfo.length 0 c.rstInfo } :=
      ⟨rfl, [], (List.append_nil _).symm, by simp⟩
    exact (moves_host hh).trans (moves_sweep (P := (Op.checkTimeouts order).Calls c) (hc.host hh)
      env (fun _ => rfl) (ho.nodup_iff.2 hc.nodup_handles) fun h hm => ho.mem_iff.1 hm).1

/-- A step is a sequence of moves. -/
theorem moves_run (hc : c.Consistent) (env : Env) {op : Op} (ho : op.Enabled c)
    (hr : op.run env c = some d) : ReflTransGen (Move (op.Calls c)) c d := by
  cases op with
  | setOption opt val =>
    cases hr
    refine moves_host ?_
    unfold setOption
    cases opt <;> exact ⟨rfl, [], (List.append_nil _).symm, by simp⟩
  | createSocket =>
    cases hr
    exact .single .create
  | connect h addr fuel => exact moves_connect env fuel h addr hr
  | socket h op =>
    cases hr
    obtain ⟨hapi, hearly⟩ := ho
    cases hs : c.heap h with
    | none => rw [call_none hs]
    | some s =>
      exact .single (.call env op hs ⟨rfl, rfl⟩ (by cases op <;> trivial)
        (hearly s hs))
  | processUdp b addr =>
    cases hr
    exact moves_processUdp hc env b addr
  | processIcmpFragmentation b addr m =>
    cases hr
    unfold processIcmpFragmentation
    split
    · rename_i h hf
      have hreg : c.Registered h := by
        unfold icmpSocket at hf
        split at hf
        · exact registered_findSocketForId hf
        · cases hf
      exact .single (hc.move_call hreg env (.onIcmpFragmentation m) ⟨hf, rfl⟩ fun _ => trivial)
    · exact .refl
  | processIcmpError b addr =>
    cases hr
    unfold processIcmpError
    split
    · rename_i h hf
      have hreg : c.Registered h := by
        unfold icmpSocket at hf
        split at hf
        · exact registered_findSocketForId hf
        · cases hf
      exact .single (hc.move_call hreg env .onIcmpError ⟨hf, rfl⟩ fun _ => trivial)
    · exact .refl
  | issueDeferredAcks =>
    cases hr
    exact moves_ackRounds (P := Op.issueDeferredAcks.Calls c) hc env (fun _ => rfl) _
  | checkTimeouts order =>
    cases hr
    exact moves_checkTimeouts hc env ho

theorem consistent_initial : Consistent {} := by
  refine ⟨⟨by simp, fun h s hs => ?_, by simp, by simp, fun _ _ => rfl⟩,
    ackList_initial rfl fun h s hs => ?_, by simp⟩ <;> cases hs

theorem Step.moves {Q : UtpContext → Op → Prop} (hc : c.Consistent) (h : Step Q c d) :
    ReflTransGen (Move fun _ _ => True) c d := by
  cases h with
  | call env op ho hQ hr =>
    exact ReflTransGen.mono (fun _ _ hm => hm.mono fun _ _ _ => trivial) _ _
      (moves_run hc env ho hr)

theorem Reachable.moves (h : Reachable c) :
    c.Consistent ∧ ReflTransGen (Move fun _ _ => True) {} c := by
  induction h with
  | refl => exact ⟨consistent_initial, .refl⟩
  | tail _ hs ih => exact ⟨ih.1.moves (hs.moves ih.1), ih.2.trans (hs.moves ih.1)⟩

/-- What holds of a new context and every move preserves holds of every reachable context. -/
theorem Reachable.invariant {I : UtpContext → Prop} (h₀ : I {})
    (hI : ∀ c d, c.Consistent → I c → Move (fun _ _ => True) c d → I d) (h : Reachable c) : I c := by
  have hm := h.moves.2
  suffices c.Consistent ∧ I c from this.2
  clear h
  induction hm with
  | refl => exact ⟨consistent_initial, h₀⟩
  | tail _ hs ih => exact ⟨ih.1.move hs, hI _ _ ih.1 ih.2 hs⟩

/-- Where the socket of handle `x` after a move comes from; its index may have changed. -/
inductive Became (P : Handle → UtpSocket.Op → Prop) (c : UtpContext) (x : Handle) : UtpSocket → Prop
  | same {s} (i : ℤ) (hs : c.heap x = some s) : Became P c x { s with ida := i }
  | call {s} (env : Env) (op : UtpSocket.Op) (i : ℤ) (hs : c.heap x = some s) (hP : P x op)
      (ho : op.Enabled s) (hop : s.conn.state = .uninitialized → op.Early) :
      Became P c x { op.run env (s.lend c.currentMs c.tick) with ida := i }
  | connect {s} (env : Env) (addr : Address) (seed : UInt32) (i : ℤ) (hs : c.heap x = some s)
      (hu : s.conn.state = .uninitialized) (hseed : seed.toNat < 2 ^ 16)
      (hfree : c.find ⟨addr, seed⟩ = none) :
      Became P c x { (s.lend c.currentMs c.tick).connectWith env addr seed with ida := i }
  | accept (env : Env) (addr : Address) (b : Bytes) (i : ℤ) (hx : x = c.nextHandle)
      (hfree : c.find ⟨addr, (PacketFormatV1.ofBytes b).connid.toUInt32 + 1⟩ = none) :
      Became P c x { ((UtpSocket.new c.targetDelay c.optRcvbuf c.optSndbuf).lend c.currentMs c.tick
        ).acceptWith env addr b with ida := i }
  | new (hx : x = c.nextHandle) : Became P c x (.new c.targetDelay c.optRcvbuf c.optSndbuf)

/-- The socket of a call, and the others. -/
theorem heap_call {h x : Handle} {s t : UtpSocket} (hs : c.heap h = some s)
    {f : UtpSocket → UtpSocket} (ht : (c.call h f).heap x = some t) :
    (x = h ∧ ∃ i, t = { f (s.lend c.currentMs c.tick) with ida := i }) ∨
      (x ≠ h ∧ ∃ s' i, c.heap x = some s' ∧ t = { s' with ida := i }) := by
  obtain ⟨i, hi⟩ := (frame_call hs f).symm.some ht
  rw [heap_absorb] at hi
  by_cases hx : x = h
  · rw [if_pos hx] at hi
    refine .inl ⟨hx, t.ida, ?_⟩
    rw [Option.some.inj hi]
  · rw [if_neg hx] at hi
    exact .inr ⟨hx, _, t.ida, hi, rfl⟩

theorem heap_registerSocket (c : UtpContext) (h : Handle) : (c.registerSocket h).heap = c.heap := by
  unfold registerSocket
  split <;> rfl

/-- What a move makes of each socket. -/
theorem Move.became (hc : c.Consistent) (h : Move P c d) {x : Handle} {t : UtpSocket}
    (ht : d.heap x = some t) : Became P c x t := by
  have hsame {t' : UtpSocket} (h' : c.heap x = some t') (he : ∃ i, t = { t' with ida := i }) :
      Became P c x t := by
    obtain ⟨i, rfl⟩ := he
    exact .same i h'
  cases h with
  | host h =>
    rw [h.rest] at ht
    exact hsame ht ⟨t.ida, rfl⟩
  | create =>
    rw [heap_createSocket] at ht
    split at ht
    · cases ht
      exact .new ‹_›
    · exact hsame ht ⟨t.ida, rfl⟩
  | call env op hs hP ho hop =>
    rcases heap_call hs ht with ⟨rfl, i, rfl⟩ | ⟨-, s', i, hs', he⟩
    · exact .call env op i hs hP ho hop
    · exact hsame hs' ⟨i, he⟩
  | connect env addr seed hs hu hseed hfree =>
    rw [heap_registerSocket] at ht
    rcases heap_call hs ht with ⟨rfl, i, rfl⟩ | ⟨-, s', i, hs', he⟩
    · exact .connect env addr seed i hs hu hseed hfree
    · exact hsame hs' ⟨i, he⟩
  | accept env addr b hfree =>
    have hs : c.createSocket.2.heap c.nextHandle =
        some (.new c.targetDelay c.optRcvbuf c.optSndbuf) := by rw [heap_createSocket, if_pos rfl]
    have ht : ((c.createSocket.2.call c.nextHandle (UtpSocket.acceptWith env addr b)
      ).registerSocket c.nextHandle).heap x = some t := ht
    rw [heap_registerSocket] at ht
    rcases heap_call hs ht with ⟨rfl, i, rfl⟩ | ⟨hx, s', i, hs', he⟩
    · exact .accept env addr b i rfl hfree
    · rw [heap_createSocket, if_neg hx] at hs'
      exact hsame hs' ⟨i, he⟩
  | cache hr => exact hsame ht ⟨t.ida, rfl⟩
  | @destroy h s hs hd =>
    obtain ⟨-, hgone, -, hcore⟩ := hc.destroy hs (by rw [hd]; simp)
    by_cases hx : x = h
    · rw [hx, hgone.heap] at ht
      cases ht
    · have hx := hcore x hx
      rw [ht, Option.map_some] at hx
      obtain ⟨s', hs', he⟩ := Option.map_eq_some_iff.1 hx.symm
      exact hsame hs' ⟨t.ida, congrArg (fun u : UtpSocket => { u with ida := t.ida }) he.symm⟩

/-- What every kernel step keeps holds of every socket. -/
theorem Became.kernel {x : Handle} {t : UtpSocket} {I : Kernel → Prop} (h : Became P c x t)
    (h₀ : I .initial) (hI : ∀ {x k acts k'}, I k → Kernel.Micro x k acts k' → I k')
    (hc : ∀ x s, c.heap x = some s → I s.kernel) : I t.kernel := by
  have hruns {i : Input} {b : Bytes} {s t : UtpSocket} (h : Runs i b s t) (hs : I s.kernel) : I t.kernel := by
    obtain ⟨acts, ht, -⟩ := h
    exact ht.invariant (fun _ _ _ hk hm => hI hk hm) hs
  have hida {s : UtpSocket} (i : ℤ) (hs : I s.kernel) : I ({ s with ida := i } : UtpSocket).kernel := hs
  cases h with
  | same i hs => exact hida i (hc x _ hs)
  | call env op i hs hP ho =>
    obtain ⟨acts, ht, -⟩ := UtpSocket.trace_run env ho c.currentMs c.tick
    exact hida i (ht.invariant (fun _ _ _ hk ⟨_, _, hm⟩ => hI hk hm) (hc x _ hs))
  | connect env addr seed i hs hu =>
    have h := hc x _ hs
    exact hida i (hruns (UtpSocket.runs_connectWith env addr seed (s := UtpSocket.lend _ _ _) hu) h)
  | accept env addr b i =>
    exact hida i (hruns (UtpSocket.runs_acceptWith env addr b (s := UtpSocket.lend _ _ _) rfl) h₀)
  | new => exact h₀

/-- What is left of socket `x` meets `I`. -/
def Meets (c : UtpContext) (x : Handle) (I : UtpSocket → Prop) : Prop :=
  x < c.nextHandle ∧ ∀ s, c.heap x = some s → I s

/-- What socket `x` did in a move that made it `t`. -/
inductive Did (c : UtpContext) (x : Handle) : UtpSocket → Effect → Prop
  | call {s e} (env : Env) (op : UtpSocket.Op) (hs : c.heap x = some s) (ho : op.Enabled s)
      (hop : s.conn.state = .uninitialized → op.Early)
      (he : e ∈ (op.run env (s.lend c.currentMs c.tick)).out) :
      Did c x (op.run env (s.lend c.currentMs c.tick)) e
  | connect {s e} (env : Env) (addr : Address) (seed : UInt32) (hs : c.heap x = some s)
      (hu : s.conn.state = .uninitialized)
      (he : e ∈ ((s.lend c.currentMs c.tick).connectWith env addr seed).out) :
      Did c x ((s.lend c.currentMs c.tick).connectWith env addr seed) e
  | accept {e} (env : Env) (addr : Address) (b : Bytes) (hx : x = c.nextHandle)
      (he : e ∈ (((UtpSocket.new c.targetDelay c.optRcvbuf c.optSndbuf).lend c.currentMs c.tick
        ).acceptWith env addr b).out) :
      Did c x (((UtpSocket.new c.targetDelay c.optRcvbuf c.optSndbuf).lend c.currentMs c.tick
        ).acceptWith env addr b) e

/-- The events of a call are those of its socket. -/
theorem log_call {h x : Handle} {s : UtpSocket} (hs : c.heap h = some s) (f : UtpSocket → UtpSocket)
    {peer : Address} {e : Effect} (he : .socket x peer e ∈ (c.call h f).log) :
    .socket x peer e ∈ c.log ∨ x = h ∧ peer = (f (s.lend c.currentMs c.tick)).conn.addr ∧
      e ∈ (f (s.lend c.currentMs c.tick)).out ∧
      ∃ i, (c.call h f).heap h = some { f (s.lend c.currentMs c.tick) with ida := i } := by
  have hf := frame_call hs f
  rw [hf.log] at he
  rcases List.mem_append.1 he with he | he
  · exact .inl he
  · obtain ⟨e', he', hev⟩ := List.mem_map.1 he
    obtain ⟨rfl, rfl, rfl⟩ := Event.socket.inj hev
    exact .inr ⟨rfl, rfl, he', hf.some (by rw [heap_absorb, if_pos rfl])⟩

theorem log_registerSocket (c : UtpContext) (h : Handle) : (c.registerSocket h).log = c.log := by
  unfold registerSocket
  split <;> rfl

/-- Every event of a socket is what it did, or its destruction. -/
theorem Move.logged (h : Move P c d) {x : Handle} {peer : Address} {e : Effect}
    (he : .socket x peer e ∈ d.log) : .socket x peer e ∈ c.log ∨
      e = .onStateChange .destroying ∨ ∃ t, Did c x t e ∧ peer = t.conn.addr ∧
        ∃ i, d.heap x = some { t with ida := i } := by
  cases h with
  | host h =>
    obtain ⟨l, hl, hn⟩ := h.log
    rw [hl] at he
    rcases List.mem_append.1 he with he | he
    · exact .inl he
    · exact absurd rfl (hn _ he x peer e)
  | create => exact .inl he
  | call env op hs hP ho hop =>
    rcases log_call hs _ he with he | ⟨rfl, hp, he, hi⟩
    · exact .inl he
    · exact .inr (.inr ⟨_, .call env op hs ho hop he, hp, hi⟩)
  | connect env addr seed hs hu hseed hfree =>
    rw [log_registerSocket] at he
    rcases log_call hs _ he with he | ⟨rfl, hp, he, hi⟩
    · exact .inl he
    · refine .inr (.inr ⟨_, .connect env addr seed hs hu he, hp, ?_⟩)
      rw [heap_registerSocket]
      exact hi
  | accept env addr b hfree =>
    have hs : c.createSocket.2.heap c.nextHandle =
        some (.new c.targetDelay c.optRcvbuf c.optSndbuf) := by rw [heap_createSocket, if_pos rfl]
    have he : Event.socket x peer e ∈ ((c.createSocket.2.call c.nextHandle
        (UtpSocket.acceptWith env addr b)).registerSocket c.nextHandle).log ++
          [.onAccept c.nextHandle] := he
    rw [log_registerSocket] at he
    rcases List.mem_append.1 he with he | he
    · rcases log_call hs _ he with he | ⟨rfl, hp, he, hi⟩
      · exact .inl he
      · refine .inr (.inr ⟨_, .accept env addr b rfl he, hp, ?_⟩)
        show ∃ i, ((c.createSocket.2.call c.nextHandle (UtpSocket.acceptWith env addr b)
          ).registerSocket c.nextHandle).heap c.nextHandle = _
        rw [heap_registerSocket]
        exact hi
    · simp at he
  | cache hr => exact .inl he
  | @destroy h s hs hd =>
    rw [destroySocket_eq hs] at he
    have he : Event.socket x peer e ∈ ((c.forget h s).removeAck h).log := he
    rw [(frame_removeAck _ h).log] at he
    rcases List.mem_append.1 he with he | he
    · exact .inl he
    · rw [List.mem_singleton] at he
      exact .inr (.inl (Event.socket.inj he).2.2)

theorem next_call (c : UtpContext) (h : Handle) (f : UtpSocket → UtpSocket) :
    (c.call h f).nextHandle = c.nextHandle := by
  cases hs : c.heap h with
  | none => rw [call_none hs]
  | some s => exact (frame_call hs f).nextHandle

theorem next_registerSocket (c : UtpContext) (h : Handle) :
    (c.registerSocket h).nextHandle = c.nextHandle := by
  unfold registerSocket
  split <;> rfl

theorem next_destroySocket (c : UtpContext) (h : Handle) :
    (c.destroySocket h).nextHandle = c.nextHandle := by
  cases hs : c.heap h with
  | none =>
    unfold destroySocket
    rw [hs]
  | some s =>
    rw [destroySocket_eq hs]
    exact (frame_removeAck _ h).nextHandle

/-- Handles are not used again. -/
theorem Move.next_le (h : Move P c d) : c.nextHandle ≤ d.nextHandle := by
  cases h with
  | host h => rw [h.rest]
  | create => exact Nat.le_succ _
  | call => rw [next_call]
  | connect => rw [next_registerSocket, next_call]
  | accept env addr b =>
    show c.nextHandle ≤ ((c.createSocket.2.call c.nextHandle (UtpSocket.acceptWith env addr b)
      ).registerSocket c.nextHandle).nextHandle
    rw [next_registerSocket, next_call]
    exact Nat.le_succ _
  | cache => exact le_rfl
  | destroy => rw [next_destroySocket]

/-- A property that sockets keep, whether or not they stay. -/
theorem Meets.move {x : Handle} {I : UtpSocket → Prop} (hc : c.Consistent) (h : c.Meets x I)
    (hset : ∀ s, I s → s.conn.state ≠ .uninitialized) (hida : ∀ s i, I s → I { s with ida := i })
    (hop : ∀ env op s, c.heap x = some s → I s → P x op → op.Enabled s →
      I (op.run env (s.lend c.currentMs c.tick)))
    (hm : Move P c d) : d.Meets x I := by
  obtain ⟨hx, hI⟩ := h
  refine ⟨hx.trans_le hm.next_le, fun t ht => ?_⟩
  cases hm.became hc ht with
  | same i hs => exact hida _ i (hI _ hs)
  | call env op i hs hP ho => exact hida _ i (hop env op _ hs (hI _ hs) hP ho)
  | connect env addr seed i hs hu => exact absurd hu (hset _ (hI _ hs))
  | accept env addr b i hx' => exact absurd hx' hx.ne
  | new hx' => exact absurd hx' hx.ne

theorem heap_accept (c : UtpContext) (env : Env) (addr : Address) (b : Bytes) :
    ∃ i, (c.accept env addr b).heap c.nextHandle = some
      { ((UtpSocket.new c.targetDelay c.optRcvbuf c.optSndbuf).lend c.currentMs c.tick
        ).acceptWith env addr b with ida := i } := by
  have hs : c.createSocket.2.heap c.nextHandle =
      some (.new c.targetDelay c.optRcvbuf c.optSndbuf) := by rw [heap_createSocket, if_pos rfl]
  have h := frame_call hs (UtpSocket.acceptWith env addr b)
  obtain ⟨i, hi⟩ := h.some (x := c.nextHandle) (by rw [heap_absorb, if_pos rfl])
  refine ⟨i, ?_⟩
  show ((c.createSocket.2.call c.nextHandle (UtpSocket.acceptWith env addr b)
    ).registerSocket c.nextHandle).heap c.nextHandle = _
  rw [heap_registerSocket]
  exact hi

end

/-- A context whose one socket dials. -/
def dialling : UtpContext :=
  (({ createSocket {} |>.2 with tick := 1 }).call 0
    (UtpSocket.connectWith UtpSocket.stillHost ⟨0, 0⟩ 0)).registerSocket 0

theorem reachable_dialling : Reachable dialling :=
  .tail (.single (.call UtpSocket.stillHost .createSocket trivial trivial rfl))
    (.call UtpSocket.stillHost (.connect 0 ⟨0, 0⟩ 1) trivial trivial rfl)

theorem sockets_dialling : dialling.sockets = [(⟨⟨0, 0⟩, 0⟩, 0)] := by
  have hh : HostOnly (createSocket {}).2 { createSocket {} |>.2 with tick := 1 } :=
    ⟨rfl, [], rfl, by simp⟩
  have hc := consistent_initial.create.host hh
  have hkey := key_connectWith UtpSocket.stillHost ⟨0, 0⟩ 0
  have h := (hc.setUp (h := 0) (f := UtpSocket.connectWith UtpSocket.stillHost ⟨0, 0⟩ 0) rfl rfl
    (UtpSocket.set_connectWith _ _ _ _) (by rw [hkey]; rfl)
    (UtpSocket.addr_connectWith _ _ _ _).2).2
  rw [hkey] at h
  exact h

/-- A SYN that passes the checks. -/
theorem processUdp_syn {c : UtpContext} {env : Env} {b : Bytes} {addr : Address}
    (hwf : wellFormed b = true) (ht : (PacketFormatV1.ofBytes b).type = ST_SYN)
    (hfree : c.find ⟨addr, (PacketFormatV1.ofBytes b).connid.toUInt32 + 1⟩ = none)
    (hlen : c.sockets.length ≤ 3000) (hfw : env.firewall c.tick = false) :
    c.processUdp env b addr = accept env addr b { c with tick := c.tick + 1 } := by
  unfold processUdp processSyn hasSocket
  dsimp only
  rw [if_neg (by rw [hwf]; simp), if_neg (by rw [ht]; decide), if_neg (by rw [ht]; simp),
    if_neg (by rw [hfree]; simp), if_neg (Nat.not_lt.2 hlen), if_neg (by rw [hfw]; simp)]

/-- A SYN of the peer. -/
def synPacket (connid : UInt16) : Bytes :=
  { UtpSocket.freshHdr ST_SYN with connid := connid, windowsize := 65536 : PacketFormatV1 }.toBytes

/-- A context that has answered a SYN. -/
def answered : UtpContext :=
  accept UtpSocket.stillHost ⟨0, 0⟩ (synPacket 7) { tick := 1 }

theorem reachable_answered : Reachable answered :=
  .single (.call UtpSocket.stillHost (.processUdp (synPacket 7) ⟨0, 0⟩) trivial trivial rfl)

/-- A packet to the socket with the receive id. -/
def packetTo (connid : UInt16) (type : UInt8) (seqNr ackNr : UInt16) (payload : Bytes) : Bytes :=
  { UtpSocket.freshHdr type with
    connid := connid, seqNr := seqNr, ackNr := ackNr, windowsize := 65536 : PacketFormatV1 }.toBytes ++ payload

/-- A socket dials a peer, and another one answers its SYN. -/
def meeting : List Op :=
  [.createSocket, .connect 0 ⟨0, 0⟩ 1, .processUdp (synPacket 7) ⟨0, 0⟩]

def met : UtpContext := perform UtpSocket.stillHost {} meeting

theorem reachable_met : Reachable met := steps_perform (by decide +kernel)

/-- Both connect and get data. The second is closed, sends its FIN, gets more data and then the
acknowledgement of the FIN. -/
def parting : List Op :=
  [.processUdp (packetTo 0 ST_STATE 100 0 []) ⟨0, 0⟩, .processUdp (packetTo 8 ST_DATA 1 0xffff [5]) ⟨0, 0⟩,
    .socket 1 .close, .processUdp (packetTo 0 ST_DATA 100 0 [9]) ⟨0, 0⟩,
    .processUdp (packetTo 8 ST_DATA 2 0xffff [6]) ⟨0, 0⟩, .processUdp (packetTo 8 ST_STATE 3 0 []) ⟨0, 0⟩]

/-- The second socket is to be destroyed; it is cached, and both have an acknowledgement due. -/
def parted : UtpContext := perform UtpSocket.stillHost met parting

theorem reachable_parted : Reachable parted := reachable_met.trans (steps_perform (by decide +kernel))

end UtpContext

end Utp
