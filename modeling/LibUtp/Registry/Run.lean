import LibUtp.Registry.AckList
import LibUtp.Kernel.Life

/-! Runs of a context: any calls of the application, the network and the timer. The moves
they are made of keep the registry consistent. -/

namespace Utp

open Relation

namespace UtpSocket

/-- The calls of the application on a socket. -/
def Op.Api : Op → Prop
  | .setOption _ _ | .writev _ | .readDrained | .close | .shutdown _ => True
  | _ => False

instance : (op : Op) → Decidable op.Api
  | .setOption _ _ | .writev _ | .readDrained | .close | .shutdown _ => isTrue trivial
  | .connect _ _ | .accept _ _ | .sendAck | .processIncoming _ | .onReset | .onIcmpError
  | .onIcmpFragmentation _ | .checkTimeouts => isFalse id

end UtpSocket

namespace UtpContext

/-- The operations on a context. -/
inductive Op where
  | setOption (opt : UtpSocket.SocketOption) (val : ℤ)
  | createSocket
  | connect (h : Handle) (addr : Address) (fuel : ℕ)
  | socket (h : Handle) (op : UtpSocket.Op)
  | processUdp (b : Bytes) (addr : Address)
  | processIcmpFragmentation (b : Bytes) (addr : Address) (nextHopMtu : UInt16)
  | processIcmpError (b : Bytes) (addr : Address)
  | issueDeferredAcks
  | checkTimeouts (order : List Handle)

/-- The source asserts that a socket which is closed, shut down or read is not new. The timer
takes the registered sockets in any order. -/
def Op.Enabled (c : UtpContext) : Op → Prop
  | .socket h op => op.Api ∧
    ∀ s, c.heap h = some s → s.conn.state = .uninitialized → op.Early
  | .checkTimeouts order => order.Perm (c.sockets.map Prod.snd)
  | _ => True

instance (c : UtpContext) : (op : Op) → Decidable (op.Enabled c)
  | .socket h op => inferInstanceAs (Decidable (op.Api ∧
    ∀ s, c.heap h = some s → s.conn.state = .uninitialized → op.Early))
  | .checkTimeouts order => inferInstanceAs (Decidable (order.Perm (c.sockets.map Prod.snd)))
  | .setOption _ _ | .createSocket | .connect _ _ _ | .processUdp _ _ | .processIcmpFragmentation _ _ _
  | .processIcmpError _ _ | .issueDeferredAcks => isTrue trivial

def Op.run (env : Env) (c : UtpContext) : Op → Option UtpContext
  | .setOption opt val => some (c.setOption opt val)
  | .createSocket => some c.createSocket.2
  | .connect h addr fuel => c.connect env fuel h addr
  | .socket h op => some (c.call h fun s => op.run env s)
  | .processUdp b addr => some (c.processUdp env b addr)
  | .processIcmpFragmentation b addr nextHopMtu =>
    some (c.processIcmpFragmentation b addr nextHopMtu)
  | .processIcmpError b addr => some (c.processIcmpError b addr)
  | .issueDeferredAcks => some (c.issueDeferredAcks env)
  | .checkTimeouts order => some (c.checkTimeouts env order)

/-- A completed operation. -/
inductive Step (P : UtpContext → Op → Prop) : UtpContext → UtpContext → Prop
  | call {c c'} (env : Env) (op : Op) (h : op.Enabled c) (hP : P c op) (hr : op.run env c = some c') :
      Step P c c'

/-- The contexts that runs from a new one lead to. -/
def Reachable (c : UtpContext) : Prop := ReflTransGen (Step fun _ _ => True) {} c

/-- The operations one after the other, with one host. -/
def perform (env : Env) (c : UtpContext) (ops : List Op) : UtpContext :=
  ops.foldl (fun c op => (op.run env c).getD c) c

/-- Each of them can be called, and returns. -/
def Admits (env : Env) : UtpContext → List Op → Prop
  | _, [] => True
  | c, op :: ops => op.Enabled c ∧ op.run env c ≠ none ∧ Admits env ((op.run env c).getD c) ops

instance decidableAdmits (env : Env) : (c : UtpContext) → (ops : List Op) → Decidable (Admits env c ops)
  | _, [] => isTrue trivial
  | c, op :: ops =>
    have := decidableAdmits env ((op.run env c).getD c) ops
    inferInstanceAs (Decidable (_ ∧ op.run env c ≠ none ∧ _))

theorem steps_perform {env : Env} {c : UtpContext} {ops : List Op} (h : Admits env c ops) :
    ReflTransGen (Step fun _ _ => True) c (perform env c ops) := by
  induction ops generalizing c with
  | nil => exact .refl
  | cons op ops ih =>
    obtain ⟨ho, hr, h⟩ := h
    obtain ⟨d, hd⟩ := Option.ne_none_iff_exists'.1 hr
    refine .head (.call env op ho trivial hd) ?_
    rw [hd] at h
    unfold perform
    rw [List.foldl_cons, hd]
    exact ih h

/-- A host whose clock shows `ms`. -/
def hostAt (ms : UInt64) : Env := { UtpSocket.stillHost with milliseconds := fun _ => ms }

/-- The socket is in the registry. -/
def Registered (c : UtpContext) (h : Handle) : Prop := h ∈ c.sockets.map Prod.snd

/-- Only fields of the host have changed, and no socket has done anything. -/
structure HostOnly (c c' : UtpContext) : Prop where
  rest : c' = { c with
    currentMs := c'.currentMs
    tick := c'.tick
    rstInfo := c'.rstInfo
    targetDelay := c'.targetDelay
    optSndbuf := c'.optSndbuf
    optRcvbuf := c'.optRcvbuf
    lastCheck := c'.lastCheck
    log := c'.log }
  log : ∃ l, c'.log = c.log ++ l ∧ ∀ e ∈ l, ∀ h peer e', e ≠ .socket h peer e'

/-- The parts of a step. `P` tells which calls of which sockets may occur. -/
inductive Move (P : Handle → UtpSocket.Op → Prop) : UtpContext → UtpContext → Prop
  | host {c c'} (h : HostOnly c c') : Move P c c'
  | create {c} : Move P c c.createSocket.2
  | call {c h s} (env : Env) (op : UtpSocket.Op) (hs : c.heap h = some s) (hP : P h op)
      (ho : op.Enabled s) (hop : s.conn.state = .uninitialized → op.Early) :
      Move P c (c.call h fun s => op.run env s)
  | connect {c h s} (env : Env) (addr : Address) (seed : UInt32) (hs : c.heap h = some s)
      (hu : s.conn.state = .uninitialized) (hseed : seed.toNat < 2 ^ 16)
      (hfree : c.find ⟨addr, seed⟩ = none) :
      Move P c ((c.call h (UtpSocket.connectWith env addr seed)).registerSocket h)
  | accept {c} (env : Env) (addr : Address) (b : Bytes)
      (hfree : c.find ⟨addr, (PacketFormatV1.ofBytes b).connid.toUInt32 + 1⟩ = none) :
      Move P c (c.accept env addr b)
  | cache {c h} (hr : c.Registered h) : Move P c { c with lastUtpSocket := some h }
  | destroy {c h s} (hs : c.heap h = some s) (hd : s.conn.state = .destroy) :
      Move P c (c.destroySocket h)

/-- The registry holds the sockets that are set up, each under its own key, and the cache
refers to one of them. -/
structure Keyed (c : UtpContext) : Prop where
  keyed : ∀ e ∈ c.sockets, ∃ s, c.heap e.2 = some s ∧ s.key = e.1 ∧ s.conn.state ≠ .uninitialized
  registered : ∀ h s, c.heap h = some s → s.conn.state ≠ .uninitialized → (s.key, h) ∈ c.sockets
  nodup : (c.sockets.map Prod.fst).Nodup
  last : ∀ h, c.lastUtpSocket = some h → c.Registered h
  fresh : ∀ h, c.nextHandle ≤ h → c.heap h = none

/-- The list of delayed acknowledgements refers to registered sockets as well. -/
structure Consistent (c : UtpContext) : Prop extends Keyed c where
  acks : c.AckList
  ackRegistered : ∀ h ∈ c.ackSockets, c.Registered h

namespace AckFrame

variable {c c' : UtpContext}

theorem some (h : c.AckFrame c') {x : Handle} {s : UtpSocket} (hs : c.heap x = .some s) :
    ∃ i, c'.heap x = .some { s with ida := i } := by
  have hx := h.heap x
  rw [hs, Option.map_some, Option.map_eq_some_iff] at hx
  obtain ⟨s', hs', he⟩ := hx
  refine ⟨s'.ida, hs'.trans (congrArg Option.some ?_)⟩
  exact congrArg (fun t : UtpSocket => { t with ida := s'.ida }) he

theorem symm (h : c.AckFrame c') : c'.AckFrame c := by
  refine ⟨?_, fun x => (h.heap x).symm⟩
  rw [h.rest]

theorem sockets (h : c.AckFrame c') : c'.sockets = c.sockets := by rw [h.rest]

theorem lastUtpSocket (h : c.AckFrame c') : c'.lastUtpSocket = c.lastUtpSocket := by rw [h.rest]

theorem nextHandle (h : c.AckFrame c') : c'.nextHandle = c.nextHandle := by rw [h.rest]

end AckFrame

theorem Keyed.frame {c c' : UtpContext} (hc : c.Keyed) (h : c.AckFrame c') : c'.Keyed where
  keyed e he := by
    rw [h.sockets] at he
    obtain ⟨s, hs, hk, hu⟩ := hc.keyed e he
    obtain ⟨i, hi⟩ := h.some hs
    exact ⟨_, hi, hk, hu⟩
  registered x s hs hu := by
    obtain ⟨i, hi⟩ := h.symm.some hs
    have hm := hc.registered x _ hi hu
    rw [h.sockets]
    exact hm
  nodup := by
    rw [h.sockets]
    exact hc.nodup
  last x hx := by
    rw [h.lastUtpSocket] at hx
    unfold Registered
    rw [h.sockets]
    exact hc.last x hx
  fresh x hx := by
    rw [h.nextHandle] at hx
    have := h.isSome x
    rw [hc.fresh x hx] at this
    exact Option.not_isSome_iff_eq_none.1 (by rw [this]; simp)

/-- A registered socket is alive. -/
theorem Keyed.alive {c : UtpContext} (hc : c.Keyed) {h : Handle} (hr : c.Registered h) :
    ∃ s, c.heap h = some s ∧ s.conn.state ≠ .uninitialized := by
  obtain ⟨e, he, rfl⟩ := List.mem_map.1 hr
  obtain ⟨s, hs, -, hu⟩ := hc.keyed e he
  exact ⟨s, hs, hu⟩

theorem Keyed.registered_iff {c : UtpContext} (hc : c.Keyed) {h : Handle} :
    c.Registered h ↔ ∃ s, c.heap h = some s ∧ s.conn.state ≠ .uninitialized := by
  refine ⟨hc.alive, ?_⟩
  rintro ⟨s, hs, hu⟩
  exact List.mem_map.2 ⟨_, hc.registered h s hs hu, rfl⟩

/-- A lookup finds exactly the socket that is set up under the key. -/
theorem Keyed.find_iff {c : UtpContext} (hc : c.Keyed) {key : UtpSocketKey} {h : Handle} :
    c.find key = some h ↔ ∃ s, c.heap h = some s ∧ s.key = key ∧ s.conn.state ≠ .uninitialized := by
  unfold find
  constructor
  · intro hf
    obtain ⟨e, he, rfl⟩ := Option.map_eq_some_iff.1 hf
    have hk := List.find?_some he
    obtain ⟨s, hs, hs', hu⟩ := hc.keyed e (List.mem_of_find?_eq_some he)
    exact ⟨s, hs, hs'.trans (of_decide_eq_true hk), hu⟩
  · rintro ⟨s, hs, rfl, hu⟩
    have hmem := hc.registered h s hs hu
    cases hf : c.sockets.find? fun e => e.1 = s.key with
    | none => exact absurd (List.find?_eq_none.1 hf _ hmem) (by simp)
    | some e =>
      have hk := List.find?_some hf
      have he := List.mem_of_find?_eq_some hf
      have := List.inj_on_of_nodup_map hc.nodup he hmem (of_decide_eq_true hk)
      rw [this]
      rfl

theorem Keyed.find_none {c : UtpContext} (hc : c.Keyed) {key : UtpSocketKey} (hf : c.find key = none)
    {e : UtpSocketKey × Handle} (he : e ∈ c.sockets) : e.1 ≠ key := by
  rintro rfl
  obtain ⟨s, hs, hk, hu⟩ := hc.keyed e he
  rw [hc.find_iff.2 ⟨s, hs, hk, hu⟩] at hf
  cases hf

/-! Moves. -/

theorem registered_absorb {c : UtpContext} {h : Handle} {s : UtpSocket} {x : Handle} :
    (c.absorb h s).Registered x ↔ c.Registered x := Iff.rfl

/-- A socket changes but keeps its key. -/
theorem Keyed.absorb {c : UtpContext} (hc : c.Keyed) {h : Handle} {s s' : UtpSocket}
    (hs : c.heap h = some s) (hu : s'.conn.state = .uninitialized ↔ s.conn.state = .uninitialized)
    (hk : s.conn.state ≠ .uninitialized → s'.key = s.key) : (c.absorb h s').Keyed where
  keyed e he := by
    obtain ⟨t, ht, htk, htu⟩ := hc.keyed e he
    rw [heap_absorb]
    by_cases hx : e.2 = h
    · rw [if_pos hx]
      rw [hx, hs] at ht
      cases ht
      exact ⟨s', rfl, (hk htu).trans htk, fun h' => htu (hu.1 h')⟩
    · rw [if_neg hx]
      exact ⟨t, ht, htk, htu⟩
  registered x t ht htu := by
    rw [heap_absorb] at ht
    by_cases hx : x = h
    · rw [if_pos hx] at ht
      cases ht
      have hsu : s.conn.state ≠ .uninitialized := fun h' => htu (hu.2 h')
      rw [hk hsu, hx]
      exact hc.registered h s hs hsu
    · rw [if_neg hx] at ht
      exact hc.registered x t ht htu
  nodup := hc.nodup
  last := hc.last
  fresh x hx := by
    rw [heap_absorb, if_neg]
    · exact hc.fresh x hx
    · rintro rfl
      rw [hc.fresh x hx] at hs
      cases hs

theorem registerSocket_eq {c : UtpContext} {h : Handle} {s : UtpSocket} (hs : c.heap h = some s) :
    c.registerSocket h =
      { c with sockets := (s.key, h) :: c.sockets.filter fun e => e.1 ≠ s.key } := by
  unfold registerSocket
  rw [hs]

theorem AckFrame.registerSocket {c c' : UtpContext} (hf : c.AckFrame c') (h : Handle) :
    (c.registerSocket h).AckFrame (c'.registerSocket h) := by
  cases hs : c.heap h with
  | none =>
    have hs' : c'.heap h = none := by
      have := hf.isSome h
      rw [hs] at this
      exact Option.not_isSome_iff_eq_none.1 (by rw [this]; simp)
    unfold UtpContext.registerSocket
    rw [hs, hs']
    exact hf
  | some s =>
    obtain ⟨i, hi⟩ := hf.some hs
    rw [registerSocket_eq hs, registerSocket_eq hi]
    refine ⟨?_, fun x => hf.heap x⟩
    rw [hf.sockets]
    have hr := hf.rest
    dsimp only
    rw [hr]
    rfl

/-- A new socket is set up under a free key. -/
theorem Keyed.setUp {c : UtpContext} (hc : c.Keyed) {h : Handle} {s s' : UtpSocket}
    (hs : c.heap h = some s) (hu : s.conn.state = .uninitialized)
    (hu' : s'.conn.state ≠ .uninitialized) (hfree : c.find s'.key = none) :
    ((c.absorb h s').registerSocket h).Keyed ∧
      ((c.absorb h s').registerSocket h).sockets = (s'.key, h) :: c.sockets := by
  have hh : (c.absorb h s').heap h = some s' := by rw [heap_absorb, if_pos rfl]
  have hfilter : c.sockets.filter (fun e => e.1 ≠ s'.key) = c.sockets := by
    rw [List.filter_eq_self]
    intro e he
    exact decide_eq_true (hc.find_none hfree he)
  have hne : ∀ e ∈ c.sockets, e.2 ≠ h := by
    rintro e he rfl
    obtain ⟨t, ht, -, htu⟩ := hc.keyed e he
    rw [hs] at ht
    cases ht
    exact htu hu
  rw [registerSocket_eq hh]
  have hsock : (c.absorb h s').sockets.filter (fun e => e.1 ≠ s'.key) = c.sockets := hfilter
  rw [hsock]
  refine ⟨⟨?_, ?_, ?_, ?_, ?_⟩, rfl⟩
  · intro e he
    rcases List.mem_cons.1 he with rfl | he
    · exact ⟨s', hh, rfl, hu'⟩
    · obtain ⟨t, ht, htk, htu⟩ := hc.keyed e he
      refine ⟨t, ?_, htk, htu⟩
      show (c.absorb h s').heap e.2 = some t
      rw [heap_absorb, if_neg (hne e he), ht]
  · intro x t ht htu
    have ht : (c.absorb h s').heap x = some t := ht
    rw [heap_absorb] at ht
    by_cases hx : x = h
    · rw [if_pos hx] at ht
      cases ht
      rw [hx]
      exact List.mem_cons_self
    · rw [if_neg hx] at ht
      exact List.mem_cons_of_mem _ (hc.registered x t ht htu)
  · show ((s'.key :: c.sockets.map Prod.fst) : List UtpSocketKey).Nodup
    rw [List.nodup_cons]
    refine ⟨fun hm => ?_, hc.nodup⟩
    obtain ⟨e, he, hek⟩ := List.mem_map.1 hm
    exact hc.find_none hfree he hek
  · intro x hx
    exact List.mem_cons_of_mem _ (hc.last x hx)
  · intro x hx
    show (c.absorb h s').heap x = none
    rw [heap_absorb, if_neg]
    · exact hc.fresh x hx
    · rintro rfl
      rw [hc.fresh x hx] at hs
      cases hs

/-- Effects of `h` put no other socket on the list. -/
theorem mem_reacts {c : UtpContext} {h : Handle} (hc : c.AckList) (hl : (c.heap h).isSome)
    {l : List Effect} {x : Handle} (hx : x ∈ (l.foldl (react h) c).ackSockets) :
    x ∈ c.ackSockets ∨ x = h := by
  induction l generalizing c with
  | nil => exact .inl hx
  | cons e l ih =>
    have hl' : ((c.react h e).heap h).isSome := by
      rw [(frame_react h c e).isSome]
      exact hl
    rcases ih (hc.react hl e) hl' hx with hx | hx
    · unfold react at hx
      split at hx
      · exact ((hc.scheduleAck hl).2 x).1 hx
      · exact .inl (((hc.removeAck hl).2 x).1 hx).1
      · exact .inl hx
    · exact .inr hx

/-- The context after a call, the list of delayed acknowledgements apart. -/
theorem frame_call {c : UtpContext} {h : Handle} {s : UtpSocket} (hs : c.heap h = some s)
    (f : UtpSocket → UtpSocket) :
    (c.absorb h (f (s.lend c.currentMs c.tick))).AckFrame (c.call h f) := by
  rw [call_eq hs]
  exact frame_reacts h _ _

theorem acks_call {c : UtpContext} (hc : c.AckList) {h : Handle} {s : UtpSocket}
    (hs : c.heap h = some s) {f : UtpSocket → UtpSocket}
    (hi : (f (s.lend c.currentMs c.tick)).ida = s.ida) : (c.call h f).AckList ∧
      ∀ x ∈ (c.call h f).ackSockets, x ∈ c.ackSockets ∨ x = h := by
  rw [call_eq hs]
  generalize f (s.lend c.currentMs c.tick) = s' at hi
  have hl : ((c.absorb h s').heap h).isSome := by
    rw [heap_absorb, if_pos rfl]
    rfl
  exact ⟨(hc.absorb hs hi).reacts hl _, fun x hx => mem_reacts (hc.absorb hs hi) hl hx⟩

theorem Keyed.call {c : UtpContext} (hc : c.Keyed) {h : Handle} {s : UtpSocket}
    (hs : c.heap h = some s) {f : UtpSocket → UtpSocket}
    (hu : (f (s.lend c.currentMs c.tick)).conn.state = .uninitialized ↔
      s.conn.state = .uninitialized)
    (hk : s.conn.state ≠ .uninitialized → (f (s.lend c.currentMs c.tick)).key = s.key) :
    (c.call h f).Keyed := (hc.absorb hs hu hk).frame (frame_call hs f)

theorem AckFrame.registered {c c' : UtpContext} (h : c.AckFrame c') {x : Handle} :
    c'.Registered x ↔ c.Registered x := by
  unfold Registered
  rw [h.sockets]

/-- A call of a socket that is set up. -/
theorem Consistent.call {c : UtpContext} (hc : c.Consistent) {h : Handle} {s : UtpSocket}
    (hs : c.heap h = some s) (hset : s.conn.state ≠ .uninitialized) {f : UtpSocket → UtpSocket}
    (hu : (f (s.lend c.currentMs c.tick)).conn.state ≠ .uninitialized)
    (hk : (f (s.lend c.currentMs c.tick)).key = s.key)
    (hi : (f (s.lend c.currentMs c.tick)).ida = s.ida) : (c.call h f).Consistent where
  toKeyed := hc.toKeyed.call hs (by simp [hu, hset]) fun _ => hk
  acks := (acks_call hc.acks hs hi).1
  ackRegistered x hx := by
    rw [(frame_call hs f).registered, registered_absorb]
    rcases (acks_call hc.acks hs hi).2 x hx with hx | rfl
    · exact hc.ackRegistered x hx
    · exact hc.registered_iff.2 ⟨s, hs, hset⟩

/-- A call of a new socket, which does nothing. -/
theorem Consistent.call_new {c : UtpContext} (hc : c.Consistent) {h : Handle} {s : UtpSocket}
    (hs : c.heap h = some s) (hset : s.conn.state = .uninitialized) {f : UtpSocket → UtpSocket}
    (hu : (f (s.lend c.currentMs c.tick)).conn.state = .uninitialized)
    (ho : ∀ e ∈ (f (s.lend c.currentMs c.tick)).out, ∃ a, e = .assertFailed a)
    (hi : (f (s.lend c.currentMs c.tick)).ida = s.ida) : (c.call h f).Consistent where
  toKeyed := hc.toKeyed.call hs (by simp [hu, hset]) fun h' => absurd hset h'
  acks := (acks_call hc.acks hs hi).1
  ackRegistered x hx := by
    rw [(frame_call hs f).registered, registered_absorb]
    rw [call_eq hs, reacts_failures h _ ho] at hx
    exact hc.ackRegistered x hx

/-- The call that sets a socket up under a free key. -/
theorem Consistent.setUp {c : UtpContext} (hc : c.Consistent) {h : Handle} {s : UtpSocket}
    (hs : c.heap h = some s) (hset : s.conn.state = .uninitialized) {f : UtpSocket → UtpSocket}
    (hu : (f (s.lend c.currentMs c.tick)).conn.state ≠ .uninitialized)
    (hfree : c.find (f (s.lend c.currentMs c.tick)).key = none)
    (hi : (f (s.lend c.currentMs c.tick)).ida = s.ida) :
    ((c.call h f).registerSocket h).Consistent ∧
      ((c.call h f).registerSocket h).sockets =
        ((f (s.lend c.currentMs c.tick)).key, h) :: c.sockets := by
  obtain ⟨hk, hsock⟩ := hc.toKeyed.setUp hs hset hu hfree
  have hf := (frame_call hs f).registerSocket h
  obtain ⟨ha, hm⟩ := acks_call hc.acks hs hi
  have hreg : ((c.call h f).registerSocket h).ackSockets = (c.call h f).ackSockets ∧
      ((c.call h f).registerSocket h).heap = (c.call h f).heap := by
    unfold registerSocket
    split <;> exact ⟨rfl, rfl⟩
  have hsock' := hf.sockets.trans hsock
  have hk' := hk.frame hf
  generalize (c.call h f).registerSocket h = d at hreg hsock' hk'
  refine ⟨⟨hk', ⟨?_, ?_⟩, ?_⟩, hsock'⟩
  · have hida : d.ida = (c.call h f).ida := by
      unfold ida
      rw [hreg.2]
    rw [hreg.1, hida]
    exact ha.linked
  · intro x hx
    rw [hreg.1] at hx
    rw [hreg.2]
    exact ha.alive x hx
  · intro x hx
    rw [hreg.1] at hx
    unfold Registered
    rw [hsock']
    rcases hm x hx with hx | rfl
    · exact List.mem_cons_of_mem _ (hc.ackRegistered x hx)
    · exact List.mem_cons_self

theorem Consistent.lt_next {c : UtpContext} (hc : c.Consistent) {h : Handle} {s : UtpSocket}
    (hs : c.heap h = some s) : h < c.nextHandle := by
  by_contra hlt
  rw [hc.fresh h (Nat.le_of_not_lt hlt)] at hs
  cases hs

theorem Consistent.host {c c' : UtpContext} (hc : c.Consistent) (h : c.HostOnly c') :
    c'.Consistent := by
  rw [h.rest]
  exact ⟨⟨hc.keyed, hc.registered, hc.nodup, hc.last, hc.fresh⟩, ⟨hc.acks.linked, hc.acks.alive⟩,
    hc.ackRegistered⟩

theorem heap_createSocket (c : UtpContext) (x : Handle) : c.createSocket.2.heap x =
    if x = c.nextHandle then some (.new c.targetDelay c.optRcvbuf c.optSndbuf) else c.heap x :=
  Function.update_apply _ _ _ _

theorem Consistent.create {c : UtpContext} (hc : c.Consistent) : c.createSocket.2.Consistent := by
  have hnew := hc.fresh c.nextHandle le_rfl
  have hne {x : Handle} {s : UtpSocket} (hx : c.heap x = some s) : x ≠ c.nextHandle := by
    rintro rfl
    rw [hnew] at hx
    cases hx
  refine ⟨⟨fun e he => ?_, fun x s hs hu => ?_, hc.nodup, hc.last, fun x hx => ?_⟩,
    ⟨?_, fun x hx => ?_⟩, hc.ackRegistered⟩
  · obtain ⟨s, hs, hk, hu⟩ := hc.keyed e he
    refine ⟨s, ?_, hk, hu⟩
    rw [heap_createSocket, if_neg (hne hs), hs]
  · rw [heap_createSocket] at hs
    split at hs
    · cases hs
      exact absurd rfl hu
    · exact hc.registered x s hs hu
  · have hx : c.nextHandle + 1 ≤ x := hx
    rw [heap_createSocket, if_neg (Nat.ne_of_gt hx)]
    exact hc.fresh x (Nat.le_of_succ_le hx)
  · have hida : c.createSocket.2.ida = c.ida := by
      funext x
      unfold ida
      rw [heap_createSocket]
      split
      · rename_i hx
        rw [hx, hnew]
        rfl
      · rfl
    rw [hida]
    exact hc.acks.linked
  · rw [heap_createSocket]
    split
    · rfl
    · exact hc.acks.alive x hx

/-- The registry and the cache forget the socket `s` of `h`. -/
def forget (h : Handle) (s : UtpSocket) (c : UtpContext) : UtpContext :=
  { c with
    sockets := c.sockets.filter fun e => e.1 ≠ s.key
    log := c.log ++ [Event.socket h s.conn.addr (.onStateChange .destroying)]
    lastUtpSocket := if c.lastUtpSocket = some h then none else c.lastUtpSocket }

theorem destroySocket_eq {c : UtpContext} {h : Handle} {s : UtpSocket} (hs : c.heap h = some s) :
    c.destroySocket h = { (c.forget h s).removeAck h with
      heap := Function.update ((c.forget h s).removeAck h).heap h none } := by
  unfold destroySocket forget
  rw [hs]
  dsimp only
  split <;> rfl

/-- Nothing refers to the socket. -/
structure Unreferenced (c : UtpContext) (h : Handle) : Prop where
  heap : c.heap h = none
  sockets : ¬ c.Registered h
  last : c.lastUtpSocket ≠ some h
  acks : h ∉ c.ackSockets

/-- The socket leaves the registry, the cache and the list, and nothing else does. -/
theorem Consistent.destroy {c : UtpContext} (hc : c.Consistent) {h : Handle} {s : UtpSocket}
    (hs : c.heap h = some s) (hu : s.conn.state ≠ .uninitialized) :
    (c.destroySocket h).Consistent ∧ (c.destroySocket h).Unreferenced h ∧
      (c.destroySocket h).sockets = c.sockets.filter (fun e => e.1 ≠ s.key) ∧
      ∀ x, x ≠ h → ((c.destroySocket h).heap x).map UtpSocket.core =
        (c.heap x).map UtpSocket.core := by
  have hf := frame_removeAck (c.forget h s) h
  have ha : (c.forget h s).AckList := ⟨hc.acks.linked, hc.acks.alive⟩
  have hl : ((c.forget h s).heap h).isSome := by
    show (c.heap h).isSome
    rw [hs]
    rfl
  obtain ⟨ha', hm⟩ := ha.removeAck hl
  rw [destroySocket_eq hs]
  generalize (c.forget h s).removeAck h = d at hf ha' hm
  have hheap (x : Handle) (hx : x ≠ h) : Function.update d.heap h none x = d.heap x :=
    Function.update_of_ne hx _ _
  have hgone : Function.update d.heap h none h = none := Function.update_self _ _ _
  have hsock : d.sockets = c.sockets.filter fun e => e.1 ≠ s.key := hf.sockets
  have hlast : d.lastUtpSocket = if c.lastUtpSocket = some h then none else c.lastUtpSocket :=
    hf.lastUtpSocket
  -- of the registered sockets only `h` is stored under its key
  have hmem (e : UtpSocketKey × Handle) : e ∈ d.sockets ↔ e ∈ c.sockets ∧ e.2 ≠ h := by
    rw [hsock, List.mem_filter, decide_eq_true_iff]
    refine and_congr_right fun he => ?_
    obtain ⟨t, ht, htk, -⟩ := hc.keyed e he
    constructor
    · rintro hk rfl
      rw [hs] at ht
      cases ht
      exact hk htk.symm
    · intro hx hk
      have := List.inj_on_of_nodup_map hc.nodup he (hc.registered h s hs hu) hk
      exact hx (congrArg Prod.snd this)
  have hreg (x : Handle) : x ∈ d.sockets.map Prod.snd ↔ c.Registered x ∧ x ≠ h := by
    unfold Registered
    simp only [List.mem_map, hmem]
    constructor
    · rintro ⟨e, ⟨he, hx⟩, rfl⟩
      exact ⟨⟨e, he, rfl⟩, hx⟩
    · rintro ⟨⟨e, he, rfl⟩, hx⟩
      exact ⟨e, ⟨he, hx⟩, rfl⟩
  have hcore (x : Handle) (hx : x ≠ h) : (Function.update d.heap h none x).map UtpSocket.core =
      (c.heap x).map UtpSocket.core := by
    rw [hheap x hx]
    exact hf.heap x
  refine ⟨⟨⟨fun e he => ?_, fun x t ht htu => ?_, ?_, fun x hx => ?_, fun x hx => ?_⟩,
    ⟨?_, fun x hx => ?_⟩, fun x hx => ?_⟩, ⟨hgone, fun hr => ((hreg h).1 hr).2 rfl, ?_, ?_⟩, hsock,
    hcore⟩
  · obtain ⟨he, hx⟩ := (hmem e).1 he
    obtain ⟨t, ht, htk, htu⟩ := hc.keyed e he
    obtain ⟨i, hi⟩ := hf.some (s := t) ht
    exact ⟨_, (hheap _ hx).trans hi, htk, htu⟩
  · dsimp only at ht
    by_cases hx : x = h
    · rw [hx, hgone] at ht
      cases ht
    · rw [hheap x hx] at ht
      obtain ⟨i, hi⟩ := hf.symm.some ht
      have hr := hc.registered x _ hi htu
      exact (hmem _).2 ⟨hr, hx⟩
  · dsimp only
    rw [hsock]
    exact hc.nodup.sublist (List.filter_sublist.map _)
  · dsimp only at hx
    rw [hlast] at hx
    split at hx
    · cases hx
    · rename_i hne
      refine (hreg x).2 ⟨hc.last x hx, ?_⟩
      rintro rfl
      exact hne hx
  · have hn : d.nextHandle = c.nextHandle := hf.nextHandle
    dsimp only at hx ⊢
    rw [hn] at hx
    by_cases hxh : x = h
    · rw [hxh, hgone]
    · have hcx := hcore x hxh
      rw [hc.fresh x hx] at hcx
      exact Option.map_eq_none_iff.1 hcx
  · -- the index of the destroyed socket was cleared before
    have hida : ida { d with heap := Function.update d.heap h none } = d.ida := by
      funext x
      unfold ida
      dsimp only
      by_cases hx : x = h
      · have hout := ha'.linked.index_out h fun hin => ((hm h).1 hin).2 rfl
        rw [hx, hgone]
        exact hout.symm
      · rw [hheap x hx]
    rw [hida]
    exact ha'.linked
  · obtain ⟨hin, hne⟩ := (hm x).1 hx
    dsimp only
    rw [hheap x hne, hf.isSome x]
    exact hc.acks.alive x hin
  · obtain ⟨hin, hne⟩ := (hm x).1 hx
    exact (hreg x).2 ⟨hc.ackRegistered x hin, hne⟩
  · dsimp only
    rw [hlast]
    split
    · simp
    · assumption
  · exact fun hin => ((hm h).1 hin).2 rfl

theorem key_of_kernel {s : UtpSocket} {addr : Address} {id : UInt32} (ha : s.conn.addr = addr)
    (hi : s.kernel.idRecv = id) : s.key = ⟨addr, id⟩ := congrArg₂ UtpSocketKey.mk ha hi

theorem key_connectWith (env : Env) (addr : Address) (seed : UInt32) (s : UtpSocket) :
    (s.connectWith env addr seed).key = ⟨addr, seed⟩ :=
  key_of_kernel (UtpSocket.addr_connectWith env addr seed s).1
    (UtpSocket.ids_connectWith env addr seed s).1

theorem key_acceptWith (env : Env) (addr : Address) (b : Bytes) (s : UtpSocket) :
    (s.acceptWith env addr b).key =
      ⟨addr, (PacketFormatV1.ofBytes b).connid.toUInt32 + 1⟩ :=
  key_of_kernel (UtpSocket.addr_acceptWith env addr b s).1
    (UtpSocket.ids_acceptWith env addr b s).1

theorem Consistent.accept {c : UtpContext} (hc : c.Consistent) (env : Env) (addr : Address)
    (b : Bytes) (hfree : c.find ⟨addr, (PacketFormatV1.ofBytes b).connid.toUInt32 + 1⟩ = none) :
    (c.accept env addr b).Consistent ∧ (c.accept env addr b).sockets =
      (⟨addr, (PacketFormatV1.ofBytes b).connid.toUInt32 + 1⟩, c.nextHandle) :: c.sockets := by
  have hs : c.createSocket.2.heap c.nextHandle =
      some (.new c.targetDelay c.optRcvbuf c.optSndbuf) := by rw [heap_createSocket, if_pos rfl]
  have hkey := key_acceptWith env addr b
  have hida (s : UtpSocket) := (UtpSocket.addr_acceptWith env addr b s).2
  obtain ⟨h, hsock⟩ := hc.create.setUp (f := UtpSocket.acceptWith env addr b) hs rfl
    (UtpSocket.set_acceptWith env addr b _)
    (by rw [hkey]; exact hfree) (hida _)
  rw [hkey] at hsock
  refine ⟨h.host ⟨rfl, [.onAccept c.nextHandle], rfl, by simp⟩, hsock⟩

/-- Every move keeps the registry consistent. -/
theorem Consistent.move {P : Handle → UtpSocket.Op → Prop} {c d : UtpContext} (hc : c.Consistent)
    (h : Move P c d) : d.Consistent := by
  cases h with
  | host h => exact hc.host h
  | create => exact hc.create
  | @call h s env op hs hP ho hop =>
    by_cases hu : s.conn.state = .uninitialized
    · obtain ⟨h1, l, h2, h3⟩ := UtpSocket.early_run env (s := s.lend c.currentMs c.tick) (hop hu) hu
      refine hc.call_new hs hu h1 ?_ ?_
      · rw [h2]
        exact h3
      · exact (UtpSocket.addr_run env (s := s.lend c.currentMs c.tick)
          (by cases op <;> exact ho) hop).2
    · obtain ⟨h1, h2, h3, -, h4⟩ := UtpSocket.key_run env hu ho c.currentMs c.tick
      refine hc.call hs hu h1 ?_ h4
      unfold UtpSocket.key
      rw [h2, h3]
  | @connect h s env addr seed hs hu hseed hfree =>
    have hkey := key_connectWith env addr seed
    exact (hc.setUp (f := UtpSocket.connectWith env addr seed) hs hu
      (UtpSocket.set_connectWith env addr seed _) (by rw [hkey]; exact hfree) (UtpSocket.addr_connectWith env addr seed _).2).1
  | accept env addr b hfree => exact (hc.accept env addr b hfree).1
  | cache hr =>
    refine ⟨⟨hc.keyed, hc.registered, hc.nodup, fun x hx => ?_, hc.fresh⟩,
      ⟨hc.acks.linked, hc.acks.alive⟩, hc.ackRegistered⟩
    cases hx
    exact hr
  | destroy hs hd => exact (hc.destroy hs (by rw [hd]; simp)).1

end UtpContext

end Utp
