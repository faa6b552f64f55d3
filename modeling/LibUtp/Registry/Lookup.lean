import LibUtp.Registry.Moves

/-! The registry of a running context: what it stores, what the cache answers, and what
the destruction of a socket leaves behind. -/

namespace Utp

open Relation

namespace UtpContext

/-- In a sweep of the timer over the sockets of `c`, it is the turn of socket `h`, which is
to be destroyed in `d`. -/
inductive Dying (c : UtpContext) : UtpContext → Handle → Prop
  | turn (env : Env) (ms lastCheck : UInt64) (tick : ℕ) (rst : List RstInfo) {order l l' : List Handle}
      {h : Handle} {s : UtpSocket} {d : UtpContext} (ho : order.Perm (c.sockets.map Prod.snd))
      (hl : order = l ++ h :: l')
      (hd : d = (l.foldl (checkSocket env)
        { c with currentMs := ms, lastCheck := lastCheck, tick := tick, rstInfo := rst }).call h
          (UtpSocket.checkTimeouts env))
      (hs : d.heap h = some s) (hst : s.conn.state = .destroy) : Dying c d h

/-- The entry is there, or its socket was destroyed. -/
def Kept (c : UtpContext) (e : UtpSocketKey × Handle) : Prop :=
  e ∈ c.sockets ∨ c.heap e.2 = none ∧ e.2 < c.nextHandle

theorem AckFrame.heap_none {c d : UtpContext} (h : c.AckFrame d) {x : Handle} :
    d.heap x = none ↔ c.heap x = none := by
  rw [← Option.not_isSome_iff_eq_none, ← Option.not_isSome_iff_eq_none, h.isSome x]

/-- A dead socket stays dead in a call, and the registry stays. -/
theorem Kept.call {c : UtpContext} {e : UtpSocketKey × Handle} (he : c.Kept e) {h : Handle}
    {s : UtpSocket} (hs : c.heap h = some s) (f : UtpSocket → UtpSocket) : (c.call h f).Kept e := by
  have hf := frame_call hs f
  generalize f (s.lend c.currentMs c.tick) = s' at hf
  unfold Kept
  rw [hf.sockets, hf.heap_none, hf.nextHandle, heap_absorb]
  refine he.imp_right fun hn => ⟨?_, hn.2⟩
  rw [if_neg, hn.1]
  rintro rfl
  rw [hn.1] at hs
  cases hs

theorem Kept.register {c d : UtpContext} {e : UtpSocketKey × Handle} (he : c.Kept e) {h : Handle}
    {key : UtpSocketKey} (hd : d.sockets = (key, h) :: c.sockets) (hh : d.heap = c.heap)
    (hn : d.nextHandle = c.nextHandle) : d.Kept e := by
  unfold Kept
  rw [hd, hh, hn]
  exact he.imp_left (List.mem_cons_of_mem _)

theorem Kept.create {c : UtpContext} {e : UtpSocketKey × Handle} (he : c.Kept e) :
    c.createSocket.2.Kept e := by
  refine he.imp_right fun hn => ⟨?_, Nat.lt_succ_of_lt hn.2⟩
  rw [heap_createSocket, if_neg (Nat.ne_of_lt hn.2), hn.1]

theorem Kept.setUp {c : UtpContext} (hc : c.Consistent) {e : UtpSocketKey × Handle} (he : c.Kept e)
    {h : Handle} {s : UtpSocket} (hs : c.heap h = some s) (hset : s.conn.state = .uninitialized)
    {f : UtpSocket → UtpSocket} {key : UtpSocketKey} (hk : ∀ s, (f s).key = key)
    (hu : ∀ s, (f s).conn.state ≠ .uninitialized) (hi : ∀ s, (f s).ida = s.ida)
    (hfree : c.find key = none) : ((c.call h f).registerSocket h).Kept e := by
  have hsock := (hc.setUp hs hset (hu _) (by rw [hk]; exact hfree) (hi _)).2
  have hsame : (c.call h f).sockets = c.sockets := (frame_call hs f).sockets
  rw [← hsame] at hsock
  exact (he.call hs f).register hsock (heap_registerSocket _ h) (next_registerSocket _ h)

/-- An entry leaves the registry only when its socket is destroyed. -/
theorem Kept.move {P : Handle → UtpSocket.Op → Prop} {c d : UtpContext} (hc : c.Consistent)
    {e : UtpSocketKey × Handle} (he : c.Kept e) (h : Move P c d) : d.Kept e := by
  cases h with
  | host h =>
    rw [h.rest]
    exact he
  | create => exact he.create
  | call env op hs hP ho hop => exact he.call hs _
  | connect env addr seed hs hu hseed hfree =>
    exact he.setUp hc hs hu (key_connectWith env addr seed) (UtpSocket.set_connectWith env addr seed)
      (fun s => (UtpSocket.addr_connectWith env addr seed s).2) hfree
  | accept env addr b hfree =>
    have hs : c.createSocket.2.heap c.nextHandle =
        some (.new c.targetDelay c.optRcvbuf c.optSndbuf) := by rw [heap_createSocket, if_pos rfl]
    exact he.create.setUp hc.create hs rfl (key_acceptWith env addr b)
      (UtpSocket.set_acceptWith env addr b)
      (fun s => (UtpSocket.addr_acceptWith env addr b s).2) hfree
  | cache hr => exact he
  | @destroy h s hs hd =>
    have hset : s.conn.state ≠ .uninitialized := by
      rw [hd]
      simp
    have hlt := hc.lt_next hs
    obtain ⟨-, hgone, hsock, hcore⟩ := hc.destroy hs hset
    have hnext := next_destroySocket c h
    by_cases hx : e.2 = h
    · refine .inr ⟨?_, ?_⟩
      · rw [hx, hgone.heap]
      · rw [hx, hnext]
        exact hlt
    · rcases he with he | ⟨hn, hlt'⟩
      · refine .inl ?_
        rw [hsock, List.mem_filter]
        refine ⟨he, decide_eq_true fun hk => hx ?_⟩
        exact congrArg Prod.snd
          (List.inj_on_of_nodup_map hc.nodup he (hc.registered h s hs hset) hk)
      · refine .inr ⟨?_, by rwa [hnext]⟩
        have hc' := hcore e.2 hx
        rw [hn] at hc'
        exact Option.map_eq_none_iff.1 hc'

theorem Kept.step {Q : UtpContext → Op → Prop} {c d : UtpContext} (hc : c.Consistent)
    {e : UtpSocketKey × Handle} (he : c.Kept e) (h : Step Q c d) : d.Kept e := by
  have hm := h.moves hc
  suffices d.Consistent ∧ d.Kept e from this.2
  clear h
  induction hm with
  | refl => exact ⟨hc, he⟩
  | tail _ hm ih => exact ⟨ih.1.move hm, ih.2.move ih.1 hm⟩

theorem Dying.unreferenced {c d : UtpContext} (hc : c.Consistent) {h : Handle} (hd : Dying c d h) :
    (d.destroySocket h).Unreferenced h := by
  cases hd with
  | turn env ms lastCheck tick rst ho hl hd hs hst =>
    have hnd := ho.nodup_iff.2 hc.nodup_handles
    have hr (x : Handle) := (ho.mem_iff (a := x)).1
    rw [hl] at hnd hr
    obtain ⟨hnd, -, hdisj⟩ := List.nodup_append.1 hnd
    have hh : HostOnly c
        { c with currentMs := ms, lastCheck := lastCheck, tick := tick, rstInfo := rst } :=
      ⟨rfl, [], (List.append_nil _).symm, by simp⟩
    have hc₁ := hc.host hh
    obtain ⟨hm, hreg⟩ := moves_sweep (P := fun _ _ => True) hc₁ env (fun _ => trivial) hnd
      fun x hx => hr x (List.mem_append_left _ hx)
    have hc₂ := hc₁.moves hm
    have hr₂ := hreg h (fun hin => hdisj h hin h List.mem_cons_self rfl)
      (hr h (List.mem_append_right _ List.mem_cons_self))
    have hcall := hc₂.move_call (P := fun _ _ => True) hr₂ env .checkTimeouts trivial
      fun _ => trivial
    have hc₃ := hc₂.move hcall
    rw [hd] at hs ⊢
    exact (hc₃.destroy hs (by rw [hst]; simp)).2.1

/-- In every context that a run leads to: each registered socket is alive and stored once, under
its peer address and receive id; the cache and the list of delayed acknowledgements hold
registered sockets; the cache answers like the lookup; an entry goes only with its socket, which
no registration overwrites; and a socket that the timer destroys is referred to no more. -/
theorem registry_intact {c : UtpContext} (h : c.Reachable) :
    (∀ e ∈ c.sockets, ∃ s, c.heap e.2 = some s ∧ e.1 = ⟨s.conn.addr, s.conn.connIdRecv⟩ ∧
      c.find e.1 = some e.2) ∧
    (c.sockets.map Prod.snd).Nodup ∧
    (∀ x, c.lastUtpSocket = some x → c.Registered x) ∧
    (∀ x ∈ c.ackSockets, c.Registered x) ∧
    (∀ addr id, (c.route addr id).1 = c.find ⟨addr, id⟩) ∧
    (∀ d, Step (fun _ _ => True) c d → ∀ e ∈ c.sockets, e ∈ d.sockets ∨ d.heap e.2 = none) ∧
    ∀ d x, Dying c d x → (d.destroySocket x).Unreferenced x := by
  have hc := h.moves.1
  refine ⟨fun e he => ?_, hc.nodup_handles, hc.last, hc.ackRegistered, hc.route_eq,
    fun d hs e he => ?_, fun d x hd => hd.unreferenced hc⟩
  · obtain ⟨s, hs, hk, hu⟩ := hc.keyed e he
    exact ⟨s, hs, hk.symm, hc.find_iff.2 ⟨s, hs, hk, hu⟩⟩
  · exact (Kept.step hc (.inl he) hs).imp_right And.left

/-- The sweep has been with the first socket, and the second has had its turn. -/
def sweeping : UtpContext :=
  ([0].foldl (checkSocket (hostAt 1000)) { parted with
    currentMs := 1000, lastCheck := 1000, tick := 0, rstInfo := [] }).call 1 (UtpSocket.checkTimeouts (hostAt 1000))

theorem dying_parted : Dying parted sweeping 1 := by
  have hstate : ∀ s ∈ sweeping.heap 1, s.conn.state = .destroy := by decide +kernel
  have hsome : (sweeping.heap 1).isSome := by decide +kernel
  have hperm : [0, 1].Perm (parted.sockets.map Prod.snd) := by decide +kernel
  obtain ⟨s, hs⟩ := Option.isSome_iff_exists.1 hsome
  exact .turn (hostAt 1000) 1000 1000 0 [] (l := [0]) hperm rfl rfl hs (hstate s hs)

/-- Two sockets are registered, and the one to be destroyed is cached and on the list. -/
theorem registry_intact_parted :
    (parted.lastUtpSocket = some 1 ∧ parted.ackSockets = [0, 1] ∧ parted.Registered 0 ∧ parted.Registered 1) ∧
      (∀ addr id, (parted.route addr id).1 = parted.find ⟨addr, id⟩) ∧
      (sweeping.destroySocket 1).Unreferenced 1 := by
  obtain ⟨-, -, hlast, hacks, hroute, -, hdying⟩ := registry_intact reachable_parted
  have hcache : parted.lastUtpSocket = some 1 := by decide +kernel
  have hlist : parted.ackSockets = [0, 1] := by decide +kernel
  rw [hlist] at hacks
  exact ⟨⟨hcache, hlist, hacks 0 (by simp), hlast 1 hcache⟩, hroute, hdying _ 1 dying_parted⟩

end UtpContext

end Utp
