import LibUtp.Invariant.Callbacks
import LibUtp.Registry.Destruction
import LibUtp.Registry.Sweep

/-! What the application hears of one socket in a run of the whole context: the connection before what takes it
to be open, and `UTP_STATE_DESTROYING` as the last, exactly when the socket is freed. -/

namespace Utp

open Lts Relation

/-- What the socket of an event has done. -/
def Event.effect : Event → Option Effect
  | .socket _ _ e => some e
  | _ => none

/-- The reports of a socket that lives, by its origin and its state. -/
structure Tale (o : Origin) (l : List Effect) (st : ConnState) : Prop where
  standing : Standing o l st
  unended : Effect.onStateChange .destroying ∉ l

/-- A socket is set up once. -/
def Origin.Leads (o o' : Origin) : Prop := o' = o ∨ o = .fresh

theorem Origin.Leads.trans {o o' o'' : Origin} (h : o.Leads o') (h' : o'.Leads o'') : o.Leads o'' := by
  rcases h with rfl | h
  · exact h'
  · exact .inr h

theorem Origin.Leads.accepted {o : Origin} (h : Origin.accepted.Leads o) : o = .accepted := by
  rcases h with h | h
  · exact h
  · cases h

namespace Tale

variable {o : Origin} {l : List Effect} {st : ConnState}

theorem fresh : Tale .fresh [] .uninitialized := ⟨.fresh (.inl rfl) (by simp [Discreet]), by simp⟩

/-- No such step reports the destruction of the socket. -/
theorem unended_connStep {a : Scope} {d d' : ConnView} {m : List Effect} (h : ConnStep a d m d') :
    Effect.onStateChange .destroying ∉ m := by
  cases h with
  | say hp =>
    rw [List.mem_singleton]
    rintro rfl
    cases hp
  | hand _ _ he =>
    rw [List.mem_singleton]
    rintro rfl
    cases he
  | _ => simp

theorem unended_trace {a : Scope} {d d' : ConnView} {m : List Effect} (h : Trace (ConnStep a) d m d') :
    Effect.onStateChange .destroying ∉ m := by
  induction h with
  | refl => simp
  | head hd _ ih =>
    rw [List.mem_append, not_or]
    exact ⟨unended_connStep hd, ih⟩

theorem no_connect (h : Tale o l st) (ho : o = .accepted) : Effect.onConnect ∉ l := by
  subst ho
  exact h.standing.no_connect

theorem greeted (h : Tale o l st) (hc : Effect.onConnect ∈ l) : Greeted l :=
  h.standing.greeted fun ho => h.no_connect ho hc

/-- A call goes on with the tale. -/
theorem connSteps {a : Scope} {s t : UtpSocket} (h : Tale o l s.conn.state) (hs : s.out = []) (hd : ConnSteps a s t) :
    ∃ o', o.Leads o' ∧ Tale o' (l ++ t.out) t.conn.state := by
  obtain ⟨m, ht, hm⟩ := hd
  rw [hs, List.nil_append] at hm
  rw [hm]
  obtain ⟨o', hor, ho'⟩ := standing_connSteps (d := s.connView) h.standing ht
  refine ⟨o', hor.imp_right And.left, ho', ?_⟩
  rw [List.mem_append, not_or]
  exact ⟨h.unended, unended_trace ht⟩

end Tale

namespace UtpContext

variable {c d : UtpContext} {x h : Handle} {o : Origin} {s : UtpSocket} {env : Env} {P : Handle → UtpSocket.Op → Prop}

/-- The reports of socket `x`. -/
def reports (x : Handle) (c : UtpContext) : List Effect := (c.eventsOf x).filterMap Event.effect

theorem Rests.reports (h : Rests x c d) : d.reports x = c.reports x := congrArg (List.filterMap Event.effect) h.events

theorem reports_own {l : List Effect} (peer : Address) (hl : d.log = c.log ++ l.map (.socket x peer)) :
    d.reports x = c.reports x ++ l := by
  have he : d.eventsOf x = c.eventsOf x ++ l.map (.socket x peer) := by
    refine eventsOf_own hl fun e he => ?_
    obtain ⟨e', -, rfl⟩ := List.mem_map.1 he
    exact ⟨peer, e', rfl⟩
  unfold reports
  rw [he, List.filterMap_append, List.filterMap_map]
  exact congrArg _ List.filterMap_some

theorem reports_call (hs : c.heap h = some s) (f : UtpSocket → UtpSocket) :
    (c.call h f).reports h = c.reports h ++ (f (s.lend c.currentMs c.tick)).out :=
  reports_own _ (frame_call hs f).log

theorem reports_destroySocket (hs : c.heap h = some s) :
    (c.destroySocket h).reports h = c.reports h ++ [.onStateChange .destroying] := by
  rw [destroySocket_eq hs]
  exact (rests_frame (frame_removeAck (c.forget h s) h)).reports.trans
    (reports_own (l := [.onStateChange .destroying]) s.conn.addr rfl)

/-- What has been told of socket `x`: nothing before it is created, its tale as long as it lives, and last of all
that it is destroyed. -/
inductive Told (x : Handle) (o : Origin) (c : UtpContext) : Prop
  | unborn (hx : c.nextHandle ≤ x) (ho : o = .fresh) (hr : c.reports x = [])
  | alive {s : UtpSocket} (hs : c.heap x = some s) (ht : Tale o (c.reports x) s.conn.state)
  | gone {l : List Effect} {st : ConnState} (hg : c.Gone x) (ht : Tale o l st)
      (hr : c.reports x = l ++ [.onStateChange .destroying])

/-- Nothing is left of a socket that was freed, and nothing is there yet of one that is not created. -/
theorem Told.tale (h : Told x o c) (hc : c.Consistent) (hs : c.heap x = some s) :
    Tale o (c.reports x) s.conn.state := by
  cases h with
  | unborn hx => exact absurd (hc.lt_next hs) hx.not_gt
  | alive hs' ht =>
    rw [hs] at hs'
    cases hs'
    exact ht
  | gone hg => exact absurd hs hg.ne_some

theorem told_rests (h : Told x o c) (hr : Rests x c d) (hn : x < d.nextHandle ↔ x < c.nextHandle) : Told x o d := by
  cases h with
  | unborn hx ho hl =>
    refine .unborn ?_ ho (hr.reports.trans hl)
    rw [← not_lt, hn, not_lt]
    exact hx
  | alive hs ht =>
    obtain ⟨i, hi⟩ := hr.some hs
    refine .alive hi ?_
    rw [hr.reports]
    exact ht
  | gone hg ht hl =>
    refine .gone ⟨hn.2 hg.1, ?_⟩ ht (hr.reports.trans hl)
    have hx := hr.heap
    rw [hg.2] at hx
    exact Option.map_eq_none_iff.1 hx

theorem told_host (h : Told x o c) (hh : HostOnly c d) : Told x o d :=
  told_rests h (rests_host hh) (by rw [hh.rest])

theorem told_registerSocket (h : Handle) (ht : Told x o c) : Told x o (c.registerSocket h) :=
  told_rests ht (rests_registerSocket c h) (by rw [next_registerSocket])

theorem told_call {a : Scope} (hc : c.Consistent) (ht : Told x o c) (hs : c.heap h = some s)
    {f : UtpSocket → UtpSocket} (hf : ConnSteps a (s.lend c.currentMs c.tick) (f (s.lend c.currentMs c.tick))) :
    ∃ o', o.Leads o' ∧ Told x o' (c.call h f) := by
  by_cases hx : x = h
  · subst hx
    obtain ⟨i, hi⟩ := (frame_call hs f).some (x := x) (by rw [heap_absorb, if_pos rfl])
    obtain ⟨o', ho, ht'⟩ := (ht.tale hc hs).connSteps (s := s.lend c.currentMs c.tick) rfl hf
    refine ⟨o', ho, .alive hi ?_⟩
    rw [reports_call hs]
    exact ht'
  · exact ⟨o, .inl rfl, told_rests ht (rests_call hx f c) (by rw [next_call])⟩

theorem told_create (hc : c.Consistent) (ht : Told x o c) : Told x o c.createSocket.2 := by
  by_cases hx : x = c.nextHandle
  · subst hx
    have hnew : c.createSocket.2.heap c.nextHandle = some (.new c.targetDelay c.optRcvbuf c.optSndbuf) := by
      rw [heap_createSocket, if_pos rfl]
    cases ht with
    | unborn _ ho hr =>
      have hr' : c.createSocket.2.reports c.nextHandle = [] := hr
      refine .alive hnew ?_
      rw [hr', ho]
      exact Tale.fresh
    | alive hs => exact absurd (hc.lt_next hs) (lt_irrefl _)
    | gone hg => exact absurd hg.1 (lt_irrefl _)
  · have hrests : Rests x c c.createSocket.2 := ⟨by rw [heap_createSocket, if_neg hx], rfl⟩
    exact told_rests ht hrests ⟨fun hlt => lt_of_le_of_ne (Nat.le_of_lt_succ hlt) hx, Nat.lt_succ_of_lt⟩

theorem next_accept (env : Env) (addr : Address) (b : Bytes) (c : UtpContext) :
    (c.accept env addr b).nextHandle = c.nextHandle + 1 := by
  show ((c.createSocket.2.call c.nextHandle (UtpSocket.acceptWith env addr b)).registerSocket c.nextHandle).nextHandle =
    c.nextHandle + 1
  rw [next_registerSocket, next_call]
  rfl

/-- The socket of a new connection is an accepted one. -/
theorem told_accept (hc : c.Consistent) (ht : Told x o c) (env : Env) (addr : Address) (b : Bytes) :
    ∃ o', o.Leads o' ∧ Told x o' (c.accept env addr b) ∧ (x = c.nextHandle → o' = .accepted) := by
  have hs : c.createSocket.2.heap c.nextHandle = some (.new c.targetDelay c.optRcvbuf c.optSndbuf) := by
    rw [heap_createSocket, if_pos rfl]
  obtain ⟨o', ho, hcall⟩ := told_call (a := { setsUp := true, delivers := true }) hc.create (told_create hc ht) hs
    (UtpSocket.connSteps_acceptWith env rfl rfl addr b (s := UtpSocket.lend _ _ _) rfl)
  have hhost : HostOnly ((c.createSocket.2.call c.nextHandle (UtpSocket.acceptWith env addr b)).registerSocket
      c.nextHandle) (c.accept env addr b) := ⟨rfl, [.onAccept c.nextHandle], rfl, by simp⟩
  have hend := told_host (told_registerSocket c.nextHandle hcall) hhost
  refine ⟨o', ho, hend, ?_⟩
  rintro rfl
  obtain ⟨i, hi⟩ := heap_accept c env addr b
  cases hend with
  | unborn hx =>
    rw [next_accept] at hx
    exact absurd hx (Nat.not_succ_le_self _)
  | alive hs ht =>
    rw [hi] at hs
    cases hs
    have hrecv : (((UtpSocket.new c.targetDelay c.optRcvbuf c.optSndbuf).lend c.currentMs c.tick).acceptWith env addr b
        ).conn.state = .synRecv := UtpSocket.state_acceptWith env addr b _
    have hst := ht.standing
    dsimp only at hst
    rw [hrecv] at hst
    exact hst.of_synRecv.1
  | gone hg => exact absurd hi hg.ne_some

theorem told_destroySocket (hc : c.Consistent) (ht : Told x o c) (hs : c.heap h = some s)
    (hu : s.conn.state ≠ .uninitialized) : Told x o (c.destroySocket h) := by
  by_cases hx : x = h
  · subst hx
    refine .gone ⟨?_, (hc.destroy hs hu).2.1.heap⟩ (ht.tale hc hs) (reports_destroySocket hs)
    rw [next_destroySocket]
    exact hc.lt_next hs
  · exact told_rests ht (rests_destroySocket hc hx hs hu) (by rw [next_destroySocket])

theorem told_move (hc : c.Consistent) (ht : Told x o c) (hm : Move P c d) : ∃ o', o.Leads o' ∧ Told x o' d := by
  cases hm with
  | host hh => exact ⟨o, .inl rfl, told_host ht hh⟩
  | create => exact ⟨o, .inl rfl, told_create hc ht⟩
  | call env op hs _ ho _ => exact told_call hc ht hs (UtpSocket.connSteps_run env (s := UtpSocket.lend _ _ _) ho)
  | connect env addr seed hs hu =>
    obtain ⟨o', ho, ht'⟩ := told_call (a := { setsUp := true }) hc ht hs
      (UtpSocket.connSteps_connectWith env rfl addr seed (s := UtpSocket.lend _ _ _) hu)
    exact ⟨o', ho, told_registerSocket _ ht'⟩
  | accept env addr b =>
    obtain ⟨o', ho, ht', -⟩ := told_accept hc ht env addr b
    exact ⟨o', ho, ht'⟩
  | cache => exact ⟨o, .inl rfl, told_rests ht (.of_eq rfl rfl) Iff.rfl⟩
  | destroy hs hd => exact ⟨o, .inl rfl, told_destroySocket hc ht hs (by rw [hd]; simp)⟩

theorem told_moves (hc : c.Consistent) (ht : Told x o c) (hm : ReflTransGen (Move P) c d) :
    d.Consistent ∧ ∃ o', o.Leads o' ∧ Told x o' d := by
  induction hm with
  | refl => exact ⟨hc, o, .inl rfl, ht⟩
  | tail _ hm ih =>
    obtain ⟨hc', o₁, h1, ht₁⟩ := ih
    obtain ⟨o₂, h2, ht₂⟩ := told_move hc' ht₁ hm
    exact ⟨hc'.move hm, o₂, h1.trans h2, ht₂⟩

/-! New connections are announced by `accept` alone. -/

/-- No new connection is announced from `c` to `d`. -/
def Mute (c d : UtpContext) : Prop := ∀ x, Event.onAccept x ∈ d.log → Event.onAccept x ∈ c.log

theorem Mute.refl (c : UtpContext) : Mute c c := fun _ hx => hx

theorem Mute.trans {e : UtpContext} (h : Mute c d) (h' : Mute d e) : Mute c e := fun x hx => h x (h' x hx)

theorem mute_of_eq (hl : d.log = c.log) : Mute c d := by
  intro x hx
  rw [hl] at hx
  exact hx

theorem mute_of_log {l : List Event} (hl : d.log = c.log ++ l) (hn : ∀ e ∈ l, ∀ x, e ≠ .onAccept x) : Mute c d := by
  intro x hx
  rw [hl] at hx
  rcases List.mem_append.1 hx with hx | hx
  · exact hx
  · exact absurd rfl (hn _ hx x)

theorem mute_call (h : Handle) (f : UtpSocket → UtpSocket) (c : UtpContext) : Mute c (c.call h f) := by
  cases hs : c.heap h with
  | none =>
    rw [call_none hs]
    exact .refl c
  | some s =>
    refine mute_of_log (frame_call hs f).log fun e he x => ?_
    obtain ⟨e', -, rfl⟩ := List.mem_map.1 he
    simp

theorem mute_destroySocket (h : Handle) (c : UtpContext) : Mute c (c.destroySocket h) := by
  cases hs : c.heap h with
  | none =>
    unfold destroySocket
    rw [hs]
    exact .refl c
  | some s =>
    rw [destroySocket_eq hs]
    exact mute_of_log (l := [.socket h s.conn.addr (.onStateChange .destroying)])
      (frame_removeAck (c.forget h s) h).log (by simp)

theorem mute_checkSocket (env : Env) (c : UtpContext) (h : Handle) : Mute c (c.checkSocket env h) := by
  have hcall := mute_call h (UtpSocket.checkTimeouts env) c
  unfold checkSocket
  dsimp only
  split
  · split
    · exact hcall.trans (mute_destroySocket h _)
    · exact hcall
  · exact hcall

theorem mute_sweep (env : Env) (l : List Handle) (c : UtpContext) : Mute c (l.foldl (checkSocket env) c) := by
  induction l generalizing c with
  | nil => exact .refl c
  | cons h l ih => exact (mute_checkSocket env c h).trans (ih _)

theorem mute_ackRounds (env : Env) (n : ℕ) (c : UtpContext) : Mute c (c.ackRounds env n) := by
  induction n generalizing c with
  | zero => exact .refl c
  | succ n ih =>
    unfold ackRounds
    split
    · exact .refl c
    · exact (mute_call _ _ c).trans (ih _)

theorem mute_connect {fuel : ℕ} {addr : Address} (hr : c.connect env fuel h addr = some d) : Mute c d := by
  unfold connect at hr
  split at hr
  · cases hr
    exact .refl c
  · split at hr
    · cases hr
      exact mute_call _ _ c
    · obtain ⟨r, -, rfl⟩ := Option.map_eq_some_iff.1 hr
      exact (mute_call h (UtpSocket.connectWith env addr r.1) { c with tick := r.2 }).trans
        (mute_of_eq (log_registerSocket _ h))

theorem mute_answerUnknown (env : Env) (addr : Address) (id : UInt32) (seqNr : UInt16) (c : UtpContext) :
    Mute c (c.answerUnknown env addr id seqNr) := by
  unfold answerUnknown
  dsimp only
  split
  · exact .refl c
  · split
    · exact .refl c
    · exact mute_of_log rfl (by simp)

theorem log_route (addr : Address) (id : UInt32) (c : UtpContext) : (c.route addr id).2.log = c.log := by
  unfold route
  split
  · rfl
  · split <;> rfl

/-- A datagram announces no new connection, unless it is a SYN that is accepted. -/
theorem mute_processUdp (env : Env) (b : Bytes) (addr : Address) (c : UtpContext) :
    Mute c (c.processUdp env b addr) ∨
      c.processUdp env b addr = accept env addr b { c with tick := c.tick + 1 } := by
  unfold processUdp
  dsimp only
  split_ifs
  · exact .inl (.refl c)
  · split
    · exact .inl (mute_call _ _ c)
    · exact .inl (.refl c)
  · have hl := log_route addr (PacketFormatV1.ofBytes b).connid.toUInt32 c
    generalize c.route addr (PacketFormatV1.ofBytes b).connid.toUInt32 = r at hl ⊢
    obtain ⟨h, c'⟩ := r
    cases h with
    | none => exact .inl ((mute_of_eq hl).trans (mute_answerUnknown env _ _ _ c'))
    | some h => exact .inl ((mute_of_eq hl).trans (mute_call h _ c'))
  · unfold processSyn
    split
    · exact .inl (.refl c)
    · split
      · exact .inl (.refl c)
      · split
        · exact .inl (.refl c)
        · exact .inr rfl

theorem mute_run {op : Op} (hr : op.run env c = some d) :
    Mute c d ∨ ∃ addr b, d = accept env addr b { c with tick := c.tick + 1 } := by
  cases op with
  | setOption opt val =>
    cases hr
    cases opt <;> exact .inl (.refl c)
  | createSocket =>
    cases hr
    exact .inl (.refl c)
  | connect h addr fuel => exact .inl (mute_connect hr)
  | socket h op =>
    cases hr
    exact .inl (mute_call h _ c)
  | processUdp b addr =>
    cases hr
    exact (mute_processUdp env b addr c).imp_right fun he => ⟨addr, b, he⟩
  | processIcmpFragmentation b addr m =>
    cases hr
    unfold processIcmpFragmentation
    split
    · exact .inl (mute_call _ _ c)
    · exact .inl (.refl c)
  | processIcmpError b addr =>
    cases hr
    unfold processIcmpError
    split
    · exact .inl (mute_call _ _ c)
    · exact .inl (.refl c)
  | issueDeferredAcks =>
    cases hr
    exact .inl (mute_ackRounds env _ c)
  | checkTimeouts order =>
    cases hr
    unfold checkTimeouts
    dsimp only
    split
    · exact .inl (.refl c)
    · exact .inl (mute_sweep env order (c.swept env))

/-- `accept` announces the socket it has created. -/
theorem mem_log_accept {addr : Address} {b : Bytes} (hx : Event.onAccept x ∈ (c.accept env addr b).log) :
    Event.onAccept x ∈ c.log ∨ x = c.nextHandle := by
  have hm : Mute c.createSocket.2 ((c.createSocket.2.call c.nextHandle (UtpSocket.acceptWith env addr b)
      ).registerSocket c.nextHandle) := (mute_call _ _ _).trans (mute_of_eq (log_registerSocket _ _))
  rcases List.mem_append.1 hx with hx | hx
  · exact .inl (hm x hx)
  · exact .inr (Event.onAccept.inj (List.mem_singleton.1 hx))

/-- A step goes on with what was told, and a socket is announced when it is accepted. -/
theorem told_step (hc : c.Consistent) (ht : Told x o c) (ha : Event.onAccept x ∈ c.log → o = .accepted)
    (hs : Step (fun _ _ => True) c d) :
    ∃ o', Told x o' d ∧ (Event.onAccept x ∈ d.log → o' = .accepted) := by
  obtain ⟨-, o₁, h1, ht₁⟩ := told_moves hc ht (hs.moves hc)
  obtain ⟨env, op, -, -, hr⟩ := hs
  rcases mute_run hr with hm | ⟨addr, b, rfl⟩
  · refine ⟨o₁, ht₁, fun hx => ?_⟩
    rw [ha (hm x hx)] at h1
    exact h1.accepted
  · have hh : HostOnly c { c with tick := c.tick + 1 } := ⟨rfl, [], (List.append_nil _).symm, by simp⟩
    obtain ⟨o₂, h2, ht₂, hnew⟩ := told_accept (hc.host hh) (told_host ht hh) env addr b
    refine ⟨o₂, ht₂, fun hx => ?_⟩
    rcases mem_log_accept hx with hx | hx
    · rw [ha hx] at h2
      exact h2.accepted
    · exact hnew hx

theorem told_reachable (h : c.Reachable) (x : Handle) :
    ∃ o, Told x o c ∧ (Event.onAccept x ∈ c.log → o = .accepted) := by
  induction h with
  | refl => exact ⟨.fresh, .unborn (Nat.zero_le x) rfl rfl, fun hx => absurd hx List.not_mem_nil⟩
  | tail hr hs ih =>
    obtain ⟨o, ht, ha⟩ := ih
    exact told_step (Reachable.moves hr).1 ht ha hs

/-- In every run and for every socket: what takes the connection to be open is reported after the connection, where
that is reported at all, which an accepted socket never does; and `UTP_STATE_DESTROYING` is reported exactly of the
sockets that are freed, as the last. -/
theorem reports_ordered (h : c.Reachable) (x : Handle) :
    (Effect.onConnect ∈ c.reports x → Greeted (c.reports x)) ∧
      (Event.onAccept x ∈ c.log → Effect.onConnect ∉ c.reports x) ∧
      (Effect.onStateChange .destroying ∈ c.reports x ↔ c.Gone x) ∧
      ∀ l₁ l₂, c.reports x = l₁ ++ Effect.onStateChange .destroying :: l₂ → l₂ = [] := by
  obtain ⟨o, ht, ha⟩ := told_reachable h x
  cases ht with
  | unborn hx ho hr =>
    rw [hr]
    refine ⟨fun hc => absurd hc List.not_mem_nil, fun _ => List.not_mem_nil,
      ⟨fun hm => absurd hm List.not_mem_nil, fun hg => absurd hg.1 hx.not_gt⟩, fun l₁ l₂ hl => ?_⟩
    simp at hl
  | @alive s hs ht =>
    refine ⟨ht.greeted, fun hx => ht.no_connect (ha hx),
      ⟨fun hm => absurd hm ht.unended, fun hg => absurd hs hg.ne_some⟩, fun l₁ l₂ hl => ?_⟩
    refine absurd ?_ ht.unended
    simp [hl]
  | @gone l st hg ht hr =>
    rw [hr]
    have hmem : Effect.onConnect ∈ l ++ [.onStateChange .destroying] ↔ Effect.onConnect ∈ l := by simp
    rw [hmem]
    refine ⟨fun hc => ?_, fun hx => ht.no_connect (ha hx), ⟨fun _ => hg, fun _ => by simp⟩, fun l₁ l₂ hl => ?_⟩
    · exact (ht.greeted hc).append_discreet (by simp [Discreet, Effect.silent, Effect.fromOpen])
    · exact ((List.append_cons_inj_of_notMem ht.unended List.not_mem_nil).1 hl).2.2.symm

/-- The closed socket, freed by the sweep. -/
def sweptAway : UtpContext := hungUp.checkTimeouts (hostAt 1000) [0]

theorem reports_ordered_sweptAway : Effect.onStateChange .destroying ∈ sweptAway.reports 0 := by
  have horder : [0].Perm (hungUp.sockets.map Prod.snd) := by decide +kernel
  have h : sweptAway.Reachable := reachable_hungUp.tail (.call (hostAt 1000) (.checkTimeouts [0]) horder trivial rfl)
  have hfreed : sweptAway.heap 0 = none := Option.isNone_iff_eq_none.1 (by decide +kernel)
  exact (reports_ordered h 0).2.2.1.2 ⟨by decide +kernel, hfreed⟩

end UtpContext

end Utp
