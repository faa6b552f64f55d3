import LibUtp.Registry.Destruction

/-! The errors reported to the application: which calls report one, and how often. -/

namespace Utp

open Lts Relation

/-- The error an effect reports. -/
def Effect.error : Effect → Option ErrorCode
  | .onError code => some code
  | _ => none

/-- The error of socket `x` that an event reports. -/
def Event.error (x : Handle) : Event → Option ErrorCode
  | .socket h _ e => if h = x then e.error else none
  | _ => none

theorem filterMap_error (l : List Effect) : l.filterMap Effect.error = (errorsOf l).filterMap Effect.error := by
  induction l with
  | nil => rfl
  | cons e l ih =>
    unfold errorsOf at ih ⊢
    cases e with
    | onError code =>
      rw [List.filter_cons_of_pos rfl, List.filterMap_cons, List.filterMap_cons, ih]
    | _ =>
      rw [List.filter_cons_of_neg (by simp [Effect.isError]), List.filterMap_cons]
      exact ih

namespace UtpSocket

variable (env : Env) {op : Op} {s : UtpSocket}

/-- A call reports at most one error, as it ends a connection that was alive, and breaks none without. -/
theorem errors_run (hu : op.Unbroken) (ho : op.Enabled s) (ms : UInt64) (tick : ℕ) :
    (op.run env (s.lend ms tick)).out.filterMap Effect.error = [] ∧
        ((op.run env (s.lend ms tick)).conn.state = .reset → s.conn.state = .reset) ∨
      (op.run env (s.lend ms tick)).out.filterMap Effect.error = [.timedOut] ∧ ¬ s.kernel.Dead ∧
        (op.run env (s.lend ms tick)).kernel.Dead := by
  obtain ⟨acts, ht, hout, -⟩ := trace_run env ho ms tick
  have ht : Trace Kernel.Unbroken s.kernel acts (op.run env (s.lend ms tick)).kernel :=
    ht.mono fun _ _ _ ⟨x, hx, hm⟩ => ⟨x, hu.takes hx, hm⟩
  rw [hout, filterMap_error]
  rcases Kernel.errors_unbroken ht with ⟨he, h⟩ | ⟨he, h⟩
  · exact .inl ⟨by rw [he]; rfl, h⟩
  · exact .inr ⟨by rw [he]; rfl, h⟩

/-- The close of a connection reports none. -/
theorem errors_close (ms : UInt64) (tick : ℕ) :
    ((s.lend ms tick).close env).out.filterMap Effect.error = [] := by
  obtain ⟨acts, ht, hout, -⟩ := runs_close env (s.lend ms tick)
  rw [out_lend, List.nil_append] at hout
  rw [hout, filterMap_error, Kernel.errors_api ht]
  rfl

theorem errors_onReset (ms : UInt64) (tick : ℕ) :
    ((s.lend ms tick).onReset).out.filterMap Effect.error = [.connReset] := by
  rw [onReset_eq]
  rfl

theorem errors_onIcmpError (hi : s.conn.state ≠ .idle) (ms : UInt64) (tick : ℕ) :
    ((s.lend ms tick).onIcmpError).out.filterMap Effect.error =
      [if s.conn.state = .synSent then .connRefused else .connReset] := by
  unfold onIcmpError
  rw [if_neg (show (s.lend ms tick).conn.state ≠ .idle from hi)]
  rfl

end UtpSocket

namespace UtpContext

variable {c d : UtpContext} {x : Handle} {s : UtpSocket}

/-- The errors of socket `x` that the application was told. -/
def errors (c : UtpContext) (x : Handle) : List ErrorCode := c.log.filterMap (Event.error x)

theorem errors_call {h : Handle} (hs : c.heap h = some s) (f : UtpSocket → UtpSocket) (x : Handle) :
    (c.call h f).errors x = c.errors x ++
      if h = x then (f (s.lend c.currentMs c.tick)).out.filterMap Effect.error else [] := by
  unfold errors
  rw [(frame_call hs f).log]
  show List.filterMap _ (c.log ++ (f (s.lend c.currentMs c.tick)).out.map _) = _
  rw [List.filterMap_append, List.filterMap_map]
  congr 1
  split
  · rename_i hx
    subst hx
    refine List.filterMap_congr fun e _ => ?_
    exact if_pos rfl
  · rename_i hx
    refine List.filterMap_eq_nil_iff.2 fun e _ => ?_
    exact if_neg hx

theorem errors_of_log {l : List Event} (hl : d.log = c.log ++ l) (h : ∀ e ∈ l, e.error x = none) :
    d.errors x = c.errors x := by
  unfold errors
  rw [hl, List.filterMap_append, List.filterMap_eq_nil_iff.2 h, List.append_nil]

/-- What a move tells of socket `x`: nothing, and then it does not break the connection, or the end of
one that was alive. -/
inductive Tells (c d : UtpContext) (x : Handle) : Prop
  | nothing (he : d.errors x = c.errors x) (hr : ∀ t, d.heap x = some t → t.conn.state = .reset →
      ∃ s, c.heap x = some s ∧ s.conn.state = .reset)
  | timedOut (he : d.errors x = c.errors x ++ [.timedOut]) (hlive : ¬ c.Meets x Dead)
      (hdead : d.Meets x Dead)

theorem Tells.of_eq {e : UtpContext} (h : Tells c d x) (he : e.errors x = d.errors x)
    (hh : e.heap = d.heap) (hn : e.nextHandle = d.nextHandle) : Tells c e x := by
  cases h with
  | nothing he' hr =>
    refine .nothing (he.trans he') ?_
    rw [hh]
    exact hr
  | timedOut he' hlive hdead =>
    refine .timedOut (he.trans he') hlive ?_
    unfold Meets
    rw [hh, hn]
    exact hdead

theorem Tells.create (h : Tells c.createSocket.2 d x) : Tells c d x := by
  cases h with
  | nothing he hr =>
    refine .nothing he fun t ht hst => ?_
    obtain ⟨s, hs, hst⟩ := hr t ht hst
    rw [heap_createSocket] at hs
    split at hs
    · cases hs
      cases hst
    · exact ⟨s, hs, hst⟩
  | timedOut he hlive hdead =>
    refine .timedOut he (fun hd => hlive ⟨hd.1.trans_le (Nat.le_succ _), fun s hs => hd.2 s ?_⟩) hdead
    rw [heap_createSocket, if_neg hd.1.ne] at hs
    exact hs

theorem tells_call (hc : c.Consistent) (env : Env) {h : Handle} {op : UtpSocket.Op}
    (hs : c.heap h = some s) (hu : op.Unbroken) (ho : op.Enabled s) (x : Handle) :
    Tells c (c.call h fun s => op.run env s) x := by
  have he := errors_call hs (fun s => op.run env s) x
  by_cases hx : h = x
  · subst hx
    rw [if_pos rfl] at he
    rcases UtpSocket.errors_run env hu ho c.currentMs c.tick with ⟨hn, hr⟩ | ⟨ht, hlive, hdead⟩
    · rw [hn, List.append_nil] at he
      refine .nothing he fun t ht hst => ⟨s, hs, ?_⟩
      rcases heap_call hs ht with ⟨-, i, rfl⟩ | ⟨hne, -⟩
      · exact hr hst
      · exact absurd rfl hne
    · rw [ht] at he
      refine .timedOut he (fun hd => hlive (hd.2 s hs)) ⟨?_, fun t ht => ?_⟩
      · rw [next_call]
        exact hc.lt_next hs
      · rcases heap_call hs ht with ⟨-, i, rfl⟩ | ⟨hne, -⟩
        · exact hdead
        · exact absurd rfl hne
  · rw [if_neg hx, List.append_nil] at he
    refine .nothing he fun t ht hst => ?_
    rcases heap_call hs ht with ⟨rfl, -⟩ | ⟨-, s', i, hs', rfl⟩
    · exact absurd rfl hx
    · exact ⟨s', hs', hst⟩

theorem Move.tells (hc : c.Consistent) (h : Move (fun _ op => op.Unbroken) c d) (x : Handle) :
    Tells c d x := by
  have hregister (e : UtpContext) (y : Handle) (h : Tells c e x) : Tells c (e.registerSocket y) x :=
    h.of_eq (congrArg (List.filterMap _) (log_registerSocket e y)) (heap_registerSocket e y)
      (next_registerSocket e y)
  have hsame {e : UtpContext} (hl : ∃ l, e.log = c.log ++ l ∧ ∀ ev ∈ l, ev.error x = none)
      (hh : ∀ t, e.heap x = some t → ∃ s, c.heap x = some s ∧ t.conn.state = s.conn.state) : Tells c e x := by
    obtain ⟨l, hl, hn⟩ := hl
    refine .nothing (errors_of_log hl hn) fun t ht hst => ?_
    obtain ⟨s, hs, he⟩ := hh t ht
    exact ⟨s, hs, he.symm.trans hst⟩
  cases h with
  | host h =>
    obtain ⟨l, hl, hn⟩ := h.log
    refine hsame ⟨l, hl, fun ev hev => ?_⟩ fun t ht => ?_
    · cases ev with
      | socket y peer e => exact absurd rfl (hn _ hev y peer e)
      | _ => rfl
    · rw [h.rest] at ht
      exact ⟨t, ht, rfl⟩
  | create =>
    refine (Tells.nothing rfl fun t ht hst => ⟨t, ht, hst⟩ : Tells c.createSocket.2 _ x).create
  | call env op hs hP ho hop => exact tells_call hc env hs hP ho x
  | @connect h s env addr seed hs hu hseed hfree =>
    have hcong : c.call h (UtpSocket.connectWith env addr seed) =
        c.call h fun s => UtpSocket.Op.run env s (.connect addr seed) := by
      refine call_congr hs ?_
      simp only [UtpSocket.Op.run]
      exact (if_pos hu).symm
    rw [hcong]
    exact hregister _ _ (tells_call hc env hs ⟨by simp, by simp⟩
      (show UtpSocket.Op.Enabled s (.connect addr seed) from trivial) x)
  | accept env addr b hfree =>
    have hs : c.createSocket.2.heap c.nextHandle =
        some (.new c.targetDelay c.optRcvbuf c.optSndbuf) := by rw [heap_createSocket, if_pos rfl]
    have hcall : Tells c.createSocket.2 (c.createSocket.2.call c.nextHandle
        fun s => UtpSocket.Op.run env s (.accept addr b)) x :=
      tells_call hc.create env hs ⟨by simp, by simp⟩
        (show UtpSocket.Op.Enabled (.new _ _ _) (.accept addr b) from rfl) x
    refine (hregister _ c.nextHandle hcall.create).of_eq ?_ rfl rfl
    exact errors_of_log (l := [.onAccept c.nextHandle]) rfl (by simp [Event.error])
  | cache hr => exact hsame ⟨[], (List.append_nil _).symm, by simp⟩ fun t ht => ⟨t, ht, rfl⟩
  | @destroy h s hs hd =>
    obtain ⟨-, hgone, -, hcore⟩ := hc.destroy hs (by rw [hd]; simp)
    refine hsame ⟨[.socket h s.conn.addr (.onStateChange .destroying)], ?_, ?_⟩ fun t ht => ?_
    · rw [destroySocket_eq hs]
      show ((c.forget h s).removeAck h).log = _
      rw [(frame_removeAck _ h).log]
      rfl
    · intro ev hev
      rw [List.mem_singleton.1 hev]
      exact ite_self _
    · by_cases hx : x = h
      · rw [hx, hgone.heap] at ht
        cases ht
      · have hx := hcore x hx
        rw [ht, Option.map_some] at hx
        obtain ⟨s', hs', he⟩ := Option.map_eq_some_iff.1 hx.symm
        exact ⟨s', hs', (congrArg (fun u : UtpSocket => u.conn.state) he).symm⟩

/-! The errors of a run. -/

/-- The messages that the connection broke arrive in time: no RST reaches a socket that waits for the
answer to its SYN, and none of them one that is over, unless the application closed it when it was
connected and has been told no error. No socket in `CS_DESTROY` is closed. -/
def Op.Timely (c : UtpContext) (op : Op) : Prop := ∀ x s, c.heap x = some s →
  (op.Resets c x → s.conn.state ≠ .synSent) ∧
  (op.Breaks c x → Dead s →
    s.conn.state = .destroy ∧ s.send.closeRequested = true ∧ c.errors x = []) ∧
  (op = .socket x .close → s.conn.state ≠ .destroy)

/-- The errors in the log of a context and the states of its sockets. -/
structure Reported (c : UtpContext) : Prop where
  once : ∀ x, c.errors x = [] ∨ (∃ code, c.errors x = [code]) ∧ c.Meets x Dead
  reset : ∀ x s, c.heap x = some s → s.conn.state = .reset → c.errors x ≠ []
  unrequested : ∀ x s, c.heap x = some s → s.kernel.Unrequested ∧ s.kernel.state ≠ .idle

theorem reported_initial : Reported {} where
  once _ := .inl rfl
  reset _ _ hs := by cases hs
  unrequested _ _ hs := by cases hs

theorem dead_moves {P : Handle → UtpSocket.Op → Prop} (hc : c.Consistent) (h : c.Meets x Dead)
    (hm : ReflTransGen (Move P) c d) : d.Consistent ∧ d.Meets x Dead :=
  Meets.moves (fun _ hs => UtpSocket.Dead.set hs) (fun _ _ hs => hs)
    (fun env _ _ ms tick hs _ ho => (UtpSocket.dead_run env hs ho ms tick).1) hc h hm

theorem Move.unrequested {P : Handle → UtpSocket.Op → Prop} (hc : c.Consistent) (hm : Move P c d)
    (h : ∀ x s, c.heap x = some s → s.kernel.Unrequested ∧ s.kernel.state ≠ .idle) (x : Handle)
    (t : UtpSocket) (ht : d.heap x = some t) : t.kernel.Unrequested ∧ t.kernel.state ≠ .idle :=
  (hm.became hc ht).kernel (I := fun k => k.Unrequested ∧ k.state ≠ .idle)
    ⟨fun h => absurd h (by decide), by decide⟩
    (fun hk hm => ⟨Kernel.unrequested_micro hk.1 hm, Kernel.notIdle_micro hk.2 hm⟩) h

theorem Reported.move (hc : c.Consistent) (h : c.Reported) (hm : Move (fun _ op => op.Unbroken) c d) :
    d.Reported where
  once x := by
    cases hm.tells hc x with
    | nothing he hr =>
      rw [he]
      exact (h.once x).imp_right fun ⟨hcode, hd⟩ => ⟨hcode, (dead_moves hc hd (.single hm)).2⟩
    | timedOut he hlive hdead =>
      rw [he, (h.once x).resolve_right fun h => hlive h.2]
      exact .inr ⟨⟨_, rfl⟩, hdead⟩
  reset x t ht hst := by
    cases hm.tells hc x with
    | nothing he hr =>
      obtain ⟨s, hs, hst⟩ := hr t ht hst
      rw [he]
      exact h.reset x s hs hst
    | timedOut he =>
      rw [he]
      simp
  unrequested := hm.unrequested hc h.unrequested

/-- A message that the connection broke is told to the application, with the code of the state it
arrives in if it is no RST for a socket in `CS_SYN_SENT`. -/
theorem Op.Breaks.errors {op : Op} (hb : op.Breaks c x) (hs : c.heap x = some s)
    (hi : s.conn.state ≠ .idle) (hrst : op.Resets c x → s.conn.state ≠ .synSent) {env : Env}
    (hr : op.run env c = some d) (y : Handle) : d.errors y = c.errors y ++
      if x = y then [if s.conn.state = .synSent then .connRefused else .connReset] else [] := by
  rcases hb with hb | hb
  · rw [hb.run hr, errors_call hs, UtpSocket.errors_onReset, if_neg (hrst hb)]
  · rw [hb.run hr, errors_call hs, UtpSocket.errors_onIcmpError hi]

theorem Op.Breaks.heap {op : Op} (hb : op.Breaks c x) (hs : c.heap x = some s) {env : Env}
    (hr : op.run env c = some d) {y : Handle} {t : UtpSocket} (hx : x ≠ y) (ht : d.heap y = some t) :
    ∃ s' i, c.heap y = some s' ∧ t = { s' with ida := i } := by
  have hcall {f : UtpSocket → UtpSocket} (he : d = c.call x f) : ∃ s' i, c.heap y = some s' ∧ t = { s' with ida := i } := by
    rw [he] at ht
    rcases heap_call hs ht with ⟨hxy, -⟩ | ⟨-, h⟩
    · exact absurd hxy.symm hx
    · exact h
  rcases hb with hb | hb
  · exact hcall (hb.run hr)
  · exact hcall (hb.run hr)

theorem Reported.breaks (hc : c.Consistent) (h : c.Reported) {op : Op} (hb : op.Breaks c x)
    (hQ : op.Timely c) {env : Env} (hr : op.run env c = some d)
    (hm : Move (fun y op' => y = x ∧ (op' = UtpSocket.Op.onReset ∨ op' = UtpSocket.Op.onIcmpError)) c d) :
    d.Reported := by
  obtain ⟨s, hs, -⟩ := hc.alive hb.registered
  obtain ⟨hrst, hover, -⟩ := hQ x s hs
  have hi : s.conn.state ≠ .idle := (h.unrequested x s hs).2
  have he := hb.errors hs hi hrst hr
  obtain ⟨t, ht, hst⟩ := hb.state hs hi hr
  have hdead : d.Meets x Dead := by
    refine meets_of_heap (hc.move hm) ht ?_
    unfold Dead
    rw [hst]
    unfold UtpSocket.brokenState
    split <;> simp
  refine ⟨fun y => ?_, fun y t ht hst => ?_, hm.unrequested hc h.unrequested⟩
  · rw [he]
    by_cases hxy : x = y
    · subst hxy
      rw [if_pos rfl]
      have hnone : c.errors x = [] := by
        rcases h.once x with hn | ⟨-, hd⟩
        · exact hn
        · exact (hover hb (hd.2 s hs)).2.2
      rw [hnone]
      exact .inr ⟨⟨_, rfl⟩, hdead⟩
    · rw [if_neg hxy, List.append_nil]
      exact (h.once y).imp_right fun ⟨hcode, hd⟩ => ⟨hcode, (dead_moves hc hd (.single hm)).2⟩
  · rw [he]
    by_cases hxy : x = y
    · rw [if_pos hxy]
      simp
    · rw [if_neg hxy, List.append_nil]
      obtain ⟨s', i, hs', rfl⟩ := hb.heap hs hr hxy ht
      exact h.reset y s' hs' hst

theorem Reported.step (hc : c.Consistent) (h : c.Reported) (hs : Step Op.Timely c d) :
    d.Consistent ∧ d.Reported := by
  cases hs with
  | call env op ho hQ hr =>
    rcases unbroken_or_breaks hc env ho hr with hm | ⟨x, hx, hm⟩
    · clear hr
      induction hm with
      | refl => exact ⟨hc, h⟩
      | tail _ hm ih => exact ⟨ih.1.move hm, ih.2.move ih.1 hm⟩
    · exact ⟨hc.move hm, h.breaks hc hx hQ hr hm⟩

theorem reported_run (h : ReflTransGen (Step Op.Timely) {} c) : c.Consistent ∧ c.Reported := by
  induction h with
  | refl => exact ⟨consistent_initial, reported_initial⟩
  | tail _ hs ih => exact ih.2.step ih.1 hs

/-! After a close that was the end. -/

/-- The socket is destroyed, `l` is what the application was told, and if the close was requested it
was told something. -/
structure Hushed (c : UtpContext) (x : Handle) (l : List ErrorCode) : Prop where
  told : c.errors x = l
  ended : c.Meets x fun s => Destroyed s ∧ (s.send.closeRequested = true → l ≠ [])

theorem Hushed.meets_move {l : List ErrorCode} {P : Handle → UtpSocket.Op → Prop} (hc : c.Consistent)
    (h : c.Hushed x l) (hP : ∀ op, P x op → op.Unbroken) (hm : Move P c d) :
    d.Meets x fun s => Destroyed s ∧ (s.send.closeRequested = true → l ≠ []) := by
  refine h.ended.move hc (fun _ hs => UtpSocket.Dead.set (.inr hs.1)) (fun _ _ hs => hs) ?_ hm
  rintro env op s - ⟨hd, hl⟩ hop ho
  obtain ⟨-, hr, hst⟩ := UtpSocket.dead_run env (.inr hd) ho c.currentMs c.tick
  exact ⟨hst hd (hP op hop), fun h => hl (hr.symm.trans h)⟩

theorem Hushed.move {l : List ErrorCode} (hc : c.Consistent) (h : c.Hushed x l)
    (hm : Move (fun _ op => op.Unbroken) c d) : d.Hushed x l := by
  refine ⟨?_, h.meets_move hc (fun _ hop => hop) hm⟩
  cases hm.tells hc x with
  | nothing he => exact he.trans h.told
  | timedOut he hlive => exact absurd ⟨h.ended.1, fun s hs => .inr (h.ended.2 s hs).1⟩ hlive

theorem Hushed.step {l : List ErrorCode} (hc : c.Consistent) (h : c.Hushed x l)
    (hr : c.Reported) (hs : Step Op.Timely c d) : d.Hushed x l := by
  cases hs with
  | call env op ho hQ hrun =>
    rcases unbroken_or_breaks hc env ho hrun with hm | ⟨y, hy, hm⟩
    · clear hrun
      suffices d.Consistent ∧ d.Hushed x l from this.2
      induction hm with
      | refl => exact ⟨hc, h⟩
      | tail _ hm ih => exact ⟨ih.1.move hm, ih.2.move ih.1 hm⟩
    · obtain ⟨s, hs, -⟩ := hc.alive hy.registered
      obtain ⟨hrst, hover, -⟩ := hQ y s hs
      have hne : y ≠ x := by
        rintro rfl
        obtain ⟨hd, hl⟩ := h.ended.2 s hs
        obtain ⟨-, hreq, hn⟩ := hover hy (.inr hd)
        exact hl hreq (h.told.symm.trans hn)
      refine ⟨?_, h.meets_move hc (fun op hop => absurd hop.1 hne.symm) hm⟩
      rw [hy.errors hs (hr.unrequested y s hs).2 hrst hrun, if_neg hne, List.append_nil]
      exact h.told

theorem hushed_close (hc : c.Consistent) (hr : c.Reported) (hs : c.heap x = some s)
    (hu : s.conn.state ≠ .uninitialized) (ho : ¬ s.kernel.IsOpen) (hd : s.conn.state ≠ .destroy) (env : Env) :
    (c.call x (UtpSocket.close env)).Hushed x (c.errors x) := by
  have hm : Move (fun _ _ => True) c (c.call x (UtpSocket.close env)) :=
    .call env .close hs trivial trivial fun h => absurd h hu
  obtain ⟨i, hi⟩ := (frame_call hs (UtpSocket.close env)).some (x := x) (by rw [heap_absorb, if_pos rfl])
  obtain ⟨hst, hreq⟩ := UtpSocket.close_destroy env (s := s.lend c.currentMs c.tick) ho
  refine ⟨?_, meets_of_heap (hc.move hm) hi ⟨hst, fun h => ?_⟩⟩
  · rw [errors_call hs, if_pos rfl, UtpSocket.errors_close, List.append_nil]
  · -- the close was requested before, so the connection broke
    have hreq : s.send.closeRequested = true := hreq.symm.trans h
    rcases (hr.unrequested x s hs).1 hreq with h | h | h
    · exact absurd h ho
    · exact hr.reset x s hs h
    · exact absurd h hd

/-- What the application is told in the runs whose steps meet `Q`: of each socket at most one error;
none after it closed the socket before or after it was connected; and the code of a message that ends
a connection is that of the state it arrives in. -/
structure ErrorsReported (Q : UtpContext → Op → Prop) (c : UtpContext) : Prop where
  once : ∀ x, (c.errors x).length ≤ 1
  closed : ∀ x s env d, c.heap x = some s → s.conn.state ≠ .uninitialized → ¬ s.kernel.IsOpen →
    Q c (.socket x .close) → ReflTransGen (Step Q) (c.call x (UtpSocket.close env)) d →
      d.errors x = c.errors x
  code : ∀ x s (op : Op) (env : Env) d, c.heap x = some s → ¬ Dead s → op.Breaks c x → Q c op →
    op.run env c = some d →
      d.errors x = c.errors x ++ [if s.conn.state = .synSent then .connRefused else .connReset]

/-- The errors are reported as they should in every run whose messages arrive in time. -/
theorem errors_reported (h : ReflTransGen (Step Op.Timely) {} c) : c.ErrorsReported Op.Timely := by
  obtain ⟨hc, hr⟩ := reported_run h
  refine ⟨fun x => ?_, fun x s env d hs hu ho hQ hd => ?_, fun x s op env d hs hlive hb hQ hrun => ?_⟩
  · rcases hr.once x with he | ⟨⟨code, he⟩, -⟩
    · simp [he]
    · simp [he]
  · have hstep : Step Op.Timely c (c.call x (UtpSocket.close env)) :=
      .call env (.socket x .close) ⟨trivial, fun t ht hst => by
        rw [hs] at ht
        cases ht
        exact absurd hst hu⟩ hQ rfl
    have hh := hushed_close hc hr hs hu ho ((hQ x s hs).2.2 rfl) env
    suffices d.Consistent ∧ d.Reported ∧ d.Hushed x (c.errors x) from this.2.2.told
    induction hd with
    | refl =>
      obtain ⟨hc, hr⟩ := hr.step hc hstep
      exact ⟨hc, hr, hh⟩
    | tail _ hs ih =>
      obtain ⟨hc, hr, hh⟩ := ih
      obtain ⟨hc', hr'⟩ := hr.step hc hs
      exact ⟨hc', hr', hh.step hc hr hs⟩
  · have hi : s.conn.state ≠ .idle := (hr.unrequested x s hs).2
    rw [hb.errors hs hi (hQ x s hs).1 hrun, if_pos rfl]

theorem timely_of_not_breaks {op : Op} (h : ∀ x, ¬ op.Breaks c x) (hcl : ∀ x, op ≠ .socket x .close) :
    op.Timely c :=
  fun x _ _ => ⟨fun hb => absurd (.inl hb) (h x), fun hb => absurd hb (h x), fun he => absurd he (hcl x)⟩

/-- The host that answers the SYN of the dialling socket with an ICMP error. -/
def unreachable : UtpContext := dialling.processIcmpError (UtpSocket.freshHdr ST_SYN).toBytes ⟨0, 0⟩

theorem errors_reported_unreachable : unreachable.errors 0 = [.connRefused] := by
  have hrun : ReflTransGen (Step Op.Timely) {} dialling :=
    .tail (.single (.call UtpSocket.stillHost .createSocket trivial
        (timely_of_not_breaks (by simp [Op.Breaks, Op.Resets, Op.IcmpErrs]) (by simp)) rfl))
      (.call UtpSocket.stillHost (.connect 0 ⟨0, 0⟩ 1) trivial
        (timely_of_not_breaks (by simp [Op.Breaks, Op.Resets, Op.IcmpErrs]) (by simp)) rfl)
  have hfound : dialling.icmpSocket (UtpSocket.freshHdr ST_SYN).toBytes ⟨0, 0⟩ = some 0 := by
    decide +kernel
  have hstate : (dialling.heap 0).map (fun s => s.conn.state) = some .synSent := by decide +kernel
  have htimely : Op.Timely dialling (.processIcmpError (UtpSocket.freshHdr ST_SYN).toBytes ⟨0, 0⟩) := by
    refine fun x s hs => ⟨fun h => h.elim, fun hb hd => ?_, fun he => by cases he⟩
    have hx : dialling.icmpSocket _ _ = some x := hb.resolve_left id
    rw [hfound] at hx
    cases hx
    rw [hs, Option.map_some, Option.some.injEq] at hstate
    unfold Dead at hd
    rw [hstate] at hd
    simp at hd
  have h := (errors_reported hrun).code 0 _ (.processIcmpError (UtpSocket.freshHdr ST_SYN).toBytes ⟨0, 0⟩)
    UtpSocket.stillHost unreachable rfl (by unfold Dead; decide +kernel) (.inr hfound) htimely rfl
  exact h.trans (by decide +kernel)

theorem not_errors_reported : ¬ ∀ c, ReflTransGen (Step fun _ _ => True) {} c →
    c.ErrorsReported fun _ _ => True := by
  intro h
  have hcode := (h dialling reachable_dialling).code 0 _ (.processUdp rstPacket ⟨0, 0⟩) UtpSocket.stillHost _
    rfl (by unfold Dead; decide +kernel) (.inl ⟨by decide, by decide, by decide +kernel⟩) trivial rfl
  exact absurd hcode (by decide +kernel)

end UtpContext

end Utp
