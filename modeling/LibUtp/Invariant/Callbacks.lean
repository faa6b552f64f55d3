import LibUtp.Kernel.ConnSteps
import LibUtp.Kernel.Life
import LibUtp.Invariant.EndOfStream

/-! The order in which the application hears of a connection: a socket that has dialled reports the
connection once, and before anything else about it; an accepted one never reports it. -/

namespace Utp

open Lts

/-- Callbacks that come only while the connection is open. -/
def Effect.fromOpen : Effect → Bool
  | .onRead _ | .onStateChange .eof | .onStateChange .writable => true
  | _ => false

/-- Neither the report of the connection nor a callback that takes it to be open. -/
def Effect.silent (e : Effect) : Prop := e ≠ .onConnect ∧ e.fromOpen = false

theorem Effect.silent_of_plain {e : Effect} (h : e.plain) : e.silent := by
  cases e <;> simp [Effect.plain, Effect.silent, Effect.fromOpen] at h ⊢

theorem Effect.fromOpen_of_delivers {e : Effect} (h : e.delivers) : e.fromOpen = true := by
  unfold Effect.delivers at h
  split at h
  · rfl
  · rfl
  · cases h

/-- The connection is reported at most once, and before everything that takes it to be open. -/
structure Greeted (l : List Effect) : Prop where
  once : l.count .onConnect ≤ 1
  first : ∀ l₁ e l₂, l = l₁ ++ e :: l₂ → e.fromOpen → .onConnect ∈ l₁

def Discreet (l : List Effect) : Prop := ∀ e ∈ l, e.silent

theorem Discreet.append {l m : List Effect} (h : Discreet l) (h' : Discreet m) : Discreet (l ++ m) := by
  intro e he
  rcases List.mem_append.1 he with he | he
  · exact h e he
  · exact h' e he

theorem Discreet.no_connect {l : List Effect} (h : Discreet l) : Effect.onConnect ∉ l := fun hm => (h _ hm).1 rfl

theorem Discreet.greeted {l : List Effect} (h : Discreet l) : Greeted l := by
  refine ⟨?_, fun l₁ e l₂ hl he => ?_⟩
  · rw [List.count_eq_zero_of_not_mem h.no_connect]
    exact Nat.zero_le 1
  · have := (h e (by simp [hl])).2
    rw [he] at this
    cases this

/-- The report itself. -/
theorem Discreet.connect {l : List Effect} (h : Discreet l) : Greeted (l ++ [.onConnect]) := by
  refine ⟨?_, fun l₁ e l₂ hl he => ?_⟩
  · rw [List.count_append, List.count_eq_zero_of_not_mem h.no_connect]
    simp
  · have hmem : e ∈ l ++ [Effect.onConnect] := by simp [hl]
    rcases List.mem_append.1 hmem with hm | hm
    · have := (h e hm).2
      rw [he] at this
      cases this
    · obtain rfl := List.mem_singleton.1 hm
      cases he

/-- Once the connection is reported, anything else may follow. -/
theorem Greeted.append {l m : List Effect} (h : Greeted l) (hc : Effect.onConnect ∉ m)
    (ho : (∃ e ∈ m, e.fromOpen) → .onConnect ∈ l) : Greeted (l ++ m) := by
  refine ⟨?_, fun l₁ e l₂ hl he => ?_⟩
  · rw [List.count_append, List.count_eq_zero_of_not_mem hc]
    exact h.once
  · rcases List.append_eq_append_iff.1 hl with ⟨k, rfl, hk⟩ | ⟨k, hk, hm⟩
    · have hmem : e ∈ m := by simp [hk]
      exact List.mem_append_left k (ho ⟨e, hmem, he⟩)
    · cases k with
      | nil =>
        have hm : e :: l₂ = m := hm
        have hmem : e ∈ m := by simp [← hm]
        have := ho ⟨e, hmem, he⟩
        rwa [hk, List.append_nil] at this
      | cons x k =>
        obtain ⟨rfl, -⟩ := List.cons_eq_cons.1 hm
        exact h.first l₁ e k hk he

theorem Greeted.append_discreet {l m : List Effect} (h : Greeted l) (hm : Discreet m) : Greeted (l ++ m) := by
  refine h.append hm.no_connect ?_
  rintro ⟨e, he, hf⟩
  have := (hm e he).2
  rw [hf] at this
  cases this

/-- How a socket was set up. -/
inductive Origin where
  | fresh
  | dialled
  | accepted

/-- What has been reported, by the origin and the state of the socket. -/
inductive Standing : Origin → List Effect → ConnState → Prop
  | fresh {l st} (hs : st = .uninitialized ∨ st = .idle) (h : Discreet l) : Standing .fresh l st
  | dialling {l} (h : Discreet l) : Standing .dialled l .synSent
  | accepting {l} (h : Discreet l) : Standing .accepted l .synRecv
  | connected {l st} (hs : st = .connected ∨ st = .connectedFull) (h : Greeted l) (hc : .onConnect ∈ l) :
      Standing .dialled l st
  | serving {l st} (hs : st = .connected ∨ st = .connectedFull) (h : .onConnect ∉ l) : Standing .accepted l st
  | spoilt {l st} (hs : st = .reset ∨ st = .destroy) (h : Discreet l) : Standing .fresh l st
  | closed {l st} (hs : st = .reset ∨ st = .destroy) (h : Greeted l) : Standing .dialled l st
  | dropped {l st} (hs : st = .reset ∨ st = .destroy) (h : .onConnect ∉ l) : Standing .accepted l st

namespace Standing

variable {o : Origin} {l m : List Effect} {st st' : ConnState}

/-! The origin and the reports, read off the state. -/

theorem of_unopened (h : Standing o l st) (hs : st = .uninitialized ∨ st = .idle) : o = .fresh ∧ Discreet l := by
  cases h with
  | fresh _ h => exact ⟨rfl, h⟩
  | dialling => rcases hs with hs | hs <;> cases hs
  | accepting => rcases hs with hs | hs <;> cases hs
  | _ hs' => rcases hs with rfl | rfl <;> rcases hs' with hs' | hs' <;> cases hs'

theorem of_synSent (h : Standing o l .synSent) : o = .dialled ∧ Discreet l := by
  cases h with
  | dialling h => exact ⟨rfl, h⟩
  | _ hs => rcases hs with hs | hs <;> cases hs

theorem of_synRecv (h : Standing o l .synRecv) : o = .accepted ∧ Discreet l := by
  cases h with
  | accepting h => exact ⟨rfl, h⟩
  | _ hs => rcases hs with hs | hs <;> cases hs

theorem of_open (h : Standing o l st) (hs : st = .connected ∨ st = .connectedFull) :
    o = .dialled ∧ Greeted l ∧ .onConnect ∈ l ∨ o = .accepted ∧ .onConnect ∉ l := by
  cases h with
  | connected _ h hc => exact .inl ⟨rfl, h, hc⟩
  | serving _ h => exact .inr ⟨rfl, h⟩
  | dialling => rcases hs with hs | hs <;> cases hs
  | accepting => rcases hs with hs | hs <;> cases hs
  | _ hs' => rcases hs with rfl | rfl <;> rcases hs' with hs' | hs' <;> cases hs'

/-- The open states are alike. -/
theorem stays_open (h : Standing o l st) (hs : st = .connected ∨ st = .connectedFull)
    (hs' : st' = .connected ∨ st' = .connectedFull) : Standing o l st' := by
  rcases h.of_open hs with ⟨rfl, hl, hc⟩ | ⟨rfl, hl⟩
  · exact .connected hs' hl hc
  · exact .serving hs' hl

theorem append_discreet (h : Standing o l st) (hm : Discreet m) : Standing o (l ++ m) st := by
  have hn {l : List Effect} (h : Effect.onConnect ∉ l) : Effect.onConnect ∉ l ++ m := by
    rw [List.mem_append, not_or]
    exact ⟨h, hm.no_connect⟩
  cases h with
  | fresh hs h => exact .fresh hs (h.append hm)
  | dialling h => exact .dialling (h.append hm)
  | accepting h => exact .accepting (h.append hm)
  | connected hs h hc => exact .connected hs (h.append_discreet hm) (List.mem_append_left m hc)
  | serving hs h => exact .serving hs (hn h)
  | spoilt hs h => exact .spoilt hs (h.append hm)
  | closed hs h => exact .closed hs (h.append_discreet hm)
  | dropped hs h => exact .dropped hs (hn h)

/-- The end of a connection tells nothing. -/
theorem dead (h : Standing o l st) (hs : st' = .reset ∨ st' = .destroy) : Standing o l st' := by
  cases h with
  | fresh _ h => exact .spoilt hs h
  | dialling h => exact .closed hs h.greeted
  | accepting h => exact .dropped hs h.no_connect
  | connected _ h _ => exact .closed hs h
  | serving _ h => exact .dropped hs h
  | spoilt _ h => exact .spoilt hs h
  | closed _ h => exact .closed hs h
  | dropped _ h => exact .dropped hs h

theorem leads (h : Standing o l st) (hl : st.Leads st') : Standing o l st' := by
  cases hl with
  | opens =>
    obtain ⟨rfl, hl⟩ := h.of_synRecv
    exact .serving (.inl rfl) hl.no_connect
  | fill => exact h.stays_open (.inl rfl) (.inr rfl)
  | breaks => exact h.dead (.inl rfl)
  | destroy => exact h.dead (.inr rfl)

/-- A callback of an open connection. -/
theorem fromOpen {e : Effect} (h : Standing o l st) (hs : st = .connected ∨ st = .connectedFull) (he : e.fromOpen) :
    Standing o (l ++ [e]) st := by
  have hne : Effect.onConnect ∉ [e] := by
    rw [List.mem_singleton]
    rintro rfl
    cases he
  rcases h.of_open hs with ⟨rfl, hl, hc⟩ | ⟨rfl, hl⟩
  · exact .connected hs (hl.append hne fun _ => hc) (List.mem_append_left _ hc)
  · refine .serving hs ?_
    rw [List.mem_append, not_or]
    exact ⟨hl, hne⟩

theorem greeted (h : Standing o l st) (ho : o ≠ .accepted) : Greeted l := by
  cases h with
  | fresh _ h => exact h.greeted
  | dialling h => exact h.greeted
  | connected _ h _ => exact h
  | spoilt _ h => exact h.greeted
  | closed _ h => exact h
  | _ => exact absurd rfl ho

/-- An accepted socket never reports the connection. -/
theorem no_connect (h : Standing .accepted l st) : Effect.onConnect ∉ l := by
  cases h with
  | accepting h => exact h.no_connect
  | serving _ h => exact h
  | dropped _ h => exact h

end Standing

/-- What one step tells. -/
theorem standing_connStep {a : Scope} {d d' : ConnView} {o : Origin} {l m : List Effect} (h : Standing o l d.state)
    (hd : ConnStep a d m d') : ∃ o', (o' = o ∨ o = .fresh ∧ a.setsUp) ∧ Standing o' (l ++ m) d'.state := by
  have hsame {l' : List Effect} {st : ConnState} (h : Standing o l' st) :
      ∃ o', (o' = o ∨ o = .fresh ∧ a.setsUp) ∧ Standing o' l' st := ⟨o, .inl rfl, h⟩
  have hnil {st : ConnState} (h : Standing o l st) : Standing o (l ++ []) st := by
    rw [List.append_nil]
    exact h
  cases hd with
  | say hp =>
    refine hsame (h.append_discreet fun e he => ?_)
    obtain rfl := List.mem_singleton.1 he
    exact Effect.silent_of_plain hp
  | schedule => exact hsame (h.append_discreet (by simp [Discreet, Effect.silent, Effect.fromOpen]))
  | ack => exact hsame (h.append_discreet (by simp [Discreet, Effect.silent, Effect.fromOpen]))
  | keepAlive => exact hsame (h.append_discreet (by simp [Discreet, Effect.silent, Effect.fromOpen]))
  | transmit => exact hsame (h.append_discreet (by simp [Discreet, Effect.silent, Effect.fromOpen]))
  | move hl => exact hsame (hnil (h.leads hl))
  | setUp hu hs =>
    obtain ⟨st, q⟩ := d
    rw [List.append_nil]
    cases hs with
    | enter =>
      obtain ⟨rfl, hl⟩ := h.of_unopened (.inl rfl)
      exact ⟨.fresh, .inl rfl, .fresh (.inr rfl) hl⟩
    | dial =>
      obtain ⟨rfl, hl⟩ := h.of_unopened (.inr rfl)
      exact ⟨.dialled, .inr ⟨rfl, hu⟩, .dialling hl⟩
    | accept =>
      obtain ⟨rfl, hl⟩ := h.of_unopened (.inr rfl)
      exact ⟨.accepted, .inr ⟨rfl, hu⟩, .accepting hl⟩
  | connected hs =>
    rw [hs] at h
    obtain ⟨rfl, hl⟩ := h.of_synSent
    exact hsame (.connected (.inl rfl) hl.connect (by simp))
  | writable hs =>
    have ht := h.fromOpen (e := .onStateChange .writable) (.inr hs) rfl
    exact hsame (ht.stays_open (.inr hs) (.inl rfl))
  | expect => exact hsame (hnil h)
  | hand _ ho he => exact hsame (h.fromOpen ho (Effect.fromOpen_of_delivers he))
  | advance => exact hsame (hnil h)

/-- What a whole call tells. -/
theorem standing_connSteps {a : Scope} {o : Origin} {l m : List Effect} {d d' : ConnView} (h : Standing o l d.state)
    (ht : Trace (ConnStep a) d m d') : ∃ o', (o' = o ∨ o = .fresh ∧ a.setsUp) ∧ Standing o' (l ++ m) d'.state := by
  induction ht generalizing o l with
  | refl d =>
    rw [List.append_nil]
    exact ⟨o, .inl rfl, h⟩
  | head hd _ ih =>
    obtain ⟨o₁, h1, ht₁⟩ := standing_connStep h hd
    obtain ⟨o₂, h2, ht₂⟩ := ih ht₁
    rw [List.append_assoc] at ht₂
    refine ⟨o₂, ?_, ht₂⟩
    rcases h2 with rfl | ⟨rfl, hu⟩
    · exact h1
    · rcases h1 with h1 | h1
      · exact .inr ⟨h1.symm, hu⟩
      · exact .inr h1

namespace UtpSocket

variable {s s' : UtpSocket} {calls : List Call} {targetDelay rcvbuf sndbuf : ℕ}

/-- The calls that accept a connection. -/
def Op.Answers : Op → Prop
  | .accept _ _ => True
  | _ => False

/-- What a call adds to the reports, and how it sets the socket up. -/
theorem standing_call {o : Origin} {l : List Effect} {c : Call} (h : Standing o l s.conn.state) (hs : Step s [c] s') :
    ∃ o', Standing o' (l ++ c.effects) s'.conn.state ∧ (o' = .accepted ↔ o = .accepted ∨ c.op.Answers) := by
  obtain ⟨op, acts, accepted⟩ := c
  obtain ⟨env, ms, tick, _, ho⟩ := hs
  obtain ⟨m, ht, hm⟩ := connSteps_run env (s := s.lend ms tick) ho
  have hm : (op.run env (s.lend ms tick)).out = m := hm
  rw [hm]
  obtain ⟨o', hor, ht'⟩ := standing_connSteps (o := o) (l := l) h ht
  refine ⟨o', ht', ?_⟩
  have hst' : Standing o' (l ++ m) (op.run env (s.lend ms tick)).conn.state := ht'
  by_cases hu : (op.scope (s.lend ms tick)).setsUp
  · cases op with
    | accept addr b =>
      have hend : (Op.run env (s.lend ms tick) (.accept addr b)).conn.state = .synRecv := state_acceptWith env addr b _
      rw [hend] at hst'
      exact ⟨fun _ => .inr trivial, fun _ => hst'.of_synRecv.1⟩
    | connect addr seed =>
      have hu : (s.lend ms tick).conn.state = .uninitialized := by simpa [Op.scope] using hu
      have hrun : Op.run env (s.lend ms tick) (.connect addr seed) = (s.lend ms tick).connectWith env addr seed :=
        if_pos hu
      have hend := state_connectWith env addr seed (s.lend ms tick)
      rw [← hrun] at hend
      have hend : (Op.run env (s.lend ms tick) (.connect addr seed)).conn.state = .synSent := hend
      have hstart : s.conn.state = .uninitialized := hu
      rw [hend] at hst'
      rw [hstart] at h
      rw [hst'.of_synSent.1, (h.of_unopened (.inl rfl)).1]
      simp [Op.Answers]
    | _ => cases hu
  · have hsame : o' = o := by
      rcases hor with hor | ⟨-, hu'⟩
      · exact hor
      · exact absurd hu' hu
    have hnot : ¬ op.Answers := by
      intro ha
      cases op with
      | accept => exact hu rfl
      | _ => exact ha
    rw [hsame]
    simp [hnot]

/-- After any run: the reports, by the origin of the socket. -/
theorem standing_run (h : Run targetDelay rcvbuf sndbuf calls s) : ∃ o,
    Standing o (calls.flatMap Call.effects) s.conn.state ∧ (o = .accepted ↔ ∃ c ∈ calls, c.op.Answers) := by
  have hgo {s s' : UtpSocket} {calls : List Call} (h : Trace Step s calls s') : ∀ {o l}, Standing o l s.conn.state →
      ∃ o', Standing o' (l ++ calls.flatMap Call.effects) s'.conn.state ∧
        (o' = .accepted ↔ o = .accepted ∨ ∃ c ∈ calls, c.op.Answers) := by
    induction h with
    | refl s =>
      intro o l ht
      refine ⟨o, ?_, by simp⟩
      simpa using ht
    | head hstep _ ih =>
      intro o l ht
      obtain ⟨c, acts, rfl, -⟩ := step_kernel hstep
      obtain ⟨o₁, h1, ho₁⟩ := standing_call ht hstep
      obtain ⟨o₂, h2, ho₂⟩ := ih h1
      refine ⟨o₂, ?_, ?_⟩
      · simpa using h2
      · rw [ho₂, ho₁]
        simp [or_assoc]
  obtain ⟨o, h1, h2⟩ := hgo h (o := .fresh) (l := []) (.fresh (.inl rfl) (by simp [Discreet]))
  refine ⟨o, by simpa using h1, ?_⟩
  rw [h2]
  simp

/-- In every run a socket that was not accepted reports the connection at most once, and before every byte,
the end of the stream and every report that it is writable; an accepted one never reports it. -/
theorem callbacks_ordered (h : Run targetDelay rcvbuf sndbuf calls s) :
    ((∀ c ∈ calls, ¬ c.op.Answers) → Greeted (calls.flatMap Call.effects)) ∧
      ((∃ c ∈ calls, c.op.Answers) → Effect.onConnect ∉ calls.flatMap Call.effects) := by
  obtain ⟨o, ht, ho⟩ := standing_run h
  generalize s.conn.state = st at ht
  constructor
  · intro hn
    refine ht.greeted fun hacc => ?_
    obtain ⟨c, hc, ha⟩ := ho.1 hacc
    exact hn c hc ha
  · intro ha
    obtain rfl := ho.2 ha
    exact ht.no_connect

theorem callbacks_ordered_opened : Effect.onConnect ∈ opened.out ∧
    ∃ calls : List Call, Greeted (calls.flatMap Call.effects) ∧ ∃ c ∈ calls, c.effects = opened.out := by
  have hconnect := Trace.single (Step.call stillHost 0 0 (.connect ⟨0, 0⟩ 7)
    (s := new CCONTROL_TARGET 4096 4096) trivial)
  have hopen : Trace Step dialled [⟨.processIncoming (statePacket 101 0), opened.out, []⟩] opened :=
    .single (.call stillHost 0 0 (.processIncoming (statePacket 101 0)) trivial)
  have h := callbacks_ordered (hconnect.trans hopen)
  refine ⟨by decide +kernel, _, h.1 ?_, _, List.mem_append_right _ List.mem_cons_self, rfl⟩
  simp [Op.Answers]

end UtpSocket

end Utp
