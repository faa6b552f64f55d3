import LibUtp.Kernel.Life

/-! The states of a connection: what waits in the handshake, what is over, and the errors
reported on the way. The timer reports one as it gives a connection up, and a message that
the connection broke one as it ends it; no other step reports any. -/

namespace Utp

open Lts

def Effect.isError : Effect → Bool
  | .onError _ => true
  | _ => false

/-- The errors among the effects. -/
def errorsOf (l : List Effect) : List Effect := l.filter Effect.isError

@[simp] theorem errorsOf_nil : errorsOf [] = [] := rfl

@[simp] theorem errorsOf_append (l l' : List Effect) : errorsOf (l ++ l') = errorsOf l ++ errorsOf l' :=
  List.filter_append l l'

theorem errorsOf_quiet {l : List Effect} (h : ∀ e ∈ l, Effect.quiet e) : errorsOf l = [] := by
  refine List.filter_eq_nil_iff.2 fun e he => ?_
  have hq := h e he
  cases e <;> simp_all [Effect.quiet, Effect.isError]

namespace Kernel

variable {x : Input} {k k' : Kernel} {acts : List Act}

/-- Before the handshake is over nothing is in flight and no FIN was sent. -/
def Idle (k : Kernel) : Prop :=
  k.state = .uninitialized ∨ k.state = .synRecv → k.cur = 0 ∧ k.finSent = false

/-- No step leads back to `CS_SYN_RECV`. -/
theorem left_micro (hu : k.state ≠ .uninitialized) (h : k.state ≠ .synRecv)
    (hm : Micro x k acts k') : k'.state ≠ .synRecv := by
  cases hm with
  | broken =>
    dsimp only
    split <;> simp
  | closeAgain =>
    dsimp only
    split
    · simp
    · exact h
  | @advance pp k acts k' hs hp =>
    obtain ⟨q, w, c, o, f, rfl⟩ := hp.frame
    show (k.ackState pp).state ≠ .synRecv
    unfold ackState
    dsimp only
    split_ifs <;> simp_all
  | deliver ho hd ht hf hdr =>
    rw [hdr.state]
    exact h
  | accept hu' => exact absurd hu' hu
  | connect hu' hp hp' => exact absurd hu' hu
  | timeout => exact k.gaveUp_ne (by simp) (by simp)
  | _ => first | exact h | simp

/-- An empty window stays. -/
theorem Pops.of_empty {n : ℕ} (h : Pops n k acts k') (hc : k.cur = 0) : k' = k := by
  induction h with
  | done => rfl
  | acked hcur => exact absurd hcur (by rw [hc]; simp)
  | empty hcur => exact absurd hcur (by rw [hc]; simp)
  | check _ _ ih => exact ih hc

theorem idle_micro (h : k.Idle) (hm : Micro x k acts k') : k'.Idle := by
  intro h'
  have hk : k.state = .uninitialized ∨ k.state = .synRecv := by
    by_contra hn
    rw [not_or] at hn
    rcases h' with h' | h'
    · exact set_micro hn.1 hm h'
    · exact left_micro hn.1 hn.2 hm h'
  have hopen : ¬ k.IsOpen := by
    rintro (ho | ho) <;>
    · rw [ho] at hk
      simp at hk
  obtain ⟨hc, hf⟩ := h hk
  cases hm with
  | connect hu hp hp' => simp [transmit, queue, dial] at h'
  | queue hs => exact absurd (.inl hs) hopen
  | extend hs => exact absurd (.inl hs) hopen
  | queueFin ho => exact absurd ho hopen
  | @advance pp k acts k' hs hp =>
    obtain ⟨st, f, he⟩ := k.ackState_eq pp
    rw [he] at hp
    rw [hp.of_empty hc]
    exact ⟨hc, hf⟩
  | deliver ho => exact absurd ho hopen
  | _ => exact ⟨hc, hf⟩

theorem Drains.cur (h : Drains k acts k') : k'.cur = k.cur := by
  induction h with
  | eof => rfl
  | idle => rfl
  | release _ _ _ _ ih => exact ih

/-- Only the application fills an empty window. -/
theorem empty_micro (hu : k.state ≠ .uninitialized) (hx : x ≠ .api) (hc : k.cur = 0)
    (hm : Micro x k acts k') : k'.cur = 0 := by
  cases hm with
  | accept h => exact absurd h hu
  | connect h => exact absurd h hu
  | queue => exact absurd rfl hx
  | queueFin => exact absurd rfl hx
  | @advance pp k acts k' hs hp =>
    obtain ⟨st, f, he⟩ := k.ackState_eq pp
    rw [he] at hp
    rw [hp.of_empty hc]
    exact hc
  | deliver ho hd ht hf hdr => exact hdr.cur.trans hc
  | _ => exact hc

/-- Steps without an input leave the window and the state as they are. -/
theorem nothing_micro (hm : Micro .nothing k acts k') :
    k'.cur = k.cur ∧ (k.state ≠ .connectedFull → k'.state = k.state) := by
  cases hm with
  | writable hs => exact ⟨rfl, fun h => absurd hs h⟩
  | destroy hx => simp at hx
  | _ => exact ⟨rfl, fun _ => rfl⟩

/-! Errors. -/

theorem errors_removal (k : Kernel) (p : OutgoingPacket) :
    errorsOf ((k.removal p).flatMap Act.effects) = [] := by
  unfold removal
  split <;> rfl

theorem Pops.errors {n : ℕ} (h : Pops n k acts k') : errorsOf (acts.flatMap Act.effects) = [] := by
  induction h with
  | done => rfl
  | acked _ _ _ _ ih => rw [List.flatMap_append, errorsOf_append, errors_removal, ih, List.append_nil]
  | empty _ _ _ ih => exact ih
  | check _ _ ih => exact ih

theorem errors_readAct (k : Kernel) (b : Bytes) :
    errorsOf ((k.readAct b).flatMap Act.effects) = [] := by
  unfold readAct
  split <;> rfl

theorem Drains.errors (h : Drains k acts k') : errorsOf (acts.flatMap Act.effects) = [] := by
  induction h with
  | eof => rfl
  | idle => rfl
  | release _ _ _ _ ih => rw [List.flatMap_append, errorsOf_append, errors_readAct, ih, List.append_nil]

/-- A step that reports an error, and the step it is. -/
theorem errors_micro (hm : Micro x k acts k') : errorsOf (acts.flatMap Act.effects) = [] ∨
    x = .host ∧ acts = [.error .timedOut] ∧ UtpSocket.timeoutActive k.state ∧
      k' = { k with state := k.gaveUp } ∨
    x = .broken ∧ ∃ code, acts = [.error code] := by
  cases hm with
  | silent h => exact .inl (by simpa [Act.effects] using errorsOf_quiet h)
  | timeout h => exact .inr (.inl ⟨rfl, rfl, h, rfl⟩)
  | broken => exact .inr (.inr ⟨rfl, _, rfl⟩)
  | mark => exact .inl (errors_removal k _)
  | advance hs h => exact .inl h.errors
  | sack => exact .inl (errors_removal k _)
  | deliver ho hd ht hf h =>
    refine .inl ?_
    rw [List.flatMap_append, errorsOf_append, errors_readAct, h.errors, List.append_nil]
  | _ => exact .inl rfl

/-- The connection broke, was given up or closed. -/
def Dead (k : Kernel) : Prop := k.state = .reset ∨ k.state = .destroy

theorem dead_gaveUp (k : Kernel) : Dead { k with state := k.gaveUp } := by
  unfold Dead gaveUp
  dsimp only
  split <;> simp

theorem Dead.inactive (h : k.Dead) : UtpSocket.timeoutActive k.state = false := by
  rcases h with h | h <;> rw [h] <;> rfl

theorem Dead.ne (h : k.Dead) {st : ConnState} (h₁ : .reset ≠ st) (h₂ : .destroy ≠ st) :
    k.state ≠ st := by
  rcases h with h | h <;> rw [h]
  · exact h₁
  · exact h₂

theorem Dead.not_open (h : k.Dead) : ¬ k.IsOpen := by
  rintro (ho | ho)
  · exact h.ne (by simp) (by simp) ho
  · exact h.ne (by simp) (by simp) ho

/-- No step revives a connection, and only a message that it broke takes it out of `CS_DESTROY`. -/
theorem dead_micro (h : k.Dead) (hm : Micro x k acts k') : k'.Dead ∧
    k'.closeRequested = k.closeRequested ∧ (k.state = .destroy → x ≠ .broken → k'.state = .destroy) := by
  cases hm with
  | writable hs => exact absurd hs (h.ne (by simp) (by simp))
  | full hs => exact absurd hs (h.ne (by simp) (by simp))
  | destroy => exact ⟨.inr rfl, rfl, fun _ _ => rfl⟩
  | timeout ha => exact absurd (h.inactive.symm.trans ha) (by simp)
  | broken =>
    refine ⟨?_, rfl, fun _ hx => absurd rfl hx⟩
    unfold Dead
    dsimp only
    split <;> simp
  | closeAgain hf ho => exact absurd ho h.not_open
  | accept hu => exact absurd hu (h.ne (by simp) (by simp))
  | connect hu => exact absurd hu (h.ne (by simp) (by simp))
  | queue hs => exact absurd hs (h.ne (by simp) (by simp))
  | extend hs => exact absurd hs (h.ne (by simp) (by simp))
  | queueFin ho => exact absurd ho h.not_open
  | @advance pp k acts k' hs hp =>
    obtain ⟨q, w, c, o, f, rfl⟩ := hp.frame
    show ((k.ackState pp).state = .reset ∨ (k.ackState pp).state = .destroy) ∧
      (k.ackState pp).closeRequested = k.closeRequested ∧
        (k.state = .destroy → _ → (k.ackState pp).state = .destroy)
    unfold ackState
    dsimp only
    have h : k.state = .reset ∨ k.state = .destroy := h
    split_ifs <;> simp_all
  | deliver ho => exact absurd ho h.not_open
  | noteFin ho => exact absurd ho h.not_open
  | store ho => exact absurd ho h.not_open
  | _ => exact ⟨h, rfl, fun hd _ => hd⟩

/-- The steps that no message of a broken connection causes. -/
def Unbroken (k : Kernel) (acts : List Act) (k' : Kernel) : Prop := ∃ x, x ≠ .broken ∧ Micro x k acts k'

/-- An acknowledgement leaves the state, ends the handshake or ends the connection. -/
theorem ackState_state (k : Kernel) (pp : ParsedPacket) : ((k.ackState pp).state = k.state ∨
    (k.ackState pp).state = .connected ∨ (k.ackState pp).state = .destroy) ∧
      (k.ackState pp).closeRequested = k.closeRequested := by
  unfold ackState
  dsimp only
  split_ifs <;> simp_all

/-- A connection breaks only with an error. -/
theorem reset_micro (hr : k'.state = .reset) (hm : Micro x k acts k') : k.state = .reset ∨
    errorsOf (acts.flatMap Act.effects) ≠ [] := by
  cases hm with
  | writable => cases hr
  | full => cases hr
  | destroy => cases hr
  | timeout => exact .inr (by simp [Act.effects, errorsOf, Effect.isError])
  | broken => exact .inr (by simp [Act.effects, errorsOf, Effect.isError])
  | closeAgain hf ho =>
    refine .inl ?_
    dsimp only at hr
    split at hr
    · cases hr
    · exact hr
  | accept => cases hr
  | connect => cases hr
  | @advance pp k acts k' hs hp =>
    obtain ⟨q, w, c, o, f, rfl⟩ := hp.frame
    have hr : (k.ackState pp).state = .reset := hr
    rcases (k.ackState_state pp).1 with h | h | h
    · exact .inl (h.symm.trans hr)
    · exact absurd (h.symm.trans hr) (by simp)
    · exact absurd (h.symm.trans hr) (by simp)
  | deliver ho hd ht hf hdr => exact .inl (hdr.state.symm.trans hr)
  | _ => exact .inl hr

/-- No connection is in `CS_IDLE`. -/
theorem notIdle_micro (h : k.state ≠ .idle) (hm : Micro x k acts k') : k'.state ≠ .idle := by
  cases hm with
  | broken =>
    dsimp only
    split <;> simp
  | closeAgain =>
    dsimp only
    split
    · simp
    · exact h
  | @advance pp k acts k' hs hp =>
    obtain ⟨q, w, c, o, f, rfl⟩ := hp.frame
    show (k.ackState pp).state ≠ .idle
    rcases (k.ackState_state pp).1 with hst | hst | hst <;> rw [hst]
    · exact h
    · simp
    · simp
  | deliver ho hd ht hf hdr =>
    rw [hdr.state]
    exact h
  | timeout => exact k.gaveUp_ne (by simp) (by simp)
  | connect => exact ConnState.noConfusion
  | _ => first | exact h | simp

/-- Without such a message, the one error reported is the end of a connection that was alive, and
none breaks without an error. -/
theorem errors_unbroken (h : Trace Unbroken k acts k') :
    errorsOf (acts.flatMap Act.effects) = [] ∧ (k'.state = .reset → k.state = .reset) ∨
    errorsOf (acts.flatMap Act.effects) = [.onError .timedOut] ∧ ¬ k.Dead ∧ k'.Dead := by
  induction h with
  | refl => exact .inl ⟨rfl, id⟩
  | @head k l k₁ l' k' hm ht ih =>
    obtain ⟨x, hx, hm⟩ := hm
    rw [List.flatMap_append, errorsOf_append]
    rcases errors_micro hm with he | ⟨-, rfl, ha, rfl⟩ | ⟨hb, -⟩
    · have hr (h : k₁.state = .reset) : k.state = .reset := (reset_micro h hm).resolve_right (by simp [he])
      rw [he, List.nil_append]
      refine ih.imp (fun ⟨he', hk'⟩ => ⟨he', fun h => hr (hk' h)⟩)
        fun ⟨he', hk₁, hk'⟩ => ⟨he', fun hk => hk₁ (dead_micro hk hm).1, hk'⟩
    · have hk₁ := k.dead_gaveUp
      have hk' : k'.Dead := ht.invariant (fun _ _ _ hd ⟨_, _, hm⟩ => (dead_micro hd hm).1) hk₁
      rcases ih with ⟨he', -⟩ | ⟨-, hn, -⟩
      · refine .inr ⟨by rw [he']; rfl, fun hd => ?_, hk'⟩
        exact absurd (hd.inactive.symm.trans ha) (by simp)
      · exact absurd hk₁ hn
    · exact absurd hb hx

/-- The application causes no error. -/
theorem errors_api (h : Trace (Micro .api) k acts k') : errorsOf (acts.flatMap Act.effects) = [] := by
  induction h with
  | refl => rfl
  | head hm _ ih =>
    rw [List.flatMap_append, errorsOf_append, ih, List.append_nil]
    rcases errors_micro hm with he | ⟨hx, -⟩ | ⟨hx, -⟩
    · exact he
    · cases hx
    · cases hx

/-- Only the application asks for the close, of a connection that is set up. -/
def Unrequested (k : Kernel) : Prop := k.closeRequested → k.IsOpen ∨ k.Dead

theorem unrequested_micro (h : k.Unrequested) (hm : Micro x k acts k') : k'.Unrequested := by
  intro hr
  have hopen {m : Kernel} : m.state = .connected → m.IsOpen ∨ m.Dead := fun h => .inl (.inl h)
  have hdestroy {m : Kernel} : m.state = .destroy → m.IsOpen ∨ m.Dead := fun h => .inr (.inr h)
  cases hm with
  | writable => exact hopen rfl
  | full => exact .inl (.inr rfl)
  | destroy => exact hdestroy rfl
  | timeout => exact .inr k.dead_gaveUp
  | broken =>
    refine .inr ?_
    unfold Dead
    dsimp only
    split <;> simp
  | closeAgain hf ho =>
    by_cases ha : k.finSentAcked
    · exact hdestroy (if_pos ha)
    · have hst : (if k.finSentAcked = true then ConnState.destroy else k.state) = k.state := if_neg ha
      unfold IsOpen
      rw [hst]
      exact .inl ho
  | accept hu =>
    have hk := h hr
    unfold IsOpen Dead at hk
    rw [hu] at hk
    simp at hk
  | connect hu =>
    have hk := h hr
    unfold IsOpen Dead at hk
    rw [hu] at hk
    simp at hk
  | queueFin ho => exact .inl ho
  | @advance pp k acts k' hs hp =>
    obtain ⟨q, w, c, o, f, rfl⟩ := hp.frame
    obtain ⟨hst, hc⟩ := k.ackState_state pp
    rcases hst with hst | hst | hst
    · have hk := h (hc ▸ hr)
      unfold IsOpen Dead at hk ⊢
      show ((k.ackState pp).state = .connected ∨ (k.ackState pp).state = .connectedFull) ∨
        (k.ackState pp).state = .reset ∨ (k.ackState pp).state = .destroy
      rw [hst]
      exact hk
    · exact hopen hst
    · exact hdestroy hst
  | deliver ho hd ht hf hdr => exact .inl (by unfold IsOpen; rw [hdr.state]; exact ho)
  | _ => exact h hr

/-- A trace of the host that reports an error ends a connection that was alive. -/
theorem errors_host (h : Trace (Micro .host) k acts k') (hd : k.Dead ∨ ¬ k'.Dead) :
    errorsOf (acts.flatMap Act.effects) = [] := by
  have h : Trace Unbroken k acts k' := h.mono fun _ _ _ hm => ⟨.host, by simp, hm⟩
  rcases errors_unbroken h with ⟨he, -⟩ | ⟨-, hk, hk'⟩
  · exact he
  · exact absurd hd (by simp [hk, hk'])

/-- The window has the same packets, but for their headers and whether they are sent. -/
structure SameWindow (k k' : Kernel) : Prop where
  seqNr : k'.seqNr = k.seqNr
  cur : k'.cur = k.cur
  closeRequested : k'.closeRequested = k.closeRequested
  slots : ∀ q, (k'.outbuf.slot q).map OutgoingPacket.body = (k.outbuf.slot q).map OutgoingPacket.body

namespace SameWindow

theorem refl (k : Kernel) : k.SameWindow k := ⟨rfl, rfl, rfl, fun _ => rfl⟩

theorem trans {m : Kernel} (h : k.SameWindow m) (h' : m.SameWindow k') : k.SameWindow k' where
  seqNr := h'.seqNr.trans h.seqNr
  cur := h'.cur.trans h.cur
  closeRequested := h'.closeRequested.trans h.closeRequested
  slots q := (h'.slots q).trans (h.slots q)

end SameWindow

theorem slots_setSlot {b : SequenceBuffer OutgoingPacket} {q : UInt16} {p p' : OutgoingPacket}
    (hp : b.slot q = some p) (hb : p'.body = p.body) (r : UInt16) :
    ((b.setSlot q (some p')).slot r).map OutgoingPacket.body = (b.slot r).map OutgoingPacket.body := by
  rw [SequenceBuffer.slot_setSlot]
  split
  · rename_i hs
    rw [← hs.slot_eq, hp, Option.map_some, Option.map_some, hb]
  · rfl

/-- The host takes no packet out of the window and puts none in. -/
theorem sameWindow_host (hu : k.state ≠ .uninitialized) (hm : Micro .host k acts k') :
    k.SameWindow k' := by
  cases hm with
  | accept h => exact absurd h hu
  | connect h => exact absurd h hu
  | transmit hp hp' => exact ⟨rfl, rfl, rfl, slots_setSlot hp hp'.body⟩
  | mark hc hp => exact ⟨rfl, rfl, rfl, slots_setSlot hp rfl⟩
  | _ => exact ⟨rfl, rfl, rfl, fun _ => rfl⟩

end Kernel

theorem Runs.errors {b : Bytes} {s t : UtpSocket} (h : Runs .host b s t)
    (hd : s.kernel.Dead ∨ ¬ t.kernel.Dead) : errorsOf t.out = errorsOf s.out := by
  obtain ⟨acts, ht, ho, -⟩ := h
  rw [ho, errorsOf_append, Kernel.errors_host ht hd, List.append_nil]

theorem Runs.sameWindow {b : Bytes} {s t : UtpSocket} (h : Runs .host b s t)
    (hu : s.kernel.state ≠ .uninitialized) : s.kernel.SameWindow t.kernel := by
  obtain ⟨acts, ht, -⟩ := h
  exact (ht.invariant (I := fun m => m.state ≠ .uninitialized ∧ s.kernel.SameWindow m)
    (fun _ _ _ ⟨hu, hw⟩ hm => ⟨Kernel.set_micro hu hm, hw.trans (Kernel.sameWindow_host hu hm)⟩)
    ⟨hu, .refl _⟩).2

end Utp
