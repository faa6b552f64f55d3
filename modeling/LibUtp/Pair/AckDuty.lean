import LibUtp.Kernel.ConnSteps
import LibUtp.Invariant.EndOfStream
import LibUtp.Pair.Ends

/-! What is received is acknowledged: a delivery leaves a deferred acknowledgement due, and it stays due
until a datagram with the new acknowledgement number is sent. -/

namespace Utp

open Lts

/-- The handshake has fixed the acknowledgement number. -/
def ConnView.Settled (d : ConnView) : Prop := d.state ≠ .uninitialized ∧ d.state ≠ .idle ∧ d.state ≠ .synSent

theorem ConnView.IsOpen.settled {d : ConnView} (h : d.IsOpen) : d.Settled := by
  unfold Settled
  rcases h with h | h <;> simp [h]

namespace UtpSocket

/-- A datagram with the acknowledgement number `q` is among the effects. -/
def Confirms (q : UInt16) (l : List Effect) : Prop :=
  ∃ b ∈ datagrams l, (PacketFormatV1.ofBytes b).ackNr = q

/-- An acknowledgement of `q` that was due is due still, or it was sent. -/
def Owes (q : UInt16) (l : List Effect) : Prop := pendingAck true l = true ∨ Confirms q l

variable {q : UInt16} {l m : List Effect}

theorem Confirms.append_left (m : List Effect) (h : Confirms q l) : Confirms q (l ++ m) := by
  obtain ⟨b, hb, hq⟩ := h
  exact ⟨b, by rw [datagrams_append]; exact List.mem_append_left _ hb, hq⟩

theorem Confirms.append_right (l : List Effect) (h : Confirms q m) : Confirms q (l ++ m) := by
  obtain ⟨b, hb, hq⟩ := h
  exact ⟨b, by rw [datagrams_append]; exact List.mem_append_right _ hb, hq⟩

theorem confirms_sendTo {hdr : PacketFormatV1} {rest : Bytes} {flags : UInt32} (h : hdr.ackNr = q)
    (l : List Effect) : Confirms q (.sendTo (hdr.toBytes ++ rest) flags :: l) := by
  refine ⟨hdr.toBytes ++ rest, List.mem_cons_self, ?_⟩
  rw [PacketFormatV1.ofBytes_toBytes]
  exact h

theorem Owes.append (h : Owes q l) (h' : Owes q m) : Owes q (l ++ m) := by
  rcases h with h | h
  · rcases h' with h' | h'
    · refine .inl ?_
      rw [pendingAck_append, h]
      exact h'
    · exact .inr (h'.append_right l)
  · exact .inr (h.append_left m)

/-- What ends with an acknowledgement scheduled. -/
theorem pendingAck_schedule (b : Bool) (l : List Effect) : pendingAck b (l ++ [.scheduleAck]) = true := by
  rw [pendingAck_append]
  simp [pendingAck]

theorem pendingAck_say {e : Effect} (h : e.plain) (b : Bool) : pendingAck b [e] = b := by
  cases e <;> simp [Effect.plain, pendingAck] at h ⊢

/-- A settled socket stays so. -/
theorem settled_connStep {a : Scope} {d d' : ConnView} (hu : a.setsUp = false) (hs : d.Settled) (h : ConnStep a d m d') :
    d'.Settled := by
  obtain ⟨st, q⟩ := d
  cases h with
  | move hl => cases hl <;> simp [ConnView.Settled]
  | setUp hu' =>
    rw [hu] at hu'
    cases hu'
  | connected => simp [ConnView.Settled]
  | writable => simp [ConnView.Settled]
  | _ => exact hs

/-- A step of a settled socket that delivers nothing. -/
theorem owes_connStep {a : Scope} {d d' : ConnView} (ha : a.delivers = false) (hs : d.Settled) (h : ConnStep a d m d') :
    d'.ackNr = d.ackNr ∧ (a.keepsAlive = false → Owes d.ackNr m) := by
  cases h with
  | say hp => exact ⟨rfl, fun _ => .inl (pendingAck_say hp true)⟩
  | schedule => exact ⟨rfl, fun _ => .inl (pendingAck_schedule true [])⟩
  | ack hq => exact ⟨rfl, fun _ => .inr (confirms_sendTo hq _)⟩
  | keepAlive hk =>
    refine ⟨rfl, fun hk' => ?_⟩
    rw [hk'] at hk
    cases hk
  | transmit hq => exact ⟨rfl, fun _ => .inr (confirms_sendTo hq _)⟩
  | expect he =>
    rcases he with he | he
    · exact absurd he hs.2.2
    · exact absurd he hs.2.1
  | hand ha' =>
    rw [ha] at ha'
    cases ha'
  | advance ha' =>
    rw [ha] at ha'
    cases ha'
  | _ => exact ⟨rfl, fun _ => .inl rfl⟩

theorem settled_connSteps {a : Scope} {d d' : ConnView} (hu : a.setsUp = false) (hs : d.Settled)
    (h : Trace (ConnStep a) d m d') : d'.Settled :=
  h.invariant (fun _ _ _ hs hd => settled_connStep hu hs hd) hs

theorem owes_connSteps {a : Scope} {d d' : ConnView} (hu : a.setsUp = false) (ha : a.delivers = false) (hs : d.Settled)
    (h : Trace (ConnStep a) d m d') : d'.ackNr = d.ackNr ∧ (a.keepsAlive = false → Owes d.ackNr m) := by
  induction h with
  | refl d => exact ⟨rfl, fun _ => .inl rfl⟩
  | head hd _ ih =>
    obtain ⟨h1, h2⟩ := owes_connStep ha hs hd
    obtain ⟨h3, h4⟩ := ih (settled_connStep hu hs hd)
    rw [h1] at h3 h4
    exact ⟨h3, fun hk => (h2 hk).append (h4 hk)⟩

variable {s t u : UtpSocket} {c : Call} {calls : List Call}

theorem setsUp_scope {op : Op} (hs : s.connView.Settled) (ho : op.Enabled s) : (op.scope s).setsUp = false := by
  have hst : s.conn.state ≠ .uninitialized := hs.1
  cases op with
  | connect => simpa [Op.scope] using hst
  | accept => exact absurd ho hst
  | _ => rfl

/-- A call on a settled socket delivers and leaves an acknowledgement due, or the number stays. -/
theorem duty_call (hs : s.connView.Settled) (h : Step s [c] t) : t.connView.Settled ∧
    ((∀ b, pendingAck b c.effects = true) ∨
      t.recv.ackNr = s.recv.ackNr ∧ (c.op ≠ .checkTimeouts → Owes s.recv.ackNr c.effects)) := by
  obtain ⟨op, effects, accepted⟩ := c
  obtain ⟨env, ms, tick, _, ho⟩ := h
  have hs' : (s.lend ms tick).connView.Settled := hs
  have ho : op.Enabled (s.lend ms tick) := by
    cases op <;> exact ho
  have hu := setsUp_scope hs' ho
  have hq : (s.lend ms tick).recv.ackNr = s.recv.ackNr := rfl
  have hout : (s.lend ms tick).out = [] := rfl
  rw [← hq]
  generalize s.lend ms tick = r at hs' hu hout ho ⊢
  obtain ⟨m, ht, hm⟩ := connSteps_run env (s := r) ho
  refine ⟨settled_connSteps hu hs' ht, ?_⟩
  have hstay {a : Scope} (hu : a.setsUp = false) (ha : a.delivers = false) (h : ConnSteps a r (op.run env r)) :
      (op.run env r).recv.ackNr = r.recv.ackNr ∧ (a.keepsAlive = false → Owes r.recv.ackNr (op.run env r).out) := by
    obtain ⟨m, ht, hm⟩ := h
    rw [hm, hout]
    exact owes_connSteps hu ha hs' ht
  cases op with
  | processIncoming b =>
    obtain ⟨t, -, he | he⟩ := connSteps_processIncoming env (a := { delivers := true }) rfl b false r
    · refine .inl fun b' => ?_
      have hrun : Op.run env r (.processIncoming b) = t.scheduleAck := he
      show pendingAck b' (Op.run env r (.processIncoming b)).out = true
      rw [hrun]
      exact pendingAck_schedule b' t.out
    · obtain ⟨h1, h2⟩ := hstay rfl rfl he
      exact .inr ⟨h1, fun _ => h2 rfl⟩
  | accept addr b => exact absurd ho hs'.1
  | checkTimeouts =>
    obtain ⟨h1, -⟩ := hstay hu rfl ⟨m, ht, hm⟩
    exact .inr ⟨h1, fun hne => absurd rfl hne⟩
  | _ =>
    obtain ⟨h1, h2⟩ := hstay hu rfl ⟨m, ht, hm⟩
    exact .inr ⟨h1, fun _ => h2 rfl⟩

/-- The context sends what is due before it checks the timers. -/
def Punctual (l : List Effect) (calls : List Call) : Prop :=
  ∀ l₁ c l₂, calls = l₁ ++ c :: l₂ → c.op = .checkTimeouts → pendingAck true (l ++ l₁.flatMap Call.effects) = false

/-- A call that leaves the acknowledgement number as it is. -/
def Waiting (s : UtpSocket) (calls : List Call) (t : UtpSocket) : Prop := Step s calls t ∧ t.recv.ackNr = s.recv.ackNr

theorem owes_run (hs : s.connView.Settled) (ho : Owes s.recv.ackNr l) (h : Trace Waiting s calls t)
    (hp : Punctual l calls) : Owes s.recv.ackNr (l ++ calls.flatMap Call.effects) := by
  induction h generalizing l with
  | refl s => simpa using ho
  | @head s a s₁ l' s' hstep _ ih =>
    obtain ⟨hstep, hq⟩ := hstep
    obtain ⟨c, acts, rfl, -⟩ := step_kernel hstep
    obtain ⟨hset, hcall⟩ := duty_call hs hstep
    have hnext : Owes s.recv.ackNr (l ++ c.effects) := by
      rcases hcall with hcall | ⟨-, hcall⟩
      · refine .inl ?_
        rw [pendingAck_append]
        exact hcall _
      · by_cases hc : c.op = .checkTimeouts
        · have hdue := hp [] c _ rfl hc
          simp only [List.flatMap_nil, List.append_nil] at hdue
          rcases ho with ho | ho
          · rw [hdue] at ho
            cases ho
          · exact .inr (ho.append_left _)
        · exact ho.append (hcall hc)
    rw [← hq] at hnext
    have hp' : Punctual (l ++ c.effects) l' := fun l₁ c' l₂ hl hc => by
      have := hp (c :: l₁) c' l₂ (by rw [hl]; rfl) hc
      simpa using this
    have := ih hset hnext hp'
    rw [hq] at this
    simpa using this

/-- Whatever arrives in order is acknowledged: a call that moves the acknowledgement number on leaves an
acknowledgement due, and as long as the number stays it is due, or a datagram with this very number was sent. -/
theorem arrival_acknowledged (ho : s.connView.IsOpen) (hc : Step s [c] t) (hq : t.recv.ackNr ≠ s.recv.ackNr)
    (h : Trace Waiting t calls u) (hp : Punctual [] calls) :
    pendingAck false (c.effects ++ calls.flatMap Call.effects) = true ∨
      Confirms t.recv.ackNr (calls.flatMap Call.effects) := by
  obtain ⟨hs, hcall⟩ := duty_call ho.settled hc
  rcases hcall with hcall | ⟨hsame, -⟩
  · rcases owes_run hs (l := []) (.inl rfl) h hp with h' | h'
    · refine .inl ?_
      rw [pendingAck_append, hcall]
      exact h'
    · exact .inr h'
  · exact absurd hsame hq

/-- The socket that has got data has acknowledged it. -/
def thankful : UtpSocket := perform stillHost fed [.sendAck]

theorem arrival_acknowledged_fed : pendingAck false fed.out = true ∧ Confirms 101 thankful.out := by
  have hc : Step opened [⟨.processIncoming (dataPacket 101 [1, 2]), fed.out, []⟩] fed :=
    .call stillHost 0 0 (.processIncoming (dataPacket 101 [1, 2])) trivial
  have hs : Trace Waiting fed [⟨.sendAck, thankful.out, []⟩] thankful :=
    .single ⟨.call stillHost 0 0 .sendAck trivial, by decide +kernel⟩
  have hp : Punctual [] [⟨.sendAck, thankful.out, []⟩] := by
    intro l₁ c l₂ hl hop
    have hmem : c ∈ l₁ ++ c :: l₂ := by simp
    rw [← hl, List.mem_singleton] at hmem
    rw [hmem] at hop
    cases hop
  have hsent : pendingAck false (fed.out ++ thankful.out) = false := by decide +kernel
  have hnumber : fed.recv.ackNr = 101 := by decide +kernel
  have h := arrival_acknowledged (.inl (by decide +kernel)) hc (by decide +kernel) hs hp
  simp only [List.flatMap_cons, List.flatMap_nil, List.append_nil, hsent, hnumber] at h
  rcases h with h | h
  · cases h
  · exact ⟨by decide +kernel, h⟩

end UtpSocket

end Utp
