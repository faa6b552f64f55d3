import LibUtp.Kernel.Operations
import LibUtp.Socket.Run

/-! Runs on the kernel: every call is a sequence of kernel steps, so an invariant
that each step preserves holds after every call of every run. -/

namespace Utp

open Lts

namespace Kernel

/-- The kernel of a new socket. -/
def initial : Kernel := ({} : UtpSocket).kernel

/-! Effects that report no failure of certain assertions. -/

/-- No assertion of `bad` fails in `e`. -/
def Spares (bad : Assertion → Bool) (e : Effect) : Prop :=
  ∀ a, e = .assertFailed a → bad a = false

variable {bad : Assertion → Bool}

theorem spares_quiet (hb : ∀ a, bad a → a.watched) {l : List Effect} (h : ∀ e ∈ l, Effect.quiet e) :
    ∀ a ∈ [Act.silent l], ∀ e ∈ a.effects, Spares bad e := by
  simp only [List.mem_singleton, forall_eq, Act.effects]
  rintro e he a rfl
  have hw : a.watched = false := by simpa [Effect.quiet] using h _ he
  exact Bool.eq_false_iff.2 fun hba => by rw [hb a hba] at hw; cases hw

theorem spares_fail {a : Assertion} (h : bad a = false) :
    ∀ b ∈ [Act.fail a], ∀ e ∈ b.effects, Spares bad e := by
  simp only [List.mem_singleton, forall_eq, Act.effects]
  rintro b ⟨⟩
  exact h

theorem spares_send (b : Bytes) (flags : UInt32) :
    ∀ a ∈ [Act.send b flags], ∀ e ∈ a.effects, Spares bad e := by
  simp [Act.effects, Spares]

theorem spares_take (b : Bytes) : ∀ a ∈ [Act.take b], ∀ e ∈ a.effects, Spares bad e := by
  simp [Act.effects]

theorem spares_error (code : ErrorCode) :
    ∀ a ∈ [Act.error code], ∀ e ∈ a.effects, Spares bad e := by
  simp [Act.effects, Spares]

theorem spares_eof : ∀ a ∈ [Act.eof], ∀ e ∈ a.effects, Spares bad e := by
  simp [Act.effects, Spares]

theorem spares_readAct (k : Kernel) (b : Bytes) :
    ∀ a ∈ k.readAct b, ∀ e ∈ a.effects, Spares bad e := by
  unfold readAct
  split <;> simp [Act.effects, Spares]

theorem spares_removal (hb : bad .removeInFlight = false) (k : Kernel) (p : OutgoingPacket) :
    ∀ a ∈ k.removal p, ∀ e ∈ a.effects, Spares bad e := by
  unfold removal
  split
  · simp
  · exact spares_fail hb

theorem Pops.spares (hb : bad .removeInFlight = false) (hb' : bad .advanceInFlight = false) {n : ℕ}
    {k k' : Kernel} {acts : List Act} (h : Pops n k acts k') :
    ∀ a ∈ acts, ∀ e ∈ a.effects, Spares bad e := by
  induction h with
  | done h => simp
  | acked hcur hp ht h ih =>
    intro a ha
    rcases List.mem_append.1 ha with ha | ha
    · exact spares_removal hb _ _ a ha
    · exact ih a ha
  | empty hcur hp h ih => exact ih
  | check h hr ih =>
    intro a ha
    rcases List.mem_cons.1 ha with rfl | ha
    · exact spares_fail hb' _ (List.mem_singleton.2 rfl)
    · exact ih a ha

/-- Labels of two parts of a step. -/
theorem spares_append {l l' : List Act} (h : ∀ a ∈ l, ∀ e ∈ a.effects, Spares bad e)
    (h' : ∀ a ∈ l', ∀ e ∈ a.effects, Spares bad e) :
    ∀ a ∈ l ++ l', ∀ e ∈ a.effects, Spares bad e := by
  intro a ha
  rcases List.mem_append.1 ha with ha | ha
  · exact h a ha
  · exact h' a ha

end Kernel

namespace UtpSocket

theorem kernel_new (targetDelay rcvbuf sndbuf : ℕ) :
    (new targetDelay rcvbuf sndbuf).kernel = Kernel.initial := rfl

/-- The inputs an operation works on. -/
def Op.Takes : Op → Input → Prop
  | _, .nothing => True
  | .processIncoming b, .ack pp | .processIncoming b, .eack pp | .processIncoming b, .packet pp =>
    ∃ bits, (parseBytes b bits).1 = some pp
  | .processIncoming _, _ => False
  | .onReset, x | .onIcmpError, x => x = .broken
  | .writev _, x | .close, x | .shutdown _, x => x = .api
  | _, x => x = .host

/-- The kernel steps of an operation. -/
def Op.Micro (op : Op) (k : Kernel) (acts : List Act) (k' : Kernel) : Prop :=
  ∃ x, op.Takes x ∧ Kernel.Micro x k acts k'

/-- `s'` comes out of `s` by kernel steps of `op`. -/
def Op.Runs (op : Op) (b : Bytes) (s s' : UtpSocket) : Prop :=
  ∃ acts, Trace op.Micro s.kernel acts s'.kernel ∧
    s'.out = s.out ++ acts.flatMap Act.effects ∧ acts.flatMap Act.taken = b

namespace Op.Runs

variable {o : Op} {x : Input} {b b' : Bytes} {s t u : UtpSocket}

theorem of_runs (hx : o.Takes x) (h : Utp.Runs x b s t) : o.Runs b s t := by
  obtain ⟨acts, ht, ho, hb⟩ := h
  exact ⟨acts, ht.mono fun _ _ _ hm => ⟨x, hx, hm⟩, ho, hb⟩

theorem trans (h : o.Runs b s t) (h' : o.Runs b' t u) : o.Runs (b ++ b') s u := by
  obtain ⟨l, ht, ho, hb⟩ := h
  obtain ⟨l', ht', ho', hb'⟩ := h'
  refine ⟨l ++ l', ht.trans ht', ?_, by rw [List.flatMap_append, hb, hb']⟩
  rw [ho', ho, List.flatMap_append, List.append_assoc]

end Op.Runs

theorem runs_of_advanced {pp : ParsedPacket} {s t : UtpSocket} (h : Advanced pp s t) :
    Utp.Runs (.ack pp) [] s t := by
  obtain ⟨pre, acts, hpre, hm, ht, ho⟩ := h
  have := runs_step (v := []) hm (by rw [ho]; simp) (.of_quiet hpre) (by simp)
  rwa [ht] at this

theorem Op.Runs.of_quiet {op : Op} {s t : UtpSocket} (h : Quiet s t) : op.Runs [] s t :=
  .of_runs (x := .nothing) (by cases op <;> trivial) (.of_quiet h)

theorem runs_processIncoming (env : Env) (b : Bytes) (s : UtpSocket) :
    (Op.processIncoming b).Runs [] s (s.processIncoming env b false) := by
  rcases received_processIncoming env b s with hq | ⟨pp, hp, hr⟩
  · exact .of_quiet hq
  · have hx : ∃ bits, (parseBytes b bits).1 = some pp := ⟨_, hp⟩
    cases hr with
    | brief h => exact .of_runs (x := .packet pp) hx h.runs
    | full hacc h₁ ha h₂ h₃ =>
      have h₁ := Op.Runs.of_runs (o := .processIncoming b) (x := .packet pp) hx h₁.runs
      have ha := Op.Runs.of_runs (o := .processIncoming b) (x := .ack pp) hx (runs_of_advanced ha)
      have h₂ := Op.Runs.of_runs (o := .processIncoming b) (x := .eack pp) hx h₂
      have h₃ := Op.Runs.of_runs (o := .processIncoming b) (x := .packet pp) hx h₃.runs
      exact (h₁.trans ha).trans (h₂.trans h₃)

/-- Every operation is a sequence of kernel steps. -/
theorem runs_op (env : Env) {s : UtpSocket} {op : Op} (h : op.Enabled s) :
    op.Runs (op.accepted env s) s (op.run env s) := by
  cases op with
  | connect addr seed =>
    simp only [Op.run, Op.accepted]
    split
    · exact .of_runs (x := .host) rfl (runs_connectWith env addr seed ‹_›)
    · exact .of_runs (x := .host) rfl (runs_connectAgain s)
  | accept addr syn => exact .of_runs (x := .host) rfl (runs_acceptWith env addr syn h)
  | setOption opt val => exact .of_quiet (quiet_setOption opt val s)
  | writev iov => exact .of_runs (x := .api) rfl (runs_writev env iov s)
  | readDrained => exact .of_runs (x := .host) rfl (runs_readDrained env s)
  | close => exact .of_runs (x := .api) rfl (runs_close env s)
  | shutdown how => exact .of_runs (x := .api) rfl (runs_shutdown env how s)
  | sendAck => exact .of_runs (x := .host) rfl (runs_sendAck env false s)
  | processIncoming b => exact runs_processIncoming env b s
  | onReset => exact .of_runs (x := .broken) rfl (runs_onReset s)
  | onIcmpError => exact .of_runs (x := .broken) rfl (runs_onIcmpError s)
  | onIcmpFragmentation m => exact .of_quiet (quiet_onIcmpFragmentation m s)
  | checkTimeouts => exact .of_runs (x := .host) rfl (runs_checkTimeouts env s)

theorem kernel_lend (ms : UInt64) (tick : ℕ) (s : UtpSocket) :
    (s.lend ms tick).kernel = s.kernel := rfl

theorem out_lend (ms : UInt64) (tick : ℕ) (s : UtpSocket) : (s.lend ms tick).out = [] := rfl

theorem Op.Enabled.lend {op : Op} {s : UtpSocket} (h : op.Enabled s) (ms : UInt64) (tick : ℕ) :
    op.Enabled (s.lend ms tick) := by
  cases op <;> exact h

/-- The kernel's part in a call of the host. -/
theorem trace_run (env : Env) {s : UtpSocket} {op : Op} (h : op.Enabled s) (ms : UInt64) (tick : ℕ) :
    ∃ acts, Trace op.Micro s.kernel acts (op.run env (s.lend ms tick)).kernel ∧
      (op.run env (s.lend ms tick)).out = acts.flatMap Act.effects ∧
      acts.flatMap Act.taken = op.accepted env (s.lend ms tick) := by
  obtain ⟨acts, ht, ho, hb⟩ := runs_op env (h.lend ms tick)
  rw [kernel_lend] at ht
  rw [out_lend, List.nil_append] at ho
  exact ⟨acts, ht, ho, hb⟩

/-- The kernel's part in a step. -/
theorem step_kernel {s s' : UtpSocket} {l : List Call} (h : Step s l s') :
    ∃ c acts, l = [c] ∧ c.op.Enabled s ∧ Trace c.op.Micro s.kernel acts s'.kernel ∧
      c.effects = acts.flatMap Act.effects ∧ c.accepted = acts.flatMap Act.taken := by
  cases h with
  | call env ms tick op h =>
    obtain ⟨acts, ht, ho, hb⟩ := trace_run env h ms tick
    exact ⟨_, acts, rfl, h, ht, ho, hb.symm⟩

/-- The inputs that a run of `calls` takes. -/
def Given (calls : List Call) (x : Input) : Prop :=
  match x with
  | .ack pp | .eack pp | .packet pp => Receives calls pp
  | _ => True

theorem given_of_takes {calls : List Call} {c : Call} {x : Input} (hc : c ∈ calls)
    (h : c.op.Takes x) : Given calls x := by
  have hpp (pp : ParsedPacket) (hx : x = .ack pp ∨ x = .eack pp ∨ x = .packet pp) :
      Receives calls pp := by
    obtain ⟨op, effects, accepted⟩ := c
    cases op
    case processIncoming b =>
      rcases hx with rfl | rfl | rfl <;>
      · obtain ⟨bits, h⟩ := h
        exact ⟨_, hc, b, bits, rfl, h⟩
    all_goals
      rcases hx with rfl | rfl | rfl <;> cases h
  cases x with
  | ack pp => exact hpp pp (.inl rfl)
  | eack pp => exact hpp pp (.inr (.inl rfl))
  | packet pp => exact hpp pp (.inr (.inr rfl))
  | _ => trivial

/-- What every kernel step on the inputs of the run preserves holds after every call,
and what it then says of the labels holds of every effect. -/
theorem run_invariant {I : Kernel → Prop} {P : Effect → Prop} {G : Input → Prop}
    (hI : ∀ x k acts k', G x → I k → Kernel.Micro x k acts k' → I k')
    (hP : ∀ x k acts k', G x → I k → Kernel.Micro x k acts k' → ∀ a ∈ acts, ∀ e ∈ a.effects, P e)
    {s s' : UtpSocket} {calls : List Call} (h : Trace Step s calls s')
    (hG : ∀ c ∈ calls, ∀ x, c.op.Takes x → G x) (hs : I s.kernel) :
    I s'.kernel ∧ ∀ c ∈ calls, ∀ e ∈ c.effects, P e := by
  induction h with
  | refl => exact ⟨hs, by simp⟩
  | head h₁ _ ih =>
    obtain ⟨c, acts, rfl, -, ht, he, -⟩ := step_kernel h₁
    have hGc := hG c (by simp)
    have hstep : ∀ k acts k', I k → c.op.Micro k acts k' → I k' := by
      rintro k acts k' hk ⟨x, hx, hm⟩
      exact hI x k acts k' (hGc x hx) hk hm
    obtain ⟨h1, h2⟩ := ih (fun c' hc' => hG c' (by simp [hc'])) (ht.invariant hstep hs)
    refine ⟨h1, fun c' hc' => ?_⟩
    rcases List.mem_append.1 hc' with hc' | hc'
    · rw [List.mem_singleton.1 hc', he]
      have := ht.forall_labels (P := fun a => ∀ e ∈ a.effects, P e) hstep (by
        rintro k acts k' hk ⟨x, hx, hm⟩
        exact hP x k acts k' (hGc x hx) hk hm) hs
      intro e hmem
      obtain ⟨a, ha, hae⟩ := List.mem_flatMap.1 hmem
      exact this a ha e hae
    · exact h2 c' hc'

/-! Runs whose calls all meet a condition on the state before them. -/

/-- A call that meets `C`, a condition on the host, the socket as it is called and the operation. -/
inductive StepIf (C : Env → UtpSocket → Op → Prop) : UtpSocket → List Call → UtpSocket → Prop
  | call {s : UtpSocket} (env : Env) (ms : UInt64) (tick : ℕ) (op : Op) (h : op.Enabled s)
      (hC : C env (s.lend ms tick) op) :
      StepIf C s [⟨op, (op.run env (s.lend ms tick)).out, op.accepted env (s.lend ms tick)⟩]
        (op.run env (s.lend ms tick))

theorem StepIf.step {C : Env → UtpSocket → Op → Prop} {s s' : UtpSocket} {l : List Call}
    (h : StepIf C s l s') : Step s l s' := by
  cases h with
  | call env ms tick op h hC => exact .call env ms tick op h

theorem stepIf_perform {C : Env → UtpSocket → Op → Prop} {env : Env} {s : UtpSocket} {op : Op}
    (h : op.Enabled s) (hC : C env (s.lend 0 0) op) : ∃ c, StepIf C s [c] (perform env s [op]) ∧
      c.op = op ∧ c.effects = (perform env s [op]).out :=
  ⟨_, .call env 0 0 op h hC, rfl, rfl⟩

def RunIf (C : Env → UtpSocket → Op → Prop) (targetDelay rcvbuf sndbuf : ℕ) (calls : List Call)
    (s : UtpSocket) : Prop :=
  Trace (StepIf C) (.new targetDelay rcvbuf sndbuf) calls s

theorem RunIf.run {C : Env → UtpSocket → Op → Prop} {targetDelay rcvbuf sndbuf : ℕ} {calls : List Call}
    {s : UtpSocket} (h : RunIf C targetDelay rcvbuf sndbuf calls s) :
    Run targetDelay rcvbuf sndbuf calls s := h.mono fun _ _ _ hs => hs.step

end UtpSocket

end Utp
