import LibUtp.Invariant.EndOfStream
import LibUtp.Invariant.FastResend
import LibUtp.Invariant.FinFlag
import LibUtp.Kernel.States

/-! What a socket never takes back. Its state goes forward through the stages of a connection, and what
was shut down, ended or noted stays so: from then on nothing is read, and nothing more is written. -/

namespace Utp

open Lts

/-- The stages of a connection: not set up, in the handshake, open, over. -/
def ConnState.stage : ConnState → ℕ
  | .uninitialized => 0
  | .idle => 1
  | .synSent | .synRecv => 2
  | .connected | .connectedFull => 3
  | .reset | .destroy => 4

namespace Kernel

variable {x : Input} {k k' k'' : Kernel} {acts : List Act}

/-- `k'` comes after `k` in the life of a socket. -/
structure Later (k k' : Kernel) : Prop where
  stage : k.state.stage ≤ k'.state.stage
  readShutdown : k.readShutdown → k'.readShutdown
  finSent : k.finSent → k'.finSent ∧ k'.seqNr = k.seqNr
  finSentAcked : k.finSentAcked → k'.finSentAcked
  closeRequested : k.closeRequested → k'.closeRequested
  gotFin : k.gotFin → k'.gotFin ∧ k'.eofPkt = k.eofPkt
  gotFinReached : k.gotFinReached → k'.gotFinReached

namespace Later

theorem refl (k : Kernel) : Later k k := ⟨le_refl _, id, fun h => ⟨h, rfl⟩, id, id, fun h => ⟨h, rfl⟩, id⟩

theorem trans (h : Later k k') (h' : Later k' k'') : Later k k'' where
  stage := h.stage.trans h'.stage
  readShutdown hr := h'.readShutdown (h.readShutdown hr)
  finSent hf := by
    obtain ⟨h1, h2⟩ := h.finSent hf
    obtain ⟨h3, h4⟩ := h'.finSent h1
    exact ⟨h3, h4.trans h2⟩
  finSentAcked ha := h'.finSentAcked (h.finSentAcked ha)
  closeRequested hc := h'.closeRequested (h.closeRequested hc)
  gotFin hg := by
    obtain ⟨h1, h2⟩ := h.gotFin hg
    obtain ⟨h3, h4⟩ := h'.gotFin h1
    exact ⟨h3, h4.trans h2⟩
  gotFinReached hr := h'.gotFinReached (h.gotFinReached hr)

/-- The flags stay, and the stage does not fall. -/
theorem of_same (hs : k.state.stage ≤ k'.state.stage) (hr : k'.readShutdown = k.readShutdown)
    (hf : k'.finSent = k.finSent) (hq : k'.seqNr = k.seqNr) (ha : k'.finSentAcked = k.finSentAcked)
    (hc : k'.closeRequested = k.closeRequested) (hg : k'.gotFin = k.gotFin) (he : k'.eofPkt = k.eofPkt)
    (hm : k'.gotFinReached = k.gotFinReached) : Later k k' := by
  refine ⟨hs, ?_, ?_, ?_, ?_, ?_, ?_⟩
  · simp [hr]
  · simp [hf, hq]
  · simp [ha]
  · simp [hc]
  · simp [hg, he]
  · simp [hm]

end Later

theorem stage_le (st : ConnState) : st.stage ≤ 4 := by cases st <;> simp [ConnState.stage]

theorem stage_gaveUp (k : Kernel) : k.gaveUp.stage = 4 := by
  unfold gaveUp
  split <;> rfl

/-- An acknowledgement ends the handshake, or the connection. -/
theorem later_ackState (k : Kernel) (pp : ParsedPacket) : Later k (k.ackState pp) := by
  have hlast := stage_le k.state
  unfold ackState
  dsimp only
  split_ifs with h1 h2 h3 h4 h5 h6 h7 <;> constructor <;> simp_all [ConnState.stage]

/-- No step takes anything back. -/
theorem later_micro (hset : k.state ≠ .uninitialized) (hm : Micro x k acts k') : Later k k' := by
  have hlast := stage_le k.state
  cases hm with
  | accept hu => exact absurd hu hset
  | connect hu => exact absurd hu hset
  | writable hs => exact .of_same (by simp [hs, ConnState.stage]) rfl rfl rfl rfl rfl rfl rfl rfl
  | full hs => exact .of_same (by simp [hs, ConnState.stage]) rfl rfl rfl rfl rfl rfl rfl rfl
  | destroy => exact .of_same hlast rfl rfl rfl rfl rfl rfl rfl rfl
  | timeout => exact .of_same (by rw [stage_gaveUp]; exact hlast) rfl rfl rfl rfl rfl rfl rfl rfl
  | broken =>
    refine .of_same ?_ rfl rfl rfl rfl rfl rfl rfl rfl
    dsimp only
    split <;> exact hlast
  | readShutdown => exact ⟨le_refl _, fun _ => rfl, fun h => ⟨h, rfl⟩, id, id, fun h => ⟨h, rfl⟩, id⟩
  | closeAgain =>
    refine ⟨?_, id, fun h => ⟨h, rfl⟩, id, fun _ => rfl, fun h => ⟨h, rfl⟩, id⟩
    dsimp only
    split
    · exact hlast
    · exact le_refl _
  | queue hs hf => exact ⟨le_refl _, id, fun h => absurd h (by simp [hf]), id, id, fun h => ⟨h, rfl⟩, id⟩
  | queueFin ho hf =>
    exact ⟨le_refl _, id, fun h => absurd h (by simp [hf]), id, fun h => by simp [h], fun h => ⟨h, rfl⟩, id⟩
  | @advance pp k acts k' hs hp =>
    refine (later_ackState k pp).trans ?_
    have hseq := hp.seqNr
    obtain ⟨q, w, c, o, f, rfl⟩ := hp.frame
    exact .of_same (le_refl _) rfl rfl hseq rfl rfl rfl rfl rfl
  | noteFin ho ht hf hd => exact ⟨le_refl _, id, fun h => ⟨h, rfl⟩, id, id, fun h => absurd h (by simp [hf]), id⟩
  | deliver ho hd ht hf hdr =>
    obtain ⟨h1, h2, h3, h4⟩ := hdr.fin
    obtain ⟨h5, h6, -, h7, -⟩ := hdr.sendSide
    have h8 := hdr.numbers.1
    refine ⟨by rw [hdr.state], ?_, ?_, ?_, ?_, ?_, h4⟩
    · simp [h3]
    · simp [h5, h8]
    · simp [h6]
    · simp [h7]
    · simp [h1, h2]
  | _ => exact .of_same (le_refl _) rfl rfl rfl rfl rfl rfl rfl rfl

/-- What is handed over and what is taken, once reading, writing or the connection is over. -/
structure Mum (k : Kernel) (acts : List Act) : Prop where
  reads : k.readShutdown → readsOf (acts.flatMap Act.effects) = []
  taken : k.finSent → acts.flatMap Act.taken = []
  dead : k.Dead → (∀ e ∈ acts.flatMap Act.effects, e.delivers = false) ∧ acts.flatMap Act.taken = []

theorem Drains.reads_shut (hd : Drains k acts k') (hr : k.readShutdown) :
    readsOf (acts.flatMap Act.effects) = [] := by
  induction hd with
  | eof => rfl
  | idle => rfl
  | @release k p acts k' h hc hp hd ih =>
    have hread : k.readAct p.data = [] := by simp [readAct, hr]
    rw [hread]
    exact ih hr

theorem mum_withheld (hw : ∀ e ∈ acts.flatMap Act.effects, e.delivers = false) (ht : acts.flatMap Act.taken = []) :
    Mum k acts :=
  ⟨fun _ => readsOf_withheld hw, fun _ => ht, fun _ => ⟨hw, ht⟩⟩

theorem mum_micro (hm : Micro x k acts k') : Mum k acts := by
  cases hm with
  | queue hs hf =>
    exact ⟨fun _ => rfl, fun h => absurd h (by simp [hf]), fun h => absurd hs (h.ne (by simp) (by simp))⟩
  | extend hs hf =>
    exact ⟨fun _ => rfl, fun h => absurd h (by simp [hf]), fun h => absurd hs (h.ne (by simp) (by simp))⟩
  | silent h => exact mum_withheld (by simpa [Act.effects] using withheld_quiet h) rfl
  | mark => exact mum_withheld (withheld_removal k _) (taken_removal k _)
  | sack => exact mum_withheld (withheld_removal k _) (taken_removal k _)
  | advance hs hp => exact mum_withheld hp.withheld hp.taken
  | deliver ho hd ht hf hdr =>
    refine ⟨fun hr => ?_, fun _ => ?_, fun h => absurd ho h.not_open⟩
    · have hread (b : Bytes) : k.readAct b = [] := by simp [readAct, hr]
      rw [hread]
      exact hdr.reads_shut hr
    · rw [List.flatMap_append, hdr.taken, taken_readAct]
      rfl
  | _ => exact mum_withheld (by simp [Act.effects, Effect.delivers]) rfl

theorem Mum.trans {acts' : List Act} (hl : k.Later k') (hd : k.Dead → k'.Dead) (h : Mum k acts) (h' : Mum k' acts') :
    Mum k (acts ++ acts') := by
  constructor
  · intro hr
    rw [List.flatMap_append, readsOf_append, h.reads hr, h'.reads (hl.readShutdown hr)]
    rfl
  · intro hf
    rw [List.flatMap_append, h.taken hf, h'.taken (hl.finSent hf).1]
    rfl
  · intro hk
    obtain ⟨h1, h2⟩ := h.dead hk
    obtain ⟨h3, h4⟩ := h'.dead (hd hk)
    refine ⟨fun e he => ?_, by rw [List.flatMap_append, h2, h4]; rfl⟩
    rw [List.flatMap_append] at he
    rcases List.mem_append.1 he with he | he
    · exact h1 e he
    · exact h3 e he

/-- What a whole call does. -/
theorem later_trace {T : Input → Prop} (hset : k.state ≠ .uninitialized)
    (h : Trace (fun k acts k' => ∃ x, T x ∧ Micro x k acts k') k acts k') :
    k'.state ≠ .uninitialized ∧ k.Later k' ∧ (k.Dead → k'.Dead) ∧ k.Mum acts := by
  induction h with
  | refl k => exact ⟨hset, .refl k, id, mum_withheld (by simp) rfl⟩
  | head hstep _ ih =>
    obtain ⟨x, -, hm⟩ := hstep
    obtain ⟨hset', hl', hd', hmum⟩ := ih (set_micro hset hm)
    have hl := later_micro hset hm
    have hd (hk) := (dead_micro hk hm).1
    exact ⟨hset', hl.trans hl', fun hk => hd' (hd hk), (mum_micro hm).trans hl hd hmum⟩

end Kernel

namespace UtpSocket

variable {s s' : UtpSocket} {calls : List Call}

/-- From `s` on the calls led forward to `s'`. -/
structure Forward (s : UtpSocket) (calls : List Call) (s' : UtpSocket) : Prop where
  stage : s.conn.state.stage ≤ s'.conn.state.stage
  readShutdown : s.recv.readShutdown → s'.recv.readShutdown ∧ ∀ c ∈ calls, readsOf c.effects = []
  finSent : s.send.finSent → s'.send.finSent ∧ s'.send.seqNr = s.send.seqNr ∧ ∀ c ∈ calls, c.accepted = []
  finSentAcked : s.send.finSentAcked → s'.send.finSentAcked
  closeRequested : s.send.closeRequested → s'.send.closeRequested
  gotFin : s.recv.gotFin → s'.recv.gotFin ∧ s'.recv.eofPkt = s.recv.eofPkt
  gotFinReached : s.recv.gotFinReached → s'.recv.gotFinReached
  dead : s.kernel.Dead → s'.kernel.Dead ∧
    ∀ c ∈ calls, (∀ e ∈ c.effects, e.delivers = false) ∧ c.accepted = []

/-- A socket that is set up only goes forward, whatever its peer, its host and the application do. -/
theorem forward_run (hset : s.conn.state ≠ .uninitialized) (h : Trace Step s calls s') : Forward s calls s' := by
  have hall : s'.conn.state ≠ .uninitialized ∧ s.kernel.Later s'.kernel ∧ (s.kernel.Dead → s'.kernel.Dead) ∧
      ∀ c ∈ calls, (s.recv.readShutdown → readsOf c.effects = []) ∧ (s.send.finSent → c.accepted = []) ∧
        (s.kernel.Dead → (∀ e ∈ c.effects, e.delivers = false) ∧ c.accepted = []) := by
    induction h with
    | refl s => exact ⟨hset, .refl _, id, by simp⟩
    | head hstep _ ih =>
      obtain ⟨c, acts, rfl, -, ht, he, ha⟩ := step_kernel hstep
      obtain ⟨hset₁, hl, hd, hm⟩ := Kernel.later_trace hset ht
      obtain ⟨hset', hl', hd', hcalls⟩ := ih hset₁
      refine ⟨hset', hl.trans hl', fun hk => hd' (hd hk), fun c' hc' => ?_⟩
      rcases List.mem_append.1 hc' with hc' | hc'
      · obtain rfl := List.mem_singleton.1 hc'
        rw [he, ha]
        exact ⟨hm.reads, hm.taken, hm.dead⟩
      · obtain ⟨h1, h2, h3⟩ := hcalls c' hc'
        exact ⟨fun hr => h1 (hl.readShutdown hr), fun hf => h2 (hl.finSent hf).1, fun hk => h3 (hd hk)⟩
  obtain ⟨-, hl, hd, hcalls⟩ := hall
  exact
    { stage := hl.stage
      readShutdown := fun hr => ⟨hl.readShutdown hr, fun c hc => (hcalls c hc).1 hr⟩
      finSent := fun hf => ⟨(hl.finSent hf).1, (hl.finSent hf).2, fun c hc => (hcalls c hc).2.1 hf⟩
      finSentAcked := hl.finSentAcked
      closeRequested := hl.closeRequested
      gotFin := hl.gotFin
      gotFinReached := hl.gotFinReached
      dead := fun hk => ⟨hd hk, fun c hc => (hcalls c hc).2.2 hk⟩ }

/-- An open socket that was closed, and then gets data and is written to. -/
def shutOpened : UtpSocket := perform stillHost opened [.close]

theorem forward_run_shutOpened : shutOpened.recv.readShutdown = true ∧ shutOpened.send.finSent = true ∧
    ∃ calls, Forward shutOpened calls
      (perform stillHost shutOpened [.processIncoming (dataPacket 101 [1, 2]), .writev [[3]]]) := by
  obtain ⟨calls, h⟩ := trace_perform stillHost shutOpened
    (l := [.processIncoming (dataPacket 101 [1, 2]), .writev [[3]]]) (by simp [Op.Enabled])
  exact ⟨by decide +kernel, by decide +kernel, calls, forward_run (by decide +kernel) h⟩

end UtpSocket

end Utp
