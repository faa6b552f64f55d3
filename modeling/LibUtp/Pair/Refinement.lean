import LibUtp.Invariant.Lifecycle
import LibUtp.Lib.Pipe
import LibUtp.Pair.Delivery

/-! Each direction of a connection is a reliable pipe. -/

namespace Utp

open Lts Kernel Relation

namespace UtpSocket

variable {n n' : Network} {i : Side} {g : Side → Sending} {R base : Side → ℕ}

/-- The direction from the side `i`. -/
def Network.pipe (n : Network) (i : Side) : Pipe UInt8 where
  written := (n.ends i).accepted
  read := (n.ends i.other).delivered
  closed := (n.ends i).socket.send.finSent
  deaf := (n.ends i.other).socket.recv.readShutdown
  ended := (n.ends i.other).eof

/-- A side whose peer has reached the end takes nothing more. -/
theorem Linked.finSent (h : Linked n n.kernels g R base) (hf : (n.kernels i).gotFinReached) :
    (n.ends i.other).socket.send.finSent = true := by
  have hg := (h.half i).gathers
  exact (h.half i.other).ships.fin.trans (hg.reached hf).1

theorem sound_pipe {targetDelay rcvbuf sndbuf : Side → ℕ} (h : n.Reachable targetDelay rcvbuf sndbuf) (i : Side) :
    (n.pipe i).Sound := by
  have hi := stream_integrity h i.other
  rw [Side.other_other] at hi
  refine ⟨hi.1, fun he => ⟨?_, hi.2 he⟩⟩
  rcases (phase_reachable h).silent_or_linked with hs | ⟨g, R, base, hl⟩
  · have hsilent := (hs i.other).eof
    have he : (n.ends i.other).eof = true := he
    rw [hsilent] at he
    cases he
  · have hf := hl.finSent (hl.eof i.other he).1
    rw [Side.other_other] at hf
    exact hf

/-- A side is set up, or nobody has used it. -/
theorem Phase.setUp_or_blank (h : Phase n) (i : Side) :
    (n.ends i).socket.conn.state ≠ .uninitialized ∨ (n.ends i).Blank := by
  have hall (ha : (n.ends .initiator).socket.conn.state ≠ .uninitialized ∨ (n.ends .initiator).Blank)
      (hb : (n.ends .acceptor).socket.conn.state ≠ .uninitialized ∨ (n.ends .acceptor).Blank) :
      (n.ends i).socket.conn.state ≠ .uninitialized ∨ (n.ends i).Blank := by
    cases i with
    | initiator => exact ha
    | acceptor => exact hb
  cases h with
  | fresh hi hf => exact .inr (hi i)
  | dialling ha hb hf => exact hall (.inl ha.kernel.setUp) (.inr hb)
  | waiting ha hb hpos hf => exact hall (.inl ha.kernel.setUp) (.inl hb.kernel.setUp)
  | linked h hs => exact .inl (hs i).1
  | lost ha hb hf => exact hall (.inl ha.kernel.setUp) (hb.symm.imp (fun hl => hl.kernel.setUp) id)

/-- What a call never takes back. -/
structure Endpoint.Onward (e e' : Endpoint) : Prop where
  finSent : e.socket.send.finSent → e'.socket.send.finSent ∧ e'.accepted = e.accepted
  readShutdown : e.socket.recv.readShutdown → e'.socket.recv.readShutdown ∧ e'.delivered = e.delivered
  accepted : e.accepted <+: e'.accepted
  delivered : e.delivered <+: e'.delivered
  posted : e.posted → e'.posted
  eof : e.eof → e'.eof

theorem Endpoint.onward_call {e : Endpoint} {env : Env} {ms : UInt64} {tick : ℕ} {op : Op} (ho : op.Enabled e.socket)
    (h : e.socket.conn.state ≠ .uninitialized ∨ e.Blank) : e.Onward (e.call env ms tick op) := by
  have haccepted : (e.call env ms tick op).accepted = e.accepted ++ op.accepted env (e.socket.lend ms tick) := rfl
  have hdelivered : (e.call env ms tick op).delivered =
    e.delivered ++ (readsOf (e.after env ms tick op).out).flatten := rfl
  have hkept : e.accepted <+: (e.call env ms tick op).accepted ∧ e.delivered <+: (e.call env ms tick op).delivered ∧
      (e.posted → (e.call env ms tick op).posted) ∧ (e.eof → (e.call env ms tick op).eof) := by
    refine ⟨List.prefix_append _ _, List.prefix_append _ _, fun hp => ?_, fun he => ?_⟩
    · simp [Endpoint.call, hp]
    · simp [Endpoint.call, he]
  obtain ⟨h1, h2, h3, h4⟩ := hkept
  rcases h with hset | hb
  · have hf := forward_run hset (.single (.call env ms tick op ho))
    refine ⟨fun hfin => ?_, fun hr => ?_, h1, h2, h3, h4⟩
    · obtain ⟨h5, -, h6⟩ := hf.finSent hfin
      have h6 : op.accepted env (e.socket.lend ms tick) = [] := h6 _ (List.mem_singleton.2 rfl)
      rw [haccepted, h6, List.append_nil]
      exact ⟨h5, rfl⟩
    · obtain ⟨h5, h6⟩ := hf.readShutdown hr
      have h6 : readsOf (e.after env ms tick op).out = [] := h6 _ (List.mem_singleton.2 rfl)
      rw [hdelivered, h6, List.flatten_nil, List.append_nil]
      exact ⟨h5, rfl⟩
  · have hfin : e.socket.send.finSent = false := congrArg Kernel.finSent hb.kernel
    have hr : e.socket.recv.readShutdown = false := congrArg Kernel.readShutdown hb.kernel
    exact ⟨fun h => absurd h (by simp [hfin]), fun h => absurd h (by simp [hr]), h1, h2, h3, h4⟩

/-- The writer's side of a step. -/
theorem run_written {e e' : Endpoint} (h : e.Onward e') {p : Pipe UInt8} (hw : p.written = e.accepted)
    (hc : p.closed = e.socket.send.finSent) : ReflTransGen Pipe.Step p
      { p with written := e'.accepted, closed := e'.socket.send.finSent } := by
  obtain ⟨l, hl⟩ := h.accepted
  rw [← hl, ← hw]
  refine Pipe.run_writer l (fun hp => ?_) fun hp => ?_
  · rw [hc] at hp
    have := (h.finSent hp).2
    rw [← hl] at this
    simpa using this
  · rw [hc] at hp
    exact (h.finSent hp).1

/-- The reader's side of a step. -/
theorem run_read {e e' : Endpoint} (h : e.Onward e') {p : Pipe UInt8} (hp : p.Sound) (hr : p.read = e.delivered)
    (hd : p.deaf = e.socket.recv.readShutdown) (he : p.ended = e.eof)
    (hq : ({ p with read := e'.delivered, deaf := e'.socket.recv.readShutdown, ended := e'.eof } : Pipe UInt8).Sound)
    (hend : e.eof = false → e'.eof → e'.socket.recv.readShutdown = false) : ReflTransGen Pipe.Step p
      { p with read := e'.delivered, deaf := e'.socket.recv.readShutdown, ended := e'.eof } := by
  obtain ⟨l, hl⟩ := h.delivered
  rw [← hl, ← hr] at hq ⊢
  refine Pipe.run_reader l (fun h' => ?_) (fun h' => ?_) ?_ hq.integrity fun h' h'' => ?_
  · rw [hd] at h'
    exact (h.readShutdown h').1
  · rw [he] at h'
    exact h.eof h'
  · rintro (h' | h')
    · rw [hd] at h'
      have := (h.readShutdown h').2
      rw [← hl] at this
      simpa using this
    · have h1 := (hp.ended h').2
      rw [he] at h'
      have h2 : p.read ++ l = p.written := (hq.ended (h.eof h')).2
      rw [← h1] at h2
      simpa using h2
  · obtain ⟨h1, h2⟩ := hq.ended h''
    rw [he] at h'
    exact ⟨h1, hend h' h'', h2⟩

theorem Network.Reason.enabled {op : Op} (h : n.Reason i op) : op.Enabled (n.ends i).socket := by
  cases h with
  | accept addr hd hs ht hu => exact hu
  | call h => exact h.enabled
  | _ => trivial

/-- A step of the network is a step of each pipe, or of none. -/
theorem refines_step {targetDelay rcvbuf sndbuf : Side → ℕ} (h : n.Reachable targetDelay rcvbuf sndbuf)
    (hs : n.Step n') (i : Side) : ReflTransGen Pipe.Step (n.pipe i) (n'.pipe i) := by
  have hsound := sound_pipe h i
  have hsound' := sound_pipe (h.tail hs) i
  obtain ⟨env, ms, tick, k, op, hr, rfl⟩ := hs.reason
  have hon : (n.ends k).Onward ((n.ends k).call env ms tick op) :=
    Endpoint.onward_call hr.enabled ((phase_reachable h).setUp_or_blank k)
  rcases i.eq_or_eq_other k with rfl | rfl
  · have hpipe : (n.call env ms tick k op).pipe k = { n.pipe k with
        written := ((n.ends k).call env ms tick op).accepted
        closed := ((n.ends k).call env ms tick op).socket.send.finSent } := by
      simp [Network.pipe]
    rw [hpipe]
    exact run_written hon rfl rfl
  · have hself : (n.call env ms tick i.other op).ends i.other.other = n.ends i.other.other := Network.ends_call_other
    rw [Side.other_other] at hself
    have hpipe : (n.call env ms tick i.other op).pipe i = { n.pipe i with
        read := ((n.ends i.other).call env ms tick op).delivered
        deaf := ((n.ends i.other).call env ms tick op).socket.recv.readShutdown
        ended := ((n.ends i.other).call env ms tick op).eof } := by
      simp [Network.pipe, hself]
    rw [hpipe] at hsound' ⊢
    refine run_read hon hsound rfl rfl rfl hsound' fun h1 h2 => ?_
    rcases Endpoint.eof_call h2 with h3 | ⟨-, h3⟩
    · rw [h1] at h3
      cases h3
    · exact h3

/-- Whatever the two sides and the network do, each direction of the pair behaves like a reliable pipe. -/
theorem refines_pipe {targetDelay rcvbuf sndbuf : Side → ℕ} (h : n.Reachable targetDelay rcvbuf sndbuf)
    (hs : ReflTransGen Network.Step n n') (i : Side) : ReflTransGen Pipe.Step (n.pipe i) (n'.pipe i) := by
  induction hs with
  | refl => exact .refl
  | tail hpath hstep ih => exact ih.trans (refines_step (h.trans hpath) hstep i)

theorem refines_pipe_closedPair : (Network.closedPair.pipe .initiator).read = [1, 2, 3] ∧
    (Network.closedPair.pipe .initiator).ended = true ∧
      ReflTransGen Pipe.Step {} (Network.closedPair.pipe .initiator) := by
  have hstart : (Network.start (fun _ => CCONTROL_TARGET) (fun _ => 4096) (fun _ => 4096)).Reachable
      (fun _ => CCONTROL_TARGET) (fun _ => 4096) (fun _ => 4096) := .refl
  exact ⟨by decide +kernel, by decide +kernel, refines_pipe hstart Network.reachable_closedPair .initiator⟩

/-! The end of the stream. -/

/-- A side that posts the end reports it to its reader, or the reader has turned away. -/
theorem Endpoint.Onward.reported {e : Endpoint} {env : Env} {ms : UInt64} {tick : ℕ} {op : Op}
    (h : e.Onward (e.call env ms tick op)) (hi : e.posted → e.eof ∨ e.socket.recv.readShutdown)
    (hp : (e.call env ms tick op).posted) :
    (e.call env ms tick op).eof ∨ (e.call env ms tick op).socket.recv.readShutdown := by
  rcases Endpoint.posted_call hp with hp | hp
  · exact (hi hp).imp h.eof fun hr => (h.readShutdown hr).1
  · have he : (e.call env ms tick op).eof = (e.eof || !(e.call env ms tick op).socket.recv.readShutdown) := by
      show (e.eof || (decide (Effect.onStateChange .eof ∈ (e.after env ms tick op).out) &&
        !(e.after env ms tick op).recv.readShutdown)) = _
      rw [decide_eq_true hp, Bool.true_and]
      rfl
    rw [he]
    cases (e.call env ms tick op).socket.recv.readShutdown <;> simp

theorem reported_reachable {targetDelay rcvbuf sndbuf : Side → ℕ} (h : n.Reachable targetDelay rcvbuf sndbuf)
    (i : Side) (hp : (n.ends i).posted) : (n.ends i).eof ∨ (n.ends i).socket.recv.readShutdown := by
  induction h with
  | refl => cases hp
  | tail hpath hs ih =>
    obtain ⟨env, ms, tick, k, op, hr, rfl⟩ := hs.reason
    rcases k.eq_or_eq_other i with rfl | rfl
    · rw [Network.ends_call_self] at hp ⊢
      exact (Endpoint.onward_call hr.enabled ((phase_reachable hpath).setUp_or_blank i)).reported ih hp
    · rw [Network.ends_call_other] at hp ⊢
      exact ih hp

/-- The peer of a side that has posted the end has queued its FIN. -/
theorem finSent_posted {targetDelay rcvbuf sndbuf : Side → ℕ} (h : n.Reachable targetDelay rcvbuf sndbuf)
    (hp : (n.ends i).posted) : (n.ends i.other).socket.send.finSent = true := by
  rcases (phase_reachable h).silent_or_linked with hs | ⟨g, R, base, hl⟩
  · rw [(hs i).posted] at hp
    cases hp
  · exact hl.finSent (hl.posted i hp)

theorem final_step {targetDelay rcvbuf sndbuf : Side → ℕ} (h : n.Reachable targetDelay rcvbuf sndbuf)
    (hs : n.Step n') (hp : (n.ends i).posted) :
    (n'.ends i).posted ∧ (n'.ends i.other).accepted = (n.ends i.other).accepted ∧
      (n'.ends i).delivered = (n.ends i).delivered := by
  have hpipe := refines_step h hs i.other
  obtain ⟨env, ms, tick, k, op, hr, rfl⟩ := hs.reason
  have hon : (n.ends k).Onward ((n.ends k).call env ms tick op) :=
    Endpoint.onward_call hr.enabled ((phase_reachable h).setUp_or_blank k)
  rcases k.eq_or_eq_other i with rfl | rfl
  · rw [Network.ends_call_self, Network.ends_call_other]
    refine ⟨hon.posted hp, rfl, ?_⟩
    rcases reported_reachable h i hp with he | hdeaf
    · -- nothing passes the end of the pipe
      have hended : (n.pipe i.other).ended := by
        unfold Network.pipe
        rw [Side.other_other]
        exact he
      have hfinal := (Pipe.final_run (sound_pipe h i.other) hended hpipe).2.2
      unfold Network.pipe at hfinal
      rw [Side.other_other, Network.ends_call_self] at hfinal
      exact hfinal
    · exact (hon.readShutdown hdeaf).2
  · rw [Network.ends_call_other, Side.other_other, Network.ends_call_self]
    refine ⟨hp, ?_, rfl⟩
    have hfin := finSent_posted h hp
    rw [Side.other_other] at hfin
    exact (hon.finSent hfin).2

/-- Once a side has posted the end of the stream nothing changes any more: whatever the two sides and the
network do, its peer takes no further byte and it hands none over. -/
theorem eof_final {targetDelay rcvbuf sndbuf : Side → ℕ} (h : n.Reachable targetDelay rcvbuf sndbuf)
    (hs : ReflTransGen Network.Step n n') (hp : (n.ends i).posted) :
    (n'.ends i).posted ∧ (n'.ends i.other).accepted = (n.ends i.other).accepted ∧
      (n'.ends i).delivered = (n.ends i).delivered := by
  induction hs with
  | refl => exact ⟨hp, rfl, rfl⟩
  | tail hpath hstep ih =>
    obtain ⟨h1, h2, h3⟩ := ih
    obtain ⟨h4, h5, h6⟩ := final_step (h.trans hpath) hstep h1
    exact ⟨h4, h5.trans h2, h6.trans h3⟩

/-- The acceptor has shut down reading when the FIN comes, and the initiator tries to write on. -/
def deafPair : Network := Network.ackedPair.still .acceptor (.shutdown .rd)

def deafClosingPair : Network := deafPair.still .initiator (.shutdown .wr)

def deafClosedPair : Network := deafClosingPair.still .acceptor (.processIncoming (deafClosingPair.bytesAt 4))

def deafWrittenPair : Network := deafClosedPair.still .initiator (.writev [[9]])

theorem reachable_deafClosedPair :
    deafClosedPair.Reachable (fun _ => CCONTROL_TARGET) (fun _ => 4096) (fun _ => 4096) := by
  have h₁ : deafPair.Reachable (fun _ => CCONTROL_TARGET) (fun _ => 4096) (fun _ => 4096) :=
    Network.reachable_ackedPair.tail (.call stillHost 0 0 .acceptor (.shutdown .rd)
      (show (Network.ackedPair.ends .acceptor).socket.conn.state ≠ .uninitialized by decide +kernel))
  have h₂ := h₁.tail (.call stillHost 0 0 .initiator (.shutdown .wr)
    (show (deafPair.ends .initiator).socket.conn.state ≠ .uninitialized by decide +kernel))
  exact h₂.tail (Network.step_deliver stillHost 0 0 (k := 4) (by decide +kernel) (by decide +kernel))

theorem eof_final_deafClosedPair : (deafClosedPair.ends .acceptor).posted = true ∧
    (deafClosedPair.ends .acceptor).eof = false ∧
    (deafClosedPair.ends .initiator).accepted = [1, 2, 3] ∧
      (deafWrittenPair.ends .initiator).accepted = (deafClosedPair.ends .initiator).accepted ∧
        (deafWrittenPair.ends .acceptor).delivered = (deafClosedPair.ends .acceptor).delivered :=
  ⟨by decide +kernel, by decide +kernel, by decide +kernel, (eof_final reachable_deafClosedPair
    (.single (.call stillHost 0 0 .initiator (.writev [[9]]) trivial)) (i := .acceptor) (by decide +kernel)).2⟩

end UtpSocket

end Utp
