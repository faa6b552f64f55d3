import LibUtp.Kernel.States
import LibUtp.Registry.Moves

/-! The end of a socket: no call takes it out of `CS_RESET` and `CS_DESTROY`, but a RST or an ICMP
error takes it from the second to the first. The sweep of the timer frees it. -/

namespace Utp

open Lts Relation

namespace UtpSocket

/-- The call is no message that the connection broke. -/
def Op.Unbroken (op : Op) : Prop := op ≠ .onReset ∧ op ≠ .onIcmpError

theorem Op.Unbroken.takes {op : Op} (h : op.Unbroken) {x : Input} (hx : op.Takes x) : x ≠ .broken := by
  rintro rfl
  cases op with
  | onReset => exact h.1 rfl
  | onIcmpError => exact h.2 rfl
  | _ => cases hx

/-- A connection that is over stays over. -/
theorem dead_run (env : Env) {op : Op} {s : UtpSocket} (hd : s.kernel.Dead) (ho : op.Enabled s)
    (ms : UInt64) (tick : ℕ) : (op.run env (s.lend ms tick)).kernel.Dead ∧
      (op.run env (s.lend ms tick)).send.closeRequested = s.send.closeRequested ∧
      (s.conn.state = .destroy → op.Unbroken → (op.run env (s.lend ms tick)).conn.state = .destroy) := by
  obtain ⟨acts, ht, -⟩ := trace_run env ho ms tick
  refine ht.invariant (I := fun k => k.Dead ∧ k.closeRequested = s.send.closeRequested ∧
    (s.conn.state = .destroy → op.Unbroken → k.state = .destroy)) ?_ ⟨hd, rfl, fun h _ => h⟩
  rintro k l k' ⟨hk, hc, hst⟩ ⟨x, hx, hm⟩
  obtain ⟨hk', hc', hst'⟩ := Kernel.dead_micro hk hm
  exact ⟨hk', hc'.trans hc, fun h hu => hst' (hst h hu) (hu.takes hx)⟩

theorem Dead.set {s : UtpSocket} (h : s.kernel.Dead) : s.conn.state ≠ .uninitialized :=
  h.ne (by simp) (by simp)

/-- A message that the connection broke overwrites the state, if the socket is not idle. -/
theorem broken_run (env : Env) {op : Op} {s : UtpSocket} (hop : op = .onReset ∨ op = .onIcmpError)
    (hi : s.conn.state ≠ .idle) : (op.run env s).conn.state = s.brokenState := by
  rcases hop with rfl | rfl
  · rfl
  · simp only [Op.run]
    unfold onIcmpError
    rw [if_neg hi]
    rfl

/-- A close in any state but the connected ones is the end, and requests nothing. -/
theorem close_destroy (env : Env) {s : UtpSocket} (h : ¬ s.kernel.IsOpen) :
    (s.close env).conn.state = .destroy ∧ (s.close env).send.closeRequested = s.send.closeRequested := by
  have hassert (c : Prop) [Decidable c] (a : Assertion) : (s.assert c a).kernel = s.kernel := by
    unfold UtpSocket.assert
    split <;> rfl
  have hassert := hassert (s.conn.state ≠ .uninitialized ∧ s.conn.state ≠ .destroy) .closeState
  unfold close
  dsimp only
  generalize s.assert (s.conn.state ≠ .uninitialized ∧ s.conn.state ≠ .destroy) .closeState = t at hassert
  have hst : t.conn.state = s.conn.state := congrArg Kernel.state hassert
  have hc : t.send.closeRequested = s.send.closeRequested := congrArg Kernel.closeRequested hassert
  rw [hst]
  split
  · rename_i hst
    exact absurd (.inl hst) h
  · rename_i hst
    exact absurd (.inr hst) h
  · exact ⟨rfl, hc⟩
  · exact ⟨rfl, hc⟩

end UtpSocket

namespace UtpContext

variable {c d : UtpContext} {x : Handle} {s : UtpSocket}

/-- A RST is handed to socket `x`. -/
def Op.Resets (c : UtpContext) (x : Handle) : Op → Prop
  | .processUdp b addr => wellFormed b = true ∧ (PacketFormatV1.ofBytes b).type = ST_RESET ∧
    c.findSocketForId addr (PacketFormatV1.ofBytes b).connid.toUInt32 = some x
  | _ => False

/-- An ICMP error is handed to socket `x`. -/
def Op.IcmpErrs (c : UtpContext) (x : Handle) : Op → Prop
  | .processIcmpError b addr => c.icmpSocket b addr = some x
  | _ => False

/-- A message that the connection broke is handed to socket `x`. -/
def Op.Breaks (c : UtpContext) (x : Handle) (op : Op) : Prop := op.Resets c x ∨ op.IcmpErrs c x

theorem Op.Resets.run {op : Op} (h : op.Resets c x) {env : Env} (hr : op.run env c = some d) :
    d = c.call x UtpSocket.onReset := by
  cases op with
  | processUdp b addr =>
    cases hr
    obtain ⟨hwf, hrst, hf⟩ := h
    unfold UtpContext.processUdp
    dsimp only
    rw [if_neg (by rw [hwf]; simp), if_pos hrst, hf]
  | _ => cases h

theorem Op.IcmpErrs.run {op : Op} (h : op.IcmpErrs c x) {env : Env} (hr : op.run env c = some d) :
    d = c.call x UtpSocket.onIcmpError := by
  cases op with
  | processIcmpError b addr =>
    cases hr
    have h : c.icmpSocket b addr = some x := h
    unfold UtpContext.processIcmpError
    rw [h]
  | _ => cases h

theorem Op.Breaks.registered {op : Op} (h : op.Breaks c x) : c.Registered x := by
  rcases h with h | h
  · cases op with
    | processUdp b addr => exact registered_findSocketForId h.2.2
    | _ => cases h
  · cases op with
    | processIcmpError b addr =>
      have h : c.icmpSocket b addr = some x := h
      unfold icmpSocket at h
      split at h
      · exact registered_findSocketForId h
      · cases h
    | _ => cases h

/-- The message overwrites the state. -/
theorem Op.Breaks.state {op : Op} (hb : op.Breaks c x) (hs : c.heap x = some s)
    (hi : s.conn.state ≠ .idle) {env : Env} (hr : op.run env c = some d) :
    ∃ t, d.heap x = some t ∧ t.conn.state = s.brokenState := by
  have hcall {op : UtpSocket.Op} (hop : op = .onReset ∨ op = .onIcmpError)
      (he : d = c.call x fun s => op.run env s) : ∃ t, d.heap x = some t ∧ t.conn.state = s.brokenState := by
    obtain ⟨i, ht⟩ := (frame_call hs fun s => op.run env s).some (x := x) (by rw [heap_absorb, if_pos rfl])
    rw [he]
    exact ⟨_, ht, UtpSocket.broken_run env (s := s.lend c.currentMs c.tick) hop hi⟩
  rcases hb with hb | hb
  · exact hcall (.inl rfl) (hb.run hr)
  · exact hcall (.inr rfl) (hb.run hr)

/-- Every other call is no such message. -/
theorem moves_unbroken (hc : c.Consistent) (env : Env) {op : Op} (ho : op.Enabled c)
    (hr : op.run env c = some d) (h : ∀ x, ¬ op.Breaks c x) :
    ReflTransGen (Move fun _ op => op.Unbroken) c d := by
  have hmono {P : Handle → UtpSocket.Op → Prop} (hP : ∀ x op, P x op → op.Unbroken)
      (hm : ReflTransGen (Move P) c d) : ReflTransGen (Move fun _ op => op.Unbroken) c d :=
    ReflTransGen.mono (fun _ _ hm => hm.mono hP) _ _ hm
  have hmoves := moves_run hc env ho hr
  cases op with
  | setOption | createSocket =>
    refine hmono (fun x op h => ?_) hmoves
    cases h
  | connect h addr fuel =>
    refine hmono ?_ hmoves
    rintro x op ⟨-, addr, seed, rfl⟩
    exact ⟨by simp, by simp⟩
  | socket h op =>
    refine hmono ?_ hmoves
    rintro x op' ⟨-, rfl⟩
    have hapi := ho.1
    constructor <;> rintro rfl <;> cases hapi
  | processUdp b addr =>
    by_cases hrst : (PacketFormatV1.ofBytes b).type = ST_RESET
    · -- the RST finds no socket
      cases hr
      unfold processUdp
      dsimp only
      rw [if_pos hrst]
      split_ifs with hwf
      · exact .refl
      · split
        · rename_i x hf
          exact absurd (.inl ⟨by simpa using hwf, hrst, hf⟩) (h x)
        · exact .refl
    · cases hr
      refine hmono ?_ (moves_processUdp_of_ne hc env b addr hrst)
      rintro x op ⟨-, rfl⟩
      exact ⟨by simp, by simp⟩
  | processIcmpFragmentation b addr m =>
    refine hmono ?_ hmoves
    rintro x op ⟨-, rfl⟩
    exact ⟨by simp, by simp⟩
  | processIcmpError b addr =>
    refine hmono ?_ hmoves
    rintro x op ⟨hf, -⟩
    exact absurd (.inr hf) (h x)
  | issueDeferredAcks =>
    refine hmono ?_ hmoves
    rintro x op rfl
    exact ⟨by simp, by simp⟩
  | checkTimeouts order =>
    refine hmono ?_ hmoves
    rintro x op rfl
    exact ⟨by simp, by simp⟩

/-- A step is such a message for one socket, or sequence of moves without any. -/
theorem unbroken_or_breaks (hc : c.Consistent) (env : Env) {op : Op} (ho : op.Enabled c)
    (hr : op.run env c = some d) : ReflTransGen (Move fun _ op => op.Unbroken) c d ∨
      ∃ x, op.Breaks c x ∧
        Move (fun y op' => y = x ∧ (op' = UtpSocket.Op.onReset ∨ op' = UtpSocket.Op.onIcmpError)) c d := by
  by_cases h : ∀ x, ¬ op.Breaks c x
  · exact .inl (moves_unbroken hc env ho hr h)
  · obtain ⟨x, hx⟩ := not_forall_not.1 h
    refine .inr ⟨x, hx, ?_⟩
    have hreg := hx.registered
    rcases hx with hx | hx
    · rw [hx.run hr]
      exact hc.move_call hreg env .onReset ⟨rfl, .inl rfl⟩ fun _ => trivial
    · rw [hx.run hr]
      exact hc.move_call hreg env .onIcmpError ⟨rfl, .inr rfl⟩ fun _ => trivial

/-! The end of a connection. -/

/-- What holds of a socket and every move of a step keeps. -/
theorem Meets.moves {P : Handle → UtpSocket.Op → Prop} {I : UtpSocket → Prop}
    (hset : ∀ s, I s → s.conn.state ≠ .uninitialized) (hida : ∀ s i, I s → I { s with ida := i })
    (hop : ∀ env op s ms tick, I s → P x op → op.Enabled s → I (op.run env (s.lend ms tick)))
    (hc : c.Consistent) (h : c.Meets x I) (hm : ReflTransGen (Move P) c d) :
    d.Consistent ∧ d.Meets x I := by
  induction hm with
  | refl => exact ⟨hc, h⟩
  | tail _ hm ih =>
    exact ⟨ih.1.move hm, ih.2.move ih.1 hset hida (fun env op s _ hI => hop env op s _ _ hI) hm⟩

def Dead (s : UtpSocket) : Prop := s.conn.state = .reset ∨ s.conn.state = .destroy

/-- A socket that is over stays over, whatever happens. -/
theorem dead_steps (hc : c.Consistent) (h : c.Meets x Dead)
    (hd : ReflTransGen (Step fun _ _ => True) c d) : d.Consistent ∧ d.Meets x Dead := by
  induction hd with
  | refl => exact ⟨hc, h⟩
  | tail _ hs ih =>
    exact Meets.moves (fun s hs => UtpSocket.Dead.set hs) (fun s i hs => hs)
      (fun env op s ms tick hs _ ho => (UtpSocket.dead_run env hs ho ms tick).1) ih.1 ih.2 (hs.moves ih.1)

def Destroyed (s : UtpSocket) : Prop := s.conn.state = .destroy

theorem destroyed_moves (hc : c.Consistent) (h : c.Meets x Destroyed)
    (hm : ReflTransGen (Move fun _ op => op.Unbroken) c d) : d.Consistent ∧ d.Meets x Destroyed :=
  Meets.moves (fun _ hs => UtpSocket.Dead.set (.inr hs)) (fun _ _ hs => hs)
    (fun env _ _ ms tick hs hu ho => (UtpSocket.dead_run env (.inr hs) ho ms tick).2.2 hs hu) hc h hm

/-- No message that the connection broke reaches a socket that was destroyed without a request to
close it. -/
def Op.Spares (c : UtpContext) (op : Op) : Prop :=
  ∀ x s, op.Breaks c x → c.heap x = some s → Destroyed s → s.send.closeRequested = true

theorem destroyed_step (hc : c.Consistent) (h : c.Meets x Destroyed) (hs : Step Op.Spares c d) :
    d.Consistent ∧ d.Meets x Destroyed := by
  cases hs with
  | call env op ho hQ hr =>
    rcases unbroken_or_breaks hc env ho hr with hm | ⟨y, hy, hm⟩
    · exact destroyed_moves hc h hm
    · refine ⟨hc.move hm, h.move hc (fun _ hs => UtpSocket.Dead.set (.inr hs)) (fun _ _ hs => hs) ?_ hm⟩
      rintro env op s hs hd ⟨rfl, hop⟩ -
      have hst : s.conn.state = .destroy := hd
      have hrun := UtpSocket.broken_run env (s := s.lend c.currentMs c.tick) hop
        (show s.conn.state ≠ .idle by rw [hst]; simp)
      exact hrun.trans (if_pos (hQ x s hy hs hd))

/-! The sweep. -/

/-- The socket is gone for good. -/
def Gone (c : UtpContext) (x : Handle) : Prop := x < c.nextHandle ∧ c.heap x = none

theorem Gone.ne_some (h : c.Gone x) : c.heap x ≠ some s := by
  rw [h.2]
  exact (Option.some_ne_none s).symm

theorem gone_iff_meets : c.Gone x ↔ c.Meets x fun _ => False := by
  unfold Gone Meets
  rw [Option.eq_none_iff_forall_ne_some]

theorem Gone.moves {P : Handle → UtpSocket.Op → Prop} (hc : c.Consistent) (h : c.Gone x)
    (hm : ReflTransGen (Move P) c d) : d.Gone x :=
  gone_iff_meets.2 (Meets.moves (fun _ hs => hs.elim) (fun _ _ hs => hs)
    (fun _ _ _ _ _ hs => hs.elim) hc (gone_iff_meets.1 h) hm).2

/-- The turn of a destroyed socket frees it. -/
theorem gone_checkSocket (hc : c.Consistent) (env : Env) (hr : c.Registered x) (h : c.Meets x Destroyed) :
    (c.checkSocket env x).Gone x := by
  have hm : Move (fun _ op => op.Unbroken) c (c.call x (UtpSocket.checkTimeouts env)) :=
    hc.move_call hr env .checkTimeouts ⟨by simp, by simp⟩ fun _ => trivial
  have hreg := (registered_call c x (UtpSocket.checkTimeouts env) x).2 hr
  obtain ⟨hd, hx, hst⟩ := destroyed_moves hc h (.single hm)
  unfold checkSocket
  dsimp only
  generalize c.call x (UtpSocket.checkTimeouts env) = d at hreg hd hx hst
  obtain ⟨s, hs, hu⟩ := hd.alive hreg
  have hst : s.conn.state = .destroy := hst s hs
  rw [hs]
  dsimp only
  rw [if_pos hst]
  refine ⟨?_, (hd.destroy hs hu).2.1.heap⟩
  rw [next_destroySocket]
  exact hx

theorem gone_sweep (hc : c.Consistent) (env : Env) {l : List Handle} (hnd : l.Nodup)
    (hr : ∀ h ∈ l, c.Registered h) (hx : x ∈ l) (h : c.Meets x Destroyed) :
    (l.foldl (checkSocket env) c).Gone x := by
  have hP : ∀ y : Handle, UtpSocket.Op.checkTimeouts.Unbroken := fun _ => ⟨by simp, by simp⟩
  induction l generalizing c with
  | nil => cases hx
  | cons y l ih =>
    rw [List.nodup_cons] at hnd
    obtain ⟨hm, hreg⟩ := moves_checkSocket (P := fun _ op => op.Unbroken) hc env hP
      (hr y List.mem_cons_self)
    have hr' : ∀ z ∈ l, (c.checkSocket env y).Registered z := by
      intro z hz
      refine hreg z ?_ (hr z (List.mem_cons_of_mem _ hz))
      rintro rfl
      exact hnd.1 hz
    rw [List.foldl_cons]
    by_cases hxy : x = y
    · subst hxy
      have hgone := gone_checkSocket hc env (hr x List.mem_cons_self) h
      exact hgone.moves (hc.moves hm) (moves_sweep (P := fun _ op => op.Unbroken) (hc.moves hm) env hP hnd.2 hr').1
    · exact ih (hc.moves hm) hnd.2 hr' ((List.mem_cons.1 hx).resolve_left hxy) (destroyed_moves hc h hm).2

/-- The next sweep of the timer that the interval lets through frees the socket. -/
def Frees (c : UtpContext) (x : Handle) : Prop :=
  ∀ env order, order.Perm (c.sockets.map Prod.snd) →
    ¬ env.milliseconds c.tick - c.lastCheck < TIMEOUT_CHECK_INTERVAL →
      (c.checkTimeouts env order).heap x = none ∧ ¬ (c.checkTimeouts env order).Registered x

theorem Meets.frees (hc : c.Consistent) (h : c.Meets x Destroyed) : c.Frees x := by
  intro env order ho hguard
  have hd := hc.moves (moves_checkTimeouts hc env ho)
  suffices (c.checkTimeouts env order).heap x = none by
    refine ⟨this, fun hr => ?_⟩
    obtain ⟨s, hs, -⟩ := hd.alive hr
    rw [this] at hs
    cases hs
  unfold checkTimeouts
  dsimp only
  rw [if_neg hguard]
  have hh : HostOnly c { c with
      currentMs := env.milliseconds c.tick
      tick := c.tick + 1
      lastCheck := env.milliseconds c.tick
      rstInfo := purgeRst (env.milliseconds c.tick) c.rstInfo.length 0 c.rstInfo } :=
    ⟨rfl, [], (List.append_nil _).symm, by simp⟩
  by_cases hx : x ∈ order
  · exact (gone_sweep (hc.host hh) env (ho.nodup_iff.2 hc.nodup_handles)
      (fun y hy => ho.mem_iff.1 hy) hx h).2
  · -- a socket that is not registered is gone already
    have hgone : c.Gone x := by
      refine ⟨h.1, Option.eq_none_iff_forall_ne_some.2 fun s hs => hx (ho.mem_iff.2 ?_)⟩
      exact hc.registered_iff.2 ⟨s, hs, UtpSocket.Dead.set (.inr (h.2 s hs))⟩
    exact (Gone.moves (P := fun _ op => op.Unbroken) (hc.host hh) hgone
      (moves_sweep (hc.host hh) env (fun _ => ⟨by simp, by simp⟩) (ho.nodup_iff.2 hc.nodup_handles)
        fun y hy => ho.mem_iff.1 hy).1).2

theorem destroyed_steps (hc : c.Consistent) (h : c.Meets x Destroyed)
    (hd : ReflTransGen (Step Op.Spares) c d) : d.Consistent ∧ d.Meets x Destroyed := by
  induction hd with
  | refl => exact ⟨hc, h⟩
  | tail _ hs ih => exact destroyed_step ih.1 ih.2 hs

theorem meets_of_heap (hc : c.Consistent) {I : UtpSocket → Prop} (hs : c.heap x = some s) (h : I s) :
    c.Meets x I := by
  refine ⟨hc.lt_next hs, fun t ht => ?_⟩
  rw [hs] at ht
  cases ht
  exact h

/-- In every run that spares the sockets destroyed without a request to close them: a socket in
`CS_DESTROY` stays there until the next sweep frees it, and so does one that is closed before or after
it is connected. From `CS_RESET` no run leads elsewhere. A message that the run does not spare the
socket takes it back to `CS_RESET`. -/
theorem destroy_absorbing (h : c.Reachable) (hs : c.heap x = some s) :
    (Destroyed s → ∀ d, ReflTransGen (Step Op.Spares) c d → d.Meets x Destroyed ∧ d.Frees x) ∧
    (s.conn.state = .reset → ∀ d, ReflTransGen (Step fun _ _ => True) c d → d.Meets x Dead) ∧
    (s.conn.state ≠ .uninitialized → ¬ s.kernel.IsOpen → ∀ env d,
      ReflTransGen (Step Op.Spares) (c.call x (UtpSocket.close env)) d → d.Meets x Destroyed ∧ d.Frees x) ∧
    (Destroyed s → s.send.closeRequested = false → ∀ (op : Op) (env : Env) (d : UtpContext), op.Breaks c x →
      op.run env c = some d → ∃ t, d.heap x = some t ∧ t.conn.state = .reset) := by
  have hc := h.moves.1
  refine ⟨fun hst d hd => ?_, fun hst d hd => (dead_steps hc (meets_of_heap hc hs (.inl hst)) hd).2,
    fun hu ho env d hd => ?_, fun hst hr op env d hb hrun => ?_⟩
  · obtain ⟨hdc, hm⟩ := destroyed_steps hc (meets_of_heap hc hs hst) hd
    exact ⟨hm, hm.frees hdc⟩
  · have hm : Move (fun _ _ => True) c (c.call x (UtpSocket.close env)) :=
      .call env .close hs trivial trivial fun h => absurd h hu
    obtain ⟨i, hi⟩ := (frame_call hs (UtpSocket.close env)).some (x := x) (by rw [heap_absorb, if_pos rfl])
    have hst := (UtpSocket.close_destroy env (s := s.lend c.currentMs c.tick) ho).1
    obtain ⟨hdc, hm⟩ := destroyed_steps (hc.move hm) (meets_of_heap (hc.move hm) hi hst) hd
    exact ⟨hm, hm.frees hdc⟩
  · have hst : s.conn.state = .destroy := hst
    obtain ⟨t, ht, he⟩ := hb.state hs (by rw [hst]; simp) hrun
    exact ⟨t, ht, he.trans (if_neg (by rw [hr]; simp))⟩

/-- The dialling socket, closed. -/
def hungUp : UtpContext := dialling.call 0 (UtpSocket.close UtpSocket.stillHost)

theorem reachable_hungUp : hungUp.Reachable := reachable_dialling.tail
  (.call UtpSocket.stillHost (.socket 0 .close) ⟨trivial, fun s hs hu => by
    cases hs
    exact absurd hu (by decide +kernel)⟩ trivial rfl)

/-- The answer to the SYN comes too late. -/
def lateAnswer : UtpContext := hungUp.processUdp UtpSocket.stillHost (packetTo 0 ST_STATE 100 0 []) ⟨0, 0⟩

def lateFreed : UtpContext := lateAnswer.checkTimeouts (hostAt 1000) [0]

theorem step_lateAnswer : Step Op.Spares hungUp lateAnswer := by
  refine .call UtpSocket.stillHost (.processUdp (packetTo 0 ST_STATE 100 0 []) ⟨0, 0⟩) trivial ?_ rfl
  rintro x s (⟨-, hrst, -⟩ | h) _ _
  · exact absurd hrst (by decide +kernel)
  · exact absurd h id

theorem step_lateFreed : Step Op.Spares lateAnswer lateFreed := by
  refine .call (hostAt 1000) (.checkTimeouts [0]) ?_ ?_ rfl
  · show List.Perm _ _
    decide +kernel
  · rintro x s (h | h)
    · exact absurd h id
    · exact absurd h id

/-- A datagram leaves the closed socket in `CS_DESTROY`, and the sweep frees it. -/
theorem destroy_absorbing_hungUp :
    ((lateAnswer.heap 0).isSome ∧ lateAnswer.Meets 0 Destroyed ∧ lateAnswer.Frees 0) ∧
      lateFreed.Meets 0 Destroyed ∧ lateFreed.heap 0 = none := by
  have hclose := (destroy_absorbing reachable_dialling (x := 0) rfl).2.2.1 (by decide +kernel)
    (by unfold Kernel.IsOpen; decide +kernel) UtpSocket.stillHost
  have hlate := hclose lateAnswer (.single step_lateAnswer)
  have hswept := hclose lateFreed (.head step_lateAnswer (.single step_lateFreed))
  have hperm : [0].Perm (lateAnswer.sockets.map Prod.snd) := by decide +kernel
  have hsome : (lateAnswer.heap 0).isSome := by decide +kernel
  exact ⟨⟨hsome, hlate⟩, hswept.1, (hlate.2 (hostAt 1000) [0] hperm (by decide +kernel)).1⟩

/-- A RST for the connection of the dialling socket. -/
def rstPacket : Bytes := (UtpSocket.freshHdr ST_RESET).toBytes

theorem not_destroy_absorbing : ¬ ∀ (c : UtpContext) (x : Handle) (s : UtpSocket), c.Reachable →
    c.heap x = some s → s.conn.state = .destroy → ∀ d, ReflTransGen (Step fun _ _ => True) c d →
      d.Meets x (fun t => t.conn.state = .destroy) ∧ d.Frees x := by
  intro h
  have hend := (h hungUp 0 _ reachable_hungUp rfl (by decide +kernel) _
    (.single (.call UtpSocket.stillHost (.processUdp rstPacket ⟨0, 0⟩) trivial trivial rfl))).1.2 _ rfl
  exact absurd hend (by decide +kernel)

end UtpContext

end Utp
