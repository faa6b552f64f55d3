import LibUtp.Kernel.States
import Mathlib.Data.UInt

/-! A peer that has vanished: only the timer still calls the socket. Every expiration of the
retransmission timer is counted, so the connection is given up after a few of them. The timer
is armed whenever something is in the window, as long as no deadline wraps to 0, the mark of a
timer that is not armed. -/

namespace Utp

open Lts

namespace UtpSocket

variable (env : Env)

/-! The clock. -/

theorem currentMs_assert (c : Prop) [Decidable c] (a : Assertion) (s : UtpSocket) :
    (s.assert c a).currentMs = s.currentMs := by
  unfold assert
  split <;> rfl

theorem currentMs_setMtu (m : MtuDiscovery) (s : UtpSocket) : (s.setMtu m).currentMs = s.currentMs := rfl

theorem currentMs_rediscover (ms : UInt64) (s : UtpSocket) :
    (s.rediscover env ms).currentMs = s.currentMs := by
  unfold rediscover mtuReset
  split
  · dsimp only
    rw [currentMs_setMtu, currentMs_assert]
    rfl
  · rfl

theorem currentMs_startProbe (length : ℕ) (s : UtpSocket) :
    (s.startProbe length).currentMs = s.currentMs := by
  unfold startProbe
  dsimp only
  rw [currentMs_assert, currentMs_assert, currentMs_setMtu]

theorem currentMs_sendPacket (i : ℤ) (s : UtpSocket) : (s.sendPacket env i).currentMs = s.currentMs := by
  unfold sendPacket
  split
  · rfl
  · rename_i p hp
    dsimp only
    have h : ((s.asked.countPacket p).asked.rediscover env (env.milliseconds s.tick)).currentMs =
        s.currentMs := by
      rw [currentMs_rediscover]
      unfold countPacket
      split <;> rfl
    generalize (s.asked.countPacket p).asked.rediscover env (env.milliseconds s.tick) = u at h ⊢
    rw [← h]
    split
    · exact currentMs_startProbe _ u
    · rfl

theorem currentMs_isFull (bytes : ℤ) (s : UtpSocket) : (s.isFull bytes).2.currentMs = s.currentMs := by
  unfold isFull
  split <;> rfl

theorem currentMs_moveCursor (inPrefix : Bool) (i : UInt16) (s : UtpSocket) :
    (s.moveCursor inPrefix i).currentMs = s.currentMs := by
  unfold moveCursor
  split <;> rfl

theorem currentMs_flushLoop (packetSize n : ℕ) (i : UInt16) (inPrefix : Bool) (s : UtpSocket) :
    (s.flushLoop env packetSize n i inPrefix).2.currentMs = s.currentMs := by
  induction n generalizing i inPrefix s with
  | zero => rfl
  | succ n ih =>
    unfold flushLoop
    split
    · rw [ih, currentMs_moveCursor]
    · have h := currentMs_isFull (-1) s
      generalize s.isFull (-1) = w at h ⊢
      dsimp only
      split_ifs
      · exact h
      · rw [ih, currentMs_moveCursor, currentMs_sendPacket, h]
      · rw [ih, h]

theorem currentMs_flushPackets (s : UtpSocket) : (s.flushPackets env).2.currentMs = s.currentMs :=
  currentMs_flushLoop env _ _ _ _ s

/-! One call of the timer. -/

/-- The part of `check_timeouts` that runs in every state. -/
def beginTimeouts (s : UtpSocket) : UtpSocket :=
  let s := s.checkInvariant.assert s.headPresent .timeoutHead
  if s.conn.state ≠ .destroy then (s.flushPackets env).2 else s

/-- The rest of an active connection's turn once the expired timer was handled. -/
def endTimeouts (r : Bool × UtpSocket) : UtpSocket :=
  if r.1 then r.2 else r.2.becomeWritable.keepAlive env

theorem checkTimeouts_eq (s : UtpSocket) : s.checkTimeouts env =
    if timeoutActive (s.beginTimeouts env).conn.state then
      endTimeouts env
        (if (s.beginTimeouts env).reopenWindow.cc.isRtoExpired (s.beginTimeouts env).reopenWindow.currentMs then
          (s.beginTimeouts env).reopenWindow.rtoExpired env
        else (false, (s.beginTimeouts env).reopenWindow))
    else s.beginTimeouts env := rfl

theorem beside_beginTimeouts {r f : Bool} (s : UtpSocket) :
    Beside env r f true s (s.beginTimeouts env) := by
  unfold beginTimeouts
  have h : Beside env r f true s (s.checkInvariant.assert s.headPresent .timeoutHead) :=
    (beside_checkInvariant env s).trans (beside_assert env _ _ rfl)
  dsimp only
  generalize s.checkInvariant.assert s.headPresent .timeoutHead = t at h ⊢
  exact h.trans (.ite (fun _ => beside_flushPackets env t) (fun _ => .refl t))

theorem currentMs_checkInvariant (s : UtpSocket) : s.checkInvariant.currentMs = s.currentMs := by
  unfold checkInvariant
  exact (currentMs_assert _ _ _).trans (currentMs_assert _ _ s)

theorem currentMs_beginTimeouts (s : UtpSocket) : (s.beginTimeouts env).currentMs = s.currentMs := by
  unfold beginTimeouts
  have h : (s.checkInvariant.assert s.headPresent .timeoutHead).currentMs = s.currentMs :=
    (currentMs_assert _ _ _).trans (currentMs_checkInvariant s)
  dsimp only
  generalize s.checkInvariant.assert s.headPresent .timeoutHead = t at h ⊢
  split
  · rw [currentMs_flushPackets, h]
  · exact h

theorem runs_beginTimeouts (s : UtpSocket) : Runs .host [] s (s.beginTimeouts env) := by
  unfold beginTimeouts
  have h : Runs .host [] s (s.checkInvariant.assert s.headPresent .timeoutHead) := by
    refine (runs_checkInvariant s).trans_nil (runs_assert _ _ _ fun h => .fail ?_)
    rw [headPresent_kernel, ← kernel_checkInvariant] at h
    exact h
  dsimp only
  generalize s.checkInvariant.assert s.headPresent .timeoutHead = t at h ⊢
  exact h.trans_nil (.ite (fun _ => runs_flushPackets env t) (fun _ => .refl t))

theorem state_beginTimeouts (s : UtpSocket) :
    (s.beginTimeouts env).kernel.state = s.kernel.state := by
  unfold beginTimeouts
  have h : (s.checkInvariant.assert s.headPresent .timeoutHead).kernel = s.kernel := by
    rw [kernel_assert, kernel_checkInvariant]
  dsimp only
  generalize s.checkInvariant.assert s.headPresent .timeoutHead = t at h ⊢
  rw [← h]
  split
  · exact (frame_flushPackets env t).state
  · rfl

/-- Waiting for an answer to the SYN, or connected. -/
def Alive (s : UtpSocket) : Prop := s.kernel.state = .synSent ∨ s.kernel.IsOpen

/-- The expirations after which the next one ends the connection. -/
def retryLimit (s : UtpSocket) : ℕ := if s.kernel.state = .synSent then 2 else 4

theorem Alive.active {s : UtpSocket} (h : s.Alive) : timeoutActive s.kernel.state := by
  rcases h with h | h | h <;> rw [h] <;> rfl

theorem Alive.not_dead {s : UtpSocket} (h : s.Alive) : ¬ s.kernel.Dead := by
  rintro (hd | hd) <;> rcases h with h | h | h <;> rw [hd] at h <;> cases h

theorem Alive.of_state {s t : UtpSocket} (h : s.Alive) (hs : t.kernel.state = s.kernel.state) : t.Alive := by
  unfold Alive Kernel.IsOpen
  rw [hs]
  exact h

theorem state_markLoop (n i : ℕ) (s : UtpSocket) :
    (s.markLoop n i).kernel.state = s.kernel.state := by
  induction n generalizing i s with
  | zero => rfl
  | succ n ih =>
    unfold markLoop
    dsimp only
    split
    · exact ih _ s
    · split
      · exact ih _ s
      · rw [ih]
        unfold removeInFlight assert
        split <;> rfl

theorem state_resendHead (s : UtpSocket) : (s.resendHead env).kernel.state = s.kernel.state := by
  unfold resendHead
  split
  · exact (frame_sendPacket env _ _).state.trans (congrArg Kernel.state (kernel_assert _ _ _))
  · rfl

/-- What an expired timer makes of a connection that is alive. -/
structure Retried (s t : UtpSocket) : Prop where
  state : t.kernel.state = s.kernel.state
  limit : s.cc.retransmitCount.toNat < s.retryLimit
  count : t.cc.retransmitCount = s.cc.retransmitCount + 1

theorem retriesExhausted_iff {s t : UtpSocket} (hs : t.kernel.state = s.kernel.state)
    (hc : t.cc.retransmitCount = s.cc.retransmitCount) :
    t.retriesExhausted = true ↔ s.retryLimit ≤ s.cc.retransmitCount.toNat := by
  have hst : t.conn.state = s.kernel.state := hs
  unfold retriesExhausted retryLimit
  rw [hc, hst]
  have h₄ : (4 ≤ s.cc.retransmitCount) ↔ 4 ≤ s.cc.retransmitCount.toNat := UInt16.le_iff_toNat_le
  have h₂ : (2 ≤ s.cc.retransmitCount) ↔ 2 ≤ s.cc.retransmitCount.toNat := UInt16.le_iff_toNat_le
  simp only [Bool.or_eq_true, Bool.and_eq_true, decide_eq_true_eq, h₄, h₂]
  split
  · rename_i h
    simp only [h, true_and]
    omega
  · rename_i h
    simp only [h, false_and, or_false]

theorem count_backOff (ignoreLoss : Bool) (s : UtpSocket) :
    (s.backOff ignoreLoss).cc.retransmitCount = s.cc.retransmitCount := by
  unfold backOff
  dsimp only
  split
  · rfl
  · exact congrArg Prod.snd (timer_onRtoTimeout _ _ _)

theorem count_resendHead {s : UtpSocket} (h : 0 < s.kernel.cur) :
    (s.resendHead env).cc.retransmitCount = s.cc.retransmitCount + 1 := by
  have h : 0 < s.send.curWindowPackets := h
  unfold resendHead
  rw [if_pos h]
  exact ((beside_assert env _ _ rfl).trans (beside_sendPacket env (r := false) (f := false) _ _)).count rfl

theorem rtoExpired_alive {s : UtpSocket} (ha : s.Alive) (hcur : 0 < s.kernel.cur) :
    (s.rtoExpired env).1 = true ∧ (s.rtoExpired env).2.conn.state = s.brokenState ∧
        errorsOf (s.rtoExpired env).2.out = errorsOf s.out ++ [.onError .timedOut] ∨
      (s.rtoExpired env).1 = false ∧ Retried s (s.rtoExpired env).2 := by
  unfold rtoExpired
  obtain ⟨hk, l, hout, hl⟩ := quiet_probeTimeout s
  have hc := (beside_probeTimeout env (r := false) (f := true) s).count rfl
  generalize s.probeTimeout = p at hk hout hc ⊢
  have hst : p.2.kernel.state = s.kernel.state := congrArg Kernel.state hk
  have hne : p.2.conn.state ≠ .synRecv := by
    intro h
    have h : p.2.kernel.state = .synRecv := h
    rw [hst] at h
    rcases ha with ha | ha | ha <;> rw [ha] at h <;> cases h
  have hex := retriesExhausted_iff hst hc
  dsimp only
  rw [if_neg hne]
  by_cases hr : p.2.retriesExhausted = true
  · rw [if_pos hr]
    have hclose : p.2.send.closeRequested = s.send.closeRequested := congrArg Kernel.closeRequested hk
    refine .inl ⟨rfl, ?_, ?_⟩
    · show (if p.2.send.closeRequested then ConnState.destroy else ConnState.reset) = _
      rw [hclose]
      rfl
    · show errorsOf (p.2.out ++ [.onError .timedOut]) = _
      rw [errorsOf_append, hout, errorsOf_append, errorsOf_quiet hl, List.append_nil]
      rfl
  · rw [if_neg hr]
    have hb : (p.2.backOff p.1).kernel = s.kernel := (quiet_backOff _ _).1.trans hk
    have hm : (p.2.backOff p.1).markWindow.kernel.state = s.kernel.state := by
      unfold markWindow
      exact (state_markLoop _ _ _).trans (congrArg Kernel.state hb)
    have hw : (p.2.backOff p.1).markWindow.kernel.cur = s.kernel.cur := by
      have hu : (p.2.backOff p.1).kernel.state ≠ .uninitialized := by
        rw [hb]
        rcases ha with ha | ha | ha <;> rw [ha] <;> simp
      rw [((runs_markWindow (p.2.backOff p.1)).sameWindow hu).cur, hb]
    have hcount : (p.2.backOff p.1).markWindow.cc.retransmitCount = s.cc.retransmitCount :=
      ((beside_markWindow env (r := false) (f := true) (m := true) _).count rfl).trans
        ((count_backOff _ _).trans hc)
    refine .inr ⟨rfl, (state_resendHead env _).trans hm, by rw [hex] at hr; omega, ?_⟩
    rw [count_resendHead env (by rw [hw]; exact hcur), hcount]

/-- A full window opens, and nothing else about the state changes. -/
theorem alive_becomeWritable {s : UtpSocket} (ha : s.Alive) :
    s.becomeWritable.Alive ∧ (s.becomeWritable.kernel.state = .synSent ↔ s.kernel.state = .synSent) := by
  unfold becomeWritable
  split
  · rename_i hs
    have hs : s.kernel.state = .connectedFull := hs
    have hf := congrArg Kernel.state (quiet_isFull (-1) s).1
    generalize s.isFull (-1) = r at hf ⊢
    dsimp only
    split
    · exact ⟨ha.of_state hf, by rw [hf]⟩
    · refine ⟨.inr (.inl rfl), ?_⟩
      rw [hs]
      constructor <;>
      · intro h
        cases h
  · exact ⟨ha, Iff.rfl⟩

theorem kernel_keepAlive (s : UtpSocket) : (s.keepAlive env).kernel = s.kernel := by
  unfold keepAlive
  split
  · exact kernel_sendKeepAlive env s
  · rfl

/-- The end of the turn of a connection that is alive. -/
theorem endTimeouts_alive {s : UtpSocket} (ha : s.Alive) :
    (endTimeouts env (false, s)).Alive ∧
      ((endTimeouts env (false, s)).kernel.state = .synSent ↔ s.kernel.state = .synSent) ∧
      (endTimeouts env (false, s)).cc.retransmitCount = s.cc.retransmitCount := by
  obtain ⟨hw, hs⟩ := alive_becomeWritable ha
  have hk : (s.becomeWritable.keepAlive env).kernel.state = s.becomeWritable.kernel.state :=
    congrArg Kernel.state (kernel_keepAlive env _)
  refine ⟨hw.of_state hk, ?_, ?_⟩
  · show (s.becomeWritable.keepAlive env).kernel.state = .synSent ↔ _
    rw [hk]
    exact hs
  · exact ((beside_becomeWritable env (r := false) (f := false) (m := false) s).trans
      (beside_keepAlive env _)).count rfl

/-- A turn of the timer after which the connection is still alive: the expiration is counted. -/
structure Persists (s t : UtpSocket) : Prop where
  alive : t.Alive
  syn : t.kernel.state = .synSent ↔ s.kernel.state = .synSent
  quiet : errorsOf t.out = errorsOf s.out
  count : if s.cc.isRtoExpired s.currentMs
    then s.cc.retransmitCount.toNat < s.retryLimit ∧ t.cc.retransmitCount = s.cc.retransmitCount + 1
    else t.cc.retransmitCount = s.cc.retransmitCount

/-- A turn of the timer that gives the connection up. -/
structure GivesUp (s t : UtpSocket) : Prop where
  state : t.conn.state = s.brokenState
  errors : errorsOf t.out = errorsOf s.out ++ [.onError .timedOut]

theorem currentMs_reopenWindow (s : UtpSocket) : s.reopenWindow.currentMs = s.currentMs := by
  unfold reopenWindow
  split <;> rfl

theorem isRtoExpired_congr {c c' : LedbatController} (h : c.rtoTimeout = c'.rtoTimeout) (ms : UInt64) :
    c.isRtoExpired ms = c'.isRtoExpired ms := by
  unfold LedbatController.isRtoExpired
  rw [h]

/-- `v` is `s` when the timer is looked at. -/
structure Flushed (s v : UtpSocket) : Prop where
  runs : Runs .host [] s v
  beside : Beside env false false true s v
  state : v.kernel.state = s.kernel.state
  clock : v.currentMs = s.currentMs

theorem flushed_beginTimeouts (s : UtpSocket) : Flushed env s (s.beginTimeouts env).reopenWindow where
  runs := (runs_beginTimeouts env s).trans_quiet (quiet_reopenWindow _)
  beside := (beside_beginTimeouts env s).trans (beside_reopenWindow env _)
  state := (congrArg Kernel.state (quiet_reopenWindow _).1).trans (state_beginTimeouts env s)
  clock := (currentMs_reopenWindow _).trans (currentMs_beginTimeouts env s)

theorem Flushed.expired {s v : UtpSocket} (h : Flushed env s v) :
    v.cc.isRtoExpired v.currentMs = s.cc.isRtoExpired s.currentMs := by
  rw [h.clock]
  exact isRtoExpired_congr (h.beside.rto rfl) _

/-- The turn of a connection that is alive, from where the timer is looked at. -/
theorem timer_alive {s v : UtpSocket} (h : Flushed env s v) (ha : s.Alive) (hcur : 0 < s.kernel.cur)
    (hwhole : Runs .host [] s
      (endTimeouts env (if v.cc.isRtoExpired v.currentMs then v.rtoExpired env else (false, v)))) :
    GivesUp s (endTimeouts env (if v.cc.isRtoExpired v.currentMs then v.rtoExpired env else (false, v))) ∨
      Persists s
        (endTimeouts env (if v.cc.isRtoExpired v.currentMs then v.rtoExpired env else (false, v))) := by
  have hv : v.Alive := ha.of_state h.state
  have hsame := h.runs.sameWindow (by rcases ha with ha | ha | ha <;> rw [ha] <;> simp)
  have hvcur : 0 < v.kernel.cur := by
    rw [hsame.cur]
    exact hcur
  have hcount : v.cc.retransmitCount = s.cc.retransmitCount := h.beside.count rfl
  have hlimit : v.retryLimit = s.retryLimit := by
    unfold retryLimit
    rw [h.state]
  -- what is left once the timer was handled and the connection is alive
  have hend {w : UtpSocket} (hw : w.kernel.state = s.kernel.state)
      (hq : Runs .host [] s (endTimeouts env (false, w)))
      (hc : if s.cc.isRtoExpired s.currentMs
        then s.cc.retransmitCount.toNat < s.retryLimit ∧ w.cc.retransmitCount = s.cc.retransmitCount + 1
        else w.cc.retransmitCount = s.cc.retransmitCount) :
      Persists s (endTimeouts env (false, w)) := by
    obtain ⟨h₁, h₂, h₃⟩ := endTimeouts_alive env (ha.of_state hw)
    refine ⟨h₁, h₂.trans (by rw [hw]), hq.errors (.inr h₁.not_dead), ?_⟩
    rw [h₃]
    exact hc
  by_cases hx : s.cc.isRtoExpired s.currentMs = true
  · rw [h.expired, if_pos hx] at hwhole ⊢
    rcases rtoExpired_alive env hv hvcur with ⟨hr, hst, he⟩ | ⟨hr, hretry⟩
    · left
      generalize v.rtoExpired env = r at hr hst he ⊢
      have hpair : endTimeouts env r = r.2 := if_pos hr
      rw [hpair]
      refine ⟨hst.trans ?_, ?_⟩
      · unfold brokenState
        rw [show v.send.closeRequested = s.send.closeRequested from hsame.closeRequested]
      · rw [he, h.runs.errors (.inr hv.not_dead)]
    · right
      generalize v.rtoExpired env = r at hr hretry hwhole ⊢
      obtain ⟨b, w⟩ := r
      subst hr
      refine hend (hretry.state.trans h.state) hwhole ?_
      rw [if_pos hx, ← hlimit, ← hcount]
      exact ⟨hretry.limit, hretry.count⟩
  · rw [h.expired, if_neg hx] at hwhole ⊢
    refine .inr (hend h.state hwhole ?_)
    rw [if_neg hx]
    exact hcount

theorem checkTimeouts_alive {s : UtpSocket} (ha : s.Alive) (hcur : 0 < s.kernel.cur) :
    GivesUp s (s.checkTimeouts env) ∨ Persists s (s.checkTimeouts env) := by
  have hwhole := runs_checkTimeouts env s
  have hactive : timeoutActive (s.beginTimeouts env).conn.state :=
    (congrArg (timeoutActive · = true) (state_beginTimeouts env s)).mpr ha.active
  rw [checkTimeouts_eq, if_pos hactive] at hwhole ⊢
  exact timer_alive env (flushed_beginTimeouts env s) ha hcur hwhole

/-- A connection that is over is only flushed. -/
theorem checkTimeouts_dead {s : UtpSocket} (hd : s.kernel.Dead) :
    (s.checkTimeouts env).kernel.state = s.kernel.state ∧
      errorsOf (s.checkTimeouts env).out = errorsOf s.out := by
  have hinactive : ¬ timeoutActive (s.beginTimeouts env).conn.state := by
    have h : timeoutActive (s.beginTimeouts env).kernel.state = false := by
      rw [state_beginTimeouts]
      exact hd.inactive
    exact Bool.eq_false_iff.1 h
  rw [checkTimeouts_eq, if_neg hinactive]
  exact ⟨state_beginTimeouts env s, (runs_beginTimeouts env s).errors (.inl hd)⟩

/-! Turn after turn. -/

/-- A turn of the timer. -/
structure Turn where
  env : Env
  ms : UInt64
  tick : ℕ

def Turn.run (w : Turn) (s : UtpSocket) : UtpSocket := (s.lend w.ms w.tick).checkTimeouts w.env

def turns (s : UtpSocket) (ws : List Turn) : UtpSocket := ws.foldl (fun s w => w.run s) s

/-- The turns that find the timer expired. -/
def expirations : UtpSocket → List Turn → ℕ
  | _, [] => 0
  | s, w :: ws => (if s.cc.isRtoExpired w.ms then 1 else 0) + expirations (w.run s) ws

def turnEffects : UtpSocket → List Turn → List Effect
  | _, [] => []
  | s, w :: ws => (w.run s).out ++ turnEffects (w.run s) ws

/-- A turn's host reads a clock in `P`. -/
def Turn.In (P : UInt64 → Prop) (w : Turn) : Prop := P w.ms ∧ ∀ n, P (w.env.milliseconds n)

/-- The timer stays armed and the window keeps its packets. -/
structure Holds (s t : UtpSocket) : Prop where
  armed : t.cc.rtoTimeout ≠ 0
  window : s.kernel.SameWindow t.kernel

theorem holds_turn {s : UtpSocket} {w : Turn} (hw : w.In InTime) (hu : s.kernel.state ≠ .uninitialized)
    (hr : s.cc.rtoTimeout ≠ 0) : Holds s (w.run s) where
  armed := ((beside_checkTimeouts (r := true) (f := false) w.env (s := s.lend w.ms w.tick) nofun).time
    hw.2 hw.1).2 hr
  window := (runs_checkTimeouts w.env (s.lend w.ms w.tick)).sameWindow hu

theorem Alive.set {s : UtpSocket} (h : s.Alive) : s.kernel.state ≠ .uninitialized := by
  rcases h with h | h | h <;> rw [h] <;> simp

theorem set_dead {k : Kernel} (h : k.Dead) : k.state ≠ .uninitialized := by
  rcases h with h | h <;> rw [h] <;> simp

theorem turns_dead {s : UtpSocket} (hd : s.kernel.Dead) (hr : s.cc.rtoTimeout ≠ 0) {ws : List Turn}
    (hw : ∀ w ∈ ws, w.In InTime) : Holds s (turns s ws) ∧
      (turns s ws).kernel.state = s.kernel.state ∧ errorsOf (turnEffects s ws) = [] := by
  induction ws generalizing s with
  | nil => exact ⟨⟨hr, .refl _⟩, rfl, rfl⟩
  | cons w ws ih =>
    obtain ⟨hst, he⟩ := checkTimeouts_dead w.env (s := s.lend w.ms w.tick) hd
    have hh := holds_turn (hw w (by simp)) (set_dead hd) hr
    have hd' : (w.run s).kernel.Dead := by
      unfold Kernel.Dead
      rw [show (w.run s).kernel.state = s.kernel.state from hst]
      exact hd
    obtain ⟨h₁, h₂, h₃⟩ := ih hd' hh.armed fun w' hw' => hw w' (by simp [hw'])
    refine ⟨⟨h₁.armed, hh.window.trans h₁.window⟩, h₂.trans hst, ?_⟩
    have he : errorsOf (w.run s).out = [] := he
    show errorsOf ((w.run s).out ++ turnEffects (w.run s) ws) = []
    rw [errorsOf_append, he, h₃, List.append_nil]

/-- The connection waits, every expiration counted, or it was given up with one error. -/
inductive Fate (s : UtpSocket) (ws : List Turn) : Prop
  | waits (alive : (turns s ws).Alive)
      (syn : (turns s ws).kernel.state = .synSent ↔ s.kernel.state = .synSent)
      (quiet : errorsOf (turnEffects s ws) = [])
      (count : expirations s ws + s.cc.retransmitCount.toNat = (turns s ws).cc.retransmitCount.toNat)
      (limit : expirations s ws = 0 ∨ (turns s ws).cc.retransmitCount.toNat ≤ s.retryLimit)
  | over (state : (turns s ws).conn.state = s.brokenState)
      (errors : errorsOf (turnEffects s ws) = [.onError .timedOut])

theorem retryLimit_congr {s t : UtpSocket} (h : t.kernel.state = .synSent ↔ s.kernel.state = .synSent) :
    t.retryLimit = s.retryLimit := by
  unfold retryLimit
  simp only [h]

theorem retryLimit_le (s : UtpSocket) : s.retryLimit ≤ 4 := by
  unfold retryLimit
  split <;> omega

theorem brokenState_congr {s t : UtpSocket} (h : s.kernel.SameWindow t.kernel) :
    t.brokenState = s.brokenState := by
  unfold brokenState
  rw [show t.send.closeRequested = s.send.closeRequested from h.closeRequested]

theorem fate_over {s : UtpSocket} {w : Turn} {ws : List Turn} (hw : ∀ w' ∈ w :: ws, w'.In InTime)
    (hu : s.kernel.state ≠ .uninitialized) (hr : s.cc.rtoTimeout ≠ 0)
    (hg : GivesUp (s.lend w.ms w.tick) (w.run s)) : Holds s (turns s (w :: ws)) ∧ Fate s (w :: ws) := by
  have hh := holds_turn (hw w (by simp)) hu hr
  have hst : (w.run s).kernel.state = s.brokenState := hg.state
  have hd : (w.run s).kernel.Dead := by
    unfold Kernel.Dead
    rw [hst]
    unfold brokenState
    split <;> simp
  obtain ⟨h₁, h₂, h₃⟩ :=
    turns_dead hd hh.armed fun w' (hw' : w' ∈ ws) => hw w' (List.mem_cons_of_mem w hw')
  refine ⟨⟨h₁.armed, hh.window.trans h₁.window⟩, .over (h₂.trans hst) ?_⟩
  have he : errorsOf (w.run s).out = [.onError .timedOut] := hg.errors
  show errorsOf ((w.run s).out ++ turnEffects (w.run s) ws) = _
  rw [errorsOf_append, he, h₃, List.append_nil]

/-- The count of the turn's expiration. -/
theorem count_persists {s : UtpSocket} {w : Turn} (hp : Persists (s.lend w.ms w.tick) (w.run s)) :
    (if s.cc.isRtoExpired w.ms then 1 else 0) + s.cc.retransmitCount.toNat =
        (w.run s).cc.retransmitCount.toNat ∧
      (s.cc.isRtoExpired w.ms = true → (w.run s).cc.retransmitCount.toNat ≤ s.retryLimit) := by
  have hc : if s.cc.isRtoExpired w.ms
      then s.cc.retransmitCount.toNat < s.retryLimit ∧
        (w.run s).cc.retransmitCount = s.cc.retransmitCount + 1
      else (w.run s).cc.retransmitCount = s.cc.retransmitCount := hp.count
  by_cases hx : s.cc.isRtoExpired w.ms = true
  · rw [if_pos hx] at hc ⊢
    obtain ⟨hlt, hc⟩ := hc
    have hle := s.retryLimit_le
    have hn : (w.run s).cc.retransmitCount.toNat = s.cc.retransmitCount.toNat + 1 := by
      rw [hc, UInt16.toNat_add, UInt16.toNat_one]
      omega
    exact ⟨by omega, fun _ => by omega⟩
  · rw [if_neg hx] at hc ⊢
    rw [hc, Nat.zero_add]
    exact ⟨rfl, fun h => absurd h hx⟩

/-- What becomes of a connection that only the timer calls. -/
theorem fate {s : UtpSocket} (ha : s.Alive) (hcur : 0 < s.kernel.cur) (hr : s.cc.rtoTimeout ≠ 0)
    {ws : List Turn} (hw : ∀ w ∈ ws, w.In InTime) : Holds s (turns s ws) ∧ Fate s ws := by
  induction ws generalizing s with
  | nil => exact ⟨⟨hr, .refl _⟩, .waits ha Iff.rfl rfl (Nat.zero_add _) (.inl rfl)⟩
  | cons w ws ih =>
    rcases checkTimeouts_alive w.env (s := s.lend w.ms w.tick) ha hcur with hg | hp
    · exact fate_over hw ha.set hr hg
    · have hp : Persists (s.lend w.ms w.tick) (w.run s) := hp
      have hh := holds_turn (hw w (by simp)) ha.set hr
      have hcur' : 0 < (w.run s).kernel.cur := by
        rw [hh.window.cur]
        exact hcur
      obtain ⟨h₁, h₂⟩ := ih hp.alive hcur' hh.armed fun w' hw' => hw w' (by simp [hw'])
      refine ⟨⟨h₁.armed, hh.window.trans h₁.window⟩, ?_⟩
      have he : errorsOf (w.run s).out = [] := hp.quiet
      have herr : errorsOf (turnEffects s (w :: ws)) = errorsOf (turnEffects (w.run s) ws) := by
        show errorsOf ((w.run s).out ++ turnEffects (w.run s) ws) = _
        rw [errorsOf_append, he, List.nil_append]
      obtain ⟨hcount, hlim⟩ := count_persists hp
      have hexp : expirations s (w :: ws) =
          (if s.cc.isRtoExpired w.ms then 1 else 0) + expirations (w.run s) ws := rfl
      have hlimit : (w.run s).retryLimit = s.retryLimit := retryLimit_congr hp.syn
      rcases h₂ with ⟨alive, syn, quiet, count, limit⟩ | ⟨state, errors⟩
      · refine .waits alive (syn.trans hp.syn) (herr.trans quiet) ?_ ?_
        · show expirations s (w :: ws) + _ = (turns (w.run s) ws).cc.retransmitCount.toNat
          rw [← count, hexp]
          omega
        · show _ ∨ (turns (w.run s) ws).cc.retransmitCount.toNat ≤ s.retryLimit
          rw [hlimit] at limit
          rcases limit with hz | hle
          · by_cases hx : s.cc.isRtoExpired w.ms = true
            · refine .inr ?_
              rw [← count, hz, Nat.zero_add]
              exact hlim hx
            · refine .inl ?_
              rw [hexp, hz, if_neg hx]
          · exact .inr hle
      · exact .over (state.trans (brokenState_congr hh.window)) (herr.trans errors)

/-! The timer in any run. -/

/-- The host's clock is in `P`, as the socket finds it and as it is asked. -/
def ClockIn (P : UInt64 → Prop) (env : Env) (s : UtpSocket) (_ : Op) : Prop :=
  P s.currentMs ∧ ∀ n, P (env.milliseconds n)

/-- The timer is armed unless the window is empty. -/
def Armed (s : UtpSocket) : Prop := s.kernel.cur = 0 ∨ s.cc.rtoTimeout ≠ 0

theorem armed_of_outer {s : UtpSocket} (h : s.outer.rtoTimeout ≠ 0) : s.Armed := .inr h

theorem Armed.beside {r f m : Bool} {s t : UtpSocket} (h : s.Armed) (hb : Beside env r f m s t)
    (henv : ∀ n, InTime (env.milliseconds n)) (hms : InTime s.currentMs)
    (hc : s.kernel.cur = 0 → t.kernel.cur = 0) : t.Armed :=
  h.imp hc (hb.time henv hms).2

theorem armed_writeOutgoingPacket (payload : ℕ) (flags : UInt8) (iov : List Bytes) {s : UtpSocket}
    (h : s.Armed) (henv : ∀ n, InTime (env.milliseconds n)) (hms : InTime s.currentMs) :
    InTime (s.writeOutgoingPacket env payload flags iov).2.currentMs ∧
      (s.writeOutgoingPacket env payload flags iov).2.cc.rtoTimeout ≠ 0 := by
  rw [writeOutgoingPacket_eq]
  have hb : Beside env true true true s s.startRto :=
    .ite (fun _ => (beside_setCc_rto env s.cc.rto rfl).trans (beside_assert env _ _ rfl))
      (fun _ => .refl s)
  have hstart : s.startRto.cc.rtoTimeout ≠ 0 := by
    by_cases hc : s.send.curWindowPackets = 0
    · have he : s.startRto = (s.setCc (s.cc.setInitialRto s.currentMs)).assert (s.cc.curWindow = 0)
          .idleInFlight := if_pos hc
      have hr : s.startRto.cc.rtoTimeout = s.currentMs + s.cc.rto.toUInt64 := by
        rw [he]
        unfold assert
        split <;> rfl
      rw [hr]
      exact hms.add_ne_zero _
    · exact (hb.time henv hms).2 (h.resolve_left hc)
  have hr := (beside_writeLoop env (r := true) (f := true) (m := true) s.startRto.getPacketSize flags
    (payload + 1) payload iov s.startRto).trans (beside_flushPackets env _)
  obtain ⟨h₁, h₂⟩ := hr.time henv (hb.time henv hms).1
  exact ⟨h₁, h₂ hstart⟩

theorem armed_isFull (bytes : ℤ) {s : UtpSocket} (h : s.Armed) : (s.isFull bytes).2.Armed := by
  have hk := (quiet_isFull bytes s).1
  have hr := (beside_isFull stillHost (r := false) (f := false) (m := false) bytes s).rto rfl
  refine h.imp (fun hc => (congrArg Kernel.cur hk).trans hc) (fun h0 => ?_)
  rw [show (s.isFull bytes).2.cc.rtoTimeout = s.cc.rtoTimeout from hr]
  exact h0

theorem armed_writevLoop (packetSize fuel bytes sent : ℕ) (iov : List Bytes) {s : UtpSocket}
    (h : s.Armed) (henv : ∀ n, InTime (env.milliseconds n)) (hms : InTime s.currentMs) :
    (s.writevLoop env packetSize fuel bytes sent iov).2.Armed := by
  induction fuel generalizing bytes sent iov s with
  | zero => exact h
  | succ fuel ih =>
    unfold writevLoop
    dsimp only
    generalize min bytes packetSize = num
    have hf := armed_isFull (int32 num) h
    have hclock := currentMs_isFull (int32 num) s
    generalize s.isFull (int32 num) = a at hf hclock ⊢
    rw [← hclock] at hms
    split
    · exact hf
    · obtain ⟨hwms, hw⟩ := armed_writeOutgoingPacket env num ST_DATA iov hf henv hms
      generalize a.2.writeOutgoingPacket env num ST_DATA iov = w at hwms hw ⊢
      split
      · exact .inr hw
      · exact ih _ _ _ (.inr hw) hwms

theorem armed_writev (iov : List Bytes) {s : UtpSocket} (h : s.Armed)
    (henv : ∀ n, InTime (env.milliseconds n)) : (s.writev env iov).2.Armed := by
  unfold writev
  dsimp only
  split
  · exact h
  · have hl := armed_writevLoop env (s.refreshClock env).getPacketSize
      (totalLength (iov.take UTP_IOV_MAX) + 1) (totalLength (iov.take UTP_IOV_MAX)) 0
      (iov.take UTP_IOV_MAX) (s := s.refreshClock env) h henv (henv s.tick)
    generalize (s.refreshClock env).writevLoop env (s.refreshClock env).getPacketSize
      (totalLength (iov.take UTP_IOV_MAX) + 1) (totalLength (iov.take UTP_IOV_MAX)) 0
      (iov.take UTP_IOV_MAX) = a at hl ⊢
    split
    · exact hl
    · have hf := armed_isFull (-1) hl
      generalize a.2.isFull (-1) = w at hf ⊢
      dsimp only
      split
      · exact hf
      · exact hf

theorem armed_sendFin {s : UtpSocket} (h : s.Armed) (henv : ∀ n, InTime (env.milliseconds n))
    (hms : InTime s.currentMs) : (s.sendFin env).Armed :=
  .inr (armed_writeOutgoingPacket env _ _ _ (s := s.setSend { s.send with finSent := true }) h henv hms).2

theorem armed_closeConnected {s : UtpSocket} (h : s.Armed) (henv : ∀ n, InTime (env.milliseconds n))
    (hms : InTime s.currentMs) : (s.closeConnected env).Armed := by
  have ht : s.markReadShutdown.requestClose.Armed := h
  have htms : InTime s.markReadShutdown.requestClose.currentMs := hms
  unfold closeConnected
  generalize s.markReadShutdown.requestClose = t at ht htms ⊢
  dsimp only
  split
  · exact armed_sendFin env ht henv htms
  · split
    · exact ht
    · exact ht

theorem armed_assert {c : Prop} [Decidable c] {a : Assertion} {s : UtpSocket} (h : s.Armed) :
    (s.assert c a).Armed := by
  unfold assert
  split
  · exact h
  · exact h

theorem rto_backoffRtoForClose (s : UtpSocket) (henv : ∀ n, InTime (env.milliseconds n)) :
    (s.backoffRtoForClose env).cc.rtoTimeout ≠ 0 := (henv s.tick).add_ne_zero (min (s.cc.rto * 2) 60)

theorem armed_close {s : UtpSocket} (h : s.Armed) (henv : ∀ n, InTime (env.milliseconds n))
    (hms : InTime s.currentMs) : (s.close env).Armed := by
  unfold close
  have ht : (s.assert (s.conn.state ≠ .uninitialized ∧ s.conn.state ≠ .destroy) .closeState).Armed :=
    armed_assert h
  have htms : InTime (s.assert (s.conn.state ≠ .uninitialized ∧ s.conn.state ≠ .destroy)
      .closeState).currentMs := by
    rw [currentMs_assert]
    exact hms
  generalize s.assert (s.conn.state ≠ .uninitialized ∧ s.conn.state ≠ .destroy) .closeState = t
    at ht htms ⊢
  dsimp only
  split
  · exact armed_closeConnected env ht henv htms
  · exact armed_closeConnected env ht henv htms
  · exact .inr (rto_backoffRtoForClose env t henv)
  · exact ht

theorem armed_shutdown (how : ShutdownHow) {s : UtpSocket} (h : s.Armed)
    (henv : ∀ n, InTime (env.milliseconds n)) (hms : InTime s.currentMs) :
    (s.shutdown env how).Armed := by
  unfold shutdown
  have ht : (s.assert (s.conn.state ≠ .uninitialized ∧ s.conn.state ≠ .destroy) .closeState).Armed :=
    armed_assert h
  have htms : InTime (s.assert (s.conn.state ≠ .uninitialized ∧ s.conn.state ≠ .destroy)
      .closeState).currentMs := by
    rw [currentMs_assert]
    exact hms
  generalize s.assert (s.conn.state ≠ .uninitialized ∧ s.conn.state ≠ .destroy) .closeState = t
    at ht htms ⊢
  have hu : (if how ≠ .wr then t.markReadShutdown else t).Armed := by
    split
    · exact ht
    · exact ht
  have hums : InTime (if how ≠ .wr then t.markReadShutdown else t).currentMs := by
    split
    · exact htms
    · exact htms
  dsimp only
  generalize (if how ≠ .wr then t.markReadShutdown else t) = u at hu hums ⊢
  have hfin : (if how ≠ .rd ∧ u.send.finSent = false then u.sendFin env else u).Armed := by
    split
    · exact armed_sendFin env hu henv hums
    · exact hu
  split
  · exact hfin
  · exact hfin
  · split
    · exact .inr (rto_backoffRtoForClose env u henv)
    · exact hu
  · exact hu

/-- The operations that neither set a socket up nor write. -/
def Op.Passive : Op → Prop
  | .connect _ _ | .accept _ _ | .writev _ | .close | .shutdown _ => False
  | _ => True

theorem Op.Passive.ne_api {op : Op} (h : op.Passive) {x : Input} (hx : op.Takes x) : x ≠ .api := by
  rintro rfl
  cases op <;> simp [Op.Passive, Op.Takes] at h hx

/-- A window that is empty stays so unless the application writes. -/
theorem empty_passive {op : Op} (h : op.Passive) {s : UtpSocket} (hop : op.Enabled s)
    (hu : s.kernel.state ≠ .uninitialized) (hc : s.kernel.cur = 0) : (op.run env s).kernel.cur = 0 := by
  obtain ⟨acts, ht, -⟩ := runs_op env hop
  exact (ht.invariant (I := fun k => k.state ≠ .uninitialized ∧ k.cur = 0)
    (fun _ _ _ ⟨hu, hc⟩ ⟨x, hx, hm⟩ =>
      ⟨Kernel.set_micro hu hm, Kernel.empty_micro hu (h.ne_api hx) hc hm⟩) ⟨hu, hc⟩).2

theorem rto_onIcmpFragmentation (nextHopMtu : UInt16) (s : UtpSocket) :
    (s.onIcmpFragmentation nextHopMtu).cc.rtoTimeout = s.cc.rtoTimeout := by
  have h (c : Prop) [Decidable c] (m : MtuDiscovery) :
      ((s.assert c .mtuSearch).setMtu m).cc.rtoTimeout = s.cc.rtoTimeout := by
    unfold assert
    split <;> rfl
  unfold onIcmpFragmentation
  split
  · exact h _ _
  · exact h _ _

/-- Every call keeps the timer armed while something is in the window. -/
theorem armed_op {op : Op} {s : UtpSocket} (h : s.Armed) (hu : s.kernel.state ≠ .uninitialized)
    (hop : op.Enabled s) (hc : ClockIn InTime env s op) : (op.run env s).Armed := by
  obtain ⟨hms, henv⟩ := hc
  have hempty (hp : op.Passive) := empty_passive env hp hop hu
  have hroutine (hp : op.Passive) (hr : op.Routine) : (op.run env s).Armed :=
    h.beside env (beside_run env (f := true) hr nofun s) henv hms (hempty hp)
  cases op with
  | connect addr seed =>
    have hn : ¬ s.conn.state = .uninitialized := hu
    simp only [Op.run]
    rw [if_neg hn]
    exact h.beside env (beside_connectAgain env (r := false) (f := false) (m := false) s) henv hms fun hc =>
      (congrArg Kernel.cur (kernel_assert _ _ _)).trans hc
  | accept addr b => exact absurd hop hu
  | writev iov => exact armed_writev env iov h henv
  | close => exact armed_close env h henv hms
  | shutdown how => exact armed_shutdown env how h henv hms
  | onIcmpFragmentation m =>
    refine h.imp (hempty trivial) fun h0 => ?_
    show (s.onIcmpFragmentation m).cc.rtoTimeout ≠ 0
    rw [rto_onIcmpFragmentation]
    exact h0
  | _ => exact hroutine trivial trivial

theorem armed_armSyn {s : UtpSocket} (hms : InTime s.currentMs) : s.armSyn.outer.rtoTimeout ≠ 0 :=
  hms.add_ne_zero 3000

theorem armed_readySyn (s : UtpSocket) (henv : ∀ n, InTime (env.milliseconds n)) :
    InTime (s.readySyn env).outer.currentMs ∧ (s.readySyn env).outer.rtoTimeout ≠ 0 := by
  unfold readySyn
  dsimp only
  generalize (s.assert (s.send.curWindowPackets = 0) .connectWindow).assert
    ((s.assert (s.send.curWindowPackets = 0) .connectWindow).send.outbuf.get
      (s.assert (s.send.curWindowPackets = 0) .connectWindow).send.seqNr.toNat).isNone .connectSlot = t
  have hms : InTime ((t.setState .synSent).refreshClock env).currentMs := henv t.tick
  generalize (t.setState .synSent).refreshClock env = u at hms ⊢
  have hb : Beside env true true true u.armSyn ((u.armSyn.updateRcvWin env).drawSeqNr env) :=
    (beside_updateRcvWin env _).trans ((beside_asked env _).trans (beside_setSend env _ _))
  obtain ⟨hms', h⟩ := hb.time henv hms
  exact ⟨hms', h (armed_armSyn hms)⟩

theorem armed_connectWith (addr : Address) (seed : UInt32) (s : UtpSocket)
    (henv : ∀ n, InTime (env.milliseconds n)) :
    (s.connectWith env addr seed).outer.rtoTimeout ≠ 0 := by
  unfold connectWith
  generalize s.initializeSocket env addr seed seed (seed + 1) = t
  rw [sendSyn_eq]
  obtain ⟨hms, h⟩ := armed_readySyn env t henv
  generalize t.readySyn env = u at hms h ⊢
  have hb : Beside env true true true u
      (u.queueSyn.sendPacket env (u.queueSyn.send.seqNr - 1).toNat) :=
    (beside_setSend env _ u).trans (beside_sendPacket env _ u.queueSyn)
  exact (hb.time henv hms).2 h

theorem armed_dial (addr : Address) (seed : UInt32) {s : UtpSocket}
    (h : s.conn.state = .uninitialized) (henv : ∀ n, InTime (env.milliseconds n)) :
    (Op.run env s (.connect addr seed)).Armed := by
  simp only [Op.run]
  rw [if_pos h]
  exact armed_of_outer (armed_connectWith env addr seed s henv)

theorem idle_run {targetDelay rcvbuf sndbuf : ℕ} {calls : List Call} {s : UtpSocket}
    (h : Run targetDelay rcvbuf sndbuf calls s) : s.kernel.Idle :=
  (run_invariant (I := Kernel.Idle) (P := fun _ => True) (G := fun _ => True)
    (fun _ _ _ _ _ hk hm => Kernel.idle_micro hk hm) (fun _ _ _ _ _ _ _ _ _ _ _ => trivial) h
    (fun _ _ _ _ => trivial) fun _ => ⟨rfl, rfl⟩).1

/-- On a clock in time the timer is armed whenever something is in the window. -/
theorem armed_life {targetDelay rcvbuf sndbuf : ℕ} {calls : List Call} {s : UtpSocket}
    (h : Life (ClockIn InTime) targetDelay rcvbuf sndbuf calls s) : s.Armed := by
  induction h with
  | @setUp calls c s s' h ho hs hc =>
    have hidle := idle_run (Life.setUp h ho hs hc).run
    have hu := (unset_early h ho (unset_new _ _ _)).state
    cases hs with
    | call env ms tick op hop hC =>
      cases op with
      | connect addr seed => exact armed_dial env addr seed (s := s.lend ms tick) hu hC.2
      | accept addr b => exact .inl (hidle (.inr (state_acceptWith env addr b (s.lend ms tick)))).1
      | _ => cases hc
  | @call calls l s s' h hs ih =>
    have hset : s.conn.state ≠ .uninitialized := h.set
    cases hs with
    | call env ms tick op hop hC =>
      exact armed_op env (s := s.lend ms tick) ih hset (by cases op <;> exact hop) hC

/-- A socket that waits or is connected, on a clock in `P` and with packets in the window: under any
turns of the timer alone its timer stays armed and no packet leaves; and either it is still alive,
nothing was reported and the timer expired in fewer turns than the limit, or it is closed or
reset, with the timeout reported once. -/
def GivenUp (P : UInt64 → Prop) : Prop :=
  ∀ (targetDelay rcvbuf sndbuf : ℕ) (calls : List Call) (s : UtpSocket),
    Life (ClockIn P) targetDelay rcvbuf sndbuf calls s → s.Alive → 0 < s.send.curWindowPackets →
    ∀ ws : List Turn, (∀ w ∈ ws, w.In P) → (ws.map Turn.ms).Pairwise (· ≤ ·) →
      Holds s (turns s ws) ∧
        ((turns s ws).Alive ∧ errorsOf (turnEffects s ws) = [] ∧
            expirations s ws < (if s.conn.state = .synSent then 3 else 5) ∨
          (turns s ws).conn.state = (if s.send.closeRequested then .destroy else .reset) ∧
            errorsOf (turnEffects s ws) = [.onError .timedOut])

/-- On a clock in time a vanished peer is given up. -/
theorem vanished_givenUp : GivenUp InTime := by
  intro targetDelay rcvbuf sndbuf calls s h ha hcur ws hw _
  have hr : s.cc.rtoTimeout ≠ 0 := (armed_life h).resolve_left fun hc => by
    have hc : s.send.curWindowPackets = 0 := hc
    rw [hc] at hcur
    exact absurd hcur (by decide)
  obtain ⟨hh, hf⟩ := fate ha hcur hr hw
  refine ⟨hh, ?_⟩
  rcases hf with ⟨alive, syn, quiet, count, limit⟩ | ⟨state, errors⟩
  · refine .inl ⟨alive, quiet, ?_⟩
    have hlim : s.retryLimit + 1 = if s.conn.state = .synSent then 3 else 5 := by
      unfold retryLimit
      show (if s.conn.state = .synSent then 2 else 4) + 1 = _
      split <;> rfl
    rw [← hlim]
    omega
  · exact .inr ⟨state, errors⟩

/-- A host whose clocks stand still. -/
def clockAt (ms us : UInt64) : Env :=
  { stillHost with milliseconds := fun _ => ms, microseconds := fun _ => us }

theorem clockIn_lend {P : UInt64 → Prop} {ms us : UInt64} (hP : P ms) (s : UtpSocket) (op : Op) :
    ClockIn P (clockAt ms us) (s.lend ms 0) op :=
  ⟨hP, fun _ => hP⟩

def farDialled : UtpSocket :=
  Op.run (clockAt (2 ^ 63) 0) ((new CCONTROL_TARGET 4096 4096).lend (2 ^ 63) 0)
    (.connect ⟨0, 0⟩ 7)

def farAnswered : UtpSocket :=
  Op.run (clockAt (2 ^ 63) (2 ^ 31 * 1000)) (farDialled.lend (2 ^ 63) 0)
    (.processIncoming (statePacket 100 0))

/-- A connected socket with one packet in flight, a timeout of 2^31 ms and a deadline past 2^63. -/
def farDeadline : UtpSocket :=
  Op.run (clockAt (2 ^ 63) (2 ^ 31 * 1000)) (farAnswered.lend (2 ^ 63) 0) (.writev [[1]])

theorem life_farDeadline {P : UInt64 → Prop} (hP : P (2 ^ 63)) :
    ∃ calls, Life (ClockIn P) CCONTROL_TARGET 4096 4096 calls farDeadline := by
  have h₁ : Life (ClockIn P) CCONTROL_TARGET 4096 4096 _ farDialled :=
    .setUp (.refl _) nofun (.call _ (2 ^ 63) 0 (.connect ⟨0, 0⟩ 7) trivial (clockIn_lend hP _ _)) trivial
  have h₂ : Life (ClockIn P) CCONTROL_TARGET 4096 4096 _ farAnswered :=
    h₁.call (.call _ (2 ^ 63) 0 (.processIncoming (statePacket 100 0)) trivial (clockIn_lend hP _ _))
  exact ⟨_, h₂.call (.call _ (2 ^ 63) 0 (.writev [[1]]) trivial (clockIn_lend hP _ _))⟩

/-- A turn of the timer half a second after the one before, the first at the deadline. -/
def lateTurn (i : ℕ) : Turn :=
  let ms := 2 ^ 63 + 2 ^ 31 + 500 * UInt64.ofNat i
  ⟨clockAt ms (ms * 1000), ms, 0⟩

def lateTurns : List Turn := (List.range 5).map lateTurn

/-- The fifth expiration resets the connection and reports the timeout. -/
theorem vanished_givenUp_farDeadline :
    (turns farDeadline lateTurns).conn.state = .reset ∧
      errorsOf (turnEffects farDeadline lateTurns) = [.onError .timedOut] ∧
      Holds farDeadline (turns farDeadline lateTurns) := by
  obtain ⟨calls, hlife⟩ := life_farDeadline (P := InTime) (by decide +kernel)
  have hstate : farDeadline.kernel.state = .connected := by decide +kernel
  have hsent : ¬ farDeadline.conn.state = .synSent := by decide +kernel
  have hopen : farDeadline.send.closeRequested = false := by decide +kernel
  have hfive : expirations farDeadline lateTurns = 5 := by decide +kernel
  have hclock : ∀ i < 5, InTime (lateTurn i).ms := by decide +kernel
  have hin : ∀ w ∈ lateTurns, w.In InTime := by
    intro w hw
    obtain ⟨i, hi, rfl⟩ := List.mem_map.1 hw
    have hi := hclock i (List.mem_range.1 hi)
    exact ⟨hi, fun _ => hi⟩
  obtain ⟨hh, hfate⟩ := vanished_givenUp _ _ _ _ _ hlife (.inr (.inl hstate)) (by decide +kernel) lateTurns hin
    (by decide +kernel)
  rw [if_neg hsent, hfive, hopen] at hfate
  rcases hfate with ⟨-, -, hlt⟩ | ⟨hreset, herr⟩
  · exact absurd hlt (by decide)
  · exact ⟨hreset, herr, hh⟩

/-- A socket that dials when the deadline of its SYN wraps to 0. -/
def dialledLate : UtpSocket :=
  Op.run (clockAt (2 ^ 64 - 3000) 0) ((new CCONTROL_TARGET 4096 4096).lend (2 ^ 64 - 3000) 0)
    (.connect ⟨0, 0⟩ 7)

/-- The deadline of the SYN may wrap to the mark of a timer that is not armed. -/
theorem dialledLate_lost {P : UInt64 → Prop} (hP : P (2 ^ 64 - 3000)) : ¬ GivenUp P := by
  intro h
  have hlife : Life (ClockIn P) CCONTROL_TARGET 4096 4096 _ dialledLate :=
    .setUp (.refl _) nofun (.call _ (2 ^ 64 - 3000) 0 (.connect ⟨0, 0⟩ 7) trivial (clockIn_lend hP _ _)) trivial
  have hcur : 0 < dialledLate.send.curWindowPackets := by decide +kernel
  have hstate : dialledLate.kernel.state = .synSent := by decide +kernel
  have hr : dialledLate.cc.rtoTimeout = 0 := by decide +kernel
  exact (h _ _ _ _ _ hlife (.inl hstate) hcur [] nofun .nil).1.armed hr

/-- A timeout that doubles to 2^32 ms is none, on a clock that reads 0. -/
theorem farDeadline_lost {P : UInt64 → Prop} (hP : P (2 ^ 63)) (h0 : P 0) : ¬ GivenUp P := by
  intro h
  obtain ⟨calls, hlife⟩ := life_farDeadline hP
  have hcur : 0 < farDeadline.send.curWindowPackets := by decide +kernel
  have hstate : farDeadline.kernel.state = .connected := by decide +kernel
  have hr : (turns farDeadline [⟨clockAt 0 0, 0, 0⟩]).cc.rtoTimeout = 0 := by decide +kernel
  refine (h _ _ _ _ _ hlife (.inr (.inl hstate)) hcur [⟨clockAt 0 0, 0, 0⟩] ?_ (.cons nofun .nil)).1.armed hr
  intro w hw
  rw [List.mem_singleton.1 hw]
  exact ⟨h0, fun _ => h0⟩

/-- On some clocks a peer that vanished is never given up: both bounds on the clock are needed. -/
theorem vanished_clock :
    ¬ GivenUp (fun _ => True) ∧ ¬ GivenUp (0 < ·) ∧ ¬ GivenUp (·.toNat < 2 ^ 64 - 2 ^ 32) :=
  ⟨dialledLate_lost trivial, dialledLate_lost (by decide +kernel),
    farDeadline_lost (by decide +kernel) (by decide +kernel)⟩

end UtpSocket

end Utp
