import LibUtp.Kernel.Quiet
import Mathlib.Logic.Relation

/-! What a socket holds beside its kernel: the peer address, the index in the list of
delayed acknowledgements, the MTU search, the fast resend pointer, the RTO timer with the
count of its expirations, and the clock. Most functions leave it alone; the MTU search moves
by the steps listed here, and on a clock in time an armed timer stays armed. -/

namespace Utp

open Relation

/-- The assertions of the MTU search. -/
def Effect.onSearch : Effect → Bool
  | .assertFailed .mtuReset | .assertFailed .mtuSearch => true
  | _ => false

/-- A datagram that must not be fragmented. -/
def Effect.onProbe : Effect → Bool
  | .sendTo _ flags => flags == UTP_UDP_DONTFRAG
  | _ => false

/-- The MTU search with its failed assertions. -/
structure Search where
  mtu : MtuDiscovery
  fails : List Effect

/-- The fields outside the kernel, with what was sent and failed of the search. -/
structure OuterFields where
  addr : Address
  ida : ℤ
  search : Search
  probes : List Effect
  fastResend : UInt16
  rtoTimeout : UInt64
  retransmitCount : UInt16
  currentMs : UInt64

def UtpSocket.outer (s : UtpSocket) : OuterFields where
  addr := s.conn.addr
  ida := s.ida
  search := { mtu := s.mtu, fails := s.out.filter Effect.onSearch }
  probes := s.out.filter Effect.onProbe
  fastResend := s.timing.fastResendSeqNr
  rtoTimeout := s.cc.rtoTimeout
  retransmitCount := s.cc.retransmitCount
  currentMs := s.currentMs

/-- The deadline of the retransmission timer and the count of its expirations. -/
def LedbatController.timer (c : LedbatController) : UInt64 × UInt16 := (c.rtoTimeout, c.retransmitCount)

/-- A clock value from which no timeout reaches 0, the deadline of a timer that is not armed. -/
def InTime (ms : UInt64) : Prop := 0 < ms ∧ ms.toNat < 2 ^ 64 - 2 ^ 32

instance (ms : UInt64) : Decidable (InTime ms) := inferInstanceAs (Decidable (_ ∧ _))

theorem InTime.add_ne_zero {ms : UInt64} (h : InTime ms) (timeout : UInt32) :
    ms + timeout.toUInt64 ≠ 0 := by
  intro h0
  have hz := congrArg UInt64.toNat h0
  have h₁ : 0 < ms.toNat := UInt64.lt_iff_toNat_lt.1 h.1
  have h₂ := h.2
  have h₃ := timeout.toNat_lt
  rw [UInt64.toNat_add, UInt32.toNat_toUInt64] at hz
  simp only [UInt64.toNat_zero] at hz
  omega

/-- The effect of an assertion. -/
def failure (c : Prop) [Decidable c] (a : Assertion) : List Effect :=
  if c then [] else [.assertFailed a]

/-- The steps of the MTU search in an initialised socket, ICMP messages apart. -/
inductive MtuStep (env : Env) : Search → Search → Prop
  | reset {m l} (n : ℕ) (ms : UInt64) : MtuStep env ⟨m, l⟩
      ⟨m.reset (env.udpMtu n).toUInt32 ms,
        l ++ failure (m.reset (env.udpMtu n).toUInt32 ms).boundsAssert .mtuReset⟩
  | probe {m l} (seq : UInt32) (length : ℕ) (hs : seq ≠ 0) (h₁ : m.floor.toNat < length)
      (h₂ : length ≤ m.ceiling.toNat) : MtuStep env ⟨m, l⟩ ⟨m.setProbe seq (UInt32.ofNat length), l⟩
  | ack {m l} (seq : UInt32) (ms : UInt64) : MtuStep env ⟨m, l⟩
      ⟨m.handleProbeAck seq ms, l ++ failure (m.isProbe seq → m.raiseFloor.boundsAssert) .mtuSearch⟩
  | loss {m l} (h : m.probeSeq ≠ 0) (ms : UInt64) : MtuStep env ⟨m, l⟩
      ⟨m.handleProbeLoss ms, l ++ failure m.lowerCeiling.boundsAssert .mtuSearch⟩
  | clear {m l} : MtuStep env ⟨m, l⟩ ⟨m.clearProbe, l⟩
  | timeout {m l} (seq cur : UInt32) (ms : UInt64) : MtuStep env ⟨m, l⟩
      ⟨(m.handleProbeTimeout seq cur ms).2,
        l ++ failure (m.probeTimedOut seq cur → m.lowerCeiling.boundsAssert) .mtuSearch⟩

/-- From `s` to `t` the address and the index stay and the MTU search takes steps; the
RTO timer moves only if `r`, the fast resend pointer only if `f`, the MTU search only if `m`;
a clock in time stays so, and then an armed timer stays armed. -/
structure Beside (env : Env) (r f m : Bool) (s t : UtpSocket) : Prop where
  addr : t.outer.addr = s.outer.addr
  ida : t.outer.ida = s.outer.ida
  search : ReflTransGen (MtuStep env) s.outer.search t.outer.search
  rto : r = false → t.outer.rtoTimeout = s.outer.rtoTimeout
  count : r = false → t.outer.retransmitCount = s.outer.retransmitCount
  time : (∀ n, InTime (env.milliseconds n)) → InTime s.outer.currentMs →
    InTime t.outer.currentMs ∧ (s.outer.rtoTimeout ≠ 0 → t.outer.rtoTimeout ≠ 0)
  fast : f = false → t.outer.fastResend = s.outer.fastResend
  still : m = false → t.outer.search.mtu = s.outer.search.mtu ∧ t.outer.probes = s.outer.probes

namespace Beside

variable {env : Env} {r f m : Bool} {s t u : UtpSocket}

theorem of_eq (h : t.outer = s.outer) : Beside env r f m s t := by
  constructor
  · rw [h]
  · rw [h]
  · rw [h]
  · intro _
    rw [h]
  · intro _
    rw [h]
  · intro _ hms
    rw [h]
    exact ⟨hms, id⟩
  · intro _
    rw [h]
  · intro _
    rw [h]
    exact ⟨rfl, rfl⟩

theorem refl (s : UtpSocket) : Beside env r f m s s := .of_eq rfl

theorem trans (h : Beside env r f m s t) (h' : Beside env r f m t u) : Beside env r f m s u where
  addr := h'.addr.trans h.addr
  ida := h'.ida.trans h.ida
  search := h.search.trans h'.search
  rto hr := (h'.rto hr).trans (h.rto hr)
  count hr := (h'.count hr).trans (h.count hr)
  time henv hms := by
    obtain ⟨h₁, h₂⟩ := h.time henv hms
    obtain ⟨h₃, h₄⟩ := h'.time henv h₁
    exact ⟨h₃, fun h0 => h₄ (h₂ h0)⟩
  fast hf := (h'.fast hf).trans (h.fast hf)
  still hm := ⟨(h'.still hm).1.trans (h.still hm).1, (h'.still hm).2.trans (h.still hm).2⟩

theorem mtu (h : Beside env r f false s t) : t.mtu = s.mtu := (h.still rfl).1

theorem ite {c : Prop} [Decidable c] (h : c → Beside env r f m s t) (h' : ¬ c → Beside env r f m s u) :
    Beside env r f m s (if c then t else u) := by
  split
  · exact h ‹_›
  · exact h' ‹_›

/-- One step of the search. -/
theorem of_search (h : t.outer = { s.outer with search := t.outer.search })
    (hm : ReflTransGen (MtuStep env) s.outer.search t.outer.search) : Beside env r f true s t where
  addr := by rw [h]
  ida := by rw [h]
  search := hm
  rto _ := by rw [h]
  count _ := by rw [h]
  time _ hms := by
    rw [h]
    exact ⟨hms, id⟩
  fast _ := by rw [h]
  still hm := by cases hm

/-- The timer is set, and on a clock in time it is armed if it was before. -/
theorem of_rto (h : t.outer = { s.outer with
      rtoTimeout := t.outer.rtoTimeout
      retransmitCount := t.outer.retransmitCount })
    (ha : (∀ n, InTime (env.milliseconds n)) → InTime s.outer.currentMs →
      s.outer.rtoTimeout ≠ 0 → t.outer.rtoTimeout ≠ 0) : Beside env true f m s t where
  addr := by rw [h]
  ida := by rw [h]
  search := by rw [h]
  rto hr := by cases hr
  count hr := by cases hr
  time henv hms := by
    refine ⟨?_, ha henv hms⟩
    rw [h]
    exact hms
  fast _ := by rw [h]
  still _ := by
    rw [h]
    exact ⟨rfl, rfl⟩

/-- The fast resend pointer is set. -/
theorem of_fast (h : t.outer = { s.outer with fastResend := t.outer.fastResend }) :
    Beside env r true m s t where
  addr := by rw [h]
  ida := by rw [h]
  search := by rw [h]
  rto _ := by rw [h]
  count _ := by rw [h]
  time _ hms := by
    rw [h]
    exact ⟨hms, id⟩
  fast hf := by cases hf
  still _ := by
    rw [h]
    exact ⟨rfl, rfl⟩

end Beside

namespace UtpSocket

variable (env : Env) {r f m : Bool}

/-! Setters. -/

theorem beside_asked (s : UtpSocket) : Beside env r f m s s.asked := .of_eq rfl

theorem outer_emit (e : Effect) (s : UtpSocket) : (s.emit e).outer = { s.outer with
    search := { s.outer.search with fails := s.outer.search.fails ++ [e].filter Effect.onSearch }
    probes := s.outer.probes ++ [e].filter Effect.onProbe } := by
  unfold outer emit
  simp [out, currentMs]

theorem beside_emit {e : Effect} (h : e.onSearch = false) (hm : m = false → e.onProbe = false)
    (s : UtpSocket) : Beside env r f m s (s.emit e) := by
  have hs := outer_emit e s
  have hf : [e].filter Effect.onSearch = [] := by simp [h]
  rw [hf, List.append_nil] at hs
  constructor
  · rw [hs]
  · rw [hs]
  · rw [hs]
  · intro _
    rw [hs]
  · intro _
    rw [hs]
  · intro _ hms
    rw [hs]
    exact ⟨hms, id⟩
  · intro _
    rw [hs]
  · intro h'
    have hp : [e].filter Effect.onProbe = [] := by simp [hm h']
    rw [hs, hp]
    exact ⟨rfl, List.append_nil _⟩

theorem outer_assert (c : Prop) [Decidable c] (a : Assertion) (s : UtpSocket) :
    (s.assert c a).outer = { s.outer with search := { s.outer.search with
      fails := s.outer.search.fails ++ (failure c a).filter Effect.onSearch } } := by
  unfold assert failure
  split
  · simp
  · rw [outer_emit]
    simp [Effect.onProbe]

theorem beside_assert (c : Prop) [Decidable c] {a : Assertion} (s : UtpSocket)
    (h : (Effect.assertFailed a).onSearch = false) : Beside env r f m s (s.assert c a) := by
  unfold assert
  exact .ite (fun _ => .refl s) (fun _ => beside_emit env h (fun _ => rfl) s)

theorem beside_setRecv (y : ReceiveState) (s : UtpSocket) : Beside env r f m s (s.setRecv y) :=
  .of_eq rfl

theorem beside_setSend (y : SendState) (s : UtpSocket) : Beside env r f m s (s.setSend y) :=
  .of_eq rfl

theorem beside_setState (st : ConnState) (s : UtpSocket) : Beside env r f m s (s.setState st) :=
  .of_eq rfl

theorem beside_setDuplicateAck (n : UInt8) (s : UtpSocket) :
    Beside env r f m s (s.setDuplicateAck n) := .of_eq rfl

theorem beside_setTiming {y : TimingState} {s : UtpSocket}
    (h : y.fastResendSeqNr = s.timing.fastResendSeqNr) : Beside env r f m s (s.setTiming y) := by
  apply Beside.of_eq
  unfold outer setTiming
  dsimp only
  rw [h]
  rfl

theorem beside_setCc {c : LedbatController} {s : UtpSocket} (h : c.timer = s.cc.timer) :
    Beside env r f m s (s.setCc c) := by
  obtain ⟨h₁, h₂⟩ := Prod.ext_iff.1 h
  apply Beside.of_eq
  unfold outer setCc
  dsimp only
  rw [show c.rtoTimeout = s.cc.rtoTimeout from h₁, show c.retransmitCount = s.cc.retransmitCount from h₂]
  rfl

/-- The timer is set to a moment past the clock. -/
theorem beside_setCc_rto {c : LedbatController} {s : UtpSocket} (timeout : UInt32)
    (h : c.rtoTimeout = s.currentMs + timeout.toUInt64) : Beside env true f m s (s.setCc c) := by
  refine .of_rto rfl fun _ hms _ => ?_
  show c.rtoTimeout ≠ 0
  rw [h]
  exact hms.add_ne_zero timeout

theorem beside_setCc_count {c : LedbatController} {s : UtpSocket} (h : c.rtoTimeout = s.cc.rtoTimeout) :
    Beside env true f m s (s.setCc c) := by
  refine .of_rto rfl fun _ _ h0 => ?_
  show c.rtoTimeout ≠ 0
  rw [h]
  exact h0

theorem beside_setTiming_fast (y : TimingState) (s : UtpSocket) :
    Beside env r true m s (s.setTiming y) := .of_fast rfl

/-! Clocks, acknowledgements, sending. -/

theorem beside_refreshClock (s : UtpSocket) : Beside env r f m s (s.refreshClock env) where
  addr := rfl
  ida := rfl
  search := .refl
  rto _ := rfl
  count _ := rfl
  time henv _ := ⟨henv s.tick, id⟩
  fast _ := rfl
  still _ := ⟨rfl, rfl⟩

theorem beside_askRcvWindow (s : UtpSocket) : Beside env r f m s (s.askRcvWindow env) := by
  unfold askRcvWindow
  exact (beside_asked env s).trans (beside_assert env _ _ rfl)

theorem beside_updateRcvWin (s : UtpSocket) : Beside env r f m s (s.updateRcvWin env) := by
  unfold updateRcvWin
  exact (beside_askRcvWindow env s).trans (beside_setRecv env _ _)

theorem beside_sendData (b : Bytes) {flags : UInt32}
    (hm : m = false → (Effect.sendTo b flags).onProbe = false) (s : UtpSocket) :
    Beside env r f m s (s.sendData b flags) := by
  have h : Beside env r f m s (s.asked.setTiming { s.timing with lastSentPacket := s.currentMs }) :=
    (beside_asked env s).trans (beside_setTiming env rfl)
  exact h.trans ((beside_emit env rfl hm _).trans (beside_emit env rfl (fun _ => rfl) _))

theorem beside_eackAsserts (synack : Bool) (s : UtpSocket) :
    Beside env r f m s (s.eackAsserts synack) := by
  unfold eackAsserts
  exact (beside_assert env _ s rfl).trans (beside_assert env _ _ rfl)

theorem beside_sendAck (synack : Bool) (s : UtpSocket) : Beside env r f m s (s.sendAck env synack) := by
  unfold sendAck
  refine (beside_updateRcvWin env s).trans (.trans (.ite (fun _ => ?_) (fun _ => ?_))
    (beside_emit env rfl (fun _ => rfl) _))
  · exact (beside_eackAsserts env synack _).trans (beside_sendData env _ (fun _ => rfl) _)
  · exact beside_sendData env _ (fun _ => rfl) _

theorem beside_sendKeepAlive (s : UtpSocket) : Beside env r f m s (s.sendKeepAlive env) := by
  unfold sendKeepAlive
  exact ((beside_setRecv env _ s).trans (beside_sendAck env _ _)).trans (beside_setRecv env _ _)

theorem beside_scheduleAck (s : UtpSocket) : Beside env r f m s s.scheduleAck :=
  beside_emit env rfl (fun _ => rfl) s

theorem beside_removeInFlight (n : ℕ) (s : UtpSocket) : Beside env r f m s (s.removeInFlight n) := by
  unfold removeInFlight
  refine (beside_assert env _ s rfl).trans (beside_setCc env ?_)
  unfold assert
  split <;> rfl

theorem outer_mtuReset (ms : UInt64) (s : UtpSocket) : ∃ n, (s.mtuReset env ms).outer =
    { s.outer with search := ⟨s.mtu.reset (env.udpMtu n).toUInt32 ms, s.outer.search.fails ++
      failure (s.mtu.reset (env.udpMtu n).toUInt32 ms).boundsAssert .mtuReset⟩ } := by
  refine ⟨s.tick, ?_⟩
  unfold mtuReset failure
  dsimp only
  unfold assert
  split
  · simp [outer, setMtu, asked, out, currentMs]
  · simp [outer, setMtu, asked, out, currentMs, emit, Effect.onSearch, Effect.onProbe]

theorem beside_mtuReset (ms : UInt64) (s : UtpSocket) : Beside env r f true s (s.mtuReset env ms) := by
  obtain ⟨n, h⟩ := outer_mtuReset env ms s
  refine .of_search (by rw [h]) ?_
  rw [h]
  exact .single (.reset n ms)

theorem beside_rediscover (ms : UInt64) (s : UtpSocket) : Beside env r f true s (s.rediscover env ms) :=
  .ite (fun _ => beside_mtuReset env ms s) (fun _ => .refl s)

theorem beside_countPacket (p : OutgoingPacket) (s : UtpSocket) :
    Beside env r f m s (s.countPacket p) := .ite (fun _ => .of_eq rfl) (fun _ => .refl s)

theorem outer_startProbe (length : ℕ) (s : UtpSocket) : (s.startProbe length).outer = { s.outer with
    search := { s.outer.search with
      mtu := s.mtu.setProbe (s.send.seqNr - 1).toUInt32 (UInt32.ofNat length) } } := by
  unfold startProbe
  dsimp only
  rw [outer_assert, outer_assert]
  have h (c : Prop) [Decidable c] {a : Assertion} (ha : (Effect.assertFailed a).onSearch = false) :
      (failure c a).filter Effect.onSearch = [] := by
    unfold failure
    split
    · rfl
    · simp [ha]
  rw [h _ rfl, h _ rfl, List.append_nil, List.append_nil]
  rfl

theorem beside_startProbe {p : OutgoingPacket} {s : UtpSocket} (h : s.probes p) :
    Beside env r f true s (s.startProbe p.length) := by
  have hside := outer_startProbe p.length s
  refine .of_search (by rw [hside]) ?_
  rw [hside]
  unfold probes at h
  simp only [Bool.and_eq_true, decide_eq_true_eq] at h
  obtain ⟨⟨⟨⟨⟨-, h₁⟩, h₂⟩, -⟩, h₃⟩, -⟩ := h
  refine .single (.probe _ p.length (fun h0 => h₃ ?_) h₁ h₂)
  have h0 : (s.send.seqNr - 1).toUInt32.toNat = 0 := congrArg UInt32.toNat h0
  rw [UInt16.toNat_toUInt32] at h0
  have h1 : s.send.seqNr - 1 = 0 := UInt16.toNat.inj h0
  grind

theorem beside_sendPacket (i : ℤ) (s : UtpSocket) : Beside env r f true s (s.sendPacket env i) := by
  unfold sendPacket
  split
  · exact .refl s
  · rename_i p hp
    dsimp only
    have h₁ : Beside env r f true s (((s.asked.countPacket p).asked).rediscover env
        (env.milliseconds s.tick)) :=
      (((beside_asked env s).trans (beside_countPacket env p _)).trans (beside_asked env _)).trans
        (beside_rediscover env _ _)
    generalize ((s.asked.countPacket p).asked).rediscover env (env.milliseconds s.tick) = u at h₁ ⊢
    have h₂ : Beside env r f true u (if u.probes p then u.startProbe p.length else u) :=
      .ite (fun h => beside_startProbe env h) (fun _ => .refl u)
    generalize (if u.probes p then u.startProbe p.length else u) = v at h₂ ⊢
    exact (h₁.trans h₂).trans ((beside_setSend env _ _).trans (beside_sendData env _ (fun hm => by cases hm) _))

theorem beside_isFull (bytes : ℤ) (s : UtpSocket) : Beside env r f m s (s.isFull bytes).2 := by
  unfold isFull
  split
  · exact beside_setCc env rfl
  · exact .refl s

theorem beside_moveCursor (inPrefix : Bool) (i : UInt16) (s : UtpSocket) :
    Beside env r f m s (s.moveCursor inPrefix i) :=
  .ite (fun _ => beside_setSend env _ _) (fun _ => .refl s)

theorem beside_flushLoop (packetSize n : ℕ) (i : UInt16) (inPrefix : Bool) (s : UtpSocket) :
    Beside env r f true s (s.flushLoop env packetSize n i inPrefix).2 := by
  induction n generalizing i inPrefix s with
  | zero => exact .refl s
  | succ n ih =>
    unfold flushLoop
    split
    · exact (beside_moveCursor env _ _ _).trans (ih _ _ _)
    · have h := beside_isFull env (r := r) (f := f) (m := true) (-1) s
      generalize s.isFull (-1) = w at h ⊢
      dsimp only
      split_ifs
      · exact h
      · exact h.trans (((beside_sendPacket env _ _).trans (beside_moveCursor env _ _ _)).trans
          (ih _ _ _))
      · exact h.trans (ih _ _ _)

theorem beside_flushPackets (s : UtpSocket) : Beside env r f true s (s.flushPackets env).2 :=
  beside_flushLoop env _ _ _ _ s

theorem beside_addedAsserts (flags : UInt8) (added got : ℕ) (s : UtpSocket) :
    Beside env r f m s (s.addedAsserts flags added got) := by
  unfold addedAsserts
  exact .ite (fun _ => .refl s)
    (fun _ => (beside_assert env _ s rfl).trans (beside_assert env _ _ rfl))

theorem beside_growTail (flags : UInt8) (p : OutgoingPacket) (added : ℕ) (iov : List Bytes)
    (s : UtpSocket) : Beside env r f m s (s.growTail env flags p added iov) := by
  unfold growTail
  exact ((beside_assert env _ s rfl).trans (beside_addedAsserts env _ _ _ _)).trans
    ((beside_updateRcvWin env _).trans (beside_setSend env _ _))

theorem beside_queuePacket (flags : UInt8) (added : ℕ) (iov : List Bytes) (s : UtpSocket) :
    Beside env r f m s (s.queuePacket env flags added iov) := by
  unfold queuePacket
  exact ((beside_addedAsserts env _ _ _ s).trans (beside_updateRcvWin env _)).trans
    (beside_setSend env _ _)

theorem beside_writeLoop (packetSize : ℕ) (flags : UInt8) (fuel payload : ℕ) (iov : List Bytes)
    (s : UtpSocket) : Beside env r f m s (s.writeLoop env packetSize flags fuel payload iov).2 := by
  induction fuel generalizing payload iov s with
  | zero => exact .refl s
  | succ fuel ih =>
    unfold writeLoop
    have h : Beside env r f m s ((s.assert (s.send.curWindowPackets.toNat < OUTGOING_BUFFER_MAX_SIZE)
        .windowPackets).assert (flags = ST_DATA ∨ flags = ST_FIN) .packetFlags) :=
      (beside_assert env _ s rfl).trans (beside_assert env _ _ rfl)
    generalize (s.assert (s.send.curWindowPackets.toNat < OUTGOING_BUFFER_MAX_SIZE)
        .windowPackets).assert (flags = ST_DATA ∨ flags = ST_FIN) .packetFlags = t at h ⊢
    dsimp only
    cases t.openTail packetSize payload with
    | none => exact h.trans (beside_queuePacket env _ _ _ _)
    | some p =>
      dsimp only
      have hg := h.trans (beside_growTail env (r := r) (f := f) (m := m) flags p
        (min (payload + p.payload) (max packetSize p.payload) - p.payload) iov t)
      generalize t.growTail env flags p
        (min (payload + p.payload) (max packetSize p.payload) - p.payload) iov = u at hg ⊢
      split
      · exact hg
      · exact hg.trans (ih _ _ _)

theorem beside_writeOutgoingPacket (payload : ℕ) (flags : UInt8) (iov : List Bytes)
    (s : UtpSocket) : Beside env true f true s (s.writeOutgoingPacket env payload flags iov).2 := by
  unfold writeOutgoingPacket
  have h : Beside env true f true s (if s.send.curWindowPackets = 0 then
      (s.setCc (s.cc.setInitialRto s.currentMs)).assert (s.cc.curWindow = 0) .idleInFlight
      else s) :=
    .ite (fun _ => (beside_setCc_rto env s.cc.rto rfl).trans (beside_assert env _ _ rfl))
      (fun _ => .refl s)
  exact h.trans ((beside_writeLoop env _ _ _ _ _ _).trans (beside_flushPackets env _))

theorem beside_sendFin (s : UtpSocket) : Beside env true f true s (s.sendFin env) := by
  unfold sendFin
  exact (beside_setSend env _ s).trans (beside_writeOutgoingPacket env _ _ _ _)

/-! Acknowledgements that arrive. -/

theorem rtoTimeout_updateRtt (c : LedbatController) (ertt : UInt32) (ms : UInt64) :
    (c.updateRtt ertt ms).rtoTimeout = ms + (c.updateRtt ertt ms).rto.toUInt64 := rfl

theorem beside_ackTiming (p : OutgoingPacket) (s : UtpSocket) :
    Beside env true f m s (s.ackTiming env p) := by
  unfold ackTiming
  refine .ite (fun _ => (beside_asked env s).trans ?_) (fun _ => beside_setCc_rto env s.cc.rto rfl)
  exact beside_setCc_rto env _ (rtoTimeout_updateRtt s.cc _ _)

theorem beside_ackPacket (seq : UInt16) (s : UtpSocket) :
    Beside env true f m s (s.ackPacket env seq).2 := by
  unfold ackPacket
  split
  · exact .refl s
  · rename_i p hp
    split
    · exact .refl s
    · dsimp only
      have h := (beside_setSend env (r := true) (f := f) (m := m)
        { s.send with outbuf := (s.send.outbuf.take seq.toNat).2 } s).trans
          (beside_ackTiming env p _)
      generalize (s.setSend { s.send with outbuf := (s.send.outbuf.take seq.toNat).2 }).ackTiming
        env p = t at h ⊢
      have h' := h.trans (.ite (c := p.needResend) (fun _ => .refl t)
        (fun _ => beside_removeInFlight env p.payload t))
      exact h'.trans (beside_setCc_count env rfl)

theorem outer_probeAck (seq : UInt16) (s : UtpSocket) : (s.probeAck seq).outer = { s.outer with
    search := ⟨s.mtu.handleProbeAck seq.toUInt32 s.currentMs, s.outer.search.fails ++
      failure (s.mtu.isProbe seq.toUInt32 → s.mtu.raiseFloor.boundsAssert) .mtuSearch⟩ } := by
  unfold probeAck
  dsimp only
  unfold assert failure
  split
  · simp [outer, setMtu, out, currentMs]
  · simp [outer, setMtu, emit, out, currentMs, Effect.onSearch, Effect.onProbe]

theorem beside_probeAck (seq : UInt16) (s : UtpSocket) : Beside env r f true s (s.probeAck seq) := by
  have h := outer_probeAck seq s
  refine .of_search (by rw [h]) ?_
  rw [h]
  exact .single (.ack _ _)

theorem beside_ackedBytes (now : UInt64) (n : ℕ) (seq : UInt16) (acked : ℕ) (minRtt : ℤ)
    (s : UtpSocket) : Beside env r f true s (s.ackedBytes now n seq acked minRtt).2.2 := by
  induction n generalizing seq acked minRtt s with
  | zero => exact .refl s
  | succ n ih =>
    unfold ackedBytes
    split
    · exact ih _ _ _ s
    · split
      · exact ih _ _ _ s
      · exact ((beside_assert env _ s rfl).trans (beside_probeAck env _ _)).trans (ih _ _ _ _)

theorem beside_eackBytesLoop (base : ℤ) (mask : Bytes) (now : UInt64) (n acked : ℕ) (minRtt : ℤ)
    (s : UtpSocket) : Beside env r f m s (s.eackBytesLoop base mask now n acked minRtt).2.2 := by
  induction n generalizing acked minRtt s with
  | zero => exact .refl s
  | succ n ih =>
    unfold eackBytesLoop
    dsimp only
    split
    · split
      · exact (beside_assert env _ s rfl).trans (ih _ _ _)
      · exact ih _ _ s
    · exact ih _ _ s

theorem beside_selectiveAckBytes (base : ℤ) (mask : Bytes) (acked : ℕ) (minRtt : ℤ)
    (s : UtpSocket) : Beside env r f m s (s.selectiveAckBytes env base mask acked minRtt).2.2 := by
  unfold selectiveAckBytes
  split
  · exact .refl s
  · exact (beside_asked env s).trans (beside_eackBytesLoop env _ _ _ _ _ _ _)

theorem beside_theirSample (theirDelay : UInt32) (s : UtpSocket) :
    Beside env r f m s (s.theirSample theirDelay) := by
  have h : Beside env r f m s (if theirDelay ≠ 0 then
      s.setCc { s.cc with theirHist := s.cc.theirHist.addSample theirDelay s.currentMs }
    else s) := .ite (fun _ => beside_setCc env rfl) (fun _ => .refl s)
  exact h.trans (.ite (fun _ => beside_setCc env rfl) (fun _ => .refl _))

theorem timer_updateDelayAverage (c : LedbatController) (d : UInt32) (ms : UInt64) :
    (c.updateDelayAverage d ms).timer = c.timer := by
  rw [LedbatController.updateDelayAverage, apply_ite LedbatController.timer]
  exact ite_self _

theorem beside_ourSample (actualDelay : UInt32) (s : UtpSocket) :
    Beside env r f m s (s.ourSample actualDelay) := by
  refine .ite (fun _ => ?_) (fun _ => .refl s)
  have h : Beside env r f m s (s.setCc { s.cc with
      ourHist := s.cc.ourHist.addSample actualDelay s.currentMs }) := beside_setCc env rfl
  refine h.trans ((beside_assert env _ _ rfl).trans (beside_setCc env ?_))
  rw [timer_updateDelayAverage]
  unfold assert
  split <;> rfl

theorem beside_capDelay (minRtt : ℤ) (s : UtpSocket) : Beside env r f m s (s.capDelay minRtt) :=
  (beside_assert env _ s rfl).trans (.ite (fun _ => beside_setCc env rfl) (fun _ => .refl _))

theorem timer_applyCcontrol (c : LedbatController) (acked : ℕ) (minRtt : ℤ) (ms : UInt64)
    (snd target size : ℕ) : (c.applyCcontrol acked minRtt ms snd target size).2.timer = c.timer := by
  rw [LedbatController.applyCcontrol, LedbatController.stepWindow]
  dsimp only
  split_ifs <;> rfl

theorem beside_controlWindow (acked : ℕ) (minRtt : ℤ) (s : UtpSocket) :
    Beside env r f m s (s.controlWindow acked minRtt) :=
  ((beside_assert env _ s rfl).trans (beside_setCc env (timer_applyCcontrol _ _ _ _ _ _ _))
    ).trans ((beside_emit env rfl (fun _ => rfl) _).trans (beside_asked env _))

theorem beside_takeSamples (pp : ParsedPacket) (time : UInt64) (a : ℕ × ℤ × UtpSocket) :
    Beside env r f m a.2.2 (takeSamples env pp time a) := by
  unfold takeSamples
  have h {b : ℕ × ℤ × UtpSocket} (hb : Beside env r f m a.2.2 b.2.2) (ms : UInt64) (their our : UInt32) :
      Beside env r f m a.2.2 ((((b.2.2.setTiming { b.2.2.timing with
        lastMeasuredDelay := ms
        replyMicro := their }).theirSample their).ourSample our).capDelay b.2.1) := by
    have ht : Beside env r f m b.2.2 (b.2.2.setTiming { b.2.2.timing with
        lastMeasuredDelay := ms
        replyMicro := their }) := beside_setTiming env rfl
    exact ((hb.trans ht).trans (beside_theirSample env _ _)).trans
      ((beside_ourSample env _ _).trans (beside_capDelay env _ _))
  cases pp.selack with
  | some mask =>
    have hb := @beside_selectiveAckBytes env r f m (pp.ackNr + 2).toNat mask a.1 a.2.1 a.2.2
    exact .ite (fun _ => (h hb _ _ _).trans (beside_controlWindow env _ _ _)) (fun _ => h hb _ _ _)
  | none =>
    have hb : Beside env r f m a.2.2 a.2.2 := .refl _
    exact .ite (fun _ => (h hb _ _ _).trans (beside_controlWindow env _ _ _)) (fun _ => h hb _ _ _)

theorem beside_processAcks (pp : ParsedPacket) (acks : ℕ) (time : UInt64) (s : UtpSocket) :
    Beside env r f true s (s.processAcks env pp acks time) := by
  rw [processAcks_eq]
  exact ((beside_asked env s).trans (beside_ackedBytes env _ _ _ _ _ _)).trans
    (beside_takeSamples env _ _ _)

theorem beside_peerWindow (windowsize : UInt32) (s : UtpSocket) :
    Beside env r f m s (s.peerWindow windowsize) := by
  unfold peerWindow
  have h : Beside env r f m s (s.setSend { s.send with maxWindowUser := windowsize.toNat }) :=
    beside_setSend env _ s
  dsimp only
  generalize s.setSend { s.send with maxWindowUser := windowsize.toNat } = t at h ⊢
  have hz (ms : UInt64) : Beside env r f m t (t.setCc { t.cc with zerowindowTime := ms }) :=
    beside_setCc env rfl
  exact .ite (fun _ => h.trans (hz _)) (fun _ => h)

theorem beside_ackState (pp : ParsedPacket) (acks : ℕ) (s : UtpSocket) :
    Beside env r f m s (s.ackState pp acks) := by
  unfold ackState
  have h : Beside env r f m s (if pp.type = ST_DATA ∧ s.conn.state = .synRecv then
      s.setState .connected else s) := .ite (fun _ => beside_setState env _ s) (fun _ => .refl s)
  generalize (if pp.type = ST_DATA ∧ s.conn.state = .synRecv then s.setState .connected
    else s) = t at h ⊢
  dsimp only
  refine h.trans (.ite (fun _ => ?_) (fun _ => .ite (fun _ => ?_) (fun _ => .refl t)))
  · exact (beside_setState env _ t).trans (beside_emit env rfl (fun _ => rfl) _)
  · exact (beside_setSend env _ t).trans
      (.ite (fun _ => beside_setState env _ _) (fun _ => .refl _))

theorem beside_raiseFastResend (pp : ParsedPacket) (s : UtpSocket) :
    Beside env r true m s (s.raiseFastResend pp) := by
  unfold raiseFastResend
  exact .ite (fun _ => beside_setTiming_fast env _ s) (fun _ => .refl s)

theorem beside_shrinkWindow (s : UtpSocket) : Beside env r f m s s.shrinkWindow :=
  beside_setSend env _ s

/-- Only a packet that is acknowledged moves the timer. -/
theorem beside_ackLoop {n : ℕ} (hr : r = false → n = 0) (s : UtpSocket) :
    Beside env r f m s (s.ackLoop env n) := by
  cases r with
  | false =>
    rw [hr rfl]
    exact .refl s
  | true =>
    clear hr
    induction n generalizing s with
    | zero => exact .refl s
    | succ n ih =>
      unfold ackLoop
      have h := beside_ackPacket env (f := f) (m := m) s.windowStart s
      generalize s.ackPacket env s.windowStart = a at h ⊢
      dsimp only
      split
      · exact h
      · exact (h.trans (beside_shrinkWindow env _)).trans (ih _)

theorem beside_skipLoop (n : ℕ) (s : UtpSocket) : Beside env r f m s (s.skipLoop n) := by
  induction n generalizing s with
  | zero => exact .refl s
  | succ n ih =>
    unfold skipLoop
    exact .ite (fun _ => (beside_shrinkWindow env s).trans (ih _)) (fun _ => .refl s)

theorem beside_advance (acks : ℕ) (hr : r = false → acks = 0) (s : UtpSocket) :
    Beside env r f m s (s.advance env acks) := by
  unfold advance
  exact ((beside_ackLoop env hr s).trans (beside_assert env _ _ rfl)).trans
    (((beside_skipLoop env _ _).trans (beside_assert env _ _ rfl)).trans
      (beside_assert env _ _ rfl))

theorem beside_sendLast (s : UtpSocket) : Beside env r f true s (s.sendLast env) := by
  unfold sendLast
  refine .ite (fun _ => ?_) (fun _ => .refl s)
  split
  · exact .ite (fun _ => beside_sendPacket env _ s) (fun _ => .refl s)
  · exact .refl s

theorem beside_fastTimeout (s : UtpSocket) : Beside env r true true s (s.fastTimeout env) := by
  unfold fastTimeout
  refine .ite (fun _ => .ite (fun _ => beside_setTiming_fast env _ s) (fun _ => ?_)) (fun _ => .refl s)
  split
  · refine .ite (fun _ => ?_) (fun _ => .refl s)
    exact (beside_setTiming_fast env _ s).trans (beside_sendPacket env _ _)
  · exact .refl s

theorem beside_advanceSendWindow (pp : ParsedPacket) {acks : ℕ} (hr : r = false → acks = 0)
    (s : UtpSocket) : Beside env r true true s (s.advanceSendWindow env pp acks) := by
  unfold advanceSendWindow
  refine .ite (fun _ => ?_) (fun _ => .refl s)
  exact (((beside_peerWindow env _ s).trans (beside_ackState env _ _ _)).trans
    (beside_raiseFastResend env pp _)).trans (((beside_advance env _ hr _).trans
      (beside_sendLast env _)).trans (beside_fastTimeout env _))

theorem beside_eackLoop (base : ℤ) (mask : Bytes) (n count : ℕ) (resends : List ℤ)
    (s : UtpSocket) : Beside env true f m s (s.eackLoop env base mask n count resends).2.2 := by
  induction n generalizing count resends s with
  | zero => exact .refl s
  | succ n ih =>
    unfold eackLoop
    dsimp only
    split
    · split
      · exact ih _ _ s
      · split
        · exact ((beside_assert env _ s rfl).trans (beside_ackPacket env _ _)).trans (ih _ _ _)
        · split
          · exact ih _ _ s
          · exact ih _ _ s
    · exact ih _ _ s

theorem beside_resendLoop (vs : List ℤ) (i : ℕ) (backOff : Bool) (s : UtpSocket) :
    Beside env r true true s (s.resendLoop env vs i backOff).2 := by
  induction vs generalizing i backOff s with
  | nil => exact .refl s
  | cons v vs ih =>
    unfold resendLoop
    split
    · have h := (beside_sendPacket env (r := r) (f := true) v s).trans (beside_setTiming_fast env
        { (s.sendPacket env v).timing with fastResendSeqNr := UInt16.ofInt (v + 1) } _)
      dsimp only
      split
      · exact h
      · exact h.trans (ih _ _ _)
    · exact ih _ _ s

theorem timer_maybeDecayWin (c : LedbatController) (ms : UInt64) :
    (c.maybeDecayWin ms).timer = c.timer := by
  unfold LedbatController.maybeDecayWin
  split <;> rfl

theorem beside_selectiveAck (base : ℤ) (mask : Bytes) (s : UtpSocket) :
    Beside env true true true s (s.selectiveAck env base mask) := by
  unfold selectiveAck
  refine .ite (fun _ => .refl s) (fun _ => ?_)
  have h := beside_eackLoop env (f := true) (m := true) base mask (8 * mask.length + 1) 0 [] s
  generalize s.eackLoop env base mask (8 * mask.length + 1) 0 [] = a at h ⊢
  dsimp only
  generalize (if a.2.2.fastResend (base - 1) a.1 then a.2.1 ++ [(base - 1) % 2 ^ 16]
    else a.2.1).reverse = vs
  have h' := h.trans (beside_resendLoop env (r := true) vs 4 false a.2.2)
  generalize a.2.2.resendLoop env vs 4 false = b at h' ⊢
  refine (h'.trans (.ite (fun _ => beside_setCc env ?_) (fun _ => .refl b.2))).trans
    (beside_setDuplicateAck env _ _)
  exact timer_maybeDecayWin _ _

theorem beside_selectiveAckOf (pp : ParsedPacket) (s : UtpSocket) :
    Beside env true true true s (s.selectiveAckOf env pp) := by
  unfold selectiveAckOf
  split
  · exact beside_selectiveAck env _ _ s
  · exact .refl s

theorem beside_becomeWritable (s : UtpSocket) : Beside env r f m s s.becomeWritable := by
  unfold becomeWritable
  refine .ite (fun _ => ?_) (fun _ => .refl s)
  have h := beside_isFull env (r := r) (f := f) (m := m) (-1) s
  generalize s.isFull (-1) = w at h ⊢
  exact .ite (fun _ => h) (fun _ => h.trans ((beside_setState env _ _).trans
    (beside_emit env rfl (fun _ => rfl) _)))

theorem outer_probeLoss (s : UtpSocket) : s.probeLoss.outer = { s.outer with
    search := ⟨s.mtu.handleProbeLoss s.currentMs, s.outer.search.fails ++
      failure s.mtu.lowerCeiling.boundsAssert .mtuSearch⟩ } := by
  unfold probeLoss assert failure
  split
  · simp [outer, setMtu, out, currentMs]
  · simp [outer, setMtu, emit, out, currentMs, Effect.onSearch, Effect.onProbe]

theorem beside_dupAckProbe (pp : ParsedPacket) (s : UtpSocket) :
    Beside env r f true s (s.dupAckProbe pp) := by
  unfold dupAckProbe
  refine .ite (fun h => .ite (fun _ => ?_) (fun _ => ?_)) (fun _ => .refl s)
  · have hs := outer_probeLoss s
    refine .of_search (by rw [hs]) ?_
    rw [hs]
    exact .single (.loss h.2 _)
  · exact .of_search rfl (.single .clear)

theorem beside_countDuplicate (pp : ParsedPacket) (s : UtpSocket) :
    Beside env r f true s (s.countDuplicate pp) := by
  unfold countDuplicate
  refine .ite (fun _ => .ite (fun _ => ?_) (fun _ => ?_)) (fun _ => .refl s)
  · exact (beside_setDuplicateAck env _ s).trans (beside_dupAckProbe env pp _)
  · exact beside_setDuplicateAck env _ s

/-! Delivery. -/

theorem beside_onRead (b : Bytes) (s : UtpSocket) : Beside env r f m s (s.onRead b) :=
  .ite (fun _ => beside_emit env rfl (fun _ => rfl) s) (fun _ => .refl s)

theorem beside_reachEof (s : UtpSocket) : Beside env true f m s (s.reachEof env) := by
  unfold reachEof
  refine .ite (fun _ => ?_) (fun _ => .refl s)
  exact ((beside_setRecv env _ s).trans (beside_setCc_rto env (min (s.cc.rto * 3) 60) rfl)).trans
    (((beside_emit env rfl (fun _ => rfl) _).trans (beside_sendAck env _ _)).trans (beside_setRecv env _ _))

theorem beside_drainLoop (n : ℕ) (s : UtpSocket) : Beside env true f m s (s.drainLoop env n) := by
  induction n generalizing s with
  | zero => exact .refl s
  | succ n ih =>
    unfold drainLoop
    have h := beside_reachEof env (f := f) (m := m) s
    generalize s.reachEof env = t at h ⊢
    dsimp only
    split
    · exact h
    · split
      · exact h.trans (beside_setRecv env _ t)
      · rename_i p hp
        have h' := h.trans ((beside_setRecv env (r := true) (f := f) (m := m) _ t).trans
          (beside_onRead env p.data t.takeInbuf))
        exact (h'.trans ((beside_setRecv env _ _).trans (beside_assert env _ _ rfl))).trans
          ((beside_setRecv env _ _).trans (ih _))

theorem beside_deliverData (pp : ParsedPacket) (seqnr : UInt16) (s : UtpSocket) :
    Beside env true f m s (s.deliverData env pp seqnr) := by
  unfold deliverData
  have h : Beside env true f m s (s.noteFin pp) :=
    .ite (fun _ => beside_setRecv env _ s) (fun _ => .refl s)
  generalize s.noteFin pp = t at h ⊢
  refine h.trans (.ite (fun _ => ?_) (fun _ => ?_))
  · exact ((beside_onRead env _ t).trans (beside_setRecv env _ _)).trans
      ((beside_drainLoop env _ _).trans (beside_scheduleAck env _))
  · unfold storeOutOfOrder
    refine .ite (fun _ => .refl t) (fun _ => .ite (fun _ => .refl t) (fun _ => ?_))
    have hg : Beside env true f m t (t.growInbuf pp seqnr) := beside_setRecv env _ t
    refine .ite (fun _ => hg) (fun _ => hg.trans ?_)
    exact (((beside_assert env _ _ rfl).trans (beside_assert env _ _ rfl)).trans
      (beside_setRecv env _ _)).trans (beside_scheduleAck env _)

theorem beside_processAck (pp : ParsedPacket) (time : UInt64) (s : UtpSocket) :
    Beside env true true true s (s.processAck env pp time) := by
  unfold processAck
  exact (((beside_countDuplicate env pp s).trans (beside_processAcks env _ _ _ _)).trans
    (beside_advanceSendWindow env (r := true) pp nofun _)).trans (((beside_selectiveAckOf env pp _).trans
      (beside_assert env _ _ rfl)).trans (beside_becomeWritable env _))

/-- The start of `process_incoming`. -/
theorem beside_openPacket (pp : ParsedPacket) (s : UtpSocket) : Beside env r f m s
    (((s.assert (pp.type ≠ ST_RESET) .incomingReset).synSentAck pp).setTiming
      { ((s.assert (pp.type ≠ ST_RESET) .incomingReset).synSentAck pp).timing with
        lastGotPacket := ((s.assert (pp.type ≠ ST_RESET) .incomingReset).synSentAck pp).currentMs }) := by
  have h : Beside env r f m s ((s.assert (pp.type ≠ ST_RESET) .incomingReset).synSentAck pp) :=
    (beside_assert env _ s rfl).trans (.ite (fun _ => beside_setRecv env _ _) (fun _ => .refl _))
  exact h.trans (beside_setTiming env rfl)

theorem beside_processIncoming (b : Bytes) (syn : Bool) (s : UtpSocket) :
    Beside env true true true s (s.processIncoming env b syn) := by
  unfold processIncoming
  have h : Beside env true true true s ((s.refreshClock env).parsePacket b).2 :=
    (beside_refreshClock env s).trans (.of_eq rfl)
  generalize (s.refreshClock env).parsePacket b = a at h ⊢
  dsimp only
  split
  · exact h
  · rename_i pp hp
    have h' := h.trans (beside_asked env a.2)
    refine .ite (fun _ => h') (fun _ => h'.trans ?_)
    unfold processValid
    have ho := beside_openPacket env (r := true) (f := true) (m := true) pp a.2.asked
    dsimp only
    generalize ((a.2.asked.assert (pp.type ≠ ST_RESET) .incomingReset).synSentAck pp).setTiming _ = t
      at ho ⊢
    refine ho.trans (.ite (fun _ => .refl t) (fun _ => .ite (fun _ => ?_) (fun _ => ?_)))
    · exact .ite (fun _ => beside_scheduleAck env t) (fun _ => .refl t)
    · have hack := beside_processAck env pp (env.microseconds a.2.tick) t
      refine .ite (fun _ => hack) (fun _ => .ite (fun _ => hack) (fun _ => hack.trans ?_))
      exact beside_deliverData env _ _ _

/-! Timers. -/

theorem outer_probeTimeout (s : UtpSocket) : s.probeTimeout.2.outer = { s.outer with
    search := ⟨(s.mtu.handleProbeTimeout (s.send.seqNr - 1).toUInt32
        s.send.curWindowPackets.toUInt32 s.currentMs).2, s.outer.search.fails ++
      failure (s.mtu.probeTimedOut (s.send.seqNr - 1).toUInt32 s.send.curWindowPackets.toUInt32 →
        s.mtu.lowerCeiling.boundsAssert) .mtuSearch⟩ } := by
  unfold probeTimeout
  dsimp only
  unfold assert failure
  split
  · simp [outer, setMtu, out, currentMs]
  · simp [outer, setMtu, emit, out, currentMs, Effect.onSearch, Effect.onProbe]

theorem beside_probeTimeout (s : UtpSocket) : Beside env r f true s s.probeTimeout.2 := by
  have h := outer_probeTimeout s
  refine .of_search (by rw [h]) ?_
  rw [h]
  exact .single (.timeout _ _ _)

theorem beside_checkInvariant (s : UtpSocket) : Beside env r f m s s.checkInvariant := by
  unfold checkInvariant
  exact (beside_assert env _ s rfl).trans (beside_assert env _ _ rfl)

theorem beside_markLoop (n i : ℕ) (s : UtpSocket) : Beside env r f m s (s.markLoop n i) := by
  induction n generalizing i s with
  | zero => exact .refl s
  | succ n ih =>
    unfold markLoop
    dsimp only
    split
    · exact ih _ s
    · split
      · exact ih _ s
      · exact ((beside_setSend env _ s).trans (beside_removeInFlight env _ _)).trans (ih _ _)

theorem beside_markWindow (s : UtpSocket) : Beside env r f m s s.markWindow := by
  unfold markWindow
  exact (beside_markLoop env _ _ s).trans (beside_setSend env _ _)

theorem timer_onRtoTimeout (c : LedbatController) (size : ℕ) (cur : UInt16) :
    (c.onRtoTimeout size cur).timer = c.timer := by
  rw [LedbatController.onRtoTimeout]
  split <;> rfl

theorem beside_backOff (ignoreLoss : Bool) (s : UtpSocket) :
    Beside env true f m s (s.backOff ignoreLoss) := by
  unfold backOff
  dsimp only
  have h : Beside env true f m s (s.setCc { s.cc with
      retransmitTimeout := if ignoreLoss then s.cc.retransmitTimeout else s.cc.retransmitTimeout * 2
      rtoTimeout := s.currentMs +
        (if ignoreLoss then s.cc.retransmitTimeout else s.cc.retransmitTimeout * 2).toUInt64 }) :=
    beside_setCc_rto env (if ignoreLoss then s.cc.retransmitTimeout else s.cc.retransmitTimeout * 2) rfl
  refine .ite (fun _ => h) (fun _ => ?_)
  refine (h.trans (beside_setDuplicateAck env 0 _)).trans (beside_setCc env ?_)
  exact timer_onRtoTimeout _ _ _

theorem beside_resendHead (s : UtpSocket) : Beside env true f true s (s.resendHead env) := by
  unfold resendHead
  refine .ite (fun _ => ?_) (fun _ => .refl s)
  have h₁ : Beside env true f true s
      (s.setCc { s.cc with retransmitCount := s.cc.retransmitCount + 1 }) := beside_setCc_count env rfl
  have h₂ : Beside env true f true (s.setCc { s.cc with retransmitCount := s.cc.retransmitCount + 1 })
      ((s.setCc { s.cc with retransmitCount := s.cc.retransmitCount + 1 }).setTiming { s.timing with
        fastTimeout := true
        timeoutSeqNr := s.send.seqNr }) := beside_setTiming env rfl
  dsimp only
  generalize (s.setCc { s.cc with retransmitCount := s.cc.retransmitCount + 1 }).setTiming
    { s.timing with fastTimeout := true, timeoutSeqNr := s.send.seqNr } = t at h₂ ⊢
  exact (h₁.trans h₂).trans ((beside_assert env _ _ rfl).trans (beside_sendPacket env _ _))

theorem beside_rtoExpired (s : UtpSocket) : Beside env true f true s (s.rtoExpired env).2 := by
  unfold rtoExpired
  have h := beside_probeTimeout env (r := true) (f := f) s
  generalize s.probeTimeout = a at h ⊢
  have htime (st : ConnState) : Beside env true f true a.2 (a.2.timeOut st) :=
    (beside_setState env _ _).trans (beside_emit env rfl (fun _ => rfl) _)
  dsimp only
  split_ifs
  · exact h.trans (htime _)
  · exact h.trans (htime _)
  · exact h.trans (htime _)
  · exact (h.trans (beside_backOff env _ _)).trans
      ((beside_markWindow env _).trans (beside_resendHead env _))

theorem beside_reopenWindow (s : UtpSocket) : Beside env r f m s s.reopenWindow := by
  unfold reopenWindow
  exact .ite (fun _ => beside_setSend env _ s) (fun _ => .refl s)

theorem beside_keepAlive (s : UtpSocket) : Beside env r f m s (s.keepAlive env) :=
  .ite (fun _ => beside_sendKeepAlive env s) (fun _ => .refl s)

/-- A timer that is not armed does not expire. -/
theorem isRtoExpired_unarmed {c : LedbatController} (h : c.rtoTimeout = 0) (ms : UInt64) :
    c.isRtoExpired ms = false := by
  unfold LedbatController.isRtoExpired
  rw [h]
  simp

theorem unarmed_beside {s t : UtpSocket} (h : Beside env r f m s t) (hr : r = false)
    (hs : s.cc.rtoTimeout = 0) : t.cc.rtoTimeout = 0 := (h.rto hr).trans hs

theorem beside_ifExpired {s : UtpSocket} (hr : r = false → s.cc.rtoTimeout = 0) : Beside env r f true s
    (if s.cc.isRtoExpired s.currentMs then s.rtoExpired env else (false, s)).2 := by
  cases r with
  | false =>
    rw [isRtoExpired_unarmed (hr rfl)]
    exact .refl s
  | true =>
    split
    · exact beside_rtoExpired env s
    · exact .refl s

theorem beside_checkTimeouts {s : UtpSocket} (hr : r = false → s.cc.rtoTimeout = 0) :
    Beside env r f true s (s.checkTimeouts env) := by
  unfold checkTimeouts
  have h₁ : Beside env r f true s (s.checkInvariant.assert s.headPresent .timeoutHead) :=
    (beside_checkInvariant env s).trans (beside_assert env _ _ rfl)
  generalize s.checkInvariant.assert s.headPresent .timeoutHead = t at h₁ ⊢
  have h₂ : Beside env r f true t (if t.conn.state ≠ .destroy then (t.flushPackets env).2 else t) :=
    .ite (fun _ => beside_flushPackets env t) (fun _ => .refl t)
  dsimp only
  generalize (if t.conn.state ≠ .destroy then (t.flushPackets env).2 else t) = u at h₂ ⊢
  refine (h₁.trans h₂).trans (.ite (fun _ => ?_) (fun _ => .refl u))
  have h₃ := beside_reopenWindow env (r := r) (f := f) (m := true) u
  generalize u.reopenWindow = v at h₃ ⊢
  have h := (h₁.trans h₂).trans h₃
  have hv : r = false → v.cc.rtoTimeout = 0 := fun h' => unarmed_beside env h h' (hr h')
  have h₄ := beside_ifExpired env (f := f) hv
  generalize (if v.cc.isRtoExpired v.currentMs then v.rtoExpired env else (false, v)) = w at h₄ ⊢
  refine h₃.trans (h₄.trans (.ite (fun _ => .refl _) (fun _ => ?_)))
  exact (beside_becomeWritable env _).trans (beside_keepAlive env _)

/-! The application. -/

theorem beside_writevLoop (packetSize fuel bytes sent : ℕ) (iov : List Bytes) (s : UtpSocket) :
    Beside env true f true s (s.writevLoop env packetSize fuel bytes sent iov).2 := by
  induction fuel generalizing bytes sent iov s with
  | zero => exact .refl s
  | succ fuel ih =>
    unfold writevLoop
    dsimp only
    generalize min bytes packetSize = num
    have h := beside_isFull env (r := true) (f := f) (m := true) (int32 num) s
    generalize s.isFull (int32 num) = a at h ⊢
    split
    · exact h
    · have hw := h.trans (beside_writeOutgoingPacket env num ST_DATA iov a.2)
      generalize a.2.writeOutgoingPacket env num ST_DATA iov = w at hw ⊢
      split
      · exact hw
      · exact hw.trans (ih _ _ _ _)

theorem beside_writev (iov : List Bytes) (s : UtpSocket) :
    Beside env true f true s (s.writev env iov).2 := by
  unfold writev
  dsimp only
  split
  · exact .refl s
  · have h := (beside_refreshClock env (r := true) (f := f) (m := true) s).trans (beside_writevLoop env
      (s.refreshClock env).getPacketSize (totalLength (iov.take UTP_IOV_MAX) + 1)
      (totalLength (iov.take UTP_IOV_MAX)) 0 (iov.take UTP_IOV_MAX) _)
    generalize (s.refreshClock env).writevLoop env (s.refreshClock env).getPacketSize
      (totalLength (iov.take UTP_IOV_MAX) + 1) (totalLength (iov.take UTP_IOV_MAX)) 0
      (iov.take UTP_IOV_MAX) = a at h ⊢
    split
    · exact h
    · have h' := h.trans (beside_isFull env (-1) a.2)
      generalize a.2.isFull (-1) = w at h' ⊢
      exact .ite (fun _ => h'.trans (beside_setState env _ _)) (fun _ => h')

theorem beside_readDrained (s : UtpSocket) : Beside env r f m s (s.readDrained env) := by
  unfold readDrained
  have h := beside_assert env (r := r) (f := f) (m := m) (s.conn.state ≠ .uninitialized)
    (a := .readDrainedState) s rfl
  generalize s.assert (s.conn.state ≠ .uninitialized) .readDrainedState = t at h ⊢
  have h' := h.trans (beside_askRcvWindow env t)
  dsimp only
  refine .ite (fun _ => h) (fun _ => .ite (fun _ => .ite (fun _ => ?_) (fun _ => ?_)) (fun _ => h'))
  · exact h'.trans (beside_sendAck env _ _)
  · exact h'.trans ((beside_refreshClock env _).trans (beside_scheduleAck env _))

theorem beside_backoffRtoForClose (s : UtpSocket) :
    Beside env true f m s (s.backoffRtoForClose env) :=
  .trans (beside_asked env s) (.of_rto rfl fun henv _ _ =>
    (henv s.tick).add_ne_zero (min (s.cc.rto * 2) 60))

theorem beside_closeConnected (s : UtpSocket) : Beside env true f true s (s.closeConnected env) := by
  unfold closeConnected
  have h : Beside env true f true s s.markReadShutdown.requestClose :=
    (beside_setRecv env _ s).trans (beside_setSend env _ _)
  generalize s.markReadShutdown.requestClose = t at h ⊢
  exact h.trans (.ite (fun _ => beside_sendFin env t)
    (fun _ => .ite (fun _ => beside_setState env _ t) (fun _ => .refl t)))

theorem beside_close (s : UtpSocket) : Beside env true f true s (s.close env) := by
  unfold close
  have h := beside_assert env (r := true) (f := f) (m := true)
    (s.conn.state ≠ .uninitialized ∧ s.conn.state ≠ .destroy) (a := .closeState) s rfl
  generalize s.assert (s.conn.state ≠ .uninitialized ∧ s.conn.state ≠ .destroy) .closeState = t
    at h ⊢
  dsimp only
  split
  · exact h.trans (beside_closeConnected env t)
  · exact h.trans (beside_closeConnected env t)
  · exact h.trans ((beside_backoffRtoForClose env t).trans (beside_setState env _ _))
  · exact h.trans (beside_setState env _ t)

theorem beside_shutdown (how : ShutdownHow) (s : UtpSocket) :
    Beside env true f true s (s.shutdown env how) := by
  unfold shutdown
  have h := beside_assert env (r := true) (f := f) (m := true)
    (s.conn.state ≠ .uninitialized ∧ s.conn.state ≠ .destroy) (a := .closeState) s rfl
  generalize s.assert (s.conn.state ≠ .uninitialized ∧ s.conn.state ≠ .destroy) .closeState = t
    at h ⊢
  have h' : Beside env true f true t (if how ≠ .wr then t.markReadShutdown else t) :=
    .ite (fun _ => beside_setRecv env _ t) (fun _ => .refl t)
  dsimp only
  generalize (if how ≠ .wr then t.markReadShutdown else t) = u at h' ⊢
  refine (h.trans h').trans ?_
  split
  · exact .ite (fun _ => beside_sendFin env u) (fun _ => .refl u)
  · exact .ite (fun _ => beside_sendFin env u) (fun _ => .refl u)
  · exact .ite (fun _ => beside_backoffRtoForClose env u) (fun _ => .refl u)
  · exact .refl u

theorem beside_onReset (s : UtpSocket) : Beside env r f m s s.onReset := by
  unfold onReset
  exact (beside_setState env _ s).trans (beside_emit env rfl (fun _ => rfl) _)

theorem beside_onIcmpError (s : UtpSocket) : Beside env r f m s s.onIcmpError := by
  unfold onIcmpError
  exact .ite (fun _ => .refl s) (fun _ => (beside_setState env _ s).trans (beside_emit env rfl (fun _ => rfl) _))

theorem beside_connectAgain (s : UtpSocket) : Beside env r f m s s.connectAgain := by
  unfold connectAgain
  exact (beside_assert env _ s rfl).trans (beside_setState env _ _)

theorem beside_setOption (opt : SocketOption) (val : ℤ) (s : UtpSocket) :
    Beside env r f m s (s.setOption opt val) := by
  cases opt with
  | sndbuf => exact (beside_assert env _ s rfl).trans (beside_setSend env _ _)
  | rcvbuf => exact (beside_assert env _ s rfl).trans (beside_setRecv env _ _)
  | targetDelay => exact .of_eq rfl

end UtpSocket

end Utp
