import LibUtp.Kernel.Life

/-! The arrival of a datagram, with the kernel and what lies beside it seen together: it is
dropped and changes neither, or it is accepted and goes on to its acknowledgement part. -/

namespace Utp

open Lts

namespace UtpSocket

variable (env : Env) {r f m : Bool}

/-- What follows the acceptance tests. -/
def takePacket (pp : ParsedPacket) (time : UInt64) (s : UtpSocket) : UtpSocket :=
  let t := s.processAck env pp time
  if pp.type = ST_STATE then t
  else if t.conn.state ≠ .connected ∧ t.conn.state ≠ .connectedFull then t
  else t.deliverData env pp (s.seqDistance pp)

/-- The kernel waits for `pp` or is unchanged, and nothing beside it has moved. -/
def Unmoved (pp : ParsedPacket) (s t : UtpSocket) : Prop :=
  t.kernel = s.kernel.expect pp ∧ Beside env false false false s t

theorem unmoved_openPacket (pp : ParsedPacket) (s : UtpSocket) : Unmoved env pp s
    (((s.assert (pp.type ≠ ST_RESET) .incomingReset).synSentAck pp).setTiming
      { ((s.assert (pp.type ≠ ST_RESET) .incomingReset).synSentAck pp).timing with
        lastGotPacket := ((s.assert (pp.type ≠ ST_RESET) .incomingReset).synSentAck pp).currentMs }) := by
  refine ⟨?_, beside_openPacket env pp s⟩
  rw [kernel_setTiming, kernel_synSentAck, kernel_assert]

theorem Unmoved.trans {pp : ParsedPacket} {s t u : UtpSocket} (h : Unmoved env pp s t)
    (hk : u.kernel = t.kernel) (hb : Beside env false false false t u) : Unmoved env pp s u :=
  ⟨hk.trans h.1, h.2.trans hb⟩

/-- A datagram is dropped unread, or the packet in it fails a test, or passes them all. -/
inductive Arrives (b : Bytes) (s t : UtpSocket) : Prop
  | dropped (hp : (parseBytes b s.conn.extensions).1 = none) (hk : t.kernel = s.kernel)
      (hb : Beside env false false false s t)
  | refused {pp} (hp : (parseBytes b s.conn.extensions).1 = some pp) (hn : ¬ s.Accepts pp)
      (h : t.kernel = s.kernel ∨ t.kernel = s.kernel.expect pp) (hb : Beside env false false false s t)
  | accepted {pp time u} (hp : (parseBytes b s.conn.extensions).1 = some pp) (ha : s.Accepts pp)
      (h : Unmoved env pp s u) (ht : t = u.takePacket env pp time)

theorem arrives_processValid {b : Bytes} {pp : ParsedPacket} (time : UInt64) {s t : UtpSocket}
    (hp : (parseBytes b s.conn.extensions).1 = some pp) (hk : t.kernel = s.kernel)
    (hb : Beside env false false false s t) (hv : s.invalidAck pp = false) :
    Arrives env b s (t.processValid env pp time false) := by
  unfold processValid
  obtain ⟨hk', hb'⟩ := unmoved_openPacket env pp t
  dsimp only
  generalize ((t.assert (pp.type ≠ ST_RESET) .incomingReset).synSentAck pp).setTiming _ = u
    at hk' hb' ⊢
  rw [hk] at hk'
  have hd : u.seqDistance pp = (s.kernel.expect pp).seqDistance pp := by
    rw [← hk']
    rfl
  rw [if_neg (by simp)]
  by_cases h : REORDER_BUFFER_MAX_SIZE ≤ (u.seqDistance pp).toNat
  · have hn : ¬ s.Accepts pp := by
      rintro ⟨-, hlt⟩
      rw [← hd] at hlt
      exact absurd h (not_le.2 hlt)
    rw [if_pos h]
    split
    · exact .refused hp hn (.inr hk') ((hb.trans hb').trans (beside_scheduleAck env u))
    · exact .refused hp hn (.inr hk') (hb.trans hb')
  · rw [if_neg h]
    refine .accepted (u := u) hp ⟨hv, ?_⟩ ⟨hk', hb.trans hb'⟩ rfl
    rw [← hd]
    exact not_le.1 h

theorem arrives_processIncoming (b : Bytes) (s : UtpSocket) :
    Arrives env b s (s.processIncoming env b false) := by
  unfold processIncoming
  have h : Beside env false false false s ((s.refreshClock env).parsePacket b).2 :=
    (beside_refreshClock env s).trans (.of_eq rfl)
  have hk : ((s.refreshClock env).parsePacket b).2.kernel = s.kernel := rfl
  have hp : ((s.refreshClock env).parsePacket b).1 = (parseBytes b s.conn.extensions).1 := rfl
  generalize (s.refreshClock env).parsePacket b = a at h hk hp ⊢
  dsimp only
  cases ha : a.1 with
  | none => exact .dropped (hp.symm.trans ha) hk h
  | some pp =>
    rw [ha] at hp
    have hv : a.2.asked.invalidAck pp = s.invalidAck pp := invalidAck_congr hk pp
    have h' := h.trans (beside_asked env a.2)
    dsimp only
    split
    · rename_i hi
      rw [hv] at hi
      exact .refused hp.symm (fun hacc => by rw [hacc.1] at hi; cases hi) (.inl hk) h'
    · rename_i hi
      rw [hv] at hi
      exact arrives_processValid env _ hp.symm hk h' (Bool.eq_false_iff.2 hi)

/-- The socket as the acknowledgement part of the packet `pp` in `b` finds it. -/
def openPacket (b : Bytes) (pp : ParsedPacket) (s : UtpSocket) : UtpSocket :=
  let s := (((s.refreshClock env).parsePacket b).2.asked.assert (pp.type ≠ ST_RESET) .incomingReset
    ).synSentAck pp
  s.setTiming { s.timing with lastGotPacket := s.currentMs }

theorem unmoved_opened (b : Bytes) (pp : ParsedPacket) (s : UtpSocket) :
    Unmoved env pp s (s.openPacket env b pp) := by
  unfold openPacket
  have h₀ : Beside env false false false s ((s.refreshClock env).parsePacket b).2 :=
    (beside_refreshClock env s).trans (.of_eq rfl)
  have h := h₀.trans (beside_asked env _)
  have hk : ((s.refreshClock env).parsePacket b).2.asked.kernel = s.kernel := rfl
  generalize ((s.refreshClock env).parsePacket b).2.asked = t at h hk ⊢
  obtain ⟨hk', hb⟩ := unmoved_openPacket env pp t
  rw [hk] at hk'
  exact ⟨hk', h.trans hb⟩

/-- A packet that passes the tests goes on to its acknowledgement part. -/
theorem processIncoming_accepted {b : Bytes} {pp : ParsedPacket} {s : UtpSocket}
    (hp : (parseBytes b s.conn.extensions).1 = some pp) (ha : s.Accepts pp) :
    s.processIncoming env b false = (s.openPacket env b pp).takePacket env pp
      (env.microseconds ((s.refreshClock env).parsePacket b).2.tick) := by
  obtain ⟨hk, -⟩ := unmoved_opened env b pp s
  have hd : (s.openPacket env b pp).seqDistance pp = (s.kernel.expect pp).seqDistance pp := by
    rw [← hk]
    rfl
  have hp' : ((s.refreshClock env).parsePacket b).1 = some pp := hp
  have hv : ((s.refreshClock env).parsePacket b).2.asked.invalidAck pp = false :=
    (invalidAck_congr (t := ((s.refreshClock env).parsePacket b).2.asked) (s := s) rfl pp).trans ha.1
  unfold processIncoming
  dsimp only
  rw [hp']
  dsimp only
  rw [hv, if_neg Bool.false_ne_true]
  unfold processValid
  rw [if_neg Bool.false_ne_true]
  show (if REORDER_BUFFER_MAX_SIZE ≤ ((s.openPacket env b pp).seqDistance pp).toNat then _ else _) = _
  rw [hd, if_neg (not_le.2 ha.2)]
  rfl

/-- The acknowledgement number that an operation applies. -/
def Op.acks (s : UtpSocket) : Op → List UInt16
  | .processIncoming b =>
    match (parseBytes b s.conn.extensions).1 with
    | some pp => if s.Accepts pp then [pp.ackNr] else []
    | none => []
  | _ => []

theorem acks_dropped {b : Bytes} {s : UtpSocket} (hp : (parseBytes b s.conn.extensions).1 = none) :
    (Op.processIncoming b).acks s = [] := by
  simp only [Op.acks, hp]

theorem acks_refused {b : Bytes} {s : UtpSocket} {pp : ParsedPacket}
    (hp : (parseBytes b s.conn.extensions).1 = some pp) (hn : ¬ s.Accepts pp) :
    (Op.processIncoming b).acks s = [] := by
  simp only [Op.acks, hp]
  exact if_neg hn

theorem acks_accepted {b : Bytes} {s : UtpSocket} {pp : ParsedPacket}
    (hp : (parseBytes b s.conn.extensions).1 = some pp) (ha : s.Accepts pp) :
    (Op.processIncoming b).acks s = [pp.ackNr] := by
  simp only [Op.acks, hp]
  exact if_pos ha

end UtpSocket

end Utp
