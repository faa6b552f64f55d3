import LibUtp.Kernel.Life

/-! The size of a packet. Whatever ICMP messages report, the MTU in use is at least the 576 of
`reset` and fits into 16 bits, as long as the host never answers a smaller one. -/

namespace Utp

open Lts Relation

namespace MtuDiscovery

variable {m : MtuDiscovery} {x y : UInt32}

/-- An MTU with room behind the header. -/
def Fits (x : UInt32) : Prop := 576 ≤ x.toNat ∧ x.toNat < 2 ^ 16

theorem fits_floor : Fits 576 := by
  unfold Fits
  decide

theorem fits_answer {U : UInt16} (hU : 576 ≤ U) : Fits U.toUInt32 := by
  unfold Fits
  rw [UInt16.toNat_toUInt32]
  exact ⟨UInt16.le_iff_toNat_le.1 hU, U.toNat_lt⟩

/-- A search that moves among such MTUs. Its bounds may be out of order. -/
structure Usable (m : MtuDiscovery) : Prop where
  floor : Fits m.floor
  ceiling : Fits m.ceiling
  last : Fits m.last
  probe : m.probeSeq ≠ 0 → 576 < m.probeSize.toNat ∧ m.probeSize.toNat < 2 ^ 16

theorem fits_mid (hx : Fits x) (hy : Fits y) : Fits ((x + y) / 2) := by
  unfold Fits at *
  have hsum : (x + y).toNat = x.toNat + y.toNat := by
    rw [UInt32.toNat_add, Nat.mod_eq_of_lt (by omega)]
  rw [UInt32.toNat_div, hsum, show (2 : UInt32).toNat = 2 from rfl]
  omega

theorem fits_min (hx : Fits x) (hy : Fits y) : Fits (min x y) := by
  show Fits (if x ≤ y then x else y)
  split
  · exact hx
  · exact hy

theorem usable_searchUpdate (hf : Fits m.floor) (hc : Fits m.ceiling) (ms : UInt64) :
    (m.searchUpdate ms).Usable := by
  unfold searchUpdate
  dsimp only
  split
  · exact ⟨hf, hf, hf, fun h => absurd rfl h⟩
  · exact ⟨hf, hc, fits_mid hf hc, fun h => absurd rfl h⟩

theorem Usable.clearProbe (h : m.Usable) : m.clearProbe.Usable :=
  ⟨h.floor, h.ceiling, h.last, fun h0 => absurd rfl h0⟩

theorem Usable.reset (h : m.Usable) {U : UInt16} (hU : 576 ≤ U) (ms : UInt64) :
    (m.reset U.toUInt32 ms).Usable := by
  unfold MtuDiscovery.reset
  exact ⟨fits_floor, fits_answer hU, h.last, h.probe⟩

theorem Usable.setProbe (h : m.Usable) (seq : UInt32) {length : ℕ} (h₁ : m.floor.toNat < length)
    (h₂ : length ≤ m.ceiling.toNat) : (m.setProbe seq (UInt32.ofNat length)).Usable := by
  obtain ⟨hf, -⟩ := h.floor
  obtain ⟨-, hc⟩ := h.ceiling
  refine ⟨h.floor, h.ceiling, h.last, fun _ => ?_⟩
  show 576 < (UInt32.ofNat length).toNat ∧ (UInt32.ofNat length).toNat < 2 ^ 16
  rw [UInt32.toNat_ofNat']
  omega

/-- The probe was acknowledged. -/
theorem Usable.raiseFloor (h : m.Usable) (hp : m.probeSeq ≠ 0) (ms : UInt64) :
    (m.raiseFloor.searchUpdate ms).Usable := by
  obtain ⟨h₁, h₂⟩ := h.probe hp
  exact usable_searchUpdate (m := m.raiseFloor) ⟨by show 576 ≤ m.probeSize.toNat; omega, h₂⟩ h.ceiling ms

/-- The probe was lost. -/
theorem Usable.lowerCeiling (h : m.Usable) (hp : m.probeSeq ≠ 0) (ms : UInt64) :
    (m.lowerCeiling.searchUpdate ms).Usable := by
  obtain ⟨h₁, h₂⟩ := h.probe hp
  have hpred : (m.probeSize - 1).toNat = m.probeSize.toNat - 1 := by
    rw [UInt32.toNat_sub_of_le _ _ (UInt32.le_iff_toNat_le.2 (by rw [UInt32.toNat_one]; omega))]
    rfl
  refine usable_searchUpdate (m := m.lowerCeiling) h.floor ?_ ms
  show 576 ≤ (m.probeSize - 1).toNat ∧ (m.probeSize - 1).toNat < 2 ^ 16
  omega

theorem isProbe_ne {seq : UInt32} (h : m.isProbe seq) : m.probeSeq ≠ 0 := by
  unfold isProbe at h
  rw [Bool.and_eq_true, decide_eq_true_eq] at h
  exact h.1

end MtuDiscovery

/-- Every answer about the MTU passes the assertion of `reset`. -/
def Env.MtuInRange (env : Env) : Prop := ∀ n, 576 ≤ env.udpMtu n

theorem usable_mtuStep {env : Env} (hU : env.MtuInRange) {x y : Search} (h : x.mtu.Usable)
    (hs : MtuStep env x y) : y.mtu.Usable := by
  cases hs with
  | reset n ms => exact h.reset (hU n) ms
  | probe seq length hs h₁ h₂ => exact h.setProbe seq h₁ h₂
  | @ack m l seq ms =>
    show (m.handleProbeAck seq ms).Usable
    unfold MtuDiscovery.handleProbeAck
    split
    · exact h.raiseFloor (MtuDiscovery.isProbe_ne ‹_›) ms
    · exact h
  | loss hp ms => exact (h.lowerCeiling hp ms).clearProbe
  | clear => exact h.clearProbe
  | @timeout m l seq cur ms =>
    show (m.handleProbeTimeout seq cur ms).2.Usable
    unfold MtuDiscovery.handleProbeTimeout
    split
    · rename_i ht
      unfold MtuDiscovery.probeTimedOut at ht
      rw [Bool.and_eq_true] at ht
      exact (h.lowerCeiling (MtuDiscovery.isProbe_ne ht.2) ms).clearProbe
    · exact h.clearProbe

theorem Beside.usable {env : Env} (hU : env.MtuInRange) {r f m : Bool} {s t : UtpSocket}
    (h : Beside env r f m s t) (hs : s.mtu.Usable) : t.mtu.Usable := by
  have hm := h.search
  have hs : s.outer.search.mtu.Usable := hs
  show t.outer.search.mtu.Usable
  generalize t.outer.search = y at hm
  induction hm with
  | refl => exact hs
  | tail _ hstep ih => exact usable_mtuStep hU ih hstep

namespace UtpSocket

theorem usable_freshMtu {U : UInt16} (hU : 576 ≤ U) (ms : UInt64) : (freshMtu U ms {}).Usable :=
  ⟨MtuDiscovery.fits_floor, MtuDiscovery.fits_answer hU, MtuDiscovery.fits_answer hU,
    fun h0 => absurd rfl h0⟩

theorem usable_initializeSocket {env : Env} (hU : env.MtuInRange) {s : UtpSocket} (hs : s.mtu = {})
    (addr : Address) (seed idRecv idSend : UInt32) :
    (s.initializeSocket env addr seed idRecv idSend).mtu.Usable := by
  obtain ⟨n, ms, h⟩ := outer_initializeSocket env addr seed idRecv idSend s
  have hm := congrArg (fun y => y.search.mtu) h
  have hm : (s.initializeSocket env addr seed idRecv idSend).mtu = freshMtu (env.udpMtu n) ms s.mtu := hm
  rw [hm, hs]
  exact usable_freshMtu (hU n) ms

theorem usable_onIcmpFragmentation {s : UtpSocket} (hs : s.mtu.Usable) (nextHopMtu : UInt16) :
    (s.onIcmpFragmentation nextHopMtu).mtu.Usable := by
  unfold onIcmpFragmentation
  split
  · rename_i h
    have hu := MtuDiscovery.usable_searchUpdate (m := s.mtu.capCeiling nextHopMtu) hs.floor
      (MtuDiscovery.fits_min (MtuDiscovery.fits_answer h.1) hs.ceiling) s.currentMs
    exact ⟨hu.floor, hu.ceiling, hu.ceiling, hu.probe⟩
  · exact MtuDiscovery.usable_searchUpdate (m := s.mtu.halveCeiling) hs.floor
      (MtuDiscovery.fits_mid hs.floor hs.ceiling) s.currentMs

theorem usable_op {env : Env} (hU : env.MtuInRange) {s : UtpSocket}
    (hset : s.conn.state ≠ .uninitialized) {op : Op} (hop : op.Enabled s) (hs : s.mtu.Usable) :
    (op.run env s).mtu.Usable := by
  by_cases hr : op.Routine
  · exact (beside_run env (f := true) hr nofun s).usable hU hs
  cases op with
  | connect addr seed =>
    simp only [Op.run, if_neg hset]
    exact (beside_connectAgain env (r := true) (f := true) (m := true) s).usable hU hs
  | accept addr syn => exact absurd hop hset
  | onIcmpFragmentation nextHopMtu => exact usable_onIcmpFragmentation hs nextHopMtu
  | _ => exact absurd trivial hr

theorem usable_setUp {env : Env} (hU : env.MtuInRange) {s : UtpSocket} (hs : s.Unset) {op : Op}
    (hc : op.SetsUp) : (op.run env s).mtu.Usable := by
  cases op with
  | connect addr seed =>
    simp only [Op.run, if_pos hs.state]
    exact (beside_sendSyn env (f := true) _).usable hU
      (usable_initializeSocket hU hs.mtu addr seed seed (seed + 1))
  | accept addr syn =>
    obtain ⟨t, id, rfl, hb⟩ := beside_acceptWith env (r := true) (m := true) addr syn s
    exact hb.usable hU (usable_initializeSocket hU hs.mtu addr id (id + 1) id)
  | _ => cases hc

/-- In every life on such a host the search stays usable. -/
theorem usable_life {targetDelay rcvbuf sndbuf : ℕ} {calls : List Call} {s : UtpSocket}
    (h : Life (fun env _ _ => env.MtuInRange) targetDelay rcvbuf sndbuf calls s) : s.mtu.Usable := by
  induction h with
  | @setUp calls c s s' h ho hs hc =>
    have hu := unset_early h ho (unset_new _ _ _)
    cases hs with
    | call env ms tick op hop hC =>
      exact usable_setUp hC (s := s.lend ms tick) ⟨hu.state, hu.mtu, hu.timing, hu.rto⟩ hc
  | @call calls l s s' h hs ih =>
    have hset := h.set
    cases hs with
    | call env ms tick op hop hC =>
      have hop := hop.lend ms tick
      exact usable_op hC (s := s.lend ms tick) hset hop ih

theorem packetSize_usable {s : UtpSocket} (h : s.mtu.Usable) :
    556 ≤ s.getPacketSize ∧ s.getPacketSize < 2 ^ 16 := by
  obtain ⟨h₁, h₂⟩ := h.last
  have hne : s.mtu.last ≠ 0 := by
    intro h0
    rw [h0] at h₁
    exact absurd h₁ (by decide)
  unfold getPacketSize MtuDiscovery.effectiveMtu MtuDiscovery.rawMtu PacketFormatV1.size
  rw [if_pos hne]
  omega

end UtpSocket

end Utp
