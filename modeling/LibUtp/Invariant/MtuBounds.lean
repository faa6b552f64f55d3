import LibUtp.Kernel.Life

/-! The bounds of the MTU search. They are ordered as long as no ICMP message
reports an MTU below the floor, and then no assertion of the search fails. -/

namespace Utp

open Lts Relation

namespace MtuDiscovery

variable {U : UInt16} {m : MtuDiscovery}

/-- The bounds of a search in a network with the MTU `U`. -/
structure Bounded (U : UInt16) (m : MtuDiscovery) : Prop where
  floor_ge : 576 ≤ m.floor
  floor_le : m.floor ≤ m.last
  last_le : m.last ≤ m.ceiling
  ceiling_le : m.ceiling ≤ U.toUInt32

/-- With the size of the probe that is out. -/
structure Searching (U : UInt16) (m : MtuDiscovery) : Prop extends Bounded U m where
  probe : m.probeSeq ≠ 0 → m.floor < m.probeSize ∧ m.probeSize ≤ m.ceiling

theorem Bounded.floor_le_ceiling (h : m.Bounded U) : m.floor ≤ m.ceiling :=
  UInt32.le_trans h.floor_le h.last_le

/-- `search_update` halves an ordered interval or closes it. -/
theorem searching_searchUpdate (h₁ : 576 ≤ m.floor) (h₂ : m.floor ≤ m.ceiling)
    (h₃ : m.ceiling ≤ U.toUInt32) (ms : UInt64) : (m.searchUpdate ms).Searching U := by
  have hU : U.toUInt32.toNat < 2 ^ 16 := by
    rw [UInt16.toNat_toUInt32]
    exact U.toNat_lt
  have hc := UInt32.le_iff_toNat_le.1 h₃
  have hf := UInt32.le_iff_toNat_le.1 h₂
  have hmid : ((m.floor + m.ceiling) / 2).toNat = (m.floor.toNat + m.ceiling.toNat) / 2 := by
    rw [UInt32.toNat_div, UInt32.toNat_add, Nat.mod_eq_of_lt (by omega)]
    rfl
  unfold searchUpdate
  dsimp only
  split
  · exact ⟨⟨h₁, UInt32.le_refl _, UInt32.le_refl _, UInt32.le_trans h₂ h₃⟩, fun h => absurd rfl h⟩
  · refine ⟨⟨h₁, ?_, ?_, h₃⟩, fun h => absurd rfl h⟩
    · apply UInt32.le_iff_toNat_le.2
      dsimp only
      rw [hmid]
      omega
    · apply UInt32.le_iff_toNat_le.2
      dsimp only
      rw [hmid]
      omega

theorem Searching.clearProbe (h : m.Searching U) : m.clearProbe.Searching U :=
  ⟨⟨h.floor_ge, h.floor_le, h.last_le, h.ceiling_le⟩, fun h0 => absurd rfl h0⟩

/-- The interval starts over; a probe that is out still lies in it. -/
theorem Searching.reset (h : m.Searching U) (ms : UInt64) : (m.reset U.toUInt32 ms).Searching U := by
  unfold MtuDiscovery.reset
  refine ⟨⟨UInt32.le_refl 576, UInt32.le_trans h.floor_ge h.floor_le,
    UInt32.le_trans h.last_le h.ceiling_le, UInt32.le_refl U.toUInt32⟩, fun hp => ?_⟩
  obtain ⟨h₁, h₂⟩ := h.probe hp
  exact ⟨UInt32.lt_of_le_of_lt h.floor_ge h₁, UInt32.le_trans h₂ h.ceiling_le⟩

theorem Searching.isProbe (h : m.Searching U) {seq : UInt32} (hp : m.isProbe seq) :
    m.floor < m.probeSize ∧ m.probeSize ≤ m.ceiling := by
  unfold MtuDiscovery.isProbe at hp
  rw [Bool.and_eq_true, decide_eq_true_eq] at hp
  exact h.probe hp.1

theorem Searching.raiseFloor (h : m.Searching U) {seq : UInt32} (hp : m.isProbe seq) :
    m.raiseFloor.boundsAssert := (h.isProbe hp).2

theorem Searching.handleProbeAck (h : m.Searching U) (seq : UInt32) (ms : UInt64) :
    (m.handleProbeAck seq ms).Searching U := by
  unfold MtuDiscovery.handleProbeAck
  split
  · rename_i hp
    obtain ⟨h₁, h₂⟩ := h.isProbe hp
    exact searching_searchUpdate (m := m.raiseFloor)
      (UInt32.le_trans h.floor_ge (UInt32.le_of_lt h₁)) h₂ h.ceiling_le ms
  · exact h

/-- A lost probe was larger than the floor. -/
theorem Searching.lowerCeiling (h : m.Searching U) (hp : m.probeSeq ≠ 0) :
    m.lowerCeiling.boundsAssert ∧ ∀ ms, (m.lowerCeiling.searchUpdate ms).Searching U := by
  obtain ⟨h₁, h₂⟩ := h.probe hp
  have h₁' := UInt32.lt_iff_toNat_lt.1 h₁
  have h₂' := UInt32.le_iff_toNat_le.1 h₂
  have hpred : (m.probeSize - 1).toNat = m.probeSize.toNat - 1 := by
    rw [UInt32.toNat_sub_of_le _ _ (UInt32.le_iff_toNat_le.2 (by rw [UInt32.toNat_one]; omega))]
    rfl
  have hle : m.floor ≤ m.probeSize - 1 := by
    apply UInt32.le_iff_toNat_le.2
    rw [hpred]
    omega
  refine ⟨hle, fun ms => searching_searchUpdate (m := m.lowerCeiling) h.floor_ge hle
    (UInt32.le_trans ?_ h.ceiling_le) ms⟩
  apply UInt32.le_iff_toNat_le.2
  show (m.probeSize - 1).toNat ≤ _
  rw [hpred]
  omega

theorem Searching.handleProbeTimeout (h : m.Searching U) (seq cur : UInt32) (ms : UInt64) :
    (m.handleProbeTimeout seq cur ms).2.Searching U ∧
      (m.probeTimedOut seq cur → m.lowerCeiling.boundsAssert) := by
  have hp (ht : m.probeTimedOut seq cur) : m.probeSeq ≠ 0 := by
    unfold MtuDiscovery.probeTimedOut MtuDiscovery.isProbe at ht
    simp only [Bool.and_eq_true, decide_eq_true_eq] at ht
    exact ht.2.1
  refine ⟨?_, fun ht => (h.lowerCeiling (hp ht)).1⟩
  unfold MtuDiscovery.handleProbeTimeout
  split
  · rename_i ht
    exact ((h.lowerCeiling (hp ht)).2 ms).clearProbe
  · exact h.clearProbe

theorem Searching.setProbe (h : m.Searching U) (seq : UInt32) {length : ℕ}
    (h₁ : m.floor.toNat < length) (h₂ : length ≤ m.ceiling.toNat) :
    (m.setProbe seq (UInt32.ofNat length)).Searching U := by
  have hlen : (UInt32.ofNat length).toNat = length := by
    have := m.ceiling.toNat_lt
    rw [UInt32.toNat_ofNat']
    omega
  refine ⟨⟨h.floor_ge, h.floor_le, h.last_le, h.ceiling_le⟩, fun _ => ⟨?_, ?_⟩⟩
  · apply UInt32.lt_iff_toNat_lt.2
    show _ < (UInt32.ofNat length).toNat
    rw [hlen]
    exact h₁
  · apply UInt32.le_iff_toNat_le.2
    show (UInt32.ofNat length).toNat ≤ _
    rw [hlen]
    exact h₂

/-- An ICMP message with an MTU that is not below the floor. -/
theorem Searching.capCeiling (h : m.Searching U) {nextHopMtu : UInt16}
    (hn : m.floor ≤ nextHopMtu.toUInt32) : (m.capCeiling nextHopMtu).boundsAssert ∧
      ∀ ms, ((m.capCeiling nextHopMtu).searchUpdate ms).Searching U := by
  have hmin : m.floor ≤ min nextHopMtu.toUInt32 m.ceiling := by
    show m.floor ≤ if nextHopMtu.toUInt32 ≤ m.ceiling then nextHopMtu.toUInt32 else m.ceiling
    split
    · exact hn
    · exact h.floor_le_ceiling
  have hmin' : min nextHopMtu.toUInt32 m.ceiling ≤ m.ceiling := by
    show (if nextHopMtu.toUInt32 ≤ m.ceiling then nextHopMtu.toUInt32 else m.ceiling) ≤ m.ceiling
    split
    · assumption
    · exact UInt32.le_refl _
  exact ⟨hmin, fun ms => searching_searchUpdate (m := m.capCeiling nextHopMtu) h.floor_ge hmin
    (UInt32.le_trans hmin' h.ceiling_le) ms⟩

theorem Searching.setLastToCeiling (h : m.Searching U) :
    ({ m with last := m.ceiling } : MtuDiscovery).Searching U :=
  ⟨⟨h.floor_ge, h.floor_le_ceiling, UInt32.le_refl _, h.ceiling_le⟩, h.probe⟩

theorem Searching.halveCeiling (h : m.Searching U) : m.halveCeiling.boundsAssert ∧
    ∀ ms, (m.halveCeiling.searchUpdate ms).Searching U := by
  have hU : U.toUInt32.toNat < 2 ^ 16 := by
    rw [UInt16.toNat_toUInt32]
    exact U.toNat_lt
  have hc := UInt32.le_iff_toNat_le.1 h.ceiling_le
  have hf := UInt32.le_iff_toNat_le.1 h.floor_le_ceiling
  have hmid : ((m.floor + m.ceiling) / 2).toNat = (m.floor.toNat + m.ceiling.toNat) / 2 := by
    rw [UInt32.toNat_div, UInt32.toNat_add, Nat.mod_eq_of_lt (by omega)]
    rfl
  have h₁ : m.floor ≤ (m.floor + m.ceiling) / 2 := by
    apply UInt32.le_iff_toNat_le.2
    rw [hmid]
    omega
  refine ⟨h₁, fun ms => searching_searchUpdate (m := m.halveCeiling) h.floor_ge h₁
    (UInt32.le_trans ?_ h.ceiling_le) ms⟩
  apply UInt32.le_iff_toNat_le.2
  show ((m.floor + m.ceiling) / 2).toNat ≤ _
  rw [hmid]
  omega

end MtuDiscovery

/-- A search within its bounds that has failed no assertion. -/
def Search.Ok (U : UInt16) (x : Search) : Prop := x.mtu.Searching U ∧ x.fails = []

/-- An assertion that holds adds nothing. -/
theorem append_failure {c : Prop} [Decidable c] (h : c) {l : List Effect} (hl : l = []) (a : Assertion) :
    l ++ failure c a = [] := by
  rw [hl, failure, if_pos h]
  rfl

/-- Every step of the search keeps its bounds. -/
theorem ok_mtuStep {U : UInt16} {env : Env} (hU : ∀ n, env.udpMtu n = U) {x y : Search}
    (h : x.Ok U) (hs : MtuStep env x y) : y.Ok U := by
  obtain ⟨hm, hl⟩ := h
  cases hs with
  | reset n ms =>
    rw [hU n]
    have hr := hm.reset ms
    exact ⟨hr, append_failure hr.floor_le_ceiling hl _⟩
  | probe seq length hs h₁ h₂ => exact ⟨hm.setProbe seq h₁ h₂, hl⟩
  | ack seq ms =>
    exact ⟨hm.handleProbeAck seq ms, append_failure (fun hp => hm.raiseFloor hp) hl _⟩
  | loss hp ms =>
    obtain ⟨h₁, h₂⟩ := hm.lowerCeiling hp
    exact ⟨(h₂ ms).clearProbe, append_failure h₁ hl _⟩
  | clear => exact ⟨hm.clearProbe, hl⟩
  | timeout seq cur ms =>
    obtain ⟨h₁, h₂⟩ := hm.handleProbeTimeout seq cur ms
    exact ⟨h₁, append_failure h₂ hl _⟩

theorem Beside.ok {U : UInt16} {env : Env} (hU : ∀ n, env.udpMtu n = U) {r f m : Bool}
    {s t : UtpSocket} (h : Beside env r f m s t) (hs : s.outer.search.Ok U) : t.outer.search.Ok U := by
  have hm := h.search
  generalize t.outer.search = y at hm
  induction hm with
  | refl => exact hs
  | tail _ hstep ih => exact ok_mtuStep hU ih hstep

namespace UtpSocket

/-- The MTU callback answers `U`, and no ICMP message reports less than the floor. -/
def MtuFair (U : UInt16) (env : Env) (s : UtpSocket) (op : Op) : Prop :=
  (∀ n, env.udpMtu n = U) ∧ ∀ nextHopMtu, op = .onIcmpFragmentation nextHopMtu →
    576 ≤ nextHopMtu → nextHopMtu < 0x2000 → s.mtu.floor ≤ nextHopMtu.toUInt32

theorem ok_freshMtu {U : UInt16} (hU : 576 ≤ U) (ms : UInt64) :
    (freshMtu U ms {}).Searching U ∧ (({} : MtuDiscovery).reset U.toUInt32 ms).boundsAssert := by
  have h : (576 : UInt32) ≤ U.toUInt32 := by
    apply UInt32.le_iff_toNat_le.2
    rw [UInt16.toNat_toUInt32]
    exact UInt16.le_iff_toNat_le.1 hU
  exact ⟨⟨⟨UInt32.le_refl _, h, UInt32.le_refl _, UInt32.le_refl _⟩, fun h0 => absurd rfl h0⟩, h⟩

theorem ok_initializeSocket {U : UInt16} (hU : 576 ≤ U) {env : Env} (hmtu : ∀ n, env.udpMtu n = U)
    {s : UtpSocket} (hs : s.mtu = {}) (hl : s.outer.search.fails = []) (addr : Address)
    (seed idRecv idSend : UInt32) :
    (s.initializeSocket env addr seed idRecv idSend).outer.search.Ok U := by
  obtain ⟨n, ms, h⟩ := outer_initializeSocket env addr seed idRecv idSend s
  rw [h, hs, hl, hmtu n]
  obtain ⟨h₁, h₂⟩ := ok_freshMtu hU ms
  exact ⟨h₁, append_failure h₂ rfl _⟩

theorem ok_onIcmpFragmentation {U : UInt16} {s : UtpSocket} (hs : s.outer.search.Ok U)
    {nextHopMtu : UInt16} (hn : 576 ≤ nextHopMtu → nextHopMtu < 0x2000 →
      s.mtu.floor ≤ nextHopMtu.toUInt32) : (s.onIcmpFragmentation nextHopMtu).outer.search.Ok U := by
  obtain ⟨hm, hl⟩ := hs
  have hm : s.mtu.Searching U := hm
  have hassert {c : Prop} [Decidable c] (hc : c) (a : Assertion) (m : MtuDiscovery) :
      ((s.assert c a).setMtu m).outer.search = ⟨m, s.outer.search.fails⟩ := by
    unfold assert
    rw [if_pos hc]
    rfl
  unfold onIcmpFragmentation
  split
  · rename_i hr
    obtain ⟨h₁, h₂⟩ := hm.capCeiling (hn hr.1 hr.2)
    rw [hassert h₁]
    exact ⟨(h₂ _).setLastToCeiling, hl⟩
  · obtain ⟨h₁, h₂⟩ := hm.halveCeiling
    rw [hassert h₁]
    exact ⟨h₂ _, hl⟩

theorem ok_step {U : UInt16} {s s' : UtpSocket} {l : List Call} (h : StepIf (MtuFair U) s l s')
    (hset : s.conn.state ≠ .uninitialized) (hs : s.mtu.Searching U) : s'.outer.search.Ok U := by
  cases h with
  | call env ms tick op hop hC =>
    have hs : (s.lend ms tick).outer.search.Ok U := ⟨hs, rfl⟩
    by_cases hr : op.Routine
    · exact (beside_run env (f := true) hr nofun _).ok hC.1 hs
    cases op with
    | connect addr seed =>
      have : (s.lend ms tick).conn.state ≠ .uninitialized := hset
      simp only [Op.run, if_neg this]
      exact (beside_connectAgain env (r := true) (f := true) (m := true) _).ok hC.1 hs
    | accept addr syn => exact absurd hop hset
    | onIcmpFragmentation nextHopMtu => exact ok_onIcmpFragmentation hs (hC.2 _ rfl)
    | _ => exact absurd trivial hr

theorem ok_setUp {U : UInt16} (hU : 576 ≤ U) {s s' : UtpSocket} {c : Call}
    (h : StepIf (MtuFair U) s [c] s') (hc : c.op.SetsUp) (hs : s.Unset) : s'.outer.search.Ok U := by
  cases h with
  | call env ms tick op hop hC =>
    have hinit := ok_initializeSocket hU hC.1 (s := s.lend ms tick) hs.mtu rfl
    cases op with
    | connect addr seed =>
      have : (s.lend ms tick).conn.state = .uninitialized := hs.state
      simp only [Op.run, if_pos this]
      exact (beside_sendSyn env (f := true) _).ok hC.1 (hinit addr seed seed (seed + 1))
    | accept addr syn =>
      obtain ⟨t, id, rfl, hb⟩ := beside_acceptWith env (r := true) (m := true) addr syn (s.lend ms tick)
      exact hb.ok hC.1 (hinit addr id (id + 1) id)
    | _ => cases hc

/-- A call reports no failed assertion of the search. -/
def SearchSpared (c : Call) : Prop :=
  Effect.assertFailed .mtuReset ∉ c.effects ∧ Effect.assertFailed .mtuSearch ∉ c.effects

theorem searchSpared_of_ok {U : UInt16} {C : Env → UtpSocket → Op → Prop} {s s' : UtpSocket}
    {l : List Call} (h : StepIf C s l s') (hs : s'.outer.search.Ok U) : ∀ c ∈ l, SearchSpared c := by
  cases h with
  | call env ms tick op hop hC =>
    intro c hc
    rw [List.mem_singleton.1 hc]
    have hl : (op.run env (s.lend ms tick)).out.filter Effect.onSearch = [] := hs.2
    rw [List.filter_eq_nil_iff] at hl
    exact ⟨fun h => hl _ h rfl, fun h => hl _ h rfl⟩

theorem onSearch_setOption (opt : SocketOption) (val : ℤ) (s : UtpSocket) :
    (s.setOption opt val).out.filter Effect.onSearch = s.out.filter Effect.onSearch := by
  have hassert : (s.assert (1 ≤ val) .optionValue).out.filter Effect.onSearch =
      s.out.filter Effect.onSearch := by
    unfold assert
    split
    · rfl
    · simp [emit, out, Effect.onSearch]
  cases opt with
  | sndbuf => exact hassert
  | rcvbuf => exact hassert
  | targetDelay => rfl

theorem searchSpared_early {C : Env → UtpSocket → Op → Prop} {s s' : UtpSocket}
    {calls : List Call} (h : Trace (StepIf C) s calls s') (ho : ∀ c ∈ calls, c.op.Early)
    (hs : s.Unset) : ∀ c ∈ calls, SearchSpared c := by
  induction h with
  | refl => simp
  | @head s _ s₁ _ _ h₁ _ ih =>
    have hs₁ := unset_early (.single h₁) (fun c hc => ho c (List.mem_append_left _ hc)) hs
    intro c hc
    rcases List.mem_append.1 hc with hc' | hc'
    · have hset := ho c hc
      cases h₁ with
      | call env ms tick op hop hC =>
        rw [List.mem_singleton.1 hc'] at hset ⊢
        have hl : (op.run env (s.lend ms tick)).out.filter Effect.onSearch = [] := by
          cases op with
          | setOption opt val => exact onSearch_setOption opt val (s.lend ms tick)
          | writev iov =>
            simp only [Op.run]
            rw [writev_refused env iov (s := s.lend ms tick)
              (show writable s.conn.state = false by rw [hs.state]; rfl)]
            rfl
          | _ => cases hset
        rw [List.filter_eq_nil_iff] at hl
        exact ⟨fun h => hl _ h rfl, fun h => hl _ h rfl⟩
    · exact ih (fun c hc => ho c (List.mem_append_right _ hc)) hs₁ c hc'

/-- The header fits into the MTU. -/
theorem getPacketSize_add {U : UInt16} {s : UtpSocket} (h : s.mtu.Bounded U) :
    s.getPacketSize + PacketFormatV1.size = s.mtu.last.toNat := by
  have hlast : 576 ≤ s.mtu.last.toNat :=
    UInt32.le_iff_toNat_le.1 (UInt32.le_trans h.floor_ge h.floor_le)
  have hne : s.mtu.last ≠ 0 := by
    intro h0
    rw [h0] at hlast
    exact absurd hlast (by decide)
  have hlt := s.mtu.last.toNat_lt
  unfold getPacketSize MtuDiscovery.effectiveMtu MtuDiscovery.rawMtu PacketFormatV1.size
  rw [if_pos hne]
  omega

/-- In every life in a network with the MTU `U`, if no ICMP message reports an MTU below
the floor, the bounds of the search are ordered after each call, its assertions hold, and
the payload of a packet is what the MTU leaves behind the header. -/
theorem mtuSearch_bounded {U : UInt16} (hU : 576 ≤ U) {targetDelay rcvbuf sndbuf : ℕ}
    {calls : List Call} {s : UtpSocket}
    (h : Life (MtuFair U) targetDelay rcvbuf sndbuf calls s) :
    s.mtu.Bounded U ∧ (∀ c ∈ calls, SearchSpared c) ∧
      s.getPacketSize + PacketFormatV1.size = s.mtu.last.toNat := by
  have hinv : s.mtu.Searching U ∧ ∀ c ∈ calls, SearchSpared c := by
    induction h with
    | @setUp calls c s s' h ho hs hc =>
      have hok := ok_setUp hU hs hc (unset_early h ho (unset_new _ _ _))
      refine ⟨hok.1, fun c' hc' => ?_⟩
      rcases List.mem_append.1 hc' with hc' | hc'
      · exact searchSpared_early h ho (unset_new _ _ _) c' hc'
      · exact searchSpared_of_ok hs hok c' hc'
    | call h hs ih =>
      have hok := ok_step hs h.set ih.1
      refine ⟨hok.1, fun c' hc' => ?_⟩
      rcases List.mem_append.1 hc' with hc' | hc'
      · exact ih.2 c' hc'
      · exact searchSpared_of_ok hs hok c' hc'
  exact ⟨hinv.1.toBounded, hinv.2, getPacketSize_add hinv.1.toBounded⟩

/-- A probe of 1020 bytes has been acknowledged. -/
def probed : UtpSocket :=
  perform stillHost dialled [.processIncoming (statePacket 100 0), .writev [List.replicate 1000 0],
    .processIncoming (statePacket 100 1)]

/-- Then a router reports an MTU of 1100. -/
def narrowed : UtpSocket := perform stillHost probed [.onIcmpFragmentation 1100]

theorem life_narrowed : ∃ calls c, Life (MtuFair 1400) CCONTROL_TARGET 4096 4096 (calls ++ [c]) narrowed ∧
    c.effects = narrowed.out := by
  obtain ⟨calls, h⟩ := life_dialled (C := MtuFair 1400) ⟨fun _ => rfl, by simp⟩
  obtain ⟨calls', h'⟩ := h.perform stillHost (l := [.processIncoming (statePacket 100 0),
    .writev [List.replicate 1000 0], .processIncoming (statePacket 100 1)]) fun op hop s => by
      simp only [List.mem_cons, List.not_mem_nil, or_false] at hop
      rcases hop with rfl | rfl | rfl <;> exact ⟨trivial, fun _ => rfl, fun _ ho => nomatch ho⟩
  have hfloor : (probed.lend 0 0).mtu.floor ≤ (1100 : UInt16).toUInt32 := by decide +kernel
  have hfair : MtuFair 1400 stillHost (probed.lend 0 0) (.onIcmpFragmentation 1100) := by
    refine ⟨fun _ => rfl, fun n hn _ _ => ?_⟩
    rw [← Op.onIcmpFragmentation.inj hn]
    exact hfloor
  obtain ⟨c, hc, -, he⟩ : ∃ c, StepIf (MtuFair 1400) probed [c] narrowed ∧
    c.op = .onIcmpFragmentation 1100 ∧ c.effects = narrowed.out := stepIf_perform trivial hfair
  exact ⟨calls', c, h'.call hc, he⟩

theorem mtuSearch_bounded_narrowed : narrowed.mtu.Bounded 1400 ∧
    Effect.assertFailed .mtuSearch ∉ narrowed.out ∧
    narrowed.getPacketSize + PacketFormatV1.size = narrowed.mtu.last.toNat ∧
    narrowed.mtu.floor = 1020 ∧ narrowed.mtu.ceiling = 1100 := by
  obtain ⟨calls, c, h, he⟩ := life_narrowed
  obtain ⟨h₁, h₂, h₃⟩ := mtuSearch_bounded (U := 1400) (by decide) h
  refine ⟨h₁, ?_, h₃, by decide +kernel, by decide +kernel⟩
  rw [← he]
  exact (h₂ c (by simp)).2

/-- A probe of 1020 bytes has been acknowledged when a router reports an MTU of 600. -/
def capped : UtpSocket :=
  perform stillHost dialled [.processIncoming (statePacket 100 0), .writev [List.replicate 1000 0],
    .processIncoming (statePacket 100 1), .onIcmpFragmentation 600]

/-- The ceiling falls below the floor and the assertion of `search_update` fails. -/
theorem mtuSearch_unbounded :
    (∃ calls, Life (fun env _ _ => ∀ n, env.udpMtu n = 1400) CCONTROL_TARGET 4096 4096 calls
      capped) ∧ Effect.assertFailed .mtuSearch ∈ capped.out ∧ ¬ capped.mtu.Bounded 1400 := by
  obtain ⟨calls, h⟩ := life_dialled (C := fun env _ _ => ∀ n, env.udpMtu n = 1400) (fun _ => rfl)
  refine ⟨h.perform stillHost fun op hop s => ⟨?_, fun _ => rfl⟩, by decide +kernel, fun hb => ?_⟩
  · simp only [List.mem_cons, List.not_mem_nil, or_false] at hop
    rcases hop with rfl | rfl | rfl | rfl <;> trivial
  have hlt : capped.mtu.ceiling.toNat < capped.mtu.floor.toNat := by decide +kernel
  exact absurd (UInt32.le_iff_toNat_le.1 hb.floor_le_ceiling) (by omega)

end UtpSocket

end Utp
