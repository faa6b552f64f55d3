import LibUtp.MtuDiscovery
import LibUtp.Lib.Halving

/-! The binary search on a path with a fixed MTU. It keeps that MTU between its bounds, halves what
lies between them and ends less than a step of 16 below it. -/

namespace Utp

namespace MtuDiscovery

/-- The fate of one probe: the sequence number it got, whether a retransmission timeout or another
sign of loss reports it in case it is lost, and when. -/
structure Probe where
  seq : UInt32
  seq_ne : seq ≠ 0
  timeout : Bool
  ms : UInt64

/-- A probe as large as `last` passes a path with the MTU `T` or is lost. -/
def probeRound (T : ℕ) (m : MtuDiscovery) (p : Probe) : MtuDiscovery :=
  let sent := m.setProbe p.seq m.last
  if m.last.toNat ≤ T then sent.handleProbeAck p.seq p.ms
  else if p.timeout then (sent.handleProbeTimeout p.seq 1 p.ms).2
  else sent.handleProbeLoss p.ms

def probeRounds (T : ℕ) (probes : ℕ → Probe) (m : MtuDiscovery) : ℕ → MtuDiscovery
  | 0 => m
  | k + 1 => (probeRounds T probes m k).probeRound T (probes k)

/-- What lies between the bounds. -/
def width (m : MtuDiscovery) : ℕ := m.ceiling.toNat - m.floor.toNat

/-- A search for `T` that goes on. -/
structure Open (T : ℕ) (m : MtuDiscovery) : Prop where
  floor_le : m.floor.toNat ≤ T
  le_ceiling : T ≤ m.ceiling.toNat
  ceiling_lt : m.ceiling.toNat < 2 ^ 31
  wide : m.floor.toNat + 16 < m.ceiling.toNat
  last : m.last.toNat = (m.floor.toNat + m.ceiling.toNat) / 2

/-- A search for `T` that has ended. -/
structure Done (T : ℕ) (m : MtuDiscovery) : Prop where
  floor : m.floor = m.last
  ceiling : m.ceiling = m.last
  last_le : m.last.toNat ≤ T
  le_last : T ≤ m.last.toNat + 16

variable {T : ℕ} {m : MtuDiscovery}

theorem Done.width_eq (h : m.Done T) : m.width = 0 := by
  unfold width
  rw [h.floor, h.ceiling, Nat.sub_self]

theorem Open.lt_width (h : m.Open T) : 16 < m.width := by
  have := h.wide
  unfold width
  omega

theorem Open.floor_lt_last (h : m.Open T) : m.floor.toNat < m.last.toNat := by
  rw [h.last]
  have := h.wide
  omega

theorem Open.last_lt_ceiling (h : m.Open T) : m.last.toNat < m.ceiling.toNat := by
  rw [h.last]
  have := h.wide
  omega

/-- `search_update` on ordered bounds around `T` ends the search or halves the interval. -/
theorem searchUpdate_cases (hf : m.floor.toNat ≤ T) (hc : T ≤ m.ceiling.toNat)
    (hlt : m.ceiling.toNat < 2 ^ 31) (ms : UInt64) :
    ((m.searchUpdate ms).Open T ∨ (m.searchUpdate ms).Done T) ∧ (m.searchUpdate ms).width ≤ m.width := by
  have hwidth : (m.ceiling - m.floor).toNat = m.width := by
    rw [UInt32.toNat_sub_of_le _ _ (UInt32.le_iff_toNat_le.2 (hf.trans hc))]
    rfl
  have hstop : m.ceiling - m.floor ≤ 16 ↔ m.width ≤ 16 := by
    rw [UInt32.le_iff_toNat_le, hwidth]
    rfl
  unfold searchUpdate
  dsimp only
  simp only [hstop]
  by_cases hw : m.width ≤ 16
  · rw [if_pos hw]
    refine ⟨.inr ⟨rfl, rfl, hf, ?_⟩, ?_⟩
    · unfold width at hw
      dsimp only
      omega
    · simp [width]
  · rw [if_neg hw]
    refine ⟨.inl ⟨hf, hc, hlt, ?_, ?_⟩, le_rfl⟩
    · unfold width at hw
      dsimp only
      omega
    · dsimp only
      rw [UInt32.toNat_div, UInt32.toNat_add, Nat.mod_eq_of_lt (by omega)]
      rfl

/-- Either bound moves next to the probe, so what is left is at most half, rounded up. -/
theorem Open.probeRound (h : m.Open T) (p : Probe) :
    ((m.probeRound T p).Open T ∨ (m.probeRound T p).Done T) ∧
      2 * (m.probeRound T p).width ≤ m.width + 1 := by
  have hfl := h.floor_lt_last
  have hlc := h.last_lt_ceiling
  obtain ⟨hf, hc, hlt, hw, hlast⟩ := h
  have hisProbe : (m.setProbe p.seq m.last).isProbe p.seq := by
    simp [isProbe, setProbe, p.seq_ne]
  unfold MtuDiscovery.probeRound
  dsimp only
  by_cases hT : m.last.toNat ≤ T
  · -- acknowledged: the floor is the size of the probe
    rw [if_pos hT, handleProbeAck, if_pos hisProbe]
    obtain ⟨hcases, hle⟩ := searchUpdate_cases (m := (m.setProbe p.seq m.last).raiseFloor) (T := T)
      hT hc hlt p.ms
    refine ⟨hcases, ?_⟩
    have : (m.setProbe p.seq m.last).raiseFloor.width = m.ceiling.toNat - m.last.toNat := rfl
    unfold width at hle this ⊢
    omega
  · -- lost: the ceiling is one below the size of the probe
    rw [if_neg hT]
    have hpred : (m.last - 1).toNat = m.last.toNat - 1 := by
      rw [UInt32.toNat_sub_of_le _ _ (UInt32.le_iff_toNat_le.2 (by rw [UInt32.toNat_one]; omega))]
      rfl
    have hloss : (if p.timeout then ((m.setProbe p.seq m.last).handleProbeTimeout p.seq 1 p.ms).2
          else (m.setProbe p.seq m.last).handleProbeLoss p.ms) =
        ((m.setProbe p.seq m.last).lowerCeiling.searchUpdate p.ms).clearProbe := by
      split
      · rw [handleProbeTimeout, if_pos (by simpa [probeTimedOut] using hisProbe)]
      · rfl
    rw [hloss]
    have hceil : (m.setProbe p.seq m.last).lowerCeiling.ceiling.toNat = m.last.toNat - 1 := hpred
    obtain ⟨hcases, hle⟩ := searchUpdate_cases (m := (m.setProbe p.seq m.last).lowerCeiling) (T := T)
      hf (by omega) (by omega) p.ms
    constructor
    · rcases hcases with ho | hd
      · exact .inl ⟨ho.floor_le, ho.le_ceiling, ho.ceiling_lt, ho.wide, ho.last⟩
      · exact .inr ⟨hd.floor, hd.ceiling, hd.last_le, hd.le_last⟩
    · have : (m.setProbe p.seq m.last).lowerCeiling.width = m.last.toNat - 1 - m.floor.toNat := by
        unfold width
        rw [hceil]
        rfl
      have hclear : (((m.setProbe p.seq m.last).lowerCeiling.searchUpdate p.ms).clearProbe).width =
          ((m.setProbe p.seq m.last).lowerCeiling.searchUpdate p.ms).width := rfl
      rw [hclear]
      unfold width at hle this ⊢
      omega

theorem open_or_done_probeRounds (probes : ℕ → Probe) (h : m.Open T ∨ m.Done T) (k : ℕ)
    (hk : ∀ j < k, 16 < (m.probeRounds T probes j).width) :
    (m.probeRounds T probes k).Open T ∨ (m.probeRounds T probes k).Done T := by
  induction k with
  | zero => exact h
  | succ k ih =>
    rcases ih fun j hj => hk j (Nat.lt_succ_of_lt hj) with ho | hd
    · exact (ho.probeRound (probes k)).1
    · have := hk k (Nat.lt_succ_self k)
      rw [hd.width_eq] at this
      omega

/-- A search goes on while more than 16 lie between its bounds. -/
theorem open_probeRounds (probes : ℕ → Probe) (h : m.Open T ∨ m.Done T) (k : ℕ)
    (hk : ∀ j ≤ k, 16 < (m.probeRounds T probes j).width) : (m.probeRounds T probes k).Open T := by
  rcases open_or_done_probeRounds probes h k fun j hj => hk j hj.le with ho | hd
  · exact ho
  · have := hk k le_rfl
    rw [hd.width_eq] at this
    omega

/-- From a fresh search for a path MTU between 576 and the MTU of the host: up to the end every
probe is above the floor and not above the ceiling and the path MTU stays between them, the number
of probes is logarithmic, and the MTU found is at most 16 below that of the path. -/
theorem search_converges {U : UInt32} (hU : U.toNat < 2 ^ 31) (hT : 576 ≤ T) (hTU : T ≤ U.toNat)
    (m : MtuDiscovery) (ms ms' : UInt64) (probes : ℕ → Probe) :
    ∃ n ≤ Nat.log 2 (U.toNat - 576 + 1) + 1,
      (∀ k < n, let search := ((m.reset U ms).searchUpdate ms').probeRounds T probes k
        search.floor ≠ search.ceiling ∧
          search.floor < search.last ∧ search.last ≤ search.ceiling ∧
          search.floor.toNat ≤ T ∧ T ≤ search.ceiling.toNat) ∧
      let found := ((m.reset U ms).searchUpdate ms').probeRounds T probes n
      found.floor = found.last ∧ found.ceiling = found.last ∧
        T - 16 ≤ found.last.toNat ∧ found.last.toNat ≤ T := by
  obtain ⟨hstart, hwidth⟩ := searchUpdate_cases (m := m.reset U ms) (T := T) hT hTU hU ms'
  obtain ⟨n, hn, hsmall, hlarge⟩ := Halving.exists_le (c := 16)
    (w := fun k => (((m.reset U ms).searchUpdate ms').probeRounds T probes k).width) (by omega)
    fun k hk => ((open_probeRounds probes hstart k hk).probeRound (probes k)).2
  refine ⟨n, hn.trans ?_, fun k hk => ?_, ?_⟩
  · have hlog : Nat.log 2 (((m.reset U ms).searchUpdate ms').width + 1) ≤
        Nat.log 2 (U.toNat - 576 + 1) := Nat.log_mono_right (Nat.succ_le_succ hwidth)
    exact Nat.succ_le_succ hlog
  · have ho := open_probeRounds probes hstart k fun j hj => hlarge j (hj.trans_lt hk)
    refine ⟨fun he => ?_, UInt32.lt_iff_toNat_lt.2 ho.floor_lt_last,
      UInt32.le_iff_toNat_le.2 ho.last_lt_ceiling.le, ho.floor_le, ho.le_ceiling⟩
    have := ho.wide
    rw [he] at this
    omega
  · rcases open_or_done_probeRounds probes hstart n hlarge with ho | hd
    · have := ho.lt_width
      omega
    · exact ⟨hd.floor, hd.ceiling, by have := hd.le_last; omega, hd.last_le⟩

/-- Below 1500 a path MTU of 1104 is found, whichever way the losses are noticed. -/
theorem search_converges_1104 : ∃ n ≤ 10,
    let found := ((({} : MtuDiscovery).reset 1500 0).searchUpdate 0).probeRounds 1104
      (fun k => ⟨1, by decide, k % 2 = 0, 0⟩) n
    1088 ≤ found.last.toNat ∧ found.last.toNat ≤ 1104 := by
  obtain ⟨n, hn, -, -, -, hfound⟩ := search_converges (U := 1500) (T := 1104) (by decide) (by decide)
    (by decide) {} 0 0 fun k => ⟨1, by decide, k % 2 = 0, 0⟩
  have hlog : Nat.log 2 ((1500 : UInt32).toNat - 576 + 1) + 1 ≤ 10 := by
    rw [show (1500 : UInt32).toNat = 1500 from rfl]
    exact Nat.succ_le_of_lt (Nat.log_lt_of_lt_pow (by omega) (by omega))
  exact ⟨n, hn.trans hlog, hfound⟩

end MtuDiscovery
end Utp
