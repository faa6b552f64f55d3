import LibUtp.Timing.ClockDrift
import LibUtp.Timing.UnwrappedDelay

/-! The round trip estimator beside one on unbounded integers. Samples below `2 ^ 28` keep every
intermediate value in its range, and the estimates stay between the least and the largest sample. -/

namespace Utp

open Residue

/-- The estimator on unbounded integers. -/
structure RttEstimate where
  rtt : ℤ
  var : ℤ

namespace RttEstimate

/-- A quarter of what the deviation of the sample lies above the variance, toward zero. -/
def correction (e : RttEstimate) (x : ℤ) : ℤ := (|e.rtt - x| - e.var).tdiv 4

def update (e : RttEstimate) (x : ℤ) : RttEstimate :=
  if e.rtt = 0 then ⟨x, x / 2⟩ else ⟨e.rtt - e.rtt / 8 + x / 8, e.var + e.correction x⟩

def timeout (e : RttEstimate) : ℤ := max (e.rtt + e.var * 4) 1000

/-- The estimate lies among samples between `m` and `M`. -/
structure Hull (m M : ℕ) (e : RttEstimate) : Prop where
  le_rtt : m ≤ e.rtt
  rtt_le : e.rtt ≤ M
  var_nonneg : 0 ≤ e.var
  var_le : e.var ≤ M

variable {m M : ℕ} {e : RttEstimate} {x : ℤ}

/-- The correction points toward the deviation and does not pass it. -/
theorem correction_range (e : RttEstimate) (x : ℤ) :
    min 0 (|e.rtt - x| - e.var) ≤ e.correction x ∧ e.correction x ≤ max 0 (|e.rtt - x| - e.var) := by
  unfold correction
  generalize |e.rtt - x| - e.var = t
  rcases le_or_gt 0 t with ht | ht
  · rw [Int.tdiv_eq_ediv_of_nonneg ht]
    omega
  · have hneg : t.tdiv 4 = -(-t / 4) := by
      rw [← Int.tdiv_eq_ediv_of_nonneg (by omega), Int.neg_tdiv, neg_neg]
    omega

theorem Hull.deviation_le (h : e.Hull m M) (hm : m ≤ x) (hM : x ≤ M) : |e.rtt - x| ≤ M := by
  obtain ⟨h₁, h₂, -, -⟩ := h
  rw [abs_le]
  omega

/-- Both eighths are rounded down, and still the mean does not leave the hull. -/
theorem hull_update (h : e.rtt = 0 ∨ e.Hull m M) (hm : m ≤ x) (hM : x ≤ M) : (e.update x).Hull m M := by
  unfold update
  split
  · exact ⟨hm, hM, by dsimp only; omega, by dsimp only; omega⟩
  · rename_i h0
    have hh := h.resolve_left h0
    have habs := hh.deviation_le hm hM
    have habs' := abs_nonneg (e.rtt - x)
    obtain ⟨hc, hc'⟩ := e.correction_range x
    obtain ⟨h₁, h₂, h₃, h₄⟩ := hh
    exact ⟨by dsimp only; omega, by dsimp only; omega, by dsimp only; omega, by dsimp only; omega⟩

theorem Hull.timeout_le (h : e.Hull m M) : 1000 ≤ e.timeout ∧ e.timeout ≤ max 1000 (5 * M) := by
  obtain ⟨-, h₂, -, h₄⟩ := h
  unfold timeout
  omega

end RttEstimate

namespace LedbatController

def estimate (c : LedbatController) : RttEstimate := ⟨c.rtt.toNat, c.rttVar.toNat⟩

/-- What `update_rtt` computes from an estimate and one more sample fits, in the order of the
source: the signed values, the unsigned ones and the distance in the history. -/
structure SmoothFits (c : LedbatController) (ertt : UInt32) : Prop where
  rtt : FitsInt32 c.rtt.toNat
  sample : FitsInt32 ertt.toNat
  delta : FitsInt32 (c.rtt.toNat - ertt.toNat)
  deviation : FitsInt32 |(c.rtt.toNat : ℤ) - ertt.toNat|
  var : FitsInt32 c.rttVar.toNat
  excess : FitsInt32 (|(c.rtt.toNat : ℤ) - ertt.toNat| - c.rttVar.toNat)
  decayed : c.rtt.toNat / 8 ≤ c.rtt.toNat
  delay : ((c.rttHist.seed ertt).lower ertt).delayBase ≤ ertt

/-- So does what it then stores, and the timeout computed from it. -/
structure RttFits (c : LedbatController) (ertt : UInt32) : Prop where
  smooth : c.rtt ≠ 0 → c.SmoothFits ertt
  var_nonneg : 0 ≤ (c.estimate.update ertt.toNat).var
  rtt_nonneg : 0 ≤ (c.estimate.update ertt.toNat).rtt
  scaled : (c.estimate.update ertt.toNat).var * 4 < 2 ^ 32
  sum : (c.estimate.update ertt.toNat).rtt + (c.estimate.update ertt.toNat).var * 4 < 2 ^ 32

variable {m M : ℕ} {c : LedbatController} {ertt : UInt32} {ms : UInt64}

theorem rtt_eq_zero_iff : c.estimate.rtt = 0 ↔ c.rtt = 0 := by
  unfold estimate
  rw [← UInt32.toNat_inj]
  dsimp only
  rw [UInt32.toNat_zero]
  omega

/-- The signed correction, added to the unsigned variance. -/
theorem SmoothFits.rttVar_eq (h : c.SmoothFits ertt)
    (h₀ : 0 ≤ c.rttVar.toNat + c.estimate.correction ertt.toNat)
    (h₁ : c.rttVar.toNat + c.estimate.correction ertt.toNat < 2 ^ 32) :
    ((c.rttVar + UInt32.ofInt ((int32 ((int32 (int32 c.rtt.toNat - int32 ertt.toNat)).natAbs -
      int32 c.rttVar.toNat)).tdiv 4)).toNat : ℤ) = c.rttVar.toNat + c.estimate.correction ertt.toNat := by
  have hc : (int32 ((int32 (int32 c.rtt.toNat - int32 ertt.toNat)).natAbs - int32 c.rttVar.toNat)).tdiv 4 =
      c.estimate.correction ertt.toNat := by
    rw [h.rtt.int32_eq, h.sample.int32_eq, h.delta.int32_eq, h.var.int32_eq, Int.natCast_natAbs,
      h.excess.int32_eq]
    rfl
  rw [hc, ← toNat_ofInt_of_lt h₀ h₁, ofInt_add, ofInt_toNat]

theorem RttFits.var_lt (h : c.RttFits ertt) : (c.estimate.update ertt.toNat).var < 2 ^ 32 := by
  have := h.scaled
  have := h.var_nonneg
  omega

/-- Where everything fits the machine words hold the exact estimate. -/
theorem RttFits.estimate_updateRtt (h : c.RttFits ertt) (ms : UInt64) :
    (c.updateRtt ertt ms).estimate = c.estimate.update ertt.toNat := by
  have hvar := h.var_nonneg
  have hvar' := h.var_lt
  have hsum := h.sum
  by_cases h0 : c.rtt = 0
  · rw [RttEstimate.update, if_pos (rtt_eq_zero_iff.2 h0)]
    unfold updateRtt
    rw [if_pos h0]
    rfl
  · rw [RttEstimate.update, if_neg (mt rtt_eq_zero_iff.1 h0)] at hvar hvar' hsum ⊢
    have hv := (h.smooth h0).rttVar_eq hvar hvar'
    have hr : ((c.rtt - c.rtt / 8 + ertt / 8).toNat : ℤ) =
        c.rtt.toNat - c.rtt.toNat / 8 + ertt.toNat / 8 := by
      have hdiv (a : UInt32) : (a / 8).toNat = a.toNat / 8 := UInt32.toNat_div a 8
      have hdecay : c.rtt.toNat / 8 ≤ c.rtt.toNat := Nat.div_le_self _ _
      have hlt : (c.estimate.rtt - c.estimate.rtt / 8 + ertt.toNat / 8 : ℤ) < 2 ^ 32 := by
        dsimp only at hsum hvar
        omega
      unfold estimate at hlt
      dsimp only at hlt
      rw [UInt32.toNat_add, UInt32.toNat_sub_of_le _ _ (UInt32.le_iff_toNat_le.2 (by rw [hdiv]; exact hdecay)),
        hdiv, hdiv, Nat.mod_eq_of_lt (by omega)]
      omega
    unfold updateRtt
    rw [if_neg h0]
    show RttEstimate.mk _ _ = RttEstimate.mk _ _
    rw [RttEstimate.mk.injEq]
    exact ⟨hr, hv⟩

theorem toNat_max (a b : UInt32) : (max a b).toNat = max a.toNat b.toNat := by
  show (if a ≤ b then b else a).toNat = _
  simp only [UInt32.le_iff_toNat_le]
  split <;> omega

theorem RttFits.rto_updateRtt (h : c.RttFits ertt) (ms : UInt64) :
    ((c.updateRtt ertt ms).rto.toNat : ℤ) = (c.estimate.update ertt.toNat).timeout := by
  have hrto : (c.updateRtt ertt ms).rto =
      max ((c.updateRtt ertt ms).rtt + (c.updateRtt ertt ms).rttVar * 4) 1000 := rfl
  have hsum := h.sum
  have hscaled := h.scaled
  rw [hrto, ← h.estimate_updateRtt ms] at *
  unfold RttEstimate.timeout
  unfold estimate at hsum hscaled ⊢
  dsimp only at hsum hscaled ⊢
  rw [toNat_max, UInt32.toNat_add, UInt32.toNat_mul, show (4 : UInt32).toNat = 4 from rfl,
    show (1000 : UInt32).toNat = 1000 from rfl, Nat.mod_eq_of_lt (b := 2 ^ 32) (by omega),
    Nat.mod_eq_of_lt (by omega)]
  omega

end LedbatController

namespace DelayHistory

variable {m M : ℕ} {h : DelayHistory} {r : Unwrapped} {sample : UInt32}

/-- A history of samples between `m` and `M`, with the reference it belongs to. -/
structure Within (m M : ℕ) (h : DelayHistory) (r : Unwrapped) : Prop where
  wraps : h.Wraps r
  slots : r.seeded → ∀ i, (m : ℤ) ≤ r.slots i ∧ r.slots i ≤ M

theorem within_clear (ms : UInt64) : (clear ms).Within m M { since := ms } :=
  ⟨.clear ms, fun hs => absurd hs (by simp)⟩

theorem seed_slots (hw : h.Within m M r) (hm : m ≤ sample.toNat) (hM : sample.toNat ≤ M) (i : Fin 13) :
    (m : ℤ) ≤ (r.seed sample.toNat).slots i ∧ (r.seed sample.toNat).slots i ≤ M := by
  unfold Unwrapped.seed
  split
  · exact hw.slots ‹_› i
  · dsimp only
    omega

/-- The slots hold samples only. -/
theorem run_slots (hw : h.Within m M r) (hm : m ≤ sample.toNat) (hM : sample.toNat ≤ M) (ms : UInt64)
    (i : Fin 13) : (m : ℤ) ≤ (r.run (.addSample sample.toNat ms)).slots i ∧
      (r.run (.addSample sample.toNat ms)).slots i ≤ M := by
  have hseed := seed_slots hw hm hM
  have hlower (i : Fin 13) : (m : ℤ) ≤ ((r.seed sample.toNat).lower sample.toNat).slots i ∧
      ((r.seed sample.toNat).lower sample.toNat).slots i ≤ M := by
    have hs := hseed (r.seed sample.toNat).slot
    have hi := hseed i
    unfold Unwrapped.lower
    dsimp only
    rw [Function.update_apply]
    split_ifs <;> omega
  have hi := hlower i
  unfold Unwrapped.run Unwrapped.rotate Unwrapped.record
  dsimp only
  split_ifs
  · dsimp only
    rw [Function.update_apply]
    split_ifs <;> omega
  · exact hi

theorem Within.fits (hw : h.Within m M r) (hlt : M < 2 ^ 28) (hm : m ≤ sample.toNat)
    (hM : sample.toNat ≤ M) (ms : UInt64) : r.Fits (.addSample sample.toNat ms) := by
  refine fun hs => ⟨m, fun y hy => ?_⟩
  rcases hy with rfl | ⟨i, rfl⟩
  · omega
  · have := hw.slots hs i
    omega

theorem Within.addSample (hw : h.Within m M r) (hlt : M < 2 ^ 28) (hm : m ≤ sample.toNat)
    (hM : sample.toNat ≤ M) (ms : UInt64) :
    (h.addSample sample ms).Within m M (r.run (.addSample sample.toNat ms)) := by
  have hrun := hw.wraps.run (hw.fits hlt hm hM ms)
  rw [DelayHistory.run, ofInt_toNat] at hrun
  exact ⟨hrun, fun _ => run_slots hw hm hM ms⟩

/-- The base does not pass the sample that is measured against it. -/
theorem Within.delayBase_le (hw : h.Within m M r) (hlt : M < 2 ^ 28) (hm : m ≤ sample.toNat)
    (hM : sample.toNat ≤ M) : ((h.seed sample).lower sample).delayBase ≤ sample := by
  have hc := Unwrapped.close_seed (hw.fits hlt hm hM 0)
  have hbase := ((hw.wraps.seed (sample.toNat : ℤ)).lower hc).base
  rw [ofInt_toNat] at hbase
  have hle := Unwrapped.delay_nonneg (r.seed sample.toNat) sample.toNat
  have hnonneg : 0 ≤ ((r.seed sample.toNat).lower sample.toNat).base := by
    obtain ⟨i, hi⟩ := (r.seed sample.toNat).exists_base
    have := seed_slots hw hm hM i
    rw [Unwrapped.base_lower, ← hi]
    omega
  have := sample.toNat_lt
  have hnat := toNat_ofInt_of_lt hnonneg (by omega)
  rw [hbase, UInt32.le_iff_toNat_le]
  omega

end DelayHistory

namespace LedbatController

variable {m M : ℕ} {c : LedbatController} {ertt : UInt32} {ms : UInt64}

/-- The estimator after any number of samples between `m` and `M`. -/
structure Measured (m M : ℕ) (c : LedbatController) : Prop where
  hull : c.estimate.rtt = 0 ∨ c.estimate.Hull m M
  hist : ∃ r, c.rttHist.Within m M r

theorem Measured.rttFits (h : c.Measured m M) (hlt : M < 2 ^ 28) (hm : m ≤ ertt.toNat)
    (hM : ertt.toNat ≤ M) : c.RttFits ertt := by
  have hu := RttEstimate.hull_update h.hull (x := ertt.toNat) (by exact_mod_cast hm)
    (by exact_mod_cast hM)
  refine ⟨fun h0 => ?_, hu.var_nonneg, ?_, ?_, ?_⟩
  · have hh := h.hull.resolve_left (mt rtt_eq_zero_iff.1 h0)
    have habs := hh.deviation_le (x := ertt.toNat) (by exact_mod_cast hm) (by exact_mod_cast hM)
    have habs' := abs_nonneg ((c.rtt.toNat : ℤ) - ertt.toNat)
    obtain ⟨-, h₂, -, h₄⟩ := hh
    obtain ⟨r, hr⟩ := h.hist
    unfold estimate at h₂ h₄ habs
    dsimp only at h₂ h₄ habs
    exact ⟨⟨by omega, by omega⟩, ⟨by omega, by omega⟩, ⟨by omega, by omega⟩, ⟨by omega, by omega⟩,
      ⟨by omega, by omega⟩, ⟨by omega, by omega⟩, Nat.div_le_self _ _, hr.delayBase_le hlt hm hM⟩
  · have := hu.le_rtt
    omega
  · have := hu.var_le
    omega
  · have := hu.var_le
    have := hu.rtt_le
    omega

theorem Measured.updateRtt (h : c.Measured m M) (hlt : M < 2 ^ 28) (hm : m ≤ ertt.toNat)
    (hM : ertt.toNat ≤ M) (ms : UInt64) : (c.updateRtt ertt ms).Measured m M := by
  constructor
  · rw [(h.rttFits hlt hm hM).estimate_updateRtt ms]
    exact .inr (RttEstimate.hull_update h.hull (by exact_mod_cast hm) (by exact_mod_cast hM))
  · obtain ⟨r, hr⟩ := h.hist
    unfold LedbatController.updateRtt
    by_cases h0 : c.rtt = 0
    · rw [if_pos h0]
      exact ⟨r, hr⟩
    · rw [if_neg h0]
      exact ⟨_, hr.addSample hlt hm hM ms⟩

/-- The calls of `update_rtt`: the sample and the time of each. -/
def updateRtts (c : LedbatController) (calls : List (UInt32 × UInt64)) : LedbatController :=
  calls.foldl (fun c call => c.updateRtt call.1 call.2) c

theorem Measured.updateRtts {calls : List (UInt32 × UInt64)} (h : c.Measured m M) (hlt : M < 2 ^ 28)
    (hc : ∀ call ∈ calls, m ≤ call.1.toNat ∧ call.1.toNat ≤ M) : (c.updateRtts calls).Measured m M := by
  induction calls generalizing c with
  | nil => exact h
  | cons call calls ih =>
    obtain ⟨hm, hM⟩ := hc call List.mem_cons_self
    exact ih (h.updateRtt hlt hm hM call.2) fun x hx => hc x (List.mem_cons_of_mem _ hx)

/-- The last of any calls on a controller without an estimate, with all samples between `m` and `M`:
everything it computes fits, it moves the estimate as on unbounded integers, and the estimate, the
variance and the timeout stay within the bounds of the samples. -/
theorem updateRtt_bounds (hlt : M < 2 ^ 28) {c : LedbatController} (hrtt : c.rtt = 0) {since : UInt64}
    (hhist : c.rttHist = .clear since) {calls : List (UInt32 × UInt64)} {ertt : UInt32}
    (hcalls : ∀ call ∈ calls, m ≤ call.1.toNat ∧ call.1.toNat ≤ M) (hm : m ≤ ertt.toNat)
    (hM : ertt.toNat ≤ M) (ms : UInt64) :
    let c' := (c.updateRtts calls).updateRtt ertt ms
    (c.updateRtts calls).RttFits ertt ∧
      c'.estimate = (c.updateRtts calls).estimate.update ertt.toNat ∧
      m ≤ c'.rtt.toNat ∧ c'.rtt.toNat ≤ M ∧ c'.rttVar.toNat ≤ M ∧
      1000 ≤ c'.rto.toNat ∧ c'.rto.toNat ≤ max 1000 (5 * M) ∧
      c'.retransmitTimeout = c'.rto ∧ c'.rtoTimeout = ms + c'.rto.toUInt64 := by
  have h0 : c.Measured m M := ⟨.inl (rtt_eq_zero_iff.2 hrtt), _, hhist ▸ DelayHistory.within_clear since⟩
  have h := h0.updateRtts hlt hcalls
  have hfits := h.rttFits hlt hm hM
  have he := hfits.estimate_updateRtt ms
  have hu := RttEstimate.hull_update h.hull (x := ertt.toNat) (by exact_mod_cast hm)
    (by exact_mod_cast hM)
  have hto := hu.timeout_le
  rw [← hfits.rto_updateRtt ms] at hto
  rw [← he] at hu
  obtain ⟨h₁, h₂, -, h₄⟩ := hu
  exact ⟨hfits, he, Int.ofNat_le.1 h₁, Int.ofNat_le.1 h₂, Int.ofNat_le.1 h₄, by omega, by omega, rfl, rfl⟩

/-- Samples of 100 and then 200 milliseconds. -/
theorem updateRtt_bounds_200 :
    (({} : LedbatController).updateRtts [(100, 0)]).RttFits 200 ∧
      ((({} : LedbatController).updateRtts [(100, 0)]).updateRtt 200 100).rtt.toNat ≤ 200 := by
  obtain ⟨hfits, -, -, hle, -⟩ := @updateRtt_bounds 100 200 (by omega) {} rfl 0 rfl [(100, 0)] 200
    (by simp) (by decide) (by decide) 100
  exact ⟨hfits, hle⟩

end LedbatController
end Utp
