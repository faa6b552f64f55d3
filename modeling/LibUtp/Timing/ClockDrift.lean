import LibUtp.Ledbat

/-! The ranges of the clock drift estimate: what `update_delay_average` computes in signed 32 bits,
and the sums of samples for which it stays there. -/

namespace Utp

def FitsInt32 (x : ℤ) : Prop := -2 ^ 31 ≤ x ∧ x < 2 ^ 31

instance (x : ℤ) : Decidable (FitsInt32 x) := inferInstanceAs (Decidable (_ ∧ _))

theorem FitsInt32.int32_eq {x : ℤ} (h : FitsInt32 x) : int32 x = x := Utp.int32_eq h.1 h.2

theorem fitsInt32_int32 (x : ℤ) : FitsInt32 (int32 x) := by
  unfold int32 FitsInt32 Int.bmod
  dsimp only
  split <;> omega

theorem int64_eq {x : ℤ} (h₁ : -2 ^ 63 ≤ x) (h₂ : x < 2 ^ 63) : int64 x = x := by
  unfold int64
  apply Int.bmod_eq_of_le
  · simpa using h₁
  · simpa using h₂

theorem tdiv_lt_iff {s n k : ℤ} (hn : 0 < n) (hk : 0 < k) : s.tdiv n < k ↔ s < n * k := by
  rcases le_or_gt 0 s with hs | hs
  · rw [Int.tdiv_eq_ediv_of_nonneg hs, Int.ediv_lt_iff_lt_mul hn, mul_comm]
  · have hneg : s.tdiv n ≤ 0 := by
      have := Int.tdiv_nonneg (a := -s) (b := n) (by omega) hn.le
      rw [Int.neg_tdiv] at this
      omega
    have := mul_pos hn hk
    exact ⟨fun _ => by omega, fun _ => by omega⟩

theorem neg_lt_tdiv_iff {s n k : ℤ} (hn : 0 < n) (hk : 0 < k) : -k < s.tdiv n ↔ -(n * k) < s := by
  have h := tdiv_lt_iff (s := -s) hn hk
  rw [Int.neg_tdiv] at h
  omega

namespace LedbatController

/-- The signed results of closing a slot all fit. -/
structure SlotInRange (c : LedbatController) : Prop where
  mean : FitsInt32 c.delayMean
  down : 0 < min c.averageDelay c.delayMean → FitsInt32 (-(min c.averageDelay c.delayMean))
  up : max c.averageDelay c.delayMean < 0 → FitsInt32 (-(max c.averageDelay c.delayMean))
  average : FitsInt32 (c.delayMean + delayAdjust c.averageDelay c.delayMean)
  previous : FitsInt32 (c.averageDelay + delayAdjust c.averageDelay c.delayMean)
  drift : FitsInt32 (c.delayMean + delayAdjust c.averageDelay c.delayMean -
    (c.averageDelay + delayAdjust c.averageDelay c.delayMean))
  clockDrift : FitsInt32 ((c.clockDrift * 7 +
    (c.delayMean + delayAdjust c.averageDelay c.delayMean -
      (c.averageDelay + delayAdjust c.averageDelay c.delayMean))).tdiv 8)

/-- The assertions of a call hold and its signed 32-bit results fit. -/
structure DriftInRange (c : LedbatController) (sample : UInt32) (ms : UInt64) : Prop where
  asserts : c.updateDelayAverageAsserts sample ms
  samples : FitsInt32 (c.currentDelaySamples + 1)
  slot : int64 c.averageSampleTime.toNat < int64 ms.toNat → (c.sumDelay sample).SlotInRange

/-- The base that a sample is measured against. -/
def baseFor (c : LedbatController) (sample : UInt32) : UInt32 :=
  if c.averageDelayBase = 0 then sample else c.averageDelayBase

/-- A slot has less than `2 ^ 31` samples. When it is closed, the signed distances of its samples
from the base have a sum between the bounds that their number and the last average set. -/
def Moderate (c : LedbatController) (sample : UInt32) (ms : UInt64) : Prop :=
  c.currentDelaySamples + 1 < 2 ^ 31 ∧ (int64 c.averageSampleTime.toNat < int64 ms.toNat →
    c.currentDelaySum + delaySample (c.baseFor sample) sample <
        (c.currentDelaySamples + 1) * min (INT_MAX : ℤ) (2 ^ 31 + c.averageDelay) ∧
      -((c.currentDelaySamples + 1) * min (INT_MAX : ℤ) (2 ^ 31 + 1 - c.averageDelay)) <
        c.currentDelaySum + delaySample (c.baseFor sample) sample)

/-- The running sum lies between the least and the largest sum of its samples. -/
structure DriftState (c : LedbatController) : Prop where
  samples : 0 ≤ c.currentDelaySamples
  sum_ge : -(c.currentDelaySamples * 2 ^ 31) ≤ c.currentDelaySum
  sum_le : c.currentDelaySum ≤ c.currentDelaySamples * (2 ^ 31 - 1)
  average : -2 ^ 31 < c.averageDelay ∧ c.averageDelay < 2 ^ 31
  clockDrift : FitsInt32 c.clockDrift

variable {c : LedbatController} {sample : UInt32} {ms : UInt64}

theorem delaySample_range (base s : UInt32) : -2 ^ 31 ≤ delaySample base s ∧ delaySample base s ≤ 2 ^ 31 - 1 := by
  have hsum : ((base - s).toNat + (s - base).toNat) % 2 ^ 32 = 0 := by
    rw [← UInt32.toNat_add]
    have : base - s + (s - base) = 0 := by grind
    rw [this]
    rfl
  have h₁ := (base - s).toNat_lt
  have h₂ := (s - base).toNat_lt
  unfold delaySample
  simp only [gt_iff_lt, UInt32.lt_iff_toNat_lt]
  split <;> omega

variable (sample) in
theorem sumDelay_spec (h : c.DriftState) (hn : c.currentDelaySamples + 1 < 2 ^ 31) :
    (c.sumDelay sample).currentDelaySum = c.currentDelaySum + delaySample (c.baseFor sample) sample ∧
      (c.sumDelay sample).currentDelaySamples = c.currentDelaySamples + 1 ∧
      (c.sumDelay sample).DriftState := by
  obtain ⟨hs, hge, hle, ha, hc⟩ := h
  obtain ⟨hlow, hhigh⟩ := delaySample_range (c.baseFor sample) sample
  have hsum : (c.sumDelay sample).currentDelaySum =
      c.currentDelaySum + delaySample (c.baseFor sample) sample := by
    unfold baseFor at hlow hhigh
    exact int64_eq (by omega) (by omega)
  have hcount : (c.sumDelay sample).currentDelaySamples = c.currentDelaySamples + 1 :=
    int32_eq (by omega) hn
  exact ⟨hsum, hcount, by omega, by omega, by omega, ha, hc⟩

/-- The mean of a slot lies between its least and its largest sample. -/
theorem delayMean_range (h : c.DriftState) (hn : 0 < c.currentDelaySamples) : FitsInt32 c.delayMean := by
  obtain ⟨-, hge, hle, -⟩ := h
  unfold delayMean
  constructor
  · have := (neg_lt_tdiv_iff (s := c.currentDelaySum) hn (k := 2 ^ 31 + 1) (by omega)).2 (by omega)
    omega
  · exact (tdiv_lt_iff hn (by omega)).2 (by omega)

/-- With the mean inside the assertions only the drift can leave its range. -/
theorem slotInRange_iff (h : c.DriftState) (hn : 0 < c.currentDelaySamples)
    (hlow : -(INT_MAX : ℤ) < c.delayMean) :
    c.SlotInRange ↔ FitsInt32 (c.delayMean - c.averageDelay) := by
  have hmean := delayMean_range h hn
  obtain ⟨-, -, -, ⟨ha, ha'⟩, hc, hc'⟩ := h
  have hmax : (INT_MAX : ℤ) = 2 ^ 31 - 1 := by decide
  have hadjust : delayAdjust c.averageDelay c.delayMean =
      if 0 < min c.averageDelay c.delayMean then -(min c.averageDelay c.delayMean)
      else if max c.averageDelay c.delayMean < 0 then -(max c.averageDelay c.delayMean) else 0 := by
    obtain ⟨hm, hm'⟩ := hmean
    unfold delayAdjust
    split_ifs with h₁ h₂
    · exact int32_eq (by omega) (by omega)
    · exact int32_eq (by omega) (by omega)
    · rfl
  constructor
  · intro hr
    have := hr.drift
    rwa [add_sub_add_right_eq_sub] at this
  · intro hd
    obtain ⟨hm, hm'⟩ := hmean
    constructor
    · exact ⟨hm, hm'⟩
    · intro _
      exact ⟨by omega, by omega⟩
    · intro _
      exact ⟨by omega, by omega⟩
    · rw [hadjust]
      exact ⟨by split_ifs <;> omega, by split_ifs <;> omega⟩
    · rw [hadjust]
      exact ⟨by split_ifs <;> omega, by split_ifs <;> omega⟩
    · rwa [add_sub_add_right_eq_sub]
    · rw [add_sub_add_right_eq_sub]
      obtain ⟨hd, hd'⟩ := hd
      constructor
      · have := (neg_lt_tdiv_iff (s := c.clockDrift * 7 + (c.delayMean - c.averageDelay)) (n := 8)
          (by omega) (k := 2 ^ 31 + 1) (by omega)).2 (by omega)
        omega
      · exact (tdiv_lt_iff (by omega) (by omega)).2 (by omega)

/-- One call. -/
theorem driftInRange_iff (h : c.DriftState) : c.DriftInRange sample ms ↔ c.Moderate sample ms := by
  by_cases hn : c.currentDelaySamples + 1 < 2 ^ 31
  swap
  · exact ⟨fun hr => absurd hr.samples.2 hn, fun hm => absurd hm.1 hn⟩
  have h0 := h.samples
  have hfit : FitsInt32 (c.currentDelaySamples + 1) := ⟨by omega, hn⟩
  obtain ⟨hsum, hcount, hst⟩ := sumDelay_spec sample h hn
  have hpos : 0 < (c.sumDelay sample).currentDelaySamples := by omega
  have hav : (c.sumDelay sample).averageDelay = c.averageDelay := rfl
  have hmax : (INT_MAX : ℤ) = 2 ^ 31 - 1 := by decide
  have ha := h.average
  -- the bounds of the sum are those of the mean
  have hup : (c.sumDelay sample).delayMean < min (INT_MAX : ℤ) (2 ^ 31 + c.averageDelay) ↔
      c.currentDelaySum + delaySample (c.baseFor sample) sample <
        (c.currentDelaySamples + 1) * min (INT_MAX : ℤ) (2 ^ 31 + c.averageDelay) := by
    rw [← hsum, ← hcount]
    exact tdiv_lt_iff hpos (by omega)
  have hdown : -(min (INT_MAX : ℤ) (2 ^ 31 + 1 - c.averageDelay)) < (c.sumDelay sample).delayMean ↔
      -((c.currentDelaySamples + 1) * min (INT_MAX : ℤ) (2 ^ 31 + 1 - c.averageDelay)) <
        c.currentDelaySum + delaySample (c.baseFor sample) sample := by
    rw [← hsum, ← hcount]
    exact neg_lt_tdiv_iff hpos (by omega)
  unfold Moderate
  rw [← hup, ← hdown]
  constructor
  · intro hr
    refine ⟨hn, fun ht => ?_⟩
    obtain ⟨h₁, h₂⟩ := hr.asserts ht
    obtain ⟨h₃, h₄⟩ := (slotInRange_iff hst hpos h₂).1 (hr.slot ht)
    rw [hav] at h₃ h₄
    exact ⟨by omega, by omega⟩
  · rintro ⟨-, hm⟩
    have hassert (ht : int64 c.averageSampleTime.toNat < int64 ms.toNat) :
        (c.sumDelay sample).delayMean < INT_MAX ∧ -(INT_MAX : ℤ) < (c.sumDelay sample).delayMean := by
      obtain ⟨h₁, h₂⟩ := hm ht
      exact ⟨by omega, by omega⟩
    refine ⟨hassert, hfit, fun ht => (slotInRange_iff hst hpos (hassert ht).2).2 ?_⟩
    obtain ⟨h₁, h₂⟩ := hm ht
    rw [hav]
    exact ⟨by omega, by omega⟩

/-- A call in range keeps the state of the sums. -/
theorem driftState_update (h : c.DriftState) (hr : c.DriftInRange sample ms) :
    (c.updateDelayAverage sample ms).DriftState := by
  have hn : c.currentDelaySamples + 1 < 2 ^ 31 := hr.samples.2
  have h0 := h.samples
  obtain ⟨hsum, hcount, hst⟩ := sumDelay_spec sample h hn
  have hasserts := hr.asserts
  have hslot := hr.slot
  unfold updateDelayAverageAsserts at hasserts
  unfold updateDelayAverage
  have htime : (c.sumDelay sample).averageSampleTime = c.averageSampleTime := rfl
  dsimp only at hasserts ⊢
  rw [htime] at hasserts ⊢
  generalize c.sumDelay sample = d at hcount hst hasserts hslot ⊢
  split
  · rename_i ht
    obtain ⟨-, hlow⟩ := hasserts ht
    have hs := hslot ht
    have hmean := hs.mean.int32_eq
    have hav : d.closeSlot.averageDelay = d.delayMean + delayAdjust d.averageDelay d.delayMean := by
      unfold closeSlot
      dsimp only
      rw [hmean, hs.average.int32_eq]
    refine ⟨le_refl _, le_refl _, le_refl _, ?_, fitsInt32_int32 _⟩
    rw [hav]
    obtain ⟨hfit, hfit'⟩ := hs.average
    refine ⟨?_, hfit'⟩
    have hmax : (INT_MAX : ℤ) = 2 ^ 31 - 1 := by decide
    have hlow' := hst.average
    unfold delayAdjust at hfit ⊢
    split_ifs with h₁ h₂
    · rw [int32_eq (by omega) (by omega)]
      omega
    · rw [int32_eq (by omega) (by omega)]
      omega
    · omega
  · exact hst

def measureOne (c : LedbatController) (x : UInt32 × UInt64) : LedbatController :=
  c.updateDelayAverage x.1 x.2

/-- The calls from `init_timing` on. -/
def measure (start : UInt64) (calls : List (UInt32 × UInt64)) : LedbatController :=
  calls.foldl measureOne (({} : LedbatController).initTiming start)

theorem measure_concat (start : UInt64) (calls : List (UInt32 × UInt64)) (x : UInt32 × UInt64) :
    measure start (calls ++ [x]) = (measure start calls).measureOne x := by
  unfold measure
  rw [List.foldl_append, List.foldl_cons, List.foldl_nil]

theorem driftState_measure (start : UInt64) {calls : List (UInt32 × UInt64)}
    (h : ∀ cs x ms, cs ++ [(x, ms)] <+: calls → (measure start cs).DriftState →
      (measure start cs).DriftInRange x ms) : (measure start calls).DriftState := by
  induction calls using List.reverseRecOn with
  | nil =>
    constructor <;> simp [measure, initTiming, FitsInt32]
  | append_singleton cs x ih =>
    have hcs := ih fun cs' x' ms' hp => h cs' x' ms' (hp.trans (List.prefix_append _ _))
    have hr := h cs x.1 x.2 (List.prefix_refl _) hcs
    rw [measure_concat]
    exact driftState_update hcs hr

/-- In every sequence of calls all assertions hold and all signed 32-bit results fit if and only
if all sums stay between their bounds. -/
theorem clockDrift_inRange (start : UInt64) (calls : List (UInt32 × UInt64)) :
    (∀ cs x ms, cs ++ [(x, ms)] <+: calls → (measure start cs).DriftInRange x ms) ↔
      ∀ cs x ms, cs ++ [(x, ms)] <+: calls → (measure start cs).Moderate x ms := by
  constructor
  · intro h cs x ms hp
    refine (driftInRange_iff ?_).1 (h cs x ms hp)
    exact driftState_measure start fun cs' x' ms' hp' _ =>
      h cs' x' ms' ((hp'.trans (List.prefix_append _ _)).trans hp)
  · intro h cs x ms hp
    refine (driftInRange_iff ?_).2 (h cs x ms hp)
    exact driftState_measure start fun cs' x' ms' hp' hs =>
      (driftInRange_iff hs).2 (h cs' x' ms' ((hp'.trans (List.prefix_append _ _)).trans hp))

/-- The only sample of a slot lies as far above the base as one can. -/
theorem clockDrift_outOfRange : ¬ ∀ cs x ms,
    cs ++ [(x, ms)] <+: [(5, 1), (5, 5001), (0x80000004, 10001)] →
      (measure 0 cs).DriftInRange x ms := by
  intro h
  exact absurd (h [(5, 1), (5, 5001)] 0x80000004 10001 (List.prefix_refl _)).asserts (by decide)

end LedbatController

end Utp
