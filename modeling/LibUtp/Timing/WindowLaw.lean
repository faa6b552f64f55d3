import LibUtp.Timing.ClockDrift

/-! What `apply_ccontrol` does to the window. A shrinkage of more than the window passes the lower
bound by, as the gain is converted to `size_t` before the sum is compared. -/

namespace Utp

theorem truncQ_div (n : ℤ) {d : ℕ} (hd : 0 < d) : truncQ ((n : ℚ) / d) = n.tdiv d := by
  have hd' : (0 : ℚ) < d := by exact_mod_cast hd
  unfold truncQ
  rcases le_or_gt 0 n with hn | hn
  · have h0 : (0 : ℚ) ≤ (n : ℚ) / d := div_nonneg (by exact_mod_cast hn) hd'.le
    rw [if_pos h0, Int.tdiv_eq_ediv_of_nonneg hn]
    exact Rat.floor_intCast_div_natCast n d
  · have h0 : ¬ (0 : ℚ) ≤ (n : ℚ) / d := not_le.2 (div_neg_of_neg_of_pos (by exact_mod_cast hn) hd')
    have htdiv : n.tdiv d = -(-n / d) := by
      rw [← Int.tdiv_eq_ediv_of_nonneg (by omega), Int.neg_tdiv, neg_neg]
    rw [if_neg h0, htdiv, Rat.ceil_eq_neg_floor_neg, ← neg_div, ← Int.cast_neg]
    exact congrArg Neg.neg (Rat.floor_intCast_div_natCast (-n) d)

theorem sizeT_le {x : ℤ} (h : 0 ≤ x) : (sizeT x : ℤ) ≤ x := by
  unfold sizeT
  omega

theorem sizeT_eq {x : ℤ} (h₁ : 0 ≤ x) (h₂ : x < 2 ^ 64) : (sizeT x : ℤ) = x := by
  unfold sizeT
  rw [Int.emod_eq_of_lt h₁ h₂]
  omega

theorem sizeT_neg {x : ℤ} (h₁ : 0 < x) (h₂ : x ≤ 2 ^ 64) : (sizeT (-x) : ℤ) = 2 ^ 64 - x := by
  unfold sizeT
  omega

namespace LedbatController

variable {c : LedbatController} {bytesAcked packetSize optSndbuf targetDelay : ℕ} {minRtt : ℤ}
  {currentMs : UInt64} {n : ℤ} {d : ℕ}

/-! The next window, for a gain of `n / d`. -/

theorem ledbatCwnd_div (c : LedbatController) (n : ℤ) (hd : 0 < d) : c.ledbatCwnd ((n : ℚ) / d) =
    if sizeT (c.maxWindow + sizeT (n.tdiv d)) < MIN_WINDOW_SIZE then MIN_WINDOW_SIZE
    else sizeT ((c.maxWindow * d + n).tdiv d) := by
  have hd' : (d : ℚ) ≠ 0 := by exact_mod_cast hd.ne'
  have hsum : (c.maxWindow : ℚ) + (n : ℚ) / d = ((c.maxWindow * d + n : ℤ) : ℚ) / d := by
    push_cast
    field_simp
  unfold ledbatCwnd sizeOfDouble
  rw [hsum, truncQ_div _ hd, truncQ_div _ hd]

theorem ledbatCwnd_grow (hM : MIN_WINDOW_SIZE ≤ c.maxWindow) (hd : 0 < d) (hn : 0 ≤ n) :
    (c.ledbatCwnd ((n : ℚ) / d) : ℤ) ≤ c.maxWindow + n / d := by
  have hq : 0 ≤ n / d := Int.ediv_nonneg hn (Int.natCast_nonneg d)
  have hM : 10 ≤ c.maxWindow := hM
  rw [ledbatCwnd_div c n hd]
  split
  · show (10 : ℤ) ≤ _
    omega
  · rw [Int.tdiv_eq_ediv_of_nonneg (by positivity), add_comm, Int.add_mul_ediv_right _ _ (by omega), add_comm]
    exact sizeT_le (by omega)

theorem ledbatCwnd_shrink (hM : MIN_WINDOW_SIZE ≤ c.maxWindow) (hd : 0 < d) (hn : n < 0)
    (hq : -n / d ≤ c.maxWindow) : c.ledbatCwnd ((n : ℚ) / d) ≤ c.maxWindow := by
  have hd' : (0 : ℤ) < d := by exact_mod_cast hd
  have hlt : -n < (c.maxWindow + 1) * d := (Int.ediv_lt_iff_lt_mul hd').1 (by omega)
  rw [ledbatCwnd_div c n hd]
  split
  · exact hM
  · have hrange : 0 ≤ (c.maxWindow * d + n : ℤ).tdiv d ∧ (c.maxWindow * d + n : ℤ).tdiv d ≤ c.maxWindow := by
      rcases le_or_gt 0 (c.maxWindow * d + n : ℤ) with h | h
      · rw [Int.tdiv_eq_ediv_of_nonneg h]
        exact ⟨Int.ediv_nonneg h hd'.le, Int.ediv_le_of_le_mul hd' (by omega)⟩
      · have hzero : -(c.maxWindow * d + n : ℤ).tdiv d = 0 := by
          rw [← Int.neg_tdiv, Int.tdiv_eq_ediv_of_nonneg (by omega)]
          refine Int.ediv_eq_zero_of_lt (by omega) ?_
          rw [add_one_mul] at hlt
          omega
        omega
    have := sizeT_le hrange.1
    omega

/-- A window that would shrink by more. -/
theorem ledbatCwnd_wrap (hd : 0 < d) (hq : c.maxWindow < -n / d) (hlarge : -n / d < 2 ^ 63) :
    (c.ledbatCwnd ((n : ℚ) / d) : ℤ) = 2 ^ 64 + c.maxWindow - -n / d := by
  have hd' : (0 : ℤ) < d := by exact_mod_cast hd
  have hn : c.maxWindow * d + n ≤ 0 := by
    have := (Int.le_ediv_iff_mul_le hd').1 hq.le
    omega
  have htdiv : n.tdiv d = -(-n / d) := by
    have hpos : 0 ≤ -n := by nlinarith
    rw [← Int.tdiv_eq_ediv_of_nonneg hpos, Int.neg_tdiv, neg_neg]
  have hsum : (c.maxWindow * d + n : ℤ).tdiv d = -(-n / d - c.maxWindow) := by
    have hsub : -(c.maxWindow * d + n : ℤ) / d = -n / d - c.maxWindow := by
      rw [show -(c.maxWindow * d + n : ℤ) = -n + -c.maxWindow * d by ring, Int.add_mul_ediv_right _ _ hd'.ne']
      ring
    rw [← hsub, ← Int.tdiv_eq_ediv_of_nonneg (by omega), Int.neg_tdiv, neg_neg]
  have hfirst := sizeT_neg (x := -n / d) (by omega) (by omega)
  rw [ledbatCwnd_div c n hd, htdiv, hsum, hfirst, if_neg]
  · rw [sizeT_neg (by omega) (by omega)]
    ring
  · have hsize := @sizeT_eq (c.maxWindow + (2 ^ 64 - -n / d)) (by omega) (by omega)
    unfold MIN_WINDOW_SIZE
    omega

/-! The delay, the target and the gain as the inputs give them. -/

/-- The queueing delay with its penalty, in unbounded integers. -/
def queueing (c : LedbatController) (minRtt : ℤ) : ℤ :=
  (min c.ourHist.getValue (UInt32.ofInt minRtt)).toNat +
    if c.clockDrift < -200000 then (-c.clockDrift - 200000) / 7 else 0

/-- What the window is asked to shrink by: the largest change per round trip, scaled with the share of
the window that was acknowledged and with the excess of the delay over the target. -/
def shrinkage (c : LedbatController) (bytesAcked : ℕ) (minRtt : ℤ) (targetDelay : ℕ) : ℤ :=
  MAX_CWND_INCREASE_BYTES_PER_RTT * min bytesAcked c.maxWindow * (c.queueing minRtt - target targetDelay) /
    (max c.maxWindow bytesAcked * target targetDelay)

theorem target_range (targetDelay : ℕ) : 1 ≤ target targetDelay ∧ target targetDelay < 2 ^ 31 := by
  have h := fitsInt32_int32 targetDelay
  unfold target
  split
  · omega
  · exact ⟨by omega, h.2⟩

theorem rawDelay_eq (h : 0 ≤ c.rawDelay minRtt) :
    c.rawDelay minRtt = (min c.ourHist.getValue (UInt32.ofInt minRtt)).toNat ∧ c.rawDelay minRtt < 2 ^ 31 := by
  unfold rawDelay at h ⊢
  generalize min c.ourHist.getValue (UInt32.ofInt minRtt) = v at h ⊢
  have hv := v.toNat_lt
  have hlt : (v.toNat : ℤ) < 2 ^ 31 := by
    by_contra hle
    have := int32_neg (not_lt.1 hle) (by omega)
    omega
  rw [int32_eq (by omega) hlt]
  exact ⟨rfl, hlt⟩

theorem penalty_eq (h : FitsInt32 c.clockDrift) :
    c.penalty = if c.clockDrift < -200000 then (-c.clockDrift - 200000) / 7 else 0 := by
  obtain ⟨h₁, h₂⟩ := h
  unfold penalty
  split
  · have hneg : int32 (int32 (-c.clockDrift) - 200000) = -c.clockDrift - 200000 := by
      have hsub : int32 (int32 (-c.clockDrift) - 200000) = int32 (-c.clockDrift - 200000) := Int.bmod_sub_bmod
      rw [hsub, int32_eq (by omega) (by omega)]
    rw [hneg, Int.tdiv_eq_ediv_of_nonneg (by omega)]
  · rfl

theorem ourDelay_eq (hdrift : FitsInt32 c.clockDrift) (h : 0 ≤ c.rawDelay minRtt) :
    c.ourDelay minRtt = int32 (c.queueing minRtt) ∧ 0 ≤ c.queueing minRtt ∧
      c.queueing minRtt < 2 ^ 31 + 2 ^ 29 := by
  obtain ⟨h₁, h₂⟩ := rawDelay_eq h
  have hpenalty := penalty_eq hdrift
  obtain ⟨h₃, h₄⟩ := hdrift
  unfold ourDelay queueing
  rw [hpenalty, h₁]
  rw [h₁] at h₂
  refine ⟨rfl, ?_, ?_⟩ <;> split <;> omega

theorem offTarget_eq (hdrift : FitsInt32 c.clockDrift) (h : 0 ≤ c.rawDelay minRtt) (targetDelay : ℕ) :
    c.offTarget minRtt targetDelay = int32 (target targetDelay - c.queueing minRtt) := by
  unfold offTarget
  rw [(ourDelay_eq hdrift h).1]
  exact Int.sub_bmod_bmod

theorem fullGain_eq (c : LedbatController) (bytesAcked : ℕ) (minRtt : ℤ) (targetDelay : ℕ) :
    c.fullGain bytesAcked minRtt targetDelay =
      ((MAX_CWND_INCREASE_BYTES_PER_RTT * min bytesAcked c.maxWindow * c.offTarget minRtt targetDelay : ℤ) : ℚ) /
        ((max c.maxWindow bytesAcked * (target targetDelay).toNat : ℕ) : ℚ) := by
  have hT := target_range targetDelay
  have htoNat : ((target targetDelay).toNat : ℚ) = (target targetDelay : ℚ) := by
    exact_mod_cast Int.toNat_of_nonneg (by omega)
  unfold fullGain windowFactor
  push_cast
  rw [htoNat, mul_div_mul_comm, mul_div_assoc]

theorem ssCwnd_eq (c : LedbatController) {bytesAcked : ℕ} (hb : 0 < bytesAcked) (packetSize : ℕ) :
    sizeT (c.maxWindow + sizeOfDouble (c.windowFactor bytesAcked * packetSize)) =
      (c.maxWindow + min bytesAcked c.maxWindow * packetSize / max c.maxWindow bytesAcked) % 2 ^ 64 := by
  have hd : 0 < max c.maxWindow bytesAcked := by omega
  have hprod : c.windowFactor bytesAcked * packetSize =
      (((min bytesAcked c.maxWindow * packetSize : ℕ) : ℤ) : ℚ) / (max c.maxWindow bytesAcked : ℕ) := by
    unfold windowFactor
    push_cast
    rw [div_mul_eq_mul_div]
  unfold sizeOfDouble
  rw [hprod, truncQ_div _ hd, Int.tdiv_eq_ediv_of_nonneg (by positivity), ← Int.natCast_ediv]
  unfold sizeT
  omega

/-- The window law: the new window `w` within its bounds, with at most the largest increase, and no
larger than the old one when the delay has reached the target. -/
structure WindowLaw (old w optSndbuf packetSize : ℕ) (ourDelay target : ℤ) : Prop where
  minimum : MIN_WINDOW_SIZE ≤ w
  maximum : w ≤ optSndbuf
  increase : w ≤ old + max packetSize MAX_CWND_INCREASE_BYTES_PER_RTT
  target : target ≤ ourDelay → w ≤ old

/-- The window is asked to shrink by more than it measures, and is not left as it is. The part on
delays from `2 ^ 31` on is about their sum wrapping around in 32 bits. -/
@[mk_iff]
structure Overshoots (c : LedbatController) (bytesAcked : ℕ) (minRtt : ℤ)
    (optSndbuf targetDelay packetSize : ℕ) : Prop where
  large : c.maxWindow < c.shrinkage bytesAcked minRtt targetDelay
  applied : c.slowStart = false ∨ 2 ^ 31 ≤ c.queueing minRtt ∧ (c.maxWindow +
    min bytesAcked c.maxWindow * packetSize / max c.maxWindow bytesAcked) % 2 ^ 64 ≤ c.ssthresh
  range : c.queueing minRtt - target targetDelay ≤ 2 ^ 31
  room : (if c.queueing minRtt < 2 ^ 31 then (c.maxWindow : ℤ)
      else (c.maxWindow + max packetSize MAX_CWND_INCREASE_BYTES_PER_RTT : ℕ)) <
    min (2 ^ 64 + c.maxWindow - c.shrinkage bytesAcked minRtt targetDelay : ℤ) optSndbuf

theorem windowLaw_clamp {old v optSndbuf packetSize : ℕ} {ourDelay target : ℤ} (h₁ : MIN_WINDOW_SIZE ≤ old)
    (h₂ : old ≤ optSndbuf) :
    WindowLaw old (min (max v MIN_WINDOW_SIZE) optSndbuf) optSndbuf packetSize ourDelay target ↔
      min v optSndbuf ≤ old + max packetSize MAX_CWND_INCREASE_BYTES_PER_RTT ∧
        (target ≤ ourDelay → min v optSndbuf ≤ old) := by
  constructor
  · rintro ⟨-, -, h₃, h₄⟩
    exact ⟨by omega, fun h => by have := h₄ h; omega⟩
  · rintro ⟨h₃, h₄⟩
    exact ⟨by omega, by omega, by omega, fun h => by have := h₄ h; omega⟩

theorem scaledGain_eq (c : LedbatController) {bytesAcked : ℕ} (minRtt : ℤ) (currentMs : UInt64)
    (targetDelay : ℕ) {n : ℤ} {d : ℕ} (hd : 0 < d)
    (hg : c.fullGain bytesAcked minRtt targetDelay = (n : ℚ) / d) :
    ∃ m : ℤ, c.scaledGain bytesAcked minRtt currentMs targetDelay = (m : ℚ) / d ∧
      (0 ≤ n → 0 ≤ m ∧ m ≤ n) ∧ (n < 0 → m = n) := by
  unfold scaledGain
  rw [hg]
  split
  · rename_i h
    have hd' : (0 : ℚ) < d := by exact_mod_cast hd
    have hn : 0 < n := by
      have := (div_pos_iff_of_pos_right hd').1 h.1
      exact_mod_cast this
    exact ⟨0, by simp, fun h => ⟨le_rfl, h⟩, fun h => by omega⟩
  · exact ⟨n, rfl, fun h => ⟨h, le_rfl⟩, fun _ => rfl⟩

/-- A gain that does not shrink the window is at most the largest increase. For a difference that has
wrapped around it is the assertion that bounds it. -/
theorem gain_le {A B T s x : ℤ} (hA : 0 ≤ A) (hAB : A ≤ B) (hB : 0 < B) (hT : 1 ≤ T)
    (h : 0 ≤ s ∧ x = T - s ∨
      2 ^ 31 < s - T ∧ s < 2 ^ 31 + 2 ^ 29 ∧ x = T - s + 2 ^ 32 ∧ 3000 * A * (x - T) ≤ B * T) :
    3000 * A * x / (B * T) ≤ 3000 := by
  refine Int.ediv_le_of_le_mul (by positivity) ?_
  rcases h with ⟨h₁, rfl⟩ | ⟨h₁, h₂, h₃, h₄⟩
  · calc 3000 * A * (T - s) ≤ 3000 * A * T := by
          refine mul_le_mul_of_nonneg_left (by omega) (by omega)
      _ ≤ 3000 * B * T := by
          refine mul_le_mul_of_nonneg_right (by omega) (by omega)
      _ = 3000 * (B * T) := by ring
  · have hAT : 3000 * A * T ≤ 3000 * A * (x - T) := by
      refine mul_le_mul_of_nonneg_left (by omega) (by omega)
    have hBT : 0 ≤ B * T := by positivity
    calc 3000 * A * x = 3000 * A * (x - T) + 3000 * A * T := by ring
      _ ≤ 3000 * (B * T) := by omega

theorem gain_asserted {A B T x : ℤ} (hB : 0 < B) (hT : 0 < T)
    (h : ((3000 * A * x : ℤ) : ℚ) / ((B * T : ℤ) : ℚ) ≤ 1 + 3000 * ((A : ℚ) / B)) :
    3000 * A * (x - T) ≤ B * T := by
  have hB' : (0 : ℚ) < B := by exact_mod_cast hB
  have hT' : (0 : ℚ) < T := by exact_mod_cast hT
  have hsum : 1 + 3000 * ((A : ℚ) / B) = ((B * T + 3000 * A * T : ℤ) : ℚ) / ((B * T : ℤ) : ℚ) := by
    push_cast
    field_simp
  rw [hsum, div_le_div_iff_of_pos_right (by exact_mod_cast mul_pos hB hT)] at h
  have h : 3000 * A * x ≤ B * T + 3000 * A * T := by exact_mod_cast h
  rw [mul_sub]
  omega

theorem int32_wrap {x : ℤ} (h₁ : -2 ^ 32 ≤ x) (h₂ : x < -2 ^ 31) : int32 x = x + 2 ^ 32 := by
  have hshift : int32 x = int32 (x + 2 ^ 32) := (Int.add_bmod_right x (2 ^ 32)).symm
  rw [hshift, int32_eq (by omega) (by omega)]

/-- Where the delay is not over the target, or so far over it that the difference wraps around, the
gain is at most the largest increase, and nothing when the delay has reached the target. -/
theorem gain_grow {A B T s x D : ℤ} (hA : 0 ≤ A) (hAB : A ≤ B) (hB : 0 < B) (hT1 : 1 ≤ T) (hT2 : T < 2 ^ 31)
    (hs0 : 0 ≤ s) (hs1 : s < 2 ^ 31 + 2 ^ 29) (hx : x = int32 (T - s)) (hD : D = int32 s)
    (hgain : ((3000 * A * x : ℤ) : ℚ) / ((B * T : ℤ) : ℚ) ≤ 1 + 3000 * ((A : ℚ) / B))
    (h : s ≤ T ∨ 2 ^ 31 < s - T) :
    0 ≤ x ∧ 3000 * A * x / (B * T) ≤ 3000 ∧ (T ≤ D → x = 0) := by
  rcases h with h | h
  · rw [int32_eq (by omega) (by omega)] at hx hD
    exact ⟨by omega, gain_le hA hAB hB hT1 (.inl ⟨hs0, hx⟩), fun h => by omega⟩
  · rw [int32_wrap (by omega) (by omega)] at hx
    have hneg := int32_neg (x := s) (by omega) (by omega)
    have hassert := gain_asserted hB (by omega) hgain
    exact ⟨by omega, gain_le hA hAB hB hT1 (.inr ⟨h, hs1, hx, hassert⟩), fun h => by omega⟩

theorem exists_gain (h : c.applyCcontrolAsserts bytesAcked minRtt targetDelay) :
    ∃ d : ℕ, 0 < d ∧ (d : ℤ) = (max c.maxWindow bytesAcked : ℕ) * target targetDelay ∧
      c.fullGain bytesAcked minRtt targetDelay =
        ((3000 * (min bytesAcked c.maxWindow : ℕ) * c.offTarget minRtt targetDelay : ℤ) : ℚ) / d ∧
      ((3000 * (min bytesAcked c.maxWindow : ℕ) * c.offTarget minRtt targetDelay : ℤ) : ℚ) /
          (((max c.maxWindow bytesAcked : ℕ) * target targetDelay : ℤ) : ℚ) ≤
        1 + 3000 * (((min bytesAcked c.maxWindow : ℕ) : ℤ) / ((max c.maxWindow bytesAcked : ℕ) : ℤ) : ℚ) := by
  obtain ⟨-, -, -, hb, hgain⟩ := h
  have hT := (target_range targetDelay).1
  have hdT : ((max c.maxWindow bytesAcked * (target targetDelay).toNat : ℕ) : ℤ) =
      (max c.maxWindow bytesAcked : ℕ) * target targetDelay := by
    rw [Nat.cast_mul, Int.toNat_of_nonneg (by omega)]
  have hfull := fullGain_eq c bytesAcked minRtt targetDelay
  refine ⟨_, Nat.mul_pos (lt_max_of_lt_right hb) (by omega), hdT, hfull, ?_⟩
  rw [hfull] at hgain
  rw [← hdT]
  exact hgain

theorem cwnd_grow (h : c.applyCcontrolAsserts bytesAcked minRtt targetDelay) (hdrift : FitsInt32 c.clockDrift)
    (hM : MIN_WINDOW_SIZE ≤ c.maxWindow)
    (hs : c.queueing minRtt ≤ target targetDelay ∨ 2 ^ 31 < c.queueing minRtt - target targetDelay) :
    c.ledbatCwnd (c.scaledGain bytesAcked minRtt currentMs targetDelay) ≤ c.maxWindow + 3000 ∧
      (target targetDelay ≤ c.ourDelay minRtt →
        c.ledbatCwnd (c.scaledGain bytesAcked minRtt currentMs targetDelay) ≤ c.maxWindow) := by
  obtain ⟨d, hd, hdT, hfull, hassert⟩ := exists_gain h
  obtain ⟨-, -, hraw, hb, -⟩ := h
  obtain ⟨hour, hs0, hs1⟩ := ourDelay_eq hdrift hraw
  obtain ⟨hT1, hT2⟩ := target_range targetDelay
  obtain ⟨m, hm, hmn, -⟩ := scaledGain_eq c minRtt currentMs targetDelay hd hfull
  have hA : (0 : ℤ) ≤ (min bytesAcked c.maxWindow : ℕ) := Int.natCast_nonneg _
  have hAB : ((min bytesAcked c.maxWindow : ℕ) : ℤ) ≤ (max c.maxWindow bytesAcked : ℕ) :=
    Int.ofNat_le.2 ((min_le_right _ _).trans (le_max_left _ _))
  have hB : (0 : ℤ) < (max c.maxWindow bytesAcked : ℕ) := Int.natCast_pos.2 (lt_max_of_lt_right hb)
  have hoff := offTarget_eq hdrift hraw targetDelay
  obtain ⟨hx, hle, hzero⟩ := gain_grow hA hAB hB hT1 hT2 hs0 hs1 hoff hour hassert hs
  rw [← hdT] at hle
  have hn : 0 ≤ 3000 * ((min bytesAcked c.maxWindow : ℕ) : ℤ) * c.offTarget minRtt targetDelay :=
    mul_nonneg (mul_nonneg (by norm_num) hA) hx
  obtain ⟨hm0, hmle⟩ := hmn hn
  have hdiv := (Int.ediv_le_ediv (by omega) hmle).trans hle
  have hcwnd := ledbatCwnd_grow hM hd hm0
  rw [← hm] at hcwnd
  refine ⟨by omega, fun hD => ?_⟩
  rw [hzero hD, mul_zero] at hmle
  rw [le_antisymm hmle hm0, Int.zero_ediv] at hcwnd
  omega

theorem shrink_le {A B T e : ℤ} (hAB : A ≤ B) (hB : 0 < B) (hT : 1 ≤ T) (he : 0 ≤ e) :
    3000 * A * e / (B * T) ≤ 3000 * e := by
  refine Int.ediv_le_of_le_mul (by positivity) ?_
  have hABT : A ≤ B * T := hAB.trans (le_mul_of_one_le_right hB.le hT)
  calc 3000 * A * e = 3000 * e * A := by ring
    _ ≤ 3000 * e * (B * T) := mul_le_mul_of_nonneg_left hABT (by omega)

/-- Where the delay is over the target, the window shrinks; if by more than it measures, it becomes as
large as a size can be. -/
theorem cwnd_shrink (h : c.applyCcontrolAsserts bytesAcked minRtt targetDelay) (hdrift : FitsInt32 c.clockDrift)
    (hM : MIN_WINDOW_SIZE ≤ c.maxWindow) (hs : target targetDelay < c.queueing minRtt)
    (hs' : c.queueing minRtt - target targetDelay ≤ 2 ^ 31) :
    (c.shrinkage bytesAcked minRtt targetDelay ≤ c.maxWindow →
        c.ledbatCwnd (c.scaledGain bytesAcked minRtt currentMs targetDelay) ≤ c.maxWindow) ∧
      (c.maxWindow < c.shrinkage bytesAcked minRtt targetDelay →
        (c.ledbatCwnd (c.scaledGain bytesAcked minRtt currentMs targetDelay) : ℤ) =
          2 ^ 64 + c.maxWindow - c.shrinkage bytesAcked minRtt targetDelay) := by
  obtain ⟨d, hd, hdT, hfull, -⟩ := exists_gain h
  obtain ⟨-, -, hraw, hb, -⟩ := h
  obtain ⟨hour, hs0, hs1⟩ := ourDelay_eq hdrift hraw
  obtain ⟨hT1, hT2⟩ := target_range targetDelay
  obtain ⟨m, hm, -, hmn⟩ := scaledGain_eq c minRtt currentMs targetDelay hd hfull
  have hoff := offTarget_eq hdrift hraw targetDelay
  rw [int32_eq (by omega) (by omega)] at hoff
  have hM10 : 10 ≤ c.maxWindow := hM
  have hA : (0 : ℤ) < (min bytesAcked c.maxWindow : ℕ) := Int.natCast_pos.2 (lt_min hb (by omega))
  have hAB : ((min bytesAcked c.maxWindow : ℕ) : ℤ) ≤ (max c.maxWindow bytesAcked : ℕ) :=
    Int.ofNat_le.2 ((min_le_right _ _).trans (le_max_left _ _))
  have hshrink : c.shrinkage bytesAcked minRtt targetDelay =
      -(3000 * ((min bytesAcked c.maxWindow : ℕ) : ℤ) * c.offTarget minRtt targetDelay) / d := by
    unfold shrinkage MAX_CWND_INCREASE_BYTES_PER_RTT
    rw [hdT, hoff, ← mul_neg, neg_sub]
    push_cast
    rfl
  have hlarge : c.shrinkage bytesAcked minRtt targetDelay < 2 ^ 63 := by
    have hle := shrink_le hAB (hA.trans_le hAB) hT1 (sub_nonneg.2 hs.le)
    rw [← hdT, ← neg_sub (target targetDelay), ← hoff, mul_neg, ← hshrink, hoff, neg_sub] at hle
    refine hle.trans_lt ((mul_le_mul_of_nonneg_left hs' (by norm_num)).trans_lt ?_)
    norm_num
  have hneg : 3000 * ((min bytesAcked c.maxWindow : ℕ) : ℤ) * c.offTarget minRtt targetDelay < 0 :=
    mul_neg_of_pos_of_neg (mul_pos (by norm_num) hA) (hoff ▸ sub_neg.2 hs)
  rw [hm, hmn hneg]
  rw [hshrink] at hlarge ⊢
  exact ⟨ledbatCwnd_shrink hM hd hneg, fun hq => ledbatCwnd_wrap hd hq hlarge⟩

theorem truncQ_nine_tenths {T : ℤ} (h : 1 ≤ T) :
    0 ≤ truncQ (T * (9 / 10 : ℚ)) ∧ truncQ (T * (9 / 10 : ℚ)) < T := by
  have hfrac : (T : ℚ) * (9 / 10) = ((9 * T : ℤ) : ℚ) / (10 : ℕ) := by
    push_cast
    ring
  rw [hfrac, truncQ_div _ (by norm_num), Int.tdiv_eq_ediv_of_nonneg (by omega)]
  omega

/-- What the step makes of the window: it is kept when slow start ends. -/
theorem stepWindow_cases (c : LedbatController) {bytesAcked : ℕ} (hb : 0 < bytesAcked) (minRtt : ℤ)
    (currentMs : UInt64) (targetDelay packetSize : ℕ) {V ss cwnd : ℕ} {tenths : ℤ}
    (hV : V = (c.stepWindow bytesAcked minRtt currentMs targetDelay packetSize).maxWindow)
    (hss : ss = (c.maxWindow + min bytesAcked c.maxWindow * packetSize / max c.maxWindow bytesAcked) % 2 ^ 64)
    (hcwnd : cwnd = c.ledbatCwnd (c.scaledGain bytesAcked minRtt currentMs targetDelay))
    (htenths : tenths = truncQ (target targetDelay * (9 / 10 : ℚ))) :
    c.slowStart = true ∧ (c.ssthresh < ss ∨ tenths < c.ourDelay minRtt) ∧ V = c.maxWindow ∨
      c.slowStart = true ∧ ss ≤ c.ssthresh ∧ c.ourDelay minRtt ≤ tenths ∧ V = max ss cwnd ∨
      c.slowStart = false ∧ V = cwnd := by
  unfold stepWindow at hV
  dsimp only at hV
  rw [ssCwnd_eq c hb, ← hss, ← hcwnd, ← htenths] at hV
  cases hs : c.slowStart with
  | false =>
    rw [hs, if_neg Bool.false_ne_true] at hV
    exact .inr (.inr ⟨rfl, hV⟩)
  | true =>
    rw [hs, if_pos rfl] at hV
    by_cases h₁ : c.ssthresh < ss
    · rw [if_pos h₁] at hV
      exact .inl ⟨rfl, .inl h₁, hV⟩
    · rw [if_neg h₁] at hV
      by_cases h₂ : tenths < c.ourDelay minRtt
      · rw [if_pos h₂] at hV
        exact .inl ⟨rfl, .inr h₂, hV⟩
      · rw [if_neg h₂] at hV
        exact .inr (.inl ⟨rfl, not_lt.1 h₁, not_lt.1 h₂, hV⟩)

theorem ss_le {M b packetSize ss : ℕ} (hss : ss = (M + min b M * packetSize / max M b) % 2 ^ 64) :
    ss ≤ M + packetSize := by
  have hle : min b M * packetSize / max M b ≤ packetSize := by
    refine Nat.div_le_of_le_mul ?_
    exact Nat.mul_le_mul_right _ ((min_le_right _ _).trans (le_max_left _ _))
  have := Nat.mod_le (M + min b M * packetSize / max M b) (2 ^ 64)
  omega

theorem shrinkage_nonpos (c : LedbatController) {bytesAcked : ℕ} (hb : 0 < bytesAcked)
    (h : c.queueing minRtt ≤ target targetDelay) : c.shrinkage bytesAcked minRtt targetDelay ≤ 0 := by
  have hT := (target_range targetDelay).1
  have hd : (0 : ℤ) < (max c.maxWindow bytesAcked : ℕ) * target targetDelay :=
    mul_pos (Int.natCast_pos.2 (lt_max_of_lt_right hb)) (by omega)
  unfold shrinkage
  refine Int.ediv_le_of_le_mul hd ?_
  rw [zero_mul]
  have hscale := mul_nonneg (Int.natCast_nonneg MAX_CWND_INCREASE_BYTES_PER_RTT)
    (Int.natCast_nonneg (min bytesAcked c.maxWindow))
  exact mul_nonpos_of_nonneg_of_nonpos hscale (sub_nonpos.2 h)

/-- The window law holds of every step but those that overshoot. -/
theorem windowLaw_iff {minRtt : ℤ} (h : c.applyCcontrolAsserts bytesAcked minRtt targetDelay)
    (hdrift : FitsInt32 c.clockDrift) (hM : MIN_WINDOW_SIZE ≤ c.maxWindow) (hS : c.maxWindow ≤ optSndbuf)
    (currentMs : UInt64) (packetSize : ℕ) :
    WindowLaw c.maxWindow
        (c.applyCcontrol bytesAcked minRtt currentMs optSndbuf targetDelay packetSize).2.maxWindow optSndbuf
        packetSize (c.applyCcontrol bytesAcked minRtt currentMs optSndbuf targetDelay packetSize).1
        (target targetDelay) ↔
      ¬ c.Overshoots bytesAcked minRtt optSndbuf targetDelay packetSize := by
  have hraw := h.2.2.1
  have hb := h.2.2.2.1
  obtain ⟨hour, hs0, hs1⟩ := ourDelay_eq hdrift hraw
  obtain ⟨hT1, hT2⟩ := target_range targetDelay
  obtain ⟨ht0, ht1⟩ := truncQ_nine_tenths hT1
  have hgrow := @cwnd_grow c bytesAcked targetDelay minRtt currentMs h hdrift hM
  have hshrink := @cwnd_shrink c bytesAcked targetDelay minRtt currentMs h hdrift hM
  have hnonpos := @shrinkage_nonpos targetDelay minRtt c bytesAcked hb
  unfold applyCcontrol
  dsimp only
  rw [windowLaw_clamp hM hS, overshoots_iff]
  obtain ⟨V, hV⟩ : ∃ V, V = (c.stepWindow bytesAcked minRtt currentMs targetDelay packetSize).maxWindow := ⟨_, rfl⟩
  obtain ⟨ss, hss⟩ : ∃ ss, ss = (c.maxWindow +
    min bytesAcked c.maxWindow * packetSize / max c.maxWindow bytesAcked) % 2 ^ 64 := ⟨_, rfl⟩
  have hle := ss_le hss
  have hcases := stepWindow_cases c hb minRtt currentMs targetDelay packetSize hV hss rfl rfl
  rw [← hV, ← hss]
  generalize c.ledbatCwnd (c.scaledGain bytesAcked minRtt currentMs targetDelay) = cwnd at hgrow hshrink hcases ⊢
  generalize truncQ (target targetDelay * (9 / 10 : ℚ)) = tenths at ht0 ht1 hcases
  generalize c.shrinkage bytesAcked minRtt targetDelay = shrink at hshrink hnonpos ⊢
  generalize target targetDelay = T at *
  generalize c.queueing minRtt = s at *
  generalize c.ourDelay minRtt = D at *
  have hD : s < 2 ^ 31 ∧ D = s ∨ 2 ^ 31 ≤ s ∧ D < 0 := by
    rcases lt_or_ge s (2 ^ 31) with h | h
    · exact .inl ⟨h, hour.trans (int32_eq (by omega) h)⟩
    · exact .inr ⟨h, hour ▸ int32_neg h (by omega)⟩
  have hM : 10 ≤ c.maxWindow := hM
  clear hV hss hour
  unfold MAX_CWND_INCREASE_BYTES_PER_RTT
  rcases hcases with ⟨h₁, h₂, rfl⟩ | ⟨h₁, h₂, h₃, rfl⟩ | ⟨h₁, rfl⟩
  · -- slow start ends
    rw [h₁]
    refine iff_of_true ⟨by omega, fun _ => by omega⟩ ?_
    rintro ⟨-, happlied, -⟩
    have := happlied.resolve_left (by simp)
    omega
  · rw [h₁]
    rcases hD with ⟨hs, rfl⟩ | ⟨hs, hD⟩
    · have := (hgrow (.inl (by omega))).1
      refine iff_of_true ⟨by omega, fun _ => by omega⟩ ?_
      rintro ⟨hlarge, -⟩
      have := hnonpos (by omega)
      omega
    · rw [if_neg (by omega)]
      rcases lt_or_ge (2 ^ 31) (s - T) with hwrap | hrange
      · have := (hgrow (.inr hwrap)).1
        exact iff_of_true ⟨by omega, fun _ => by omega⟩ fun h => by omega
      · obtain ⟨hfit, hover⟩ := hshrink (by omega) hrange
        by_cases hlarge : c.maxWindow < shrink
        · have := hover hlarge
          constructor
          · rintro ⟨hinc, -⟩ ⟨-, -, -, hroom⟩
            omega
          · intro hno
            refine ⟨?_, fun _ => by omega⟩
            by_contra hinc
            exact hno ⟨hlarge, .inr ⟨hs, h₂⟩, hrange, by omega⟩
        · have := hfit (not_lt.1 hlarge)
          exact iff_of_true ⟨by omega, fun _ => by omega⟩ fun h => hlarge h.1
  · rw [h₁]
    by_cases hregime : T < s ∧ s - T ≤ 2 ^ 31 ∧ c.maxWindow < shrink
    · obtain ⟨hover, hrange, hlarge⟩ := hregime
      have := (hshrink hover hrange).2 hlarge
      constructor
      · rintro ⟨hinc, htarget⟩ ⟨-, -, -, hroom⟩
        split at hroom
        · omega
        · omega
      · intro hno
        have hroom := not_lt.1 fun h => hno ⟨hlarge, .inl rfl, hrange, h⟩
        split at hroom
        · exact ⟨by omega, fun _ => by omega⟩
        · exact ⟨by omega, fun _ => by omega⟩
    · have hmoved : V ≤ c.maxWindow + 3000 ∧ (T ≤ D → V ≤ c.maxWindow) := by
        by_cases hs : s ≤ T ∨ 2 ^ 31 < s - T
        · exact hgrow hs
        · have := (hshrink (by omega) (by omega)).1 (by omega)
          exact ⟨by omega, fun _ => this⟩
      refine iff_of_true ⟨by omega, fun h => (min_le_left _ _).trans (hmoved.2 h)⟩ ?_
      rintro ⟨hlarge, -, hrange, -⟩
      have : ¬ s ≤ T := fun h => by
        have := hnonpos h
        omega
      exact hregime ⟨by omega, hrange, hlarge⟩

/-- A window of 1000 bytes with a queueing delay of twice the target. -/
def crowded : LedbatController :=
  { maxWindow := 1000, slowStart := false, ssthresh := 1000,
    ourHist := { curDelayHist := Vector.replicate 3 200000 } }

theorem crowded_asserts : crowded.applyCcontrolAsserts 1000 500000 100000 := by decide +kernel

/-- It is asked to shrink by 3000 bytes and becomes as large as the send buffer. -/
theorem not_windowLaw : crowded.applyCcontrolAsserts 1000 500000 100000 ∧ MIN_WINDOW_SIZE ≤ crowded.maxWindow ∧
    crowded.maxWindow ≤ 1048576 ∧
    (crowded.applyCcontrol 1000 500000 0 1048576 100000 1400).2.maxWindow = 1048576 ∧
    ¬ WindowLaw crowded.maxWindow (crowded.applyCcontrol 1000 500000 0 1048576 100000 1400).2.maxWindow 1048576
      1400 (crowded.applyCcontrol 1000 500000 0 1048576 100000 1400).1 (target 100000) := by
  have hwindow : (crowded.applyCcontrol 1000 500000 0 1048576 100000 1400).2.maxWindow = 1048576 := by
    decide +kernel
  refine ⟨crowded_asserts, by decide, by decide, hwindow, fun h => ?_⟩
  have hinc := h.increase
  rw [hwindow] at hinc
  exact absurd hinc (by decide)

theorem windowLaw_iff_crowded :
    WindowLaw crowded.maxWindow (crowded.applyCcontrol 1000 500000 0 1048576 100000 1400).2.maxWindow 1048576
        1400 (crowded.applyCcontrol 1000 500000 0 1048576 100000 1400).1 (target 100000) ↔
      ¬ crowded.Overshoots 1000 500000 1048576 100000 1400 :=
  windowLaw_iff crowded_asserts (by decide) (by decide) (by decide) 0 1400

end LedbatController

end Utp
