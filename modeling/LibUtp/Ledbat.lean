import LibUtp.DelayHistory

/-! `LedbatController`. Byte counts are naturals, the signed fields integers
reduced to their width where the source computes in that width, and `double`
arithmetic is exact rational arithmetic. -/

namespace Utp

/-- Two's complement reduction to `int32` and `int64`. -/
def int32 (x : ℤ) : ℤ := x.bmod (2 ^ 32)

def int64 (x : ℤ) : ℤ := x.bmod (2 ^ 64)

theorem int32_eq {x : ℤ} (h₁ : -2 ^ 31 ≤ x) (h₂ : x < 2 ^ 31) : int32 x = x := by
  unfold int32
  apply Int.bmod_eq_of_le
  · simpa using h₁
  · simpa using h₂

theorem int32_neg {x : ℤ} (h₁ : 2 ^ 31 ≤ x) (h₂ : x < 2 ^ 32) : int32 x < 0 := by
  unfold int32 Int.bmod
  dsimp only
  split <;> omega

theorem int32_le {x : ℤ} (h : -2 ^ 31 ≤ x) : int32 x ≤ x := by
  unfold int32 Int.bmod
  dsimp only
  split <;> omega

/-- Conversion to `size_t`. -/
def sizeT (x : ℤ) : ℕ := (x % 2 ^ 64).toNat

/-- Truncation toward zero. -/
def truncQ (q : ℚ) : ℤ := if 0 ≤ q then q.floor else q.ceil

/-- `(size_t)` of a `double`. -/
def sizeOfDouble (q : ℚ) : ℕ := sizeT (truncQ q)

structure LedbatController where
  maxWindow : ℕ := 0
  curWindow : ℕ := 0
  slowStart : Bool := true
  ssthresh : ℕ := 0
  rtt : UInt32 := 0
  rttVar : UInt32 := 800
  rto : UInt32 := 3000
  rttHist : DelayHistory := {}
  retransmitTimeout : UInt32 := 0
  retransmitCount : UInt16 := 0
  rtoTimeout : UInt64 := 0
  zerowindowTime : UInt64 := 0
  ourHist : DelayHistory := {}
  theirHist : DelayHistory := {}
  averageDelay : ℤ := 0
  currentDelaySum : ℤ := 0
  currentDelaySamples : ℤ := 0
  averageDelayBase : UInt32 := 0
  averageSampleTime : UInt64 := 0
  clockDrift : ℤ := 0
  clockDriftRaw : ℤ := 0
  lastMaxedOutWindow : UInt64 := 0
  lastRwinDecay : ℤ := 0
  deriving DecidableEq

namespace LedbatController

def addInFlight (c : LedbatController) (bytes : ℕ) : LedbatController :=
  { c with curWindow := c.curWindow + bytes }

def removeInFlight (c : LedbatController) (bytes : ℕ) : LedbatController :=
  { c with curWindow := c.curWindow - bytes }

def markWindowFull (c : LedbatController) (currentMs : UInt64) : LedbatController :=
  { c with lastMaxedOutWindow := currentMs }

def setInitialRto (c : LedbatController) (currentMs : UInt64) : LedbatController :=
  { c with retransmitTimeout := c.rto, rtoTimeout := currentMs + c.rto.toUInt64 }

def isRtoExpired (c : LedbatController) (currentMs : UInt64) : Bool :=
  decide (0 < c.rtoTimeout) && decide (0 ≤ int64 (currentMs - c.rtoTimeout).toNat)

def canDecayWin (c : LedbatController) (msec : ℤ) : Bool :=
  decide (MAX_WINDOW_DECAY ≤ int64 (msec - c.lastRwinDecay))

def initTiming (c : LedbatController) (currentMs : UInt64) : LedbatController :=
  { c with
    averageSampleTime := currentMs + 5000
    lastRwinDecay := int64 (int64 currentMs.toNat - MAX_WINDOW_DECAY) }

def initDelayHistories (c : LedbatController) (currentMs : UInt64) : LedbatController :=
  { c with
    ourHist := DelayHistory.clear currentMs
    theirHist := DelayHistory.clear currentMs
    rttHist := DelayHistory.clear currentMs }

/-! `apply_ccontrol`, in the order it computes. -/

/-- `our_delay` before the penalty. -/
def rawDelay (c : LedbatController) (minRtt : ℤ) : ℤ :=
  int32 (min c.ourHist.getValue (UInt32.ofInt minRtt)).toNat

def penalty (c : LedbatController) : ℤ :=
  if c.clockDrift < -200000 then (int32 (int32 (-c.clockDrift) - 200000)).tdiv 7 else 0

def ourDelay (c : LedbatController) (minRtt : ℤ) : ℤ := int32 (c.rawDelay minRtt + c.penalty)

/-- The target delay in force. -/
def target (targetDelay : ℕ) : ℤ := if int32 targetDelay ≤ 0 then 100000 else int32 targetDelay

def windowFactor (c : LedbatController) (bytesAcked : ℕ) : ℚ :=
  (min bytesAcked c.maxWindow : ℕ) / (max c.maxWindow bytesAcked : ℕ)

def offTarget (c : LedbatController) (minRtt : ℤ) (targetDelay : ℕ) : ℤ :=
  int32 (target targetDelay - c.ourDelay minRtt)

def fullGain (c : LedbatController) (bytesAcked : ℕ) (minRtt : ℤ) (targetDelay : ℕ) : ℚ :=
  MAX_CWND_INCREASE_BYTES_PER_RTT * c.windowFactor bytesAcked *
    ((c.offTarget minRtt targetDelay : ℚ) / (target targetDelay : ℚ))

/-- No growth when the window was not filled for a second. -/
def scaledGain (c : LedbatController) (bytesAcked : ℕ) (minRtt : ℤ) (currentMs : UInt64)
    (targetDelay : ℕ) : ℚ :=
  if 0 < c.fullGain bytesAcked minRtt targetDelay ∧
      1000 < int64 (currentMs - c.lastMaxedOutWindow).toNat then 0
  else c.fullGain bytesAcked minRtt targetDelay

def ledbatCwnd (c : LedbatController) (gain : ℚ) : ℕ :=
  if sizeT (c.maxWindow + sizeOfDouble gain) < MIN_WINDOW_SIZE then MIN_WINDOW_SIZE
  else sizeOfDouble (c.maxWindow + gain)

/-- The assertions of `apply_ccontrol`, in order. -/
def applyCcontrolAsserts (c : LedbatController) (bytesAcked : ℕ) (minRtt : ℤ)
    (targetDelay : ℕ) : Prop :=
  0 ≤ minRtt ∧ c.rawDelay minRtt ≠ INT_MAX ∧ 0 ≤ c.rawDelay minRtt ∧ 0 < bytesAcked ∧
    c.fullGain bytesAcked minRtt targetDelay ≤
      1 + MAX_CWND_INCREASE_BYTES_PER_RTT * c.windowFactor bytesAcked

instance (c : LedbatController) (bytesAcked : ℕ) (minRtt : ℤ) (targetDelay : ℕ) :
    Decidable (c.applyCcontrolAsserts bytesAcked minRtt targetDelay) :=
  inferInstanceAs (Decidable (_ ∧ _))

/-- The window before the final clamp, with the slow start fields. -/
def stepWindow (c : LedbatController) (bytesAcked : ℕ) (minRtt : ℤ) (currentMs : UInt64)
    (targetDelay packetSize : ℕ) : LedbatController :=
  let cwnd := c.ledbatCwnd (c.scaledGain bytesAcked minRtt currentMs targetDelay)
  if c.slowStart then
    let ssCwnd := sizeT (c.maxWindow + sizeOfDouble (c.windowFactor bytesAcked * packetSize))
    if c.ssthresh < ssCwnd then { c with slowStart := false }
    else if truncQ (target targetDelay * (9 / 10 : ℚ)) < c.ourDelay minRtt then
      { c with slowStart := false, ssthresh := c.maxWindow }
    else { c with maxWindow := max ssCwnd cwnd }
  else { c with maxWindow := cwnd }

def applyCcontrol (c : LedbatController) (bytesAcked : ℕ) (minRtt : ℤ) (currentMs : UInt64)
    (optSndbuf targetDelay packetSize : ℕ) : ℤ × LedbatController :=
  let c' := c.stepWindow bytesAcked minRtt currentMs targetDelay packetSize
  (c.ourDelay minRtt, { c' with maxWindow := min (max c'.maxWindow MIN_WINDOW_SIZE) optSndbuf })

def updateRtt (c : LedbatController) (ertt : UInt32) (currentMs : UInt64) : LedbatController :=
  let c := if c.rtt = 0 then { c with rtt := ertt, rttVar := ertt / 2 }
    else
      let delta := int32 (int32 c.rtt.toNat - int32 ertt.toNat)
      { c with
        rttVar := c.rttVar + UInt32.ofInt ((int32 (delta.natAbs - int32 c.rttVar.toNat)).tdiv 4)
        rtt := c.rtt - c.rtt / 8 + ertt / 8
        rttHist := c.rttHist.addSample ertt currentMs }
  let rto := max (c.rtt + c.rttVar * 4) 1000
  { c with rto := rto, retransmitTimeout := rto, rtoTimeout := currentMs + rto.toUInt64 }

/-- The signed distance of a sample from the base, the shorter way round. -/
def delaySample (base actualDelay : UInt32) : ℤ :=
  let distDown := base - actualDelay
  let distUp := actualDelay - base
  if distDown > distUp then distUp.toNat else -distDown.toNat

/-- The sample enters the running sum of the five second slot. -/
def sumDelay (c : LedbatController) (actualDelay : UInt32) : LedbatController :=
  let base := if c.averageDelayBase = 0 then actualDelay else c.averageDelayBase
  { c with
    averageDelayBase := base
    currentDelaySum := int64 (c.currentDelaySum + delaySample base actualDelay)
    currentDelaySamples := int32 (c.currentDelaySamples + 1) }

def delayMean (c : LedbatController) : ℤ := c.currentDelaySum.tdiv c.currentDelaySamples

/-- Keeps the smaller of the two means at most zero and the larger at least zero. -/
def delayAdjust (prev mean : ℤ) : ℤ :=
  if 0 < min prev mean then int32 (-(min prev mean))
  else if max prev mean < 0 then int32 (-(max prev mean)) else 0

/-- The slot is closed and the clock drift estimate moved. -/
def closeSlot (c : LedbatController) : LedbatController :=
  let mean := int32 c.delayMean
  let adjust := delayAdjust c.averageDelay mean
  let average := int32 (mean + adjust)
  let drift := int32 (average - int32 (c.averageDelay + adjust))
  { c with
    averageDelay := average
    averageSampleTime := c.averageSampleTime + 5000
    currentDelaySum := 0
    currentDelaySamples := 0
    averageDelayBase := c.averageDelayBase - UInt32.ofInt adjust
    clockDrift := int32 ((c.clockDrift * 7 + drift).tdiv 8)
    clockDriftRaw := drift }

def updateDelayAverage (c : LedbatController) (actualDelay : UInt32) (currentMs : UInt64) :
    LedbatController :=
  let c := c.sumDelay actualDelay
  if int64 c.averageSampleTime.toNat < int64 currentMs.toNat then c.closeSlot else c

/-- The two assertions of `update_delay_average` on the mean of a slot being closed. -/
def updateDelayAverageAsserts (c : LedbatController) (actualDelay : UInt32) (currentMs : UInt64) :
    Prop :=
  let c := c.sumDelay actualDelay
  int64 c.averageSampleTime.toNat < int64 currentMs.toNat →
    c.delayMean < INT_MAX ∧ -INT_MAX < c.delayMean

instance (c : LedbatController) (actualDelay : UInt32) (currentMs : UInt64) :
    Decidable (c.updateDelayAverageAsserts actualDelay currentMs) :=
  inferInstanceAs (Decidable (_ → _))

def maybeDecayWin (c : LedbatController) (currentMs : UInt64) : LedbatController :=
  if c.canDecayWin (int64 currentMs.toNat) then
    let w := max (c.maxWindow / 2) MIN_WINDOW_SIZE
    { c with maxWindow := w, lastRwinDecay := int64 currentMs.toNat, slowStart := false, ssthresh := w }
  else c

def onRtoTimeout (c : LedbatController) (packetSize : ℕ) (curWindowPackets : UInt16) :
    LedbatController :=
  if curWindowPackets = 0 ∧ int64 packetSize < int64 c.maxWindow then
    { c with maxWindow := max (sizeT (c.maxWindow * 2) / 3) packetSize }
  else { c with maxWindow := packetSize, slowStart := true }

end LedbatController

end Utp
