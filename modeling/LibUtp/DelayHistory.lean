import LibUtp.Wire

/-! `utp::DelayHistory`: the last three queueing delays over a base that is the
wrapped minimum of thirteen one-minute slots. -/

namespace Utp

/-! The rings have a first slot. -/

instance neZero_delays : NeZero 3 := ⟨by decide⟩

instance neZero_slots : NeZero 13 := ⟨by decide⟩

structure DelayHistory where
  delayBase : UInt32 := 0
  curDelayHist : Vector UInt32 3 := Vector.replicate 3 0
  curDelayIdx : Fin 3 := 0
  delayBaseHist : Vector UInt32 13 := Vector.replicate 13 0
  delayBaseIdx : Fin 13 := 0
  delayBaseTime : UInt64 := 0
  delayBaseInitialized : Bool := false
  deriving DecidableEq, Repr

namespace DelayHistory

def clear (currentMs : UInt64) : DelayHistory := { delayBaseTime := currentMs }

def shift (h : DelayHistory) (offset : UInt32) : DelayHistory :=
  { h with
    delayBaseHist := h.delayBaseHist.map (· + offset)
    delayBase := h.delayBase + offset }

/-- The first sample seeds every slot. -/
def seed (h : DelayHistory) (sample : UInt32) : DelayHistory :=
  if h.delayBaseInitialized then h
  else { h with
    delayBaseHist := Vector.replicate 13 sample
    delayBase := sample
    delayBaseInitialized := true }

/-- A smaller sample lowers the current slot and the base. -/
def lower (h : DelayHistory) (sample : UInt32) : DelayHistory :=
  let h := if wrappingCompareLess sample (h.delayBaseHist.get h.delayBaseIdx) TIMESTAMP_MASK then
      { h with delayBaseHist := h.delayBaseHist.set h.delayBaseIdx sample }
    else h
  if wrappingCompareLess sample h.delayBase TIMESTAMP_MASK then { h with delayBase := sample } else h

/-- The queueing delay enters the ring of three. -/
def record (h : DelayHistory) (sample : UInt32) : DelayHistory :=
  { h with
    curDelayHist := h.curDelayHist.set h.curDelayIdx (sample - h.delayBase)
    curDelayIdx := h.curDelayIdx + 1 }

/-- Once a minute a fresh slot replaces the oldest and the base is recomputed. -/
def rotate (h : DelayHistory) (sample : UInt32) (currentMs : UInt64) : DelayHistory :=
  if currentMs - h.delayBaseTime > 60 * 1000 then
    let i : Fin 13 := h.delayBaseIdx + 1
    let hist := h.delayBaseHist.set i sample
    { h with
      delayBaseTime := currentMs
      delayBaseIdx := i
      delayBaseHist := hist
      delayBase := hist.foldl
        (fun base x => if wrappingCompareLess x base TIMESTAMP_MASK then x else base) (hist.get 0) }
  else h

def addSample (h : DelayHistory) (sample : UInt32) (currentMs : UInt64) : DelayHistory :=
  (((h.seed sample).lower sample).record sample).rotate sample currentMs

def getValue (h : DelayHistory) : UInt32 :=
  h.curDelayHist.foldl (fun value x => min x value) 0xFFFFFFFF

end DelayHistory

end Utp
