import LibUtp.Wire

/-! `MtuDiscovery`: binary search of the path MTU between a floor and a ceiling. -/

namespace Utp

structure MtuDiscovery where
  discoverTime : UInt64 := 0
  ceiling : UInt32 := 0
  floor : UInt32 := 0
  last : UInt32 := 0
  probeSeq : UInt32 := 0
  probeSize : UInt32 := 0
  deriving DecidableEq, Repr

namespace MtuDiscovery

/-- Half an hour in milliseconds. -/
def REDISCOVER_INTERVAL : UInt64 := 30 * 60 * 1000

def reset (m : MtuDiscovery) (udpMtu : UInt32) (currentMs : UInt64) : MtuDiscovery :=
  { m with ceiling := udpMtu, floor := 576, discoverTime := currentMs + REDISCOVER_INTERVAL }

def searchUpdate (m : MtuDiscovery) (currentMs : UInt64) : MtuDiscovery :=
  let m := { m with last := (m.floor + m.ceiling) / 2, probeSeq := 0, probeSize := 0 }
  if m.ceiling - m.floor ≤ 16 then
    { m with
      last := m.floor
      ceiling := m.floor
      discoverTime := currentMs + REDISCOVER_INTERVAL }
  else m

def rawMtu (m : MtuDiscovery) : UInt32 := if m.last ≠ 0 then m.last else m.ceiling

/-- `uint32` minus `size_t` in `size_t`. -/
def effectiveMtu (m : MtuDiscovery) (headerSize : ℕ) : ℕ :=
  (m.rawMtu.toNat + 2 ^ 64 - headerSize) % 2 ^ 64

def setProbe (m : MtuDiscovery) (seq size : UInt32) : MtuDiscovery :=
  { m with probeSeq := seq, probeSize := size }

def clearProbe (m : MtuDiscovery) : MtuDiscovery := { m with probeSeq := 0, probeSize := 0 }

def isProbe (m : MtuDiscovery) (seq : UInt32) : Bool := m.probeSeq ≠ 0 && seq = m.probeSeq

/-- The assertion on entry of `reset` and of `search_update`. -/
def boundsAssert (m : MtuDiscovery) : Prop := m.floor ≤ m.ceiling

instance (m : MtuDiscovery) : Decidable m.boundsAssert := inferInstanceAs (Decidable (_ ≤ _))

/-! Each event first moves one bound and then lets `search_update` run. -/

def raiseFloor (m : MtuDiscovery) : MtuDiscovery := { m with floor := m.probeSize }

def lowerCeiling (m : MtuDiscovery) : MtuDiscovery := { m with ceiling := m.probeSize - 1 }

def capCeiling (m : MtuDiscovery) (nextHopMtu : UInt16) : MtuDiscovery :=
  { m with ceiling := min nextHopMtu.toUInt32 m.ceiling }

def halveCeiling (m : MtuDiscovery) : MtuDiscovery := { m with ceiling := (m.floor + m.ceiling) / 2 }

def handleProbeAck (m : MtuDiscovery) (seq : UInt32) (currentMs : UInt64) : MtuDiscovery :=
  if m.isProbe seq then m.raiseFloor.searchUpdate currentMs else m

def probeTimedOut (m : MtuDiscovery) (outstandingSeq curWindowPackets : UInt32) : Bool :=
  curWindowPackets = 1 && m.isProbe outstandingSeq

def handleProbeTimeout (m : MtuDiscovery) (outstandingSeq curWindowPackets : UInt32)
    (currentMs : UInt64) : Bool × MtuDiscovery :=
  if m.probeTimedOut outstandingSeq curWindowPackets then
    (true, (m.lowerCeiling.searchUpdate currentMs).clearProbe)
  else (false, m.clearProbe)

def handleProbeLoss (m : MtuDiscovery) (currentMs : UInt64) : MtuDiscovery :=
  (m.lowerCeiling.searchUpdate currentMs).clearProbe

def handleIcmpFragmentation (m : MtuDiscovery) (nextHopMtu : UInt16) (currentMs : UInt64) :
    MtuDiscovery :=
  let m := (m.capCeiling nextHopMtu).searchUpdate currentMs
  { m with last := m.ceiling }

def handleIcmpUnknown (m : MtuDiscovery) (currentMs : UInt64) : MtuDiscovery :=
  m.halveCeiling.searchUpdate currentMs

def shouldRediscover (m : MtuDiscovery) (currentMs : UInt64) : Bool :=
  decide (m.discoverTime < currentMs)

def setLastToCeiling (m : MtuDiscovery) : MtuDiscovery := { m with last := m.ceiling }

end MtuDiscovery

end Utp
