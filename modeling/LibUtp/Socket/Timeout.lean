import LibUtp.Socket.Incoming

/-! `check_timeouts`: the retransmission timer, the zero window and the keep-alive. -/

namespace Utp

namespace UtpSocket

variable (env : Env)

/-- The payload of a slot if it counts as in flight. -/
def flightOf : Option OutgoingPacket → ℕ
  | none => 0
  | some p => if p.transmissions = 0 ∨ p.needResend then 0 else p.payload

/-- The sum `check_invariant` computes. -/
def outstandingBytes (s : UtpSocket) : ℕ :=
  ∑ i ∈ Finset.range s.send.curWindowPackets.toNat,
    flightOf (s.send.outbuf.get (s.send.seqNr.toNat - i - 1))

def checkInvariant (s : UtpSocket) : UtpSocket :=
  (s.assert (0 < s.recv.reorderCount → (s.recv.inbuf.get (s.recv.ackNr.toNat + 1)).isNone)
    .invariantGap).assert (s.outstandingBytes = s.cc.curWindow) .invariantInFlight

/-- The loop that marks every packet in flight for resending. -/
def markLoop : ℕ → ℕ → UtpSocket → UtpSocket
  | 0, _, s => s
  | n + 1, i, s =>
    let seq : ℤ := s.send.seqNr.toNat - i - 1
    match s.send.outbuf.get seq with
    | none => markLoop n (i + 1) s
    | some p =>
      if p.transmissions = 0 ∨ p.needResend then markLoop n (i + 1) s
      else markLoop n (i + 1) ((s.setSend { s.send with
        outbuf := s.send.outbuf.put seq (some { p with needResend := true }) }).removeInFlight
          p.payload)

/-- All packets in flight are marked and the flush starts over at the window head. -/
def markWindow (s : UtpSocket) : UtpSocket :=
  let s := s.markLoop s.send.curWindowPackets.toNat 0
  s.setSend { s.send with flushScanStart := s.windowStart }

/-- `mtu_.handle_probe_timeout`. -/
def probeTimeout (s : UtpSocket) : Bool × UtpSocket :=
  let seq := (s.send.seqNr - 1).toUInt32
  let cur := s.send.curWindowPackets.toUInt32
  let r := s.mtu.handleProbeTimeout seq cur s.currentMs
  (r.1, (s.assert (s.mtu.probeTimedOut seq cur → s.mtu.lowerCeiling.boundsAssert) .mtuSearch).setMtu
    r.2)

/-- The connection is given up. -/
def timeOut (st : ConnState) (s : UtpSocket) : UtpSocket := (s.setState st).emit (.onError .timedOut)

/-- The RTO is doubled unless only a probe was lost, and the window starts over. -/
def backOff (ignoreLoss : Bool) (s : UtpSocket) : UtpSocket :=
  let timeout := if ignoreLoss then s.cc.retransmitTimeout else s.cc.retransmitTimeout * 2
  let s := s.setCc { s.cc with
    retransmitTimeout := timeout
    rtoTimeout := s.currentMs + timeout.toUInt64 }
  if ignoreLoss then s
  else
    (s.setDuplicateAck 0).setCc
      (s.cc.onRtoTimeout (sizeT (int32 s.getPacketSize)) s.send.curWindowPackets)

def resendHead (s : UtpSocket) : UtpSocket :=
  if 0 < s.send.curWindowPackets then
    let s := (s.setCc { s.cc with retransmitCount := s.cc.retransmitCount + 1 }).setTiming
      { s.timing with fastTimeout := true, timeoutSeqNr := s.send.seqNr }
    (s.assert (s.send.outbuf.get s.headIdx).isSome .timeoutResend).sendPacket env s.headIdx
  else s

/-- Enough retransmissions in a row. -/
def retriesExhausted (s : UtpSocket) : Bool :=
  4 ≤ s.cc.retransmitCount || (s.conn.state = .synSent && 2 ≤ s.cc.retransmitCount)

/-- An expired RTO; `true` if the connection was given up. -/
def rtoExpired (s : UtpSocket) : Bool × UtpSocket :=
  let r := s.probeTimeout
  if r.2.conn.state = .synRecv then (true, r.2.timeOut .destroy)
  else if r.2.retriesExhausted then
    (true, r.2.timeOut (if r.2.send.closeRequested then .destroy else .reset))
  else (false, ((r.2.backOff r.1).markWindow).resendHead env)

/-- `timeout_active` of the state objects. -/
def timeoutActive : ConnState → Bool
  | .synSent | .synRecv | .connected | .connectedFull => true
  | _ => false

/-- `(int)(current_ms - t)`. -/
def msSince (s : UtpSocket) (t : UInt64) : ℤ := int32 (s.currentMs - t).toNat

def reopenWindow (s : UtpSocket) : UtpSocket :=
  if 0 ≤ s.msSince s.cc.zerowindowTime ∧ s.send.maxWindowUser = 0 then
    s.setSend { s.send with maxWindowUser := PACKET_SIZE }
  else s

/-- `state >= CS_CONNECTED`. -/
def atLeastConnected : ConnState → Bool
  | .connected | .connectedFull | .reset | .destroy => true
  | _ => false

/-- The difference is compared as an unsigned number, as `KEEPALIVE_INTERVAL` is one. -/
def keepAliveDue (s : UtpSocket) : Bool :=
  atLeastConnected s.conn.state && !s.send.finSent &&
    KEEPALIVE_INTERVAL ≤ UInt32.ofInt (s.msSince s.timing.lastSentPacket)

def keepAlive (s : UtpSocket) : UtpSocket := if s.keepAliveDue then s.sendKeepAlive env else s

def checkTimeouts (s : UtpSocket) : UtpSocket :=
  let s := s.checkInvariant.assert s.headPresent .timeoutHead
  let s := if s.conn.state ≠ .destroy then (s.flushPackets env).2 else s
  if timeoutActive s.conn.state then
    let s := s.reopenWindow
    let r := if s.cc.isRtoExpired s.currentMs then s.rtoExpired env else (false, s)
    if r.1 then r.2 else r.2.becomeWritable.keepAlive env
  else s

end UtpSocket

end Utp
