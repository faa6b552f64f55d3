import LibUtp.Socket.Send

/-! Acknowledgement processing: the cumulative part, the EACK bitmap with its
fast resends, the delay samples and the advance of the send window. -/

namespace Utp

namespace UtpSocket

variable (env : Env)

/-- What `ack_packet` reports. -/
inductive AckStatus where
  | acked
  | missing
  | unsent
  deriving DecidableEq, Repr

/-- The RTT estimate and the RTO timer after packet `p` was acknowledged. -/
def ackTiming (p : OutgoingPacket) (s : UtpSocket) : UtpSocket :=
  if p.transmissions = 1 then
    s.asked.setCc (s.cc.updateRtt ((env.microseconds s.tick - p.timeSent) / 1000).toUInt32 s.currentMs)
  else s.setCc { s.cc with
    retransmitTimeout := s.cc.rto
    rtoTimeout := s.currentMs + s.cc.rto.toUInt64 }

def ackPacket (seq : UInt16) (s : UtpSocket) : AckStatus × UtpSocket :=
  match s.send.outbuf.get seq.toNat with
  | none => (.missing, s)
  | some p =>
    if p.transmissions = 0 then (.unsent, s)
    else
      let s := s.setSend { s.send with outbuf := (s.send.outbuf.take seq.toNat).2 }
      let s := s.ackTiming env p
      let s := if p.needResend then s else s.removeInFlight p.payload
      (.acked, s.setCc { s.cc with retransmitCount := 0 })

/-- Bit `bits` of the EACK bitmap; the bits before and past it are unset. -/
def maskBit (mask : Bytes) (bits : ℤ) : Bool :=
  0 ≤ bits && bits < 8 * mask.length && ((rd8 mask (bits / 8).toNat).toNat.testBit (bits % 8).toNat)

/-- `v` is in the send window and not its head. -/
def inEackWindow (s : UtpSocket) (v : ℤ) : Bool :=
  s.send.seqNr - UInt16.ofInt v - 1 < s.send.curWindowPackets - 1

/-- The RTT sample of an acknowledged packet in microseconds. -/
def rttSample (now : UInt64) (p : OutgoingPacket) : ℤ :=
  if p.timeSent < now then int64 (now - p.timeSent).toNat else 50000

/-- `mtu_.handle_probe_ack`. -/
def probeAck (seq : UInt16) (s : UtpSocket) : UtpSocket :=
  let m := s.mtu
  (s.assert (m.isProbe seq.toUInt32 → m.raiseFloor.boundsAssert) .mtuSearch).setMtu
    (m.handleProbeAck seq.toUInt32 s.currentMs)

/-- The bytes and the smallest RTT of the next `n` packets from `seq`. -/
def ackedBytes (now : UInt64) : ℕ → UInt16 → ℕ → ℤ → UtpSocket → ℕ × ℤ × UtpSocket
  | 0, _, acked, minRtt, s => (acked, minRtt, s)
  | n + 1, seq, acked, minRtt, s =>
    match s.send.outbuf.get seq.toNat with
    | none => ackedBytes now n (seq + 1) acked minRtt s
    | some p =>
      if p.transmissions = 0 then ackedBytes now n (seq + 1) acked minRtt s
      else ackedBytes now n (seq + 1) (acked + p.payload) (min minRtt (rttSample now p))
        ((s.assert (0 ≤ int32 p.payload) .ackedPayload).probeAck seq)

/-- The scan of `selective_ack_bytes`, `n` bits still to look at, the top one first. -/
def eackBytesLoop (base : ℤ) (mask : Bytes) (now : UInt64) :
    ℕ → ℕ → ℤ → UtpSocket → ℕ × ℤ × UtpSocket
  | 0, acked, minRtt, s => (acked, minRtt, s)
  | n + 1, acked, minRtt, s =>
    let bits : ℤ := (n : ℤ) - 1
    match (s.send.outbuf.get (base + bits)).filter fun p => 0 < p.transmissions with
    | some p =>
      if s.inEackWindow (base + bits) && maskBit mask bits then
        eackBytesLoop base mask now n (acked + p.payload) (min minRtt (rttSample now p))
          (s.assert (0 ≤ int32 p.payload) .ackedPayload)
      else eackBytesLoop base mask now n acked minRtt s
    | none => eackBytesLoop base mask now n acked minRtt s

/-- The loop starts one bit past the bitmap. -/
def selectiveAckBytes (base : ℤ) (mask : Bytes) (acked : ℕ) (minRtt : ℤ) (s : UtpSocket) :
    ℕ × ℤ × UtpSocket :=
  if s.send.curWindowPackets = 0 then (acked, minRtt, s)
  else eackBytesLoop base mask (env.microseconds s.tick) (8 * mask.length + 2) acked minRtt s.asked

def MAX_EACK : ℕ := 128

/-- `resends[nr++] = v`, the older half dropped when the array is nearly full. -/
def pushResend (resends : List ℤ) (v : ℤ) : List ℤ :=
  (if MAX_EACK - 2 ≤ resends.length then resends.drop (MAX_EACK / 2) else resends) ++ [v]

/-- `v` was lost by the duplicate count and was not resent yet. -/
def fastResend (s : UtpSocket) (v : ℤ) (count : ℕ) : Bool :=
  (UInt16.ofInt v - s.timing.fastResendSeqNr).toNat ≤ OUTGOING_BUFFER_MAX_SIZE &&
    DUPLICATE_ACKS_BEFORE_RESEND ≤ count

/-- The scan of `selective_ack`, `n` bits still to look at, the top one first. -/
def eackLoop (base : ℤ) (mask : Bytes) : ℕ → ℕ → List ℤ → UtpSocket → ℕ × List ℤ × UtpSocket
  | 0, count, resends, s => (count, resends, s)
  | n + 1, count, resends, s =>
    let bits : ℤ := (n : ℤ) - 1
    let v := base + bits
    if s.inEackWindow v then
      let count := if maskBit mask bits then count + 1 else count
      match (s.send.outbuf.get v).filter fun p => 0 < p.transmissions with
      | none => eackLoop base mask n count resends s
      | some _ =>
        if maskBit mask bits then
          let s := s.assert (s.send.outbuf.idx v ≠ s.send.outbuf.idx s.headIdx) .eackHead
          eackLoop base mask n count resends (s.ackPacket env (UInt16.ofInt v)).2
        else if s.fastResend v count then eackLoop base mask n count (pushResend resends v) s
        else eackLoop base mask n count resends s
    else eackLoop base mask n count resends s

/-- The resends, newest first and `i` of them still allowed; `true` if one went out. -/
def resendLoop : List ℤ → ℕ → Bool → UtpSocket → Bool × UtpSocket
  | [], _, backOff, s => (backOff, s)
  | v :: vs, i, backOff, s =>
    if (s.send.outbuf.get v).isSome then
      let s := s.sendPacket env v
      let s := s.setTiming { s.timing with fastResendSeqNr := UInt16.ofInt (v + 1) }
      if i ≤ 1 then (true, s) else resendLoop vs (i - 1) true s
    else resendLoop vs i backOff s

def selectiveAck (base : ℤ) (mask : Bytes) (s : UtpSocket) : UtpSocket :=
  if s.send.curWindowPackets = 0 then s
  else
    let r := eackLoop env base mask (8 * mask.length + 1) 0 [] s
    let resends := if r.2.2.fastResend (base - 1) r.1 then r.2.1 ++ [(base - 1) % 2 ^ 16] else r.2.1
    let b := r.2.2.resendLoop env resends.reverse 4 false
    let s := b.2
    let s := if b.1 then s.setCc (s.cc.maybeDecayWin s.currentMs) else s
    s.setDuplicateAck (UInt8.ofNat r.1)

/-- `their_hist` takes the peer's delay; when its base fell by a little, ours is shifted. -/
def theirSample (theirDelay : UInt32) (s : UtpSocket) : UtpSocket :=
  let prev := s.cc.theirHist.delayBase
  let s := if theirDelay ≠ 0 then
      s.setCc { s.cc with theirHist := s.cc.theirHist.addSample theirDelay s.currentMs }
    else s
  let base := s.cc.theirHist.delayBase
  if prev ≠ 0 ∧ wrappingCompareLess base prev TIMESTAMP_MASK ∧ prev - base ≤ 10000 then
    s.setCc { s.cc with ourHist := s.cc.ourHist.shift (prev - base) }
  else s

/-- `our_hist` and the delay average take our delay as the peer measured it. -/
def ourSample (actualDelay : UInt32) (s : UtpSocket) : UtpSocket :=
  if actualDelay ≠ 0 then
    let s := s.setCc { s.cc with ourHist := s.cc.ourHist.addSample actualDelay s.currentMs }
    (s.assert (s.cc.updateDelayAverageAsserts actualDelay s.currentMs) .delayAverage).setCc
      (s.cc.updateDelayAverage actualDelay s.currentMs)
  else s

/-- The delay is never more than the RTT. -/
def capDelay (minRtt : ℤ) (s : UtpSocket) : UtpSocket :=
  let s := s.assert (0 ≤ minRtt) .minRtt
  let value : ℤ := s.cc.ourHist.getValue.toNat
  if minRtt < value then
    s.setCc { s.cc with ourHist := s.cc.ourHist.shift (UInt32.ofInt (value - minRtt)) }
  else s

/-- `apply_ccontrol`, the sample callback and the clock query of the log line. -/
def controlWindow (acked : ℕ) (minRtt : ℤ) (s : UtpSocket) : UtpSocket :=
  let s := s.assert (s.cc.applyCcontrolAsserts acked minRtt s.conn.targetDelay) .applyCcontrol
  let r := s.cc.applyCcontrol acked minRtt s.currentMs s.send.optSndbuf s.conn.targetDelay
    s.getPacketSize
  ((s.setCc r.2).emit (.onDelaySample (r.1.tdiv 1000))).asked

def processAcks (pp : ParsedPacket) (acks : ℕ) (time : UInt64) (s : UtpSocket) : UtpSocket :=
  let now := env.microseconds s.tick
  let r := s.asked.ackedBytes now acks s.windowStart 0 (2 ^ 63 - 1)
  let r := match pp.selack with
    | some mask => r.2.2.selectiveAckBytes env (pp.ackNr + 2).toNat mask r.1 r.2.1
    | none => r
  let s := r.2.2
  let theirDelay := if pp.timestamp = 0 then 0 else (time - pp.timestamp.toUInt64).toUInt32
  let s := (s.setTiming { s.timing with
    lastMeasuredDelay := s.currentMs
    replyMicro := theirDelay }).theirSample theirDelay
  let actualDelay := if pp.replyMicro.toNat = INT_MAX then 0 else pp.replyMicro
  let s := (s.ourSample actualDelay).capDelay r.2.1
  if actualDelay ≠ 0 ∧ 1 ≤ r.1 then s.controlWindow r.1 r.2.1 else s

/-- The advertised window of the peer. -/
def peerWindow (windowsize : UInt32) (s : UtpSocket) : UtpSocket :=
  let s := s.setSend { s.send with maxWindowUser := windowsize.toNat }
  if s.send.maxWindowUser = 0 then s.setCc { s.cc with zerowindowTime := s.currentMs + 15000 } else s

/-- The state changes an acceptable packet brings: the handshake completes, or
the FIN counts as acknowledged. -/
def ackState (pp : ParsedPacket) (acks : ℕ) (s : UtpSocket) : UtpSocket :=
  let s := if pp.type = ST_DATA ∧ s.conn.state = .synRecv then s.setState .connected else s
  if pp.type = ST_STATE ∧ s.conn.state = .synSent then (s.setState .connected).emit .onConnect
  else if s.send.finSent ∧ s.send.curWindowPackets.toNat = acks then
    let s := s.setSend { s.send with finSentAcked := true }
    if s.send.closeRequested then s.setState .destroy else s
  else s

def raiseFastResend (pp : ParsedPacket) (s : UtpSocket) : UtpSocket :=
  if wrappingCompareLess s.timing.fastResendSeqNr.toUInt32 (pp.ackNr + 1).toUInt32 ACK_NR_MASK then
    s.setTiming { s.timing with fastResendSeqNr := pp.ackNr + 1 }
  else s

def shrinkWindow (s : UtpSocket) : UtpSocket :=
  s.setSend { s.send with curWindowPackets := s.send.curWindowPackets - 1 }

/-- `acks` packets from the window head, up to the first unsent one. -/
def ackLoop : ℕ → UtpSocket → UtpSocket
  | 0, s => s
  | n + 1, s =>
    let r := s.ackPacket env s.windowStart
    if r.1 = .unsent then r.2 else ackLoop n r.2.shrinkWindow

/-- Slots at the head that an EACK has emptied. -/
def skipLoop : ℕ → UtpSocket → UtpSocket
  | 0, s => s
  | n + 1, s =>
    if 0 < s.send.curWindowPackets ∧ (s.send.outbuf.get s.headIdx).isNone then
      skipLoop n s.shrinkWindow
    else s

/-- The packets leave the window, with the assertions between the loops. -/
def advance (acks : ℕ) (s : UtpSocket) : UtpSocket :=
  let s := s.ackLoop env acks
  let s := s.assert (s.send.curWindowPackets = 0 → s.cc.curWindow = 0) .advanceInFlight
  let s := s.skipLoop s.send.curWindowPackets.toNat
  let s := s.assert (s.send.curWindowPackets = 0 → s.cc.curWindow = 0) .advanceInFlight
  s.assert s.headPresent .advanceHead

/-- A last packet held back for more data goes out when it is alone. -/
def sendLast (s : UtpSocket) : UtpSocket :=
  if s.send.curWindowPackets = 1 then
    match s.send.outbuf.get (s.send.seqNr.toNat - 1) with
    | some p => if p.transmissions = 0 then s.sendPacket env (s.send.seqNr.toNat - 1) else s
    | none => s
  else s

/-- After a timeout each ack that makes progress resends the new head. -/
def fastTimeout (s : UtpSocket) : UtpSocket :=
  if s.timing.fastTimeout then
    if s.windowStart ≠ s.timing.fastResendSeqNr then
      s.setTiming { s.timing with fastTimeout := false }
    else
      match s.send.outbuf.get s.headIdx with
      | some p =>
        if 0 < p.transmissions then
          (s.setTiming { s.timing with
            fastResendSeqNr := s.timing.fastResendSeqNr + 1 }).sendPacket env s.headIdx
        else s
      | none => s
  else s

def advanceSendWindow (pp : ParsedPacket) (acks : ℕ) (s : UtpSocket) : UtpSocket :=
  if acks ≤ s.send.curWindowPackets.toNat then
    let s := ((s.peerWindow pp.windowsize).ackState pp acks).raiseFastResend pp
    ((s.advance env acks).sendLast env).fastTimeout env
  else s

end UtpSocket

end Utp
