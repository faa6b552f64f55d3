import LibUtp.Kernel.Operations
import LibUtp.Socket.Run

/-! Where an operation calls `send_packet` and `selective_ack`. Each definition follows the
function it is about and asks the same thing at every such call; that these are the calls the
operations make is shown apart. -/

namespace Utp

namespace UtpSocket

/-- What is asked of the slot that `send_packet` is given and of the bitmap that `selective_ack` is
given, and of the socket at that moment. -/
structure Watch where
  send : ℤ → UtpSocket → Bool
  eack : ℤ → Bytes → UtpSocket → Bool

variable (env : Env) (W : Watch)

/-! The flush and the writes. -/

/-- The scan of a flush from slot `i`. -/
def flushLoopSends (packetSize : ℕ) : ℕ → UInt16 → Bool → UtpSocket → Bool
  | 0, _, _, _ => true
  | n + 1, i, inPrefix, s =>
    if settled (s.send.outbuf.get i.toNat) then
      flushLoopSends packetSize n (i + 1) inPrefix (s.moveCursor inPrefix i)
    else
      let r := s.isFull (-1)
      if r.1 then true
      else if r.2.mayFlush packetSize i then
        W.send i.toNat r.2 && flushLoopSends packetSize n (i + 1) inPrefix
          ((r.2.sendPacket env i.toNat).moveCursor inPrefix i)
      else flushLoopSends packetSize n (i + 1) false r.2

def flushSends (s : UtpSocket) : Bool :=
  s.flushLoopSends env W s.getPacketSize (s.send.seqNr - s.flushBegin).toNat s.flushBegin true

def writeSends (payload : ℕ) (flags : UInt8) (iov : List Bytes) (s : UtpSocket) : Bool :=
  (s.queueRounds env payload flags iov).2.flushSends env W

def finSends (s : UtpSocket) : Bool :=
  (s.setSend { s.send with finSent := true }).writeSends env W 0 ST_FIN []

def writevLoopSends (packetSize : ℕ) : ℕ → ℕ → List Bytes → UtpSocket → Bool
  | 0, _, _, _ => true
  | fuel + 1, bytes, iov, s =>
    let num := min bytes packetSize
    let r := s.isFull (int32 num)
    if r.1 then true
    else
      let w := r.2.writeOutgoingPacket env num ST_DATA iov
      r.2.writeSends env W num ST_DATA iov &&
        (min (bytes - num) packetSize = 0 || writevLoopSends packetSize fuel (bytes - num) w.1 w.2)

def writevSends (iov : List Bytes) (s : UtpSocket) : Bool :=
  let iov := iov.take UTP_IOV_MAX
  if writable s.conn.state = false ∨ s.send.finSent then true
  else
    let s := s.refreshClock env
    s.writevLoopSends env W s.getPacketSize (totalLength iov + 1) (totalLength iov) iov

/-- What `close` does to a connected socket. -/
def closeConnectedSends (s : UtpSocket) : Bool :=
  let s := s.markReadShutdown.requestClose
  s.send.finSent || s.finSends env W

def closeSends (s : UtpSocket) : Bool :=
  let s := s.assert (s.conn.state ≠ .uninitialized ∧ s.conn.state ≠ .destroy) .closeState
  match s.conn.state with
  | .connected | .connectedFull => s.closeConnectedSends env W
  | _ => true

def shutdownSends (how : ShutdownHow) (s : UtpSocket) : Bool :=
  let s := s.assert (s.conn.state ≠ .uninitialized ∧ s.conn.state ≠ .destroy) .closeState
  let s := if how ≠ .wr then s.markReadShutdown else s
  match s.conn.state with
  | .connected | .connectedFull =>
    if how ≠ .rd ∧ s.send.finSent = false then s.finSends env W else true
  | _ => true

/-! The timer. -/

def headSends (s : UtpSocket) : Bool :=
  if 0 < s.send.curWindowPackets then
    let s := (s.setCc { s.cc with retransmitCount := s.cc.retransmitCount + 1 }).setTiming
      { s.timing with fastTimeout := true, timeoutSeqNr := s.send.seqNr }
    W.send s.headIdx (s.assert (s.send.outbuf.get s.headIdx).isSome .timeoutResend)
  else true

def rtoSends (s : UtpSocket) : Bool :=
  let r := s.probeTimeout
  if r.2.conn.state = .synRecv then true
  else if r.2.retriesExhausted then true
  else ((r.2.backOff r.1).markWindow).headSends W

def timeoutsSends (s : UtpSocket) : Bool :=
  let s := s.checkInvariant.assert s.headPresent .timeoutHead
  (s.conn.state = .destroy || s.flushSends env W) &&
    let s := if s.conn.state ≠ .destroy then (s.flushPackets env).2 else s
    !(timeoutActive s.conn.state && s.reopenWindow.cc.isRtoExpired s.reopenWindow.currentMs) ||
      s.reopenWindow.rtoSends W

/-! A packet that arrives. -/

def lastSends (s : UtpSocket) : Bool :=
  if s.send.curWindowPackets = 1 then
    match s.send.outbuf.get (s.send.seqNr.toNat - 1) with
    | some p => if p.transmissions = 0 then W.send (s.send.seqNr.toNat - 1) s else true
    | none => true
  else true

def fastTimeoutSends (s : UtpSocket) : Bool :=
  if s.timing.fastTimeout ∧ s.windowStart = s.timing.fastResendSeqNr then
    match s.send.outbuf.get s.headIdx with
    | some p =>
      if 0 < p.transmissions then
        W.send s.headIdx (s.setTiming { s.timing with
          fastResendSeqNr := s.timing.fastResendSeqNr + 1 })
      else true
    | none => true
  else true

def advanceSends (pp : ParsedPacket) (acks : ℕ) (s : UtpSocket) : Bool :=
  if acks ≤ s.send.curWindowPackets.toNat then
    let s := (((s.peerWindow pp.windowsize).ackState pp acks).raiseFastResend pp).advance env acks
    s.lastSends W && (s.sendLast env).fastTimeoutSends W
  else true

def resendLoopSends : List ℤ → ℕ → UtpSocket → Bool
  | [], _, _ => true
  | v :: vs, i, s =>
    if (s.send.outbuf.get v).isSome then
      let t := s.sendPacket env v
      W.send v s && (i ≤ 1 || resendLoopSends vs (i - 1)
        (t.setTiming { t.timing with fastResendSeqNr := UInt16.ofInt (v + 1) }))
    else resendLoopSends vs i s

def selectiveAckSends (base : ℤ) (mask : Bytes) (s : UtpSocket) : Bool :=
  if s.send.curWindowPackets = 0 then true
  else
    let r := eackLoop env base mask (8 * mask.length + 1) 0 [] s
    let resends := if r.2.2.fastResend (base - 1) r.1 then r.2.1 ++ [(base - 1) % 2 ^ 16] else r.2.1
    W.eack base mask s && r.2.2.resendLoopSends env W resends.reverse 4

def selectiveAckOfSends (pp : ParsedPacket) (s : UtpSocket) : Bool :=
  match pp.selack with
  | some mask => s.selectiveAckSends env W (pp.ackNr.toNat + 2) mask
  | none => true

def ackSends (pp : ParsedPacket) (time : UInt64) (s : UtpSocket) : Bool :=
  let acks := s.ackCount pp
  let s := (s.countDuplicate pp).processAcks env pp acks time
  s.advanceSends env W pp acks && (s.advanceSendWindow env pp acks).selectiveAckOfSends env W pp

def validSends (pp : ParsedPacket) (time : UInt64) (s : UtpSocket) : Bool :=
  let s := (s.assert (pp.type ≠ ST_RESET) .incomingReset).synSentAck pp
  let s := s.setTiming { s.timing with lastGotPacket := s.currentMs }
  REORDER_BUFFER_MAX_SIZE ≤ (s.seqDistance pp).toNat || s.ackSends env W pp time

def incomingSends (b : Bytes) (s : UtpSocket) : Bool :=
  let r := (s.refreshClock env).parsePacket b
  match r.1 with
  | none => true
  | some pp => r.2.asked.invalidAck pp || r.2.asked.validSends env W pp (env.microseconds r.2.tick)

/-- The SYN. -/
def connectSends (addr : Address) (seed : UInt32) (s : UtpSocket) : Bool :=
  let s := ((s.initializeSocket env addr seed seed (seed + 1)).readySyn env).queueSyn
  W.send (s.send.seqNr - 1).toNat s

theorem connectSends_eq (addr : Address) (seed : UInt32) (s : UtpSocket) :
    s.connectSends env W addr seed =
      W.send (((s.initializeSocket env addr seed seed (seed + 1)).readySyn env).queueSyn.send.seqNr - 1).toNat
        ((s.initializeSocket env addr seed seed (seed + 1)).readySyn env).queueSyn := rfl

/-- The calls of an operation all meet `W`. -/
def Op.sends (s : UtpSocket) : Op → Bool
  | .connect addr seed => s.conn.state ≠ .uninitialized || s.connectSends env W addr seed
  | .writev iov => s.writevSends env W iov
  | .close => s.closeSends env W
  | .shutdown how => s.shutdownSends env W how
  | .processIncoming b => s.incomingSends env W b
  | .checkTimeouts => s.timeoutsSends env W
  | _ => true

/-! What is asked where an operation writes and flushes. -/

/-- What is asked of a socket before and after the rounds of a write, and of the socket that is
flushed. -/
structure FlushWatch where
  append : UtpSocket → UtpSocket → Prop
  flush : UtpSocket → Prop

section

variable (W : FlushWatch)

def writeFlushes (payload : ℕ) (flags : UInt8) (iov : List Bytes) (s : UtpSocket) : Prop :=
  W.append s (s.queueRounds env payload flags iov).2 ∧ W.flush (s.queueRounds env payload flags iov).2

def finFlushes (s : UtpSocket) : Prop :=
  (s.setSend { s.send with finSent := true }).writeFlushes env W 0 ST_FIN []

def writevLoopFlushes (packetSize : ℕ) : ℕ → ℕ → List Bytes → UtpSocket → Prop
  | 0, _, _, _ => True
  | fuel + 1, bytes, iov, s =>
    let num := min bytes packetSize
    let r := s.isFull (int32 num)
    if r.1 then True
    else
      let w := r.2.writeOutgoingPacket env num ST_DATA iov
      r.2.writeFlushes env W num ST_DATA iov ∧
        (min (bytes - num) packetSize = 0 ∨ writevLoopFlushes packetSize fuel (bytes - num) w.1 w.2)

def writevFlushes (iov : List Bytes) (s : UtpSocket) : Prop :=
  let iov := iov.take UTP_IOV_MAX
  if writable s.conn.state = false ∨ s.send.finSent then True
  else
    let s := s.refreshClock env
    s.writevLoopFlushes env W s.getPacketSize (totalLength iov + 1) (totalLength iov) iov

def closeFlushes (s : UtpSocket) : Prop :=
  let s := s.assert (s.conn.state ≠ .uninitialized ∧ s.conn.state ≠ .destroy) .closeState
  match s.conn.state with
  | .connected | .connectedFull =>
    let s := s.markReadShutdown.requestClose
    s.send.finSent = false → s.finFlushes env W
  | _ => True

def shutdownFlushes (how : ShutdownHow) (s : UtpSocket) : Prop :=
  let s := s.assert (s.conn.state ≠ .uninitialized ∧ s.conn.state ≠ .destroy) .closeState
  let s := if how ≠ .wr then s.markReadShutdown else s
  match s.conn.state with
  | .connected | .connectedFull => how ≠ .rd ∧ s.send.finSent = false → s.finFlushes env W
  | _ => True

def timeoutsFlushes (s : UtpSocket) : Prop :=
  let s := s.checkInvariant.assert s.headPresent .timeoutHead
  s.conn.state ≠ .destroy → W.flush s

/-- The writes and flushes of an operation all meet `W`. -/
def Op.Flushes (s : UtpSocket) : Op → Prop
  | .writev iov => s.writevFlushes env W iov
  | .close => s.closeFlushes env W
  | .shutdown how => s.shutdownFlushes env W how
  | .checkTimeouts => s.timeoutsFlushes W
  | _ => True

end

end UtpSocket

end Utp
