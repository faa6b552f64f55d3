import LibUtp.Socket.Timeout

/-! The entry points of a socket: connection set-up, writing, closing, options,
and what its context calls on RST and ICMP messages. -/

namespace Utp

namespace UtpSocket

variable (env : Env)

/-- `initialize` up to the registration, with the address, the seed and the ids. -/
def initializeSocket (addr : Address) (seed idRecv idSend : UInt32) (s : UtpSocket) : UtpSocket :=
  let s := { s with conn := { s.conn with
    state := .idle
    connSeed := seed
    connIdRecv := idRecv
    connIdSend := idSend
    addr := addr } }
  let s := s.refreshClock env
  let now := s.currentMs
  let s := s.setTiming { s.timing with
    lastGotPacket := now
    lastSentPacket := now
    lastMeasuredDelay := now + 0x70000000 }
  let s := s.setCc ((s.cc.initTiming now).initDelayHistories now)
  let s := s.mtuReset env now
  let s := s.setMtu s.mtu.setLastToCeiling
  s.setCc { s.cc with maxWindow := s.getPacketSize }

def synHdr (s : UtpSocket) : PacketFormatV1 :=
  { freshHdr ST_SYN with
    connid := s.conn.connIdRecv.toUInt16
    windowsize := UInt32.ofNat s.recv.lastRcvWin
    seqNr := s.send.seqNr }

/-- The SYN is queued like any packet. -/
def queueSyn (s : UtpSocket) : UtpSocket := s.enqueue { hdr := s.synHdr, body := [] }

/-- The timer of the SYN. -/
def armSyn (s : UtpSocket) : UtpSocket :=
  s.setCc { s.cc with retransmitTimeout := 3000, rtoTimeout := s.currentMs + 3000 }

/-- The first sequence number is random. -/
def drawSeqNr (s : UtpSocket) : UtpSocket :=
  s.asked.setSend { s.send with seqNr := (env.random s.tick).toUInt16 }

/-- `connect` after `initialize`. -/
def sendSyn (s : UtpSocket) : UtpSocket :=
  let s := s.assert (s.send.curWindowPackets = 0) .connectWindow
  let s := s.assert (s.send.outbuf.get s.send.seqNr.toNat).isNone .connectSlot
  let s := ((s.setState .synSent).refreshClock env).armSyn.updateRcvWin env
  let s := (s.drawSeqNr env).queueSyn
  s.sendPacket env (s.send.seqNr - 1).toNat

/-- `connect` with the seed that was drawn. -/
def connectWith (addr : Address) (seed : UInt32) (s : UtpSocket) : UtpSocket :=
  (s.initializeSocket env addr seed seed (seed + 1)).sendSyn env

/-- `connect` on a socket in use. -/
def connectAgain (s : UtpSocket) : UtpSocket :=
  (s.assert (s.conn.state = .uninitialized) .connectState).setState .destroy

def acceptSyn (peerSeq : UInt16) (s : UtpSocket) : UtpSocket :=
  let s := (s.setRecv { s.recv with ackNr := peerSeq }).drawSeqNr env
  (s.setTiming { s.timing with fastResendSeqNr := s.send.seqNr }).setState .synRecv

/-- What `process_udp` does with the socket it creates for the SYN `b`. -/
def acceptWith (addr : Address) (b : Bytes) (s : UtpSocket) : UtpSocket :=
  let pf := PacketFormatV1.ofBytes b
  let id := pf.connid.toUInt32
  let s := (s.initializeSocket env addr id (id + 1) id).acceptSyn env pf.seqNr
  (s.processIncoming env b true).sendAck env true

inductive SocketOption where
  | sndbuf
  | rcvbuf
  | targetDelay
  deriving DecidableEq, Repr

def setOption (opt : SocketOption) (val : ℤ) (s : UtpSocket) : UtpSocket :=
  match opt with
  | .sndbuf => (s.assert (1 ≤ val) .optionValue).setSend { s.send with optSndbuf := sizeT val }
  | .rcvbuf => (s.assert (1 ≤ val) .optionValue).setRecv { s.recv with optRcvbuf := sizeT val }
  | .targetDelay => { s with conn.targetDelay := sizeT val }

/-- `writable` of the state objects. -/
def writable : ConnState → Bool
  | .connected => true
  | _ => false

/-- The `while (!is_full(num_to_send))` of `writev`: the bytes sent so far, and
`true` when it ended because nothing is left. -/
def writevLoop (packetSize : ℕ) :
    ℕ → ℕ → ℕ → List Bytes → UtpSocket → (ℕ × Bool) × UtpSocket
  | 0, _, sent, _, s => ((sent, false), s)
  | fuel + 1, bytes, sent, iov, s =>
    let num := min bytes packetSize
    let r := s.isFull (int32 num)
    if r.1 then ((sent, false), r.2)
    else
      let w := r.2.writeOutgoingPacket env num ST_DATA iov
      if min (bytes - num) packetSize = 0 then ((sent + num, true), w.2)
      else writevLoop packetSize fuel (bytes - num) (sent + num) w.1 w.2

def totalLength (iov : List Bytes) : ℕ := (iov.map List.length).sum

/-- `writev`: the number of bytes taken, and the socket. -/
def writev (iov : List Bytes) (s : UtpSocket) : ℕ × UtpSocket :=
  let iov := iov.take UTP_IOV_MAX
  if writable s.conn.state = false ∨ s.send.finSent then (0, s)
  else
    let s := s.refreshClock env
    let bytes := totalLength iov
    let r := s.writevLoop env s.getPacketSize (bytes + 1) bytes 0 iov
    if r.1.2 then (r.1.1, r.2)
    else
      let f := r.2.isFull (-1)
      (r.1.1, if f.1 then f.2.setState .connectedFull else f.2)

def readDrained (s : UtpSocket) : UtpSocket :=
  let s := s.assert (s.conn.state ≠ .uninitialized) .readDrainedState
  if s.conn.state = .uninitialized then s
  else
    let rcvwin := s.getRcvWindow env
    let s := s.askRcvWindow env
    if s.recv.lastRcvWin < rcvwin then
      if s.recv.lastRcvWin = 0 then s.sendAck env false else (s.refreshClock env).scheduleAck
    else s

def markReadShutdown (s : UtpSocket) : UtpSocket := s.setRecv { s.recv with readShutdown := true }

def requestClose (s : UtpSocket) : UtpSocket := s.setSend { s.send with closeRequested := true }

def backoffRtoForClose (s : UtpSocket) : UtpSocket :=
  s.asked.setCc { s.cc with
    rtoTimeout := env.milliseconds s.tick + (min (s.cc.rto * 2) 60).toUInt64 }

/-- `StateConnected::close`. -/
def closeConnected (s : UtpSocket) : UtpSocket :=
  let s := s.markReadShutdown.requestClose
  if s.send.finSent = false then s.sendFin env
  else if s.send.finSentAcked then s.setState .destroy
  else s

def close (s : UtpSocket) : UtpSocket :=
  let s := s.assert (s.conn.state ≠ .uninitialized ∧ s.conn.state ≠ .destroy) .closeState
  match s.conn.state with
  | .connected | .connectedFull => s.closeConnected env
  | .synSent => (s.backoffRtoForClose env).setState .destroy
  | _ => s.setState .destroy

inductive ShutdownHow where
  | rd
  | wr
  | rdwr
  deriving DecidableEq, Repr

def shutdown (how : ShutdownHow) (s : UtpSocket) : UtpSocket :=
  let s := s.assert (s.conn.state ≠ .uninitialized ∧ s.conn.state ≠ .destroy) .closeState
  let s := if how ≠ .wr then s.markReadShutdown else s
  match s.conn.state with
  | .connected | .connectedFull =>
    if how ≠ .rd ∧ s.send.finSent = false then s.sendFin env else s
  | .synSent => if how ≠ .rd then s.backoffRtoForClose env else s
  | _ => s

/-- The state a broken connection goes to. -/
def brokenState (s : UtpSocket) : ConnState := if s.send.closeRequested then .destroy else .reset

/-- The error code is chosen after the state was overwritten. -/
def onReset (s : UtpSocket) : UtpSocket :=
  let s := s.setState s.brokenState
  s.emit (.onError (if s.conn.state = .synSent then .connRefused else .connReset))

def onIcmpError (s : UtpSocket) : UtpSocket :=
  if s.conn.state = .idle then s
  else
    (s.setState s.brokenState).emit
      (.onError (if s.conn.state = .synSent then .connRefused else .connReset))

def onIcmpFragmentation (nextHopMtu : UInt16) (s : UtpSocket) : UtpSocket :=
  if 576 ≤ nextHopMtu ∧ nextHopMtu < 0x2000 then
    (s.assert (s.mtu.capCeiling nextHopMtu).boundsAssert .mtuSearch).setMtu
      (s.mtu.handleIcmpFragmentation nextHopMtu s.currentMs)
  else
    (s.assert s.mtu.halveCeiling.boundsAssert .mtuSearch).setMtu
      (s.mtu.handleIcmpUnknown s.currentMs)

end UtpSocket

end Utp
