import LibUtp.Socket.State

/-! Sending: the packet stamps, acknowledgements, the window test, the flush
with its cursor and the queueing of new packets. -/

namespace Utp

namespace UtpSocket

variable (env : Env)

/-- The header fields `send_data` writes at the moment of sending. -/
def stamp (s : UtpSocket) (hdr : PacketFormatV1) : PacketFormatV1 :=
  { hdr with tvUsec := (env.microseconds s.tick).toUInt32, replyMicro := s.timing.replyMicro }

/-- `send_data` of a stamped packet. -/
def sendData (b : Bytes) (flags : UInt32) (s : UtpSocket) : UtpSocket :=
  ((s.asked.setTiming { s.timing with lastSentPacket := s.currentMs }).emit (.sendTo b flags)).emit
    .removeAck

/-- A zeroed header with its version and type set. -/
def freshHdr (type : UInt8) : PacketFormatV1 := (({} : PacketFormatV1).setVersion 1).setType type

/-- Bit `i` of the EACK mask stands for `ack_nr + i + 2`. -/
def eackMask (s : UtpSocket) : ℕ :=
  (List.range (min (14 + 16) s.recv.inbuf.size)).foldl
    (fun m (i : ℕ) =>
      if (s.recv.inbuf.get (s.recv.ackNr.toNat + i + 2)).isSome then m ||| (1 <<< i) else m) 0

def eackBytes (m : ℕ) : Bytes :=
  [UInt8.ofNat m, UInt8.ofNat (m >>> 8), UInt8.ofNat (m >>> 16), UInt8.ofNat (m >>> 24)]

/-- The header of a STATE packet. -/
def ackHdr (s : UtpSocket) : PacketFormatV1 :=
  { freshHdr ST_STATE with
    connid := s.conn.connIdSend.toUInt16
    ackNr := s.recv.ackNr
    seqNr := s.send.seqNr
    windowsize := UInt32.ofNat s.recv.lastRcvWin }

def sendPlainAck (s : UtpSocket) : UtpSocket := s.sendData (s.stamp env s.ackHdr).toBytes 0

def sendEack (s : UtpSocket) : UtpSocket :=
  s.sendData ((s.stamp env { s.ackHdr with ext := 1 }).toBytes ++
    ([0, 4] ++ eackBytes s.eackMask)) 0

def eackAsserts (synack : Bool) (s : UtpSocket) : UtpSocket :=
  (s.assert (synack = false) .synackEack).assert
    ((s.recv.inbuf.get (s.recv.ackNr.toNat + 1)).isNone) .eackGap

def sendAck (synack : Bool) (s : UtpSocket) : UtpSocket :=
  let s := s.updateRcvWin env
  let s :=
    if s.recv.reorderCount ≠ 0 ∧ s.recv.gotFinReached = false then
      (s.eackAsserts synack).sendEack env
    else s.sendPlainAck env
  s.emit .removeAck

/-- The acknowledgement is one too old on purpose. -/
def sendKeepAlive (s : UtpSocket) : UtpSocket :=
  let s := (s.setRecv { s.recv with ackNr := s.recv.ackNr - 1 }).sendAck env false
  s.setRecv { s.recv with ackNr := s.recv.ackNr + 1 }

def scheduleAck (s : UtpSocket) : UtpSocket := s.emit .scheduleAck

def addInFlight (bytes : ℕ) (s : UtpSocket) : UtpSocket := s.setCc (s.cc.addInFlight bytes)

def removeInFlight (bytes : ℕ) (s : UtpSocket) : UtpSocket :=
  (s.assert (bytes ≤ s.cc.curWindow) .removeInFlight).setCc (s.cc.removeInFlight bytes)

/-- `mtu_.reset(get_udp_mtu(), ms)`. -/
def mtuReset (ms : UInt64) (s : UtpSocket) : UtpSocket :=
  let m := s.mtu.reset (env.udpMtu s.tick).toUInt32 ms
  (s.asked.assert m.boundsAssert .mtuReset).setMtu m

/-- The packet would do as an MTU probe. -/
def probes (s : UtpSocket) (p : OutgoingPacket) : Bool :=
  s.mtu.floor < s.mtu.ceiling && s.mtu.floor.toNat < p.length && p.length ≤ s.mtu.ceiling.toNat &&
    s.mtu.probeSeq = 0 && s.send.seqNr ≠ 1 && p.transmissions = 0

/-- A packet that is not in flight yet, or no longer, is counted. -/
def countPacket (p : OutgoingPacket) (s : UtpSocket) : UtpSocket :=
  if p.transmissions = 0 ∨ p.needResend then s.addInFlight p.payload else s

def rediscover (curTime : UInt64) (s : UtpSocket) : UtpSocket :=
  if s.mtu.shouldRediscover curTime then s.mtuReset env curTime else s

def startProbe (length : ℕ) (s : UtpSocket) : UtpSocket :=
  let s := s.setMtu (s.mtu.setProbe (s.send.seqNr - 1).toUInt32 (UInt32.ofNat length))
  (s.assert (s.mtu.floor.toNat ≤ length) .probeFloor).assert
    (length ≤ s.mtu.ceiling.toNat) .probeCeiling

/-- `p` as it goes out. -/
def sentPacket (s : UtpSocket) (timeSent : UInt64) (p : OutgoingPacket) : OutgoingPacket :=
  { p with
    needResend := false
    timeSent := timeSent
    transmissions := p.transmissions + 1
    hdr := s.stamp env { p.hdr with ackNr := s.recv.ackNr } }

def putOutbuf (i : ℤ) (p : OutgoingPacket) (s : UtpSocket) : UtpSocket :=
  s.setSend { s.send with outbuf := s.send.outbuf.put i (some p) }

/-- `send_packet` of the packet in slot `i`. -/
def sendPacket (i : ℤ) (s : UtpSocket) : UtpSocket :=
  match s.send.outbuf.get i with
  | none => s
  | some p =>
    let curTime := env.milliseconds s.tick
    let s := s.asked.countPacket p
    let timeSent := env.microseconds s.tick
    let s := s.asked.rediscover env curTime
    let probe := s.probes p
    let s := if probe then s.startProbe p.length else s
    let p := s.sentPacket env timeSent p
    (s.putOutbuf i p).sendData (p.hdr.toBytes ++ p.body) (if probe then UTP_UDP_DONTFRAG else 0)

/-- The test of `is_full`. -/
def windowFull (bytes : ℤ) (s : UtpSocket) : Bool :=
  let packetSize := int32 s.getPacketSize
  let bytes := if bytes < 0 then packetSize else if packetSize < bytes then packetSize else bytes
  let maxSend := min (min s.cc.maxWindow s.send.optSndbuf) s.send.maxWindowUser
  OUTGOING_BUFFER_MAX_SIZE - 1 ≤ s.send.curWindowPackets.toNat ||
    maxSend < sizeT (s.cc.curWindow + bytes)

def isFull (bytes : ℤ) (s : UtpSocket) : Bool × UtpSocket :=
  if s.windowFull bytes then (true, s.setCc (s.cc.markWindowFull s.currentMs)) else (false, s)

/-- What the flush does not look at again: an acknowledged slot, or a packet
that was sent and is not marked. -/
def settled : Option OutgoingPacket → Bool
  | none => true
  | some p => 0 < p.transmissions && !p.needResend

/-- The last packet waits for more data unless it is alone or full. -/
def mayFlush (s : UtpSocket) (packetSize : ℕ) (i : UInt16) : Bool :=
  i ≠ s.send.seqNr - 1 || s.send.curWindowPackets = 1 ||
    packetSize ≤ ((s.send.outbuf.get i.toNat).map OutgoingPacket.payload).getD 0

def moveCursor (inPrefix : Bool) (i : UInt16) (s : UtpSocket) : UtpSocket :=
  if inPrefix then s.setSend { s.send with flushScanStart := i + 1 } else s

/-- The scan of `flush_packets` over the next `n` slots from `i`. -/
def flushLoop (packetSize : ℕ) : ℕ → UInt16 → Bool → UtpSocket → Bool × UtpSocket
  | 0, _, _, s => (false, s)
  | n + 1, i, inPrefix, s =>
    if settled (s.send.outbuf.get i.toNat) then
      flushLoop packetSize n (i + 1) inPrefix (s.moveCursor inPrefix i)
    else
      let r := s.isFull (-1)
      if r.1 then (true, r.2)
      else if r.2.mayFlush packetSize i then
        flushLoop packetSize n (i + 1) inPrefix ((r.2.sendPacket env i.toNat).moveCursor inPrefix i)
      else flushLoop packetSize n (i + 1) false r.2

/-- Where the scan starts: at the cursor, or at the window head if the cursor is stale. -/
def flushBegin (s : UtpSocket) : UInt16 :=
  if s.send.flushScanStart - s.windowStart > s.send.curWindowPackets then s.windowStart
  else s.send.flushScanStart

def flushPackets (s : UtpSocket) : Bool × UtpSocket :=
  s.flushLoop env s.getPacketSize (s.send.seqNr - s.flushBegin).toNat s.flushBegin true

/-- The gathering copy: takes `needed` bytes off the front of the vectors. -/
def gather : ℕ → List Bytes → Bytes × List Bytes
  | _, [] => ([], [])
  | needed, v :: iov =>
    let r := gather (needed - v.length) iov
    (v.take needed ++ r.1, v.drop needed :: r.2)

/-- What the payload area of `added` fresh bytes holds after the copy. -/
def filled (added : ℕ) (g : Bytes) : Bytes := g ++ List.replicate (added - g.length) 0

/-- The header fields `write_outgoing_packet` fills in each round. -/
def fillHdr (flags : UInt8) (s : UtpSocket) (hdr : PacketFormatV1) : PacketFormatV1 :=
  { (hdr.setVersion 1).setType flags with
    ext := 0
    connid := s.conn.connIdSend.toUInt16
    windowsize := UInt32.ofNat s.recv.lastRcvWin
    ackNr := s.recv.ackNr }

/-- The tail packet when the data of this round can still join it. -/
def openTail (s : UtpSocket) (packetSize payload : ℕ) : Option OutgoingPacket :=
  if 0 < s.send.curWindowPackets ∧ 0 < payload then
    (s.send.outbuf.get (s.send.seqNr.toNat - 1)).filter
      fun p => p.transmissions = 0 && p.payload < packetSize
  else none

/-- Assertions on the data of a round of `added` bytes. -/
def addedAsserts (flags : UInt8) (added got : ℕ) (s : UtpSocket) : UtpSocket :=
  if added = 0 then s
  else (s.assert (flags = ST_DATA) .dataFlags).assert (got = added) .iovecShort

/-- A round that appends to the tail packet `p`. -/
def growTail (flags : UInt8) (p : OutgoingPacket) (added : ℕ) (iov : List Bytes) (s : UtpSocket) :
    UtpSocket :=
  let g := (gather added iov).1
  let s := ((s.assert (p.needResend = false) .tailResend).addedAsserts flags added g.length
    ).updateRcvWin env
  s.putOutbuf (s.send.seqNr.toNat - 1) { p with
    body := p.body ++ filled added g
    hdr := s.fillHdr flags p.hdr }

/-- `p` is stored under `seq_nr` in the grown ring and counted. -/
def enqueue (p : OutgoingPacket) (s : UtpSocket) : UtpSocket :=
  s.setSend { s.send with
    outbuf := (s.send.outbuf.ensureSize s.send.seqNr.toNat s.send.curWindowPackets).put
      s.send.seqNr.toNat (some p)
    seqNr := s.send.seqNr + 1
    curWindowPackets := s.send.curWindowPackets + 1 }

/-- A round that queues a new packet under `seq_nr`. -/
def queuePacket (flags : UInt8) (added : ℕ) (iov : List Bytes) (s : UtpSocket) : UtpSocket :=
  let g := (gather added iov).1
  let s := (s.addedAsserts flags added g.length).updateRcvWin env
  s.enqueue {
    hdr := { s.fillHdr flags {} with seqNr := s.send.seqNr }
    body := filled added g }

/-- The `do` loop of `write_outgoing_packet`; it ends within `payload + 1` rounds. -/
def writeLoop (packetSize : ℕ) (flags : UInt8) :
    ℕ → ℕ → List Bytes → UtpSocket → List Bytes × UtpSocket
  | 0, _, iov, s => (iov, s)
  | fuel + 1, payload, iov, s =>
    let s := (s.assert (s.send.curWindowPackets.toNat < OUTGOING_BUFFER_MAX_SIZE) .windowPackets
      ).assert (flags = ST_DATA ∨ flags = ST_FIN) .packetFlags
    match s.openTail packetSize payload with
    | some p =>
      let added := min (payload + p.payload) (max packetSize p.payload) - p.payload
      let s := s.growTail env flags p added iov
      if payload - added = 0 then ((gather added iov).2, s)
      else writeLoop packetSize flags fuel (payload - added) (gather added iov).2 s
    | none => ((gather payload iov).2, s.queuePacket env flags payload iov)

def writeOutgoingPacket (payload : ℕ) (flags : UInt8) (iov : List Bytes) (s : UtpSocket) :
    List Bytes × UtpSocket :=
  let s :=
    if s.send.curWindowPackets = 0 then
      (s.setCc (s.cc.setInitialRto s.currentMs)).assert (s.cc.curWindow = 0) .idleInFlight
    else s
  let r := s.writeLoop env s.getPacketSize flags (payload + 1) payload iov
  (r.1, (r.2.flushPackets env).2)

/-- `send_fin`. -/
def sendFin (s : UtpSocket) : UtpSocket :=
  ((s.setSend { s.send with finSent := true }).writeOutgoingPacket env 0 ST_FIN []).2

end UtpSocket

end Utp
