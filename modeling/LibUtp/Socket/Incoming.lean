import LibUtp.Socket.Ack

/-! One incoming packet: parsing, the acceptance tests, the acknowledgement
part, and delivery through the reorder buffer. -/

namespace Utp

namespace UtpSocket

variable (env : Env)

/-- The extension chain from byte `pos`: where the payload starts and the EACK
body, together with the extension bits seen on the way. What is left of the
datagram is compared as an `int`. -/
def parseExtensions (b : Bytes) :
    ℕ → UInt8 → ℕ → Option Bytes → Bytes → Option (ℕ × Option Bytes) × Bytes
  | 0, _, _, _, bits => (none, bits)
  | fuel + 1, extension, pos, selack, bits =>
    let body := pos + 2
    let left := int32 ((b.length : ℤ) - body)
    let len := (rd8 b (pos + 1)).toNat
    if left < 0 ∨ left < len then (none, bits)
    else if extension = 2 ∧ len ≠ 8 then (none, bits)
    else
      let data := (b.drop body).take len
      let selack := if extension = 1 then some data else selack
      let bits := if extension = 2 then data else bits
      if rd8 b pos = 0 then (some (body + len, selack), bits)
      else parseExtensions b fuel (rd8 b pos) (body + len) selack bits

def parseBytes (b bits : Bytes) : Option ParsedPacket × Bytes :=
  let pf := PacketFormatV1.ofBytes b
  let parsed (pos : ℕ) (selack : Option Bytes) : ParsedPacket :=
    { payload := b.drop pos
      selack := selack
      seqNr := pf.seqNr
      ackNr := pf.ackNr
      type := pf.type
      timestamp := pf.tvUsec
      replyMicro := pf.replyMicro
      windowsize := pf.windowsize }
  if ST_NUM_STATES ≤ pf.type then (none, bits)
  else if b.length < PacketFormatV1.size then (none, bits)
  else if pf.ext = 0 then (some (parsed PacketFormatV1.size none), bits)
  else
    let r := parseExtensions b b.length pf.ext PacketFormatV1.size none bits
    (r.1.map fun x => parsed x.1 x.2, r.2)

/-- `parse_packet`; the extension bits are stored as they are met. -/
def parsePacket (b : Bytes) (s : UtpSocket) : Option ParsedPacket × UtpSocket :=
  let r := parseBytes b s.conn.extensions
  (r.1, { s with conn.extensions := r.2 })

/-- The acknowledgement number lies outside what this side has sent recently. -/
def invalidAck (s : UtpSocket) (pp : ParsedPacket) : Bool :=
  let currWindow := max (s.send.curWindowPackets + ACK_NR_ALLOWED_WINDOW) ACK_NR_ALLOWED_WINDOW
  let last := s.send.seqNr.toUInt32 - 1
  (pp.type ≠ ST_SYN || s.conn.state ≠ .synRecv) &&
    (wrappingCompareLess last pp.ackNr.toUInt32 ACK_NR_MASK ||
      wrappingCompareLess pp.ackNr.toUInt32 (last - currWindow.toUInt32) ACK_NR_MASK)

/-- The number of packets the packet acknowledges cumulatively. -/
def ackCount (s : UtpSocket) (pp : ParsedPacket) : ℕ :=
  let acks := (pp.ackNr - (s.send.seqNr - 1 - s.send.curWindowPackets)).toNat
  if s.send.curWindowPackets.toNat < acks then 0 else acks

/-- `mtu_.handle_probe_loss`. -/
def probeLoss (s : UtpSocket) : UtpSocket :=
  (s.assert s.mtu.lowerCeiling.boundsAssert .mtuSearch).setMtu (s.mtu.handleProbeLoss s.currentMs)

/-- A third duplicate acknowledgement of the packet before the probe loses the probe. -/
def dupAckProbe (pp : ParsedPacket) (s : UtpSocket) : UtpSocket :=
  if s.duplicateAck.toNat = DUPLICATE_ACKS_BEFORE_RESEND ∧ s.mtu.probeSeq ≠ 0 then
    if pp.ackNr.toUInt32 = (s.mtu.probeSeq - 1) &&& ACK_NR_MASK then s.probeLoss
    else s.setMtu s.mtu.clearProbe
  else s

def countDuplicate (pp : ParsedPacket) (s : UtpSocket) : UtpSocket :=
  if 0 < s.send.curWindowPackets then
    if pp.ackNr = s.send.seqNr - s.send.curWindowPackets - 1 ∧ pp.type = ST_STATE then
      (s.setDuplicateAck (s.duplicateAck + 1)).dupAckProbe pp
    else s.setDuplicateAck 0
  else s

/-- A full window that has room again. -/
def becomeWritable (s : UtpSocket) : UtpSocket :=
  if s.conn.state = .connectedFull then
    let r := s.isFull (-1)
    if r.1 then r.2 else (r.2.setState .connected).emit (.onStateChange .writable)
  else s

def onRead (b : Bytes) (s : UtpSocket) : UtpSocket :=
  if 0 < b.length ∧ s.recv.readShutdown = false then s.emit (.onRead b) else s

/-- The in-order bytes have reached the FIN. -/
def reachEof (s : UtpSocket) : UtpSocket :=
  if s.recv.gotFinReached = false ∧ s.recv.gotFin ∧ s.recv.eofPkt = s.recv.ackNr then
    let s := (s.setRecv { s.recv with gotFinReached := true }).setCc { s.cc with
      rtoTimeout := s.currentMs + (min (s.cc.rto * 3) 60).toUInt64 }
    let s := (s.emit (.onStateChange .eof)).sendAck env false
    s.setRecv { s.recv with reorderCount := 0 }
  else s

def takeInbuf (s : UtpSocket) : UtpSocket :=
  s.setRecv { s.recv with inbuf := (s.recv.inbuf.take (s.recv.ackNr.toNat + 1)).2 }

def advanceAckNr (s : UtpSocket) : UtpSocket :=
  s.setRecv { s.recv with ackNr := s.recv.ackNr + 1 }

/-- The `for (;;)` of `deliver_data`: each round but the last lowers `reorder_count`. -/
def drainLoop : ℕ → UtpSocket → UtpSocket
  | 0, s => s
  | n + 1, s =>
    let s := s.reachEof env
    if s.recv.reorderCount = 0 then s
    else
      match s.recv.inbuf.get (s.recv.ackNr.toNat + 1) with
      | none => s.takeInbuf
      | some p =>
        let s := (s.takeInbuf.onRead p.data).advanceAckNr
        let s := s.assert (0 < s.recv.reorderCount) .drainCount
        drainLoop n (s.setRecv { s.recv with reorderCount := s.recv.reorderCount - 1 })

/-- The packet that comes next in order, and what the reorder buffer then releases. -/
def deliverInOrder (pp : ParsedPacket) (s : UtpSocket) : UtpSocket :=
  let s := (s.onRead pp.payload).advanceAckNr
  (s.drainLoop env (s.recv.reorderCount.toNat + 1)).scheduleAck

/-- The ring grows to hold the distance of the packet. -/
def growInbuf (pp : ParsedPacket) (seqnr : UInt16) (s : UtpSocket) : UtpSocket :=
  s.setRecv { s.recv with
    inbuf := s.recv.inbuf.ensureSize (pp.seqNr.toNat + 1) (seqnr + 1) }

/-- The payload enters the reorder buffer. -/
def putInbuf (pp : ParsedPacket) (s : UtpSocket) : UtpSocket :=
  s.setRecv { s.recv with
    inbuf := s.recv.inbuf.put pp.seqNr.toNat (some ⟨pp.payload⟩)
    reorderCount := s.recv.reorderCount + 1 }

def storeAsserts (pp : ParsedPacket) (s : UtpSocket) : UtpSocket :=
  (s.assert (s.recv.inbuf.get pp.seqNr.toNat).isNone .storeFree).assert
    (s.recv.inbuf.idx pp.seqNr.toNat ≠ s.recv.inbuf.idx (s.recv.ackNr.toNat + 1)) .storeGap

def storeOutOfOrder (pp : ParsedPacket) (seqnr : UInt16) (s : UtpSocket) : UtpSocket :=
  if s.recv.gotFin ∧ s.recv.eofPkt - s.recv.ackNr - 1 < seqnr then s
  else if 0x3ff < seqnr then s
  else
    let s := s.growInbuf pp seqnr
    if (s.recv.inbuf.get pp.seqNr.toNat).isSome then s
    else ((s.storeAsserts pp).putInbuf pp).scheduleAck

def noteFin (pp : ParsedPacket) (s : UtpSocket) : UtpSocket :=
  if pp.type = ST_FIN ∧ s.recv.gotFin = false then
    s.setRecv { s.recv with gotFin := true, eofPkt := pp.seqNr }
  else s

def deliverData (pp : ParsedPacket) (seqnr : UInt16) (s : UtpSocket) : UtpSocket :=
  let s := s.noteFin pp
  if seqnr = 0 then s.deliverInOrder env pp else s.storeOutOfOrder pp seqnr

/-- The first packet seen in `CS_SYN_SENT` fixes what is expected next. -/
def synSentAck (pp : ParsedPacket) (s : UtpSocket) : UtpSocket :=
  if s.conn.state = .synSent then s.setRecv { s.recv with ackNr := pp.seqNr - 1 } else s

def selectiveAckOf (pp : ParsedPacket) (s : UtpSocket) : UtpSocket :=
  match pp.selack with
  | some mask => s.selectiveAck env (pp.ackNr.toNat + 2) mask
  | none => s

/-- The acknowledgement part of an acceptable packet. -/
def processAck (pp : ParsedPacket) (time : UInt64) (s : UtpSocket) : UtpSocket :=
  let acks := s.ackCount pp
  let s := ((s.countDuplicate pp).processAcks env pp acks time).advanceSendWindow env pp acks
  let s := s.selectiveAckOf env pp
  (s.assert s.headPresent .incomingHead).becomeWritable

/-- The distance of the packet from the next expected one. -/
def seqDistance (s : UtpSocket) (pp : ParsedPacket) : UInt16 := pp.seqNr - s.recv.ackNr - 1

/-- The rest of `process_incoming` for a packet with a valid acknowledgement number. -/
def processValid (pp : ParsedPacket) (time : UInt64) (syn : Bool) (s : UtpSocket) : UtpSocket :=
  let s := (s.assert (pp.type ≠ ST_RESET) .incomingReset).synSentAck pp
  let s := s.setTiming { s.timing with lastGotPacket := s.currentMs }
  if syn then s
  else
    let seqnr := s.seqDistance pp
    if REORDER_BUFFER_MAX_SIZE ≤ seqnr.toNat then
      if 2 ^ 16 - REORDER_BUFFER_MAX_SIZE ≤ seqnr.toNat ∧ pp.type ≠ ST_STATE then s.scheduleAck
      else s
    else
      let s := s.processAck env pp time
      if pp.type = ST_STATE then s
      else if s.conn.state ≠ .connected ∧ s.conn.state ≠ .connectedFull then s
      else s.deliverData env pp seqnr

def processIncoming (b : Bytes) (syn : Bool) (s : UtpSocket) : UtpSocket :=
  let r := (s.refreshClock env).parsePacket b
  match r.1 with
  | none => r.2
  | some pp =>
    let time := env.microseconds r.2.tick
    if r.2.asked.invalidAck pp then r.2.asked else r.2.asked.processValid env pp time syn

end UtpSocket

end Utp
