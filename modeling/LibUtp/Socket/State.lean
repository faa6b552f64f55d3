import LibUtp.SequenceBuffer
import LibUtp.Ledbat
import LibUtp.MtuDiscovery

/-! The data of a `UtpSocket` and the services it takes from its host: the
callback queries, the cached clock and the effects handed back. -/

namespace Utp

/-- `utp::Address`: a V4MAPPED or native IPv6 address and a port. -/
structure Address where
  in6 : BitVec 128
  port : UInt16
  deriving DecidableEq, Repr

/-- The answers of the query callbacks. Every query takes the next index, so
consecutive queries, also inside one operation, may be answered differently. -/
structure Env where
  milliseconds : ℕ → UInt64
  microseconds : ℕ → UInt64
  random : ℕ → UInt32
  readBufferSize : ℕ → ℕ
  udpMtu : ℕ → UInt16
  firewall : ℕ → Bool

inductive ConnState where
  | uninitialized
  | idle
  | synSent
  | synRecv
  | connected
  | connectedFull
  | reset
  | destroy
  deriving DecidableEq, Repr

inductive ErrorCode where
  | connRefused
  | connReset
  | timedOut
  deriving DecidableEq, Repr

inductive StateChange where
  | writable
  | eof
  | destroying
  deriving DecidableEq, Repr

/-- The assertions of the source, one name for each. -/
inductive Assertion where
  /-- `get_rcv_window`: the read buffer size is an `int` -/
  | rcvWindow
  /-- `send_ack`: a SYN-ACK carries no EACK; the slot of `ack_nr + 1` is empty -/
  | synackEack | eackGap
  /-- `MtuDiscovery`: `floor <= ceiling` in `reset` and in `search_update` -/
  | mtuReset | mtuSearch
  /-- `send_packet`: the probe size lies between the bounds -/
  | probeFloor | probeCeiling
  /-- `write_outgoing_packet`, in order -/
  | idleInFlight | windowPackets | packetFlags | tailResend | dataFlags | iovecShort
  /-- `check_invariant` -/
  | invariantGap | invariantInFlight
  /-- `check_timeouts`: the window head is there, on entry and before the resend -/
  | timeoutHead | timeoutResend
  /-- `remove_in_flight` -/
  | removeInFlight
  /-- `process_acks` and `selective_ack_bytes`: the payload size is an `int` -/
  | ackedPayload
  /-- `selective_ack`: the acked slot is not the window head's -/
  | eackHead
  /-- `process_acks`: the RTT is not negative; `apply_ccontrol`; `update_delay_average` -/
  | minRtt | applyCcontrol | delayAverage
  /-- `advance_send_window`, `process_incoming` -/
  | advanceInFlight | advanceHead | incomingReset | incomingHead
  /-- `deliver_data` -/
  | drainCount | storeFree | storeGap
  /-- the API entries -/
  | connectState | connectWindow | connectSlot | closeState | readDrainedState | optionValue
  deriving DecidableEq, Repr

/-- What a socket hands to its host. -/
inductive Effect where
  | sendTo (b : Bytes) (flags : UInt32)
  | scheduleAck
  | removeAck
  | onRead (b : Bytes)
  | onConnect
  | onStateChange (st : StateChange)
  | onError (code : ErrorCode)
  | onDelaySample (ms : ℤ)
  | assertFailed (a : Assertion)
  deriving DecidableEq, Repr

/-- The part of the context a socket reaches through `ISocketHost`. -/
structure Host where
  currentMs : UInt64 := 0
  tick : ℕ := 0
  out : List Effect := []
  deriving DecidableEq, Repr

/-- `data` is the header followed by the payload; `length` and `payload` of the
source always describe it. `transmissions` is a 31-bit field. -/
structure OutgoingPacket where
  hdr : PacketFormatV1
  body : Bytes
  timeSent : UInt64 := 0
  transmissions : ℕ := 0
  needResend : Bool := false
  deriving DecidableEq, Repr

namespace OutgoingPacket

def payload (p : OutgoingPacket) : ℕ := p.body.length

def length (p : OutgoingPacket) : ℕ := PacketFormatV1.size + p.payload

end OutgoingPacket

structure InboundPacket where
  data : Bytes
  deriving DecidableEq, Repr

/-- `payload` is the bytes up to the packet's end, `selack` the body of the EACK
extension, whose length the source keeps in the byte before it. -/
structure ParsedPacket where
  payload : Bytes
  selack : Option Bytes
  seqNr : UInt16
  ackNr : UInt16
  type : UInt8
  timestamp : UInt32
  replyMicro : UInt32
  windowsize : UInt32
  deriving DecidableEq, Repr

structure ConnectionId where
  addr : Address := ⟨0, 0⟩
  host : Host := {}
  connSeed : UInt32 := 0
  connIdRecv : UInt32 := 0
  connIdSend : UInt32 := 0
  state : ConnState := .uninitialized
  targetDelay : ℕ := 0
  extensions : Bytes := List.replicate 8 0

structure ReceiveState where
  ackNr : UInt16 := 0
  reorderCount : UInt16 := 0
  eofPkt : UInt16 := 0
  gotFin : Bool := false
  gotFinReached : Bool := false
  readShutdown : Bool := false
  optRcvbuf : ℕ := 0
  lastRcvWin : ℕ := 0
  inbuf : SequenceBuffer InboundPacket := .initialized 4 SequenceBuffer.four_lg_pos SequenceBuffer.four_lg_le

structure SendState where
  seqNr : UInt16 := 1
  curWindowPackets : UInt16 := 0
  finSent : Bool := false
  finSentAcked : Bool := false
  closeRequested : Bool := false
  optSndbuf : ℕ := 0
  maxWindowUser : ℕ := 0
  flushScanStart : UInt16 := 1
  outbuf : SequenceBuffer OutgoingPacket := .initialized 4 SequenceBuffer.four_lg_pos SequenceBuffer.four_lg_le

structure TimingState where
  replyMicro : UInt32 := 0
  lastMeasuredDelay : UInt64 := 0
  lastGotPacket : UInt64 := 0
  lastSentPacket : UInt64 := 0
  fastTimeout : Bool := false
  timeoutSeqNr : UInt16 := 0
  fastResendSeqNr : UInt16 := 1
  deriving DecidableEq, Repr

structure UtpSocket where
  conn : ConnectionId := {}
  recv : ReceiveState := {}
  send : SendState := {}
  timing : TimingState := {}
  ida : ℤ := -1
  duplicateAck : UInt8 := 0
  mtu : MtuDiscovery := {}
  cc : LedbatController := {}

namespace UtpSocket

/-- The constructor, given the host's defaults. -/
def new (targetDelay rcvbuf sndbuf : ℕ) : UtpSocket where
  conn := { targetDelay := targetDelay }
  recv := { optRcvbuf := rcvbuf }
  send := { optSndbuf := sndbuf, maxWindowUser := 255 * PACKET_SIZE }
  cc := { ssthresh := sndbuf }

def tick (s : UtpSocket) : ℕ := s.conn.host.tick

def currentMs (s : UtpSocket) : UInt64 := s.conn.host.currentMs

def out (s : UtpSocket) : List Effect := s.conn.host.out

/-- A query callback was asked. -/
def asked (s : UtpSocket) : UtpSocket := { s with conn.host.tick := s.tick + 1 }

def emit (e : Effect) (s : UtpSocket) : UtpSocket := { s with conn.host.out := s.out ++ [e] }

/-- A failed assertion is recorded and, as with `NDEBUG`, execution goes on. -/
def assert (c : Prop) [Decidable c] (a : Assertion) (s : UtpSocket) : UtpSocket :=
  if c then s else s.emit (.assertFailed a)

def setRecv (r : ReceiveState) (s : UtpSocket) : UtpSocket := { s with recv := r }

def setSend (x : SendState) (s : UtpSocket) : UtpSocket := { s with send := x }

def setTiming (t : TimingState) (s : UtpSocket) : UtpSocket := { s with timing := t }

def setDuplicateAck (n : UInt8) (s : UtpSocket) : UtpSocket := { s with duplicateAck := n }

def setMtu (m : MtuDiscovery) (s : UtpSocket) : UtpSocket := { s with mtu := m }

def setCc (c : LedbatController) (s : UtpSocket) : UtpSocket := { s with cc := c }

variable (env : Env)

/-- `host->refresh_clock`. -/
def refreshClock (s : UtpSocket) : UtpSocket :=
  { s.asked with conn.host.currentMs := env.milliseconds s.tick }

/-- The value of `get_rcv_window`. -/
def getRcvWindow (s : UtpSocket) : ℕ := s.recv.optRcvbuf - env.readBufferSize s.tick

/-- The socket after `get_rcv_window`. -/
def askRcvWindow (s : UtpSocket) : UtpSocket :=
  s.asked.assert (0 ≤ int32 (env.readBufferSize s.tick)) .rcvWindow

/-- `recv_.last_rcv_win = get_rcv_window()`. -/
def updateRcvWin (s : UtpSocket) : UtpSocket :=
  (s.askRcvWindow env).setRecv { s.recv with lastRcvWin := s.getRcvWindow env }

def getPacketSize (s : UtpSocket) : ℕ := s.mtu.effectiveMtu PacketFormatV1.size

def setState (st : ConnState) (s : UtpSocket) : UtpSocket := { s with conn.state := st }

/-- `seq_nr - cur_window_packets` as the `int` the source indexes `outbuf` with. -/
def headIdx (s : UtpSocket) : ℤ := s.send.seqNr.toNat - s.send.curWindowPackets.toNat

/-- The same as a sequence number. -/
def windowStart (s : UtpSocket) : UInt16 := s.send.seqNr - s.send.curWindowPackets

/-- `cur_window_packets == 0 || outbuf.get(seq_nr - cur_window_packets)`. -/
def headPresent (s : UtpSocket) : Prop :=
  s.send.curWindowPackets = 0 ∨ (s.send.outbuf.get s.headIdx).isSome

instance (s : UtpSocket) : Decidable s.headPresent := inferInstanceAs (Decidable (_ ∨ _))

end UtpSocket

end Utp
