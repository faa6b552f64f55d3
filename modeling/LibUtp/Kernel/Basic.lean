import LibUtp.Socket.Api

/-! The kernel of a socket: the fields the transfer of data rests on. Everything
else a socket holds only decides when it sends. `Micro` lists the steps by which
the kernel changes; every operation is a sequence of them. -/

namespace Utp

structure Kernel where
  state : ConnState
  idRecv : UInt32
  idSend : UInt32
  seqNr : UInt16
  cur : UInt16
  finSent : Bool
  finSentAcked : Bool
  closeRequested : Bool
  cursor : UInt16
  outbuf : SequenceBuffer OutgoingPacket
  inFlight : ℕ
  ackNr : UInt16
  reorderCount : UInt16
  eofPkt : UInt16
  gotFin : Bool
  gotFinReached : Bool
  readShutdown : Bool
  inbuf : SequenceBuffer InboundPacket

def UtpSocket.kernel (s : UtpSocket) : Kernel where
  state := s.conn.state
  idRecv := s.conn.connIdRecv
  idSend := s.conn.connIdSend
  seqNr := s.send.seqNr
  cur := s.send.curWindowPackets
  finSent := s.send.finSent
  finSentAcked := s.send.finSentAcked
  closeRequested := s.send.closeRequested
  cursor := s.send.flushScanStart
  outbuf := s.send.outbuf
  inFlight := s.cc.curWindow
  ackNr := s.recv.ackNr
  reorderCount := s.recv.reorderCount
  eofPkt := s.recv.eofPkt
  gotFin := s.recv.gotFin
  gotFinReached := s.recv.gotFinReached
  readShutdown := s.recv.readShutdown
  inbuf := s.recv.inbuf

namespace Kernel

/-- The first sequence number of the send window. -/
def head (k : Kernel) : UInt16 := k.seqNr - k.cur

def headSlot (k : Kernel) : Option OutgoingPacket := k.outbuf.slot k.head

def gapSlot (k : Kernel) : Option InboundPacket := k.inbuf.slot (k.ackNr + 1)

def outstanding (k : Kernel) : ℕ :=
  ∑ i ∈ Finset.range k.cur.toNat,
    UtpSocket.flightOf (k.outbuf.slot (k.seqNr - 1 - UInt16.ofNat i))

def ackCount (k : Kernel) (pp : ParsedPacket) : ℕ :=
  let acks := (pp.ackNr - (k.seqNr - 1 - k.cur)).toNat
  if k.cur.toNat < acks then 0 else acks

def seqDistance (k : Kernel) (pp : ParsedPacket) : UInt16 := pp.seqNr - k.ackNr - 1

/-- `v` is in the send window and not its head. -/
def InEackWindow (k : Kernel) (v : UInt16) : Prop := k.seqNr - v - 1 < k.cur - 1

def flushBegin (k : Kernel) : UInt16 :=
  if k.cursor - k.head > k.cur then k.head else k.cursor

/-- The socket can close, and take data. -/
def IsOpen (k : Kernel) : Prop := k.state = .connected ∨ k.state = .connectedFull

/-- The in-order bytes have just reached the FIN. -/
def atEof (k : Kernel) : Prop := k.gotFinReached = false ∧ k.gotFin ∧ k.eofPkt = k.ackNr

/-- The condition of each assertion that the invariants are about. -/
def Asserted (k : Kernel) : Assertion → Prop
  | .incomingHead | .timeoutHead | .timeoutResend | .advanceHead =>
    k.cur = 0 ∨ k.headSlot.isSome
  | .invariantInFlight => k.outstanding = k.inFlight
  | .advanceInFlight | .idleInFlight => k.cur = 0 → k.inFlight = 0
  | .eackGap => k.reorderCount ≠ 0 → k.gotFinReached = false → k.gapSlot = none
  | _ => True

/-- The state in which a connection that timed out ends. -/
def gaveUp (k : Kernel) : ConnState :=
  if k.state = .synRecv ∨ k.closeRequested then .destroy else .reset

/-- The condition `check_invariant` puts on the reorder buffer. -/
def GapFree (k : Kernel) : Prop := 0 < k.reorderCount → k.gapSlot = none

end Kernel

/-- The assertions the invariants are about. -/
def Assertion.watched : Assertion → Bool
  | .incomingHead | .timeoutHead | .timeoutResend | .advanceHead | .invariantInFlight
  | .advanceInFlight | .idleInFlight | .removeInFlight | .eackHead
  | .eackGap | .invariantGap | .storeFree | .storeGap | .drainCount => true
  | _ => false

/-- Effects that carry no data and report no error and no failure of a watched assertion. -/
def Effect.quiet : Effect → Bool
  | .sendTo _ _ | .onRead _ | .onStateChange .eof | .onError _ => false
  | .assertFailed a => !a.watched
  | _ => true

/-- What a step does for the outside. `take` is silent: the bytes enter the window. -/
inductive Act where
  | silent (l : List Effect)
  | take (b : Bytes)
  | send (b : Bytes) (flags : UInt32)
  | read (b : Bytes)
  | eof
  | error (code : ErrorCode)
  | fail (a : Assertion)

namespace Act

def effects : Act → List Effect
  | silent l => l
  | take _ => []
  | send b flags => [.sendTo b flags]
  | read b => [.onRead b]
  | eof => [.onStateChange .eof]
  | error code => [.onError code]
  | fail a => [.assertFailed a]

def taken : Act → Bytes
  | take b => b
  | _ => []

end Act

/-- What a step works on: nothing, a call of the application that writes or closes, a
call of the host (set-up, timer, acknowledgements), the packet `pp` (its cumulative
acknowledgement, its EACK bitmap, or the rest), or a report that the connection broke. -/
inductive Input where
  | nothing
  | api
  | host
  | ack (pp : ParsedPacket)
  | eack (pp : ParsedPacket)
  | packet (pp : ParsedPacket)
  | broken

namespace Kernel

/-- `remove_in_flight` for a packet that leaves the window or is marked. -/
def removal (k : Kernel) (p : OutgoingPacket) : List Act :=
  if p.needResend ∨ p.payload ≤ k.inFlight then [] else [.fail .removeInFlight]

def freed (k : Kernel) (p : OutgoingPacket) : ℕ :=
  if p.needResend then k.inFlight else k.inFlight - p.payload

/-- The slot of `q` is emptied by an acknowledgement. -/
def clear (k : Kernel) (q : UInt16) (p : OutgoingPacket) : Kernel :=
  { k with outbuf := k.outbuf.setSlot q none, inFlight := k.freed p }

def pop (k : Kernel) : Kernel := { k with cur := k.cur - 1 }

/-- The advance of the window stops: it is empty, or its head is a packet that
is not acknowledged or was never sent. `n` acknowledgements are left. -/
def Stops (n : ℕ) (k : Kernel) : Prop :=
  k.cur = 0 ∨ ∃ p, k.headSlot = some p ∧ (0 < n → p.transmissions = 0)

/-- Packets leave at the head of the window: acknowledged ones while
acknowledgements are left, and empty slots. -/
inductive Pops : ℕ → Kernel → List Act → Kernel → Prop
  | done {n k} (h : Stops n k) : Pops n k [] k
  | acked {n k p acts k'} (hcur : 0 < k.cur) (hp : k.headSlot = some p) (ht : 0 < p.transmissions)
      (h : Pops n (k.clear k.head p).pop acts k') : Pops (n + 1) k (k.removal p ++ acts) k'
  | empty {n k acts k'} (hcur : 0 < k.cur) (hp : k.headSlot = none)
      (h : Pops (n - 1) k.pop acts k') : Pops n k acts k'
  | check {n k acts k'} (h : ¬ k.Asserted .advanceInFlight) (hr : Pops n k acts k') :
      Pops n k (.fail .advanceInFlight :: acts) k'

/-- The state changes of an acceptable packet. -/
def ackState (k : Kernel) (pp : ParsedPacket) : Kernel :=
  let acks := k.ackCount pp
  let k := if pp.type = ST_DATA ∧ k.state = .synRecv then { k with state := .connected } else k
  if pp.type = ST_STATE ∧ k.state = .synSent then { k with state := .connected }
  else if k.finSent ∧ k.cur.toNat = acks then
    { k with
      finSentAcked := true
      state := if k.closeRequested then .destroy else k.state }
  else k

/-- The next in-order packet leaves the reorder buffer. -/
def release (k : Kernel) : Kernel :=
  { k with
    inbuf := k.inbuf.setSlot (k.ackNr + 1) none
    ackNr := k.ackNr + 1
    reorderCount := k.reorderCount - 1 }

def readAct (k : Kernel) (b : Bytes) : List Act :=
  if 0 < b.length ∧ k.readShutdown = false then [.read b] else []

/-- The reorder buffer drains until the FIN, or until nothing more is in order. -/
inductive Drains : Kernel → List Act → Kernel → Prop
  | eof {k} (h : k.atEof) : Drains k [.eof] { k with gotFinReached := true }
  | idle {k} (h : ¬ k.atEof) (hr : k.reorderCount = 0 ∨ k.gapSlot = none) : Drains k [] k
  | release {k p acts k'} (h : ¬ k.atEof) (hr : k.reorderCount ≠ 0) (hp : k.gapSlot = some p)
      (hd : Drains k.release acts k') : Drains k (k.readAct p.data ++ acts) k'

/-- A packet is queued under `seq_nr`. -/
def queue (k : Kernel) (p : OutgoingPacket) : Kernel :=
  { k with
    outbuf := (k.outbuf.ensureSize k.seqNr.toNat k.cur).setSlot k.seqNr (some p)
    seqNr := k.seqNr + 1
    cur := k.cur + 1 }

/-- A packet as `write_outgoing_packet` queues it. -/
structure Fresh (k : Kernel) (flags : UInt8) (p : OutgoingPacket) : Prop where
  type : p.hdr.type = flags
  version : p.hdr.version = 1
  ext : p.hdr.ext = 0
  connid : p.hdr.connid = k.idSend.toUInt16
  seqNr : p.hdr.seqNr = k.seqNr
  transmissions : p.transmissions = 0
  needResend : p.needResend = false

/-- `p'` is `p` as it is sent. -/
structure Sent (k : Kernel) (p p' : OutgoingPacket) : Prop where
  type : p'.hdr.type = p.hdr.type
  version : p'.hdr.version = p.hdr.version
  ext : p'.hdr.ext = p.hdr.ext
  connid : p'.hdr.connid = p.hdr.connid
  seqNr : p'.hdr.seqNr = p.hdr.seqNr
  ackNr : p'.hdr.ackNr = k.ackNr
  body : p'.body = p.body
  transmissions : p'.transmissions = p.transmissions + 1
  needResend : p'.needResend = false

/-- The packet `p` in the slot of `q` is sent as `p'`. -/
def transmit (k : Kernel) (q : UInt16) (p p' : OutgoingPacket) : Kernel :=
  { k with
    outbuf := k.outbuf.setSlot q (some p')
    inFlight := if p.transmissions = 0 ∨ p.needResend then k.inFlight + p.payload else k.inFlight }

/-- `p'` is the tail packet `p` with `b` appended. -/
structure Extended (k : Kernel) (p : OutgoingPacket) (b : Bytes) (p' : OutgoingPacket) : Prop where
  type : p'.hdr.type = ST_DATA
  version : p'.hdr.version = 1
  ext : p'.hdr.ext = 0
  connid : p'.hdr.connid = k.idSend.toUInt16
  seqNr : p'.hdr.seqNr = p.hdr.seqNr
  body : p'.body = p.body ++ b
  transmissions : p'.transmissions = p.transmissions
  needResend : p'.needResend = p.needResend

/-- A STATE packet; a keep-alive acknowledges one number too few. -/
def behind (k : Kernel) : Kernel := { k with ackNr := k.ackNr - 1 }

structure StateHdr (k : Kernel) (hdr : PacketFormatV1) : Prop where
  type : hdr.type = ST_STATE
  version : hdr.version = 1
  connid : hdr.connid = k.idSend.toUInt16
  ackNr : hdr.ackNr = k.ackNr
  seqNr : hdr.seqNr = k.seqNr

/-- The bit `i` of an EACK mask is the slot of `ack_nr + i + 2`. -/
def eackMask (k : Kernel) : ℕ :=
  (List.range (min (14 + 16) k.inbuf.size)).foldl
    (fun m (i : ℕ) => if (k.inbuf.slot (k.ackNr + UInt16.ofNat i + 2)).isSome then m ||| (1 <<< i) else m) 0

/-- The bytes of a STATE packet with or without the EACK extension. -/
inductive StateBytes (k : Kernel) : Bytes → Prop
  | plain {hdr} (h : k.StateHdr hdr) (hext : hdr.ext = 0)
      (hr : k.reorderCount = 0 ∨ k.gotFinReached) : StateBytes k hdr.toBytes
  | eack {hdr} (h : k.StateHdr hdr) (hext : hdr.ext = 1) (hr : k.reorderCount ≠ 0)
      (hf : k.gotFinReached = false) :
      StateBytes k (hdr.toBytes ++ ([0, 4] ++ UtpSocket.eackBytes k.eackMask))

/-- What `connect` makes of the fields before the SYN is queued. -/
def dial (k : Kernel) (seed : UInt32) (seq : UInt16) : Kernel :=
  { k with state := .synSent, idRecv := seed, idSend := seed + 1, seqNr := seq }

/-- The SYN as `connect` queues it. -/
structure Syn (k : Kernel) (p : OutgoingPacket) : Prop where
  type : p.hdr.type = ST_SYN
  version : p.hdr.version = 1
  ext : p.hdr.ext = 0
  connid : p.hdr.connid = k.idRecv.toUInt16
  seqNr : p.hdr.seqNr = k.seqNr
  body : p.body = []
  transmissions : p.transmissions = 0
  needResend : p.needResend = false

/-- The steps of a socket. -/
inductive Micro : Input → Kernel → List Act → Kernel → Prop
  | silent {x k l} (h : ∀ e ∈ l, Effect.quiet e) : Micro x k [.silent l] k
  | fail {x k a} (h : ¬ k.Asserted a) : Micro x k [.fail a] k
  | failBehind {x k} (h : ¬ k.behind.Asserted .eackGap) : Micro x k [.fail .eackGap] k
  | failGap {k} (h : ¬ k.GapFree) : Micro .host k [.fail .invariantGap] k
  -- state changes
  | writable {x k} (h : k.state = .connectedFull) : Micro x k [] { k with state := .connected }
  | full {k} (h : k.state = .connected) : Micro .api k [] { k with state := .connectedFull }
  | destroy {x k} (hx : x = .api ∨ x = .host) : Micro x k [] { k with state := .destroy }
  | timeout {k} (h : UtpSocket.timeoutActive k.state) :
      Micro .host k [.error .timedOut] { k with state := k.gaveUp }
  | broken {k code} (h : code = .connReset ∨ code = .connRefused ∧ k.state = .synSent) :
      Micro .broken k [.error code] { k with
        state := if k.closeRequested then .destroy else .reset }
  | readShutdown {k} : Micro .api k [] { k with readShutdown := true }
  | closeAgain {k} (h : k.finSent) (ho : k.IsOpen) :
      Micro .api k [] { k with
        closeRequested := true
        state := if k.finSentAcked then .destroy else k.state }
  -- the send window
  | accept {k id seq peer} (h : k.state = .uninitialized) :
      Micro .host k [] { k with
        state := .synRecv, idRecv := id + 1, idSend := id, seqNr := seq, ackNr := peer }
  | connect {k seed seq p p' flags} (h : k.state = .uninitialized)
      (hp : (k.dial seed seq).Syn p) (hp' : ((k.dial seed seq).queue p).Sent p p') :
      Micro .host k [.send (p'.hdr.toBytes ++ p'.body) flags]
        (((k.dial seed seq).queue p).transmit seq p p')
  | transmit {x k q p p' flags} (hp : k.outbuf.slot q = some p) (hp' : k.Sent p p') :
      Micro x k [.send (p'.hdr.toBytes ++ p'.body) flags] (k.transmit q p p')
  | queue {k p} (hs : k.state = .connected) (hf : k.finSent = false) (hc : k.cur < 1023)
      (hp : k.Fresh ST_DATA p) : Micro .api k [.take p.body] (k.queue p)
  | extend {k p b p'} (hs : k.state = .connected) (hf : k.finSent = false) (hc : 0 < k.cur)
      (hp : k.outbuf.slot (k.seqNr - 1) = some p) (ht : p.transmissions = 0)
      (hp' : k.Extended p b p') :
      Micro .api k [.take b] { k with outbuf := k.outbuf.setSlot (k.seqNr - 1) (some p') }
  | queueFin {k p closing} (ho : k.IsOpen) (hf : k.finSent = false)
      (hp : k.Fresh ST_FIN p) (hb : p.body = []) :
      Micro .api k [] { k.queue p with finSent := true, closeRequested := k.closeRequested || closing }
  | rewind {k} : Micro .host k [] { k with cursor := k.head }
  | mark {k q p} (hc : k.cursor = k.head) (hp : k.outbuf.slot q = some p)
      (ht : 0 < p.transmissions) (hn : p.needResend = false) :
      Micro .host k (k.removal p) { k with
        outbuf := k.outbuf.setSlot q (some { p with needResend := true })
        inFlight := k.inFlight - p.payload }
  | scan {x k q} (hb : k.flushBegin = q) (hq : q ≠ k.seqNr)
      (hs : UtpSocket.settled (k.outbuf.slot q)) : Micro x k [] { k with cursor := q + 1 }
  | advance {pp k acts k'} (hs : k.state = .synSent → k.ackNr = pp.seqNr - 1)
      (h : Pops (k.ackCount pp) (k.ackState pp) acts k') : Micro (.ack pp) k acts k'
  | failEack {x k v} (hc : 0 < k.cur) (hw : k.InEackWindow v) (h : k.outbuf.Same v k.head) :
      Micro x k [.fail .eackHead] k
  | sack {pp k mask bits v p} (hm : pp.selack = some mask) (hb : UtpSocket.maskBit mask bits)
      (hc : 0 < k.cur)
      (hv : v = UInt16.ofInt (pp.ackNr.toNat + 2 + bits)) (hw : k.InEackWindow v)
      (hp : k.outbuf.slot v = some p) (ht : 0 < p.transmissions) :
      Micro (.eack pp) k (k.removal p) (k.clear v p)
  -- receiving
  | state {x k b} (h : k.StateBytes b) : Micro x k [.send b 0] k
  | keepAlive {k b} (h : k.behind.StateBytes b) : Micro .host k [.send b 0] k
  | synSentAck {pp k} (h : k.state = .synSent) :
      Micro (.packet pp) k [] { k with ackNr := pp.seqNr - 1 }
  | noteFin {pp k} (ho : k.IsOpen) (ht : pp.type = ST_FIN) (hf : k.gotFin = false)
      (hd : (k.seqDistance pp).toNat < 1024) :
      Micro (.packet pp) k [] { k with gotFin := true, eofPkt := pp.seqNr }
  | deliver {pp k acts k'} (ho : k.IsOpen) (hd : k.seqDistance pp = 0) (ht : pp.type ≠ ST_STATE)
      (hf : pp.type = ST_FIN → k.gotFin)
      (h : Drains { k with ackNr := k.ackNr + 1 } acts k') :
      Micro (.packet pp) k (k.readAct pp.payload ++ acts) k'
  | clearReorder {pp k} (h : k.gotFinReached) :
      Micro (.packet pp) k [] { k with reorderCount := 0 }
  | growInbuf {pp k} (hd : (k.seqDistance pp).toNat < 1024) :
      Micro (.packet pp) k [] { k with
        inbuf := k.inbuf.ensureSize (pp.seqNr + 1).toNat (k.seqDistance pp + 1) }
  | failStore {pp k} (hd : k.seqDistance pp ≠ 0) (hz : (k.seqDistance pp).toNat + 1 < k.inbuf.size)
      (h : k.inbuf.Same pp.seqNr (k.ackNr + 1)) : Micro (.packet pp) k [.fail .storeGap] k
  | store {pp k} (ho : k.IsOpen) (hd : k.seqDistance pp ≠ 0)
      (hd' : (k.seqDistance pp).toNat < 1024)
      (ht : pp.type ≠ ST_STATE) (hf : pp.type = ST_FIN → k.gotFin)
      (he : k.gotFin → k.seqDistance pp ≤ k.eofPkt - k.ackNr - 1)
      (hz : (k.seqDistance pp).toNat + 1 < k.inbuf.size) (hn : k.inbuf.slot pp.seqNr = none) :
      Micro (.packet pp) k [] { k with
        inbuf := k.inbuf.setSlot pp.seqNr (some ⟨pp.payload⟩)
        reorderCount := k.reorderCount + 1 }

theorem Sent.congr {k k' : Kernel} {p p' : OutgoingPacket} (h : k.Sent p p')
    (he : k'.ackNr = k.ackNr) : k'.Sent p p' := by
  obtain ⟨h1, h2, h3, h4, h5, h6, h7, h8, h9⟩ := h
  exact ⟨h1, h2, h3, h4, h5, by rw [h6, he], h7, h8, h9⟩

/-- Only the fields of the send window have changed. -/
def Frame (k k' : Kernel) : Prop :=
  ∃ seqNr cur cursor outbuf inFlight, k' = { k with
    seqNr := seqNr
    cur := cur
    cursor := cursor
    outbuf := outbuf
    inFlight := inFlight }

theorem gaveUp_ne (k : Kernel) {st : ConnState} (hd : .destroy ≠ st) (hr : .reset ≠ st) :
    k.gaveUp ≠ st := by
  unfold gaveUp
  split
  · exact hd
  · exact hr

namespace Frame

variable {k k' k'' : Kernel}

theorem refl (k : Kernel) : k.Frame k := ⟨_, _, _, _, _, rfl⟩

theorem trans (h : k.Frame k') (h' : k'.Frame k'') : k.Frame k'' := by
  obtain ⟨q, w, c, o, f, rfl⟩ := h
  obtain ⟨q', w', c', o', f', rfl⟩ := h'
  exact ⟨_, _, _, _, _, rfl⟩

theorem state (h : k.Frame k') : k'.state = k.state := by
  obtain ⟨q, w, c, o, f, rfl⟩ := h
  rfl

theorem finSent (h : k.Frame k') : k'.finSent = k.finSent := by
  obtain ⟨q, w, c, o, f, rfl⟩ := h
  rfl

end Frame

/-- Where the scan of the next slot starts once the cursor has moved. -/
theorem flushBegin_moved {k : Kernel} {i : UInt16} (hb : k.flushBegin = i)
    (hi : i ≠ k.seqNr) : flushBegin { k with cursor := i + 1 } = i + 1 := by
  have hle : i - k.head ≤ k.cur := by
    unfold flushBegin at hb
    split at hb
    · rw [← hb]
      grind
    · rename_i h
      rw [← hb]
      exact UInt16.not_lt.1 h
  unfold flushBegin head at *
  dsimp only
  rw [if_neg]
  grind

end Kernel

end Utp
