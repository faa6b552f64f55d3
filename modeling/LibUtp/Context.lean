import LibUtp.Socket.Run

/-! `UtpContext`: the registry of sockets under (peer address, receive id), the
list of delayed acknowledgements, the routing of datagrams and the timer sweep. -/

namespace Utp

structure UtpSocketKey where
  addr : Address
  recvId : UInt32
  deriving DecidableEq, Repr

structure RstInfo where
  addr : Address
  connid : UInt32
  ackNr : UInt16
  timestamp : UInt64
  deriving DecidableEq, Repr

/-- A socket is named by a handle, its address in the source. -/
abbrev Handle := ℕ

/-- What the application and the network see of a context. -/
inductive Event where
  | socket (h : Handle) (peer : Address) (e : Effect)
  | sendRst (b : Bytes) (peer : Address)
  | onAccept (h : Handle)
  deriving DecidableEq, Repr

structure UtpContext where
  currentMs : UInt64 := 0
  tick : ℕ := 0
  lastUtpSocket : Option Handle := none
  ackSockets : List Handle := []
  rstInfo : List RstInfo := []
  sockets : List (UtpSocketKey × Handle) := []
  heap : Handle → Option UtpSocket := fun _ => none
  nextHandle : Handle := 0
  targetDelay : ℕ := CCONTROL_TARGET
  optSndbuf : ℕ := 1024 * 1024
  optRcvbuf : ℕ := 1024 * 1024
  lastCheck : UInt64 := 0
  log : List Event := []

namespace UtpSocket

def key (s : UtpSocket) : UtpSocketKey := ⟨s.conn.addr, s.conn.connIdRecv⟩

end UtpSocket

namespace UtpContext

variable (env : Env)

def setSocket (h : Handle) (s : UtpSocket) (c : UtpContext) : UtpContext :=
  { c with heap := Function.update c.heap h (some s) }

def setIda (h : Handle) (i : ℤ) (c : UtpContext) : UtpContext :=
  match c.heap h with
  | some s => c.setSocket h { s with ida := i }
  | none => c

def ida (c : UtpContext) (h : Handle) : ℤ := ((c.heap h).map UtpSocket.ida).getD (-1)

def scheduleAck (h : Handle) (c : UtpContext) : UtpContext :=
  if c.ida h = -1 then
    ({ c with ackSockets := c.ackSockets ++ [h] }).setIda h c.ackSockets.length
  else c

/-- The last element moves into the place of the one that leaves. -/
def removeAck (h : Handle) (c : UtpContext) : UtpContext :=
  let idx := c.ida h
  if idx < 0 then c
  else
    match c.ackSockets.getLast? with
    | none => c
    | some last =>
      let c := c.setIda last idx
      let c := { c with ackSockets := (c.ackSockets.set idx.toNat last).dropLast }
      c.setIda h (-1)

/-- The part of an effect that changes the context. -/
def react (h : Handle) (c : UtpContext) : Effect → UtpContext
  | .scheduleAck => c.scheduleAck h
  | .removeAck => c.removeAck h
  | _ => c

/-- Socket `h` runs `f` with this context as its host. -/
def call (h : Handle) (f : UtpSocket → UtpSocket) (c : UtpContext) : UtpContext :=
  match c.heap h with
  | none => c
  | some s =>
    let s := f (s.lend c.currentMs c.tick)
    let c := { c.setSocket h s with
      currentMs := s.currentMs
      tick := s.tick
      log := c.log ++ s.out.map (.socket h s.conn.addr) }
    s.out.foldl (react h) c

def createSocket (c : UtpContext) : Handle × UtpContext :=
  (c.nextHandle, { c.setSocket c.nextHandle (.new c.targetDelay c.optRcvbuf c.optSndbuf) with
    nextHandle := c.nextHandle + 1 })

def find (key : UtpSocketKey) (c : UtpContext) : Option Handle :=
  (c.sockets.find? fun e => e.1 = key).map Prod.snd

def hasSocket (addr : Address) (recvId : UInt32) (c : UtpContext) : Bool :=
  (c.find ⟨addr, recvId⟩).isSome

/-- `sockets_[key] = s`. -/
def registerSocket (h : Handle) (c : UtpContext) : UtpContext :=
  match c.heap h with
  | none => c
  | some s => { c with sockets := (s.key, h) :: c.sockets.filter fun e => e.1 ≠ s.key }

/-- The draws of `initialize`: random seeds until one is free, at most `fuel` of
them, and the query count after them. -/
def drawSeed (taken : UInt32 → Bool) : ℕ → ℕ → Option (UInt32 × ℕ)
  | 0, _ => none
  | fuel + 1, tick =>
    let seed := env.random tick &&& 0xffff
    if taken seed then drawSeed taken fuel (tick + 1) else some (seed, tick + 1)

/-- `utp_connect`; `none` when no free seed was drawn within `fuel` draws. -/
def connect (fuel : ℕ) (h : Handle) (addr : Address) (c : UtpContext) : Option UtpContext :=
  match c.heap h with
  | none => some c
  | some s =>
    if s.conn.state ≠ .uninitialized then some (c.call h UtpSocket.connectAgain)
    else
      (drawSeed env (fun seed => c.hasSocket addr seed) fuel c.tick).map fun r =>
        (({ c with tick := r.2 }).call h (UtpSocket.connectWith env addr r.1)).registerSocket h

/-- The id as it is, or one beside it that sends with it. -/
def findSocketForId (addr : Address) (id : UInt32) (c : UtpContext) : Option Handle :=
  let sendsWith (h : Handle) : Bool := (c.heap h).any fun s => s.conn.connIdSend = id
  match c.find ⟨addr, id⟩ with
  | some h => some h
  | none =>
    match (c.find ⟨addr, id + 1⟩).filter sendsWith with
    | some h => some h
    | none => (c.find ⟨addr, id - 1⟩).filter sendsWith

/-- The cached socket answers for the key. -/
def lastMatches (addr : Address) (id : UInt32) (c : UtpContext) : Option Handle :=
  c.lastUtpSocket.filter fun h => (c.heap h).any fun s => s.key = ⟨addr, id⟩

/-- The socket a datagram that is neither RST nor SYN belongs to. -/
def route (addr : Address) (id : UInt32) (c : UtpContext) : Option Handle × UtpContext :=
  match c.lastMatches addr id with
  | some h => (some h, c)
  | none =>
    match c.find ⟨addr, id⟩ with
    | some h => (some h, { c with lastUtpSocket := some h })
    | none => (none, c)

def rstHdr (connid : UInt32) (ackNr seqNr : UInt16) : PacketFormatV1 :=
  { UtpSocket.freshHdr ST_RESET with connid := connid.toUInt16, ackNr := ackNr, seqNr := seqNr }

/-- An unknown connection is answered by RST, once for each packet number. -/
def answerUnknown (addr : Address) (id : UInt32) (seqNr : UInt16) (c : UtpContext) : UtpContext :=
  let c := { c with currentMs := env.milliseconds c.tick, tick := c.tick + 1 }
  match c.rstInfo.findIdx? fun r => r.connid = id ∧ r.addr = addr ∧ r.ackNr = seqNr with
  | some i => { c with rstInfo := c.rstInfo.modify i fun r => { r with timestamp := c.currentMs } }
  | none =>
    if RST_INFO_LIMIT < c.rstInfo.length then c
    else
      let rst := rstHdr id seqNr (env.random c.tick).toUInt16
      { c with
        tick := c.tick + 1
        rstInfo := c.rstInfo ++ [⟨addr, id, seqNr, c.currentMs⟩]
        log := c.log ++ [.sendRst rst.toBytes addr] }

/-- A new connection for the SYN `b`. -/
def accept (addr : Address) (b : Bytes) (c : UtpContext) : UtpContext :=
  let r := c.createSocket
  let c := (r.2.call r.1 (UtpSocket.acceptWith env addr b)).registerSocket r.1
  { c with log := c.log ++ [.onAccept r.1] }

def processSyn (addr : Address) (id : UInt32) (b : Bytes) (c : UtpContext) : UtpContext :=
  if c.hasSocket addr (id + 1) then c
  else if 3000 < c.sockets.length then c
  else if env.firewall c.tick then { c with tick := c.tick + 1 }
  else ({ c with tick := c.tick + 1 }).accept env addr b

/-- `UTP_Version`. -/
def version (pf : PacketFormatV1) : UInt8 :=
  if pf.type < ST_NUM_STATES ∧ pf.ext < 3 then pf.version else 0

/-- A datagram or ICMP payload that starts with a version 1 header. -/
def wellFormed (b : Bytes) : Bool :=
  PacketFormatV1.size ≤ b.length && version (PacketFormatV1.ofBytes b) = 1

def processUdp (b : Bytes) (addr : Address) (c : UtpContext) : UtpContext :=
  let pf := PacketFormatV1.ofBytes b
  let id := pf.connid.toUInt32
  if wellFormed b = false then c
  else if pf.type = ST_RESET then
    match c.findSocketForId addr id with
    | some h => c.call h UtpSocket.onReset
    | none => c
  else if pf.type ≠ ST_SYN then
    match c.route addr id with
    | (some h, c) => c.call h (UtpSocket.processIncoming env b false)
    | (none, c) => c.answerUnknown env addr id pf.seqNr
  else c.processSyn env addr id b

/-- `parse_icmp_payload`. -/
def icmpSocket (b : Bytes) (addr : Address) (c : UtpContext) : Option Handle :=
  if wellFormed b then c.findSocketForId addr (PacketFormatV1.ofBytes b).connid.toUInt32 else none

def processIcmpFragmentation (b : Bytes) (addr : Address) (nextHopMtu : UInt16) (c : UtpContext) :
    UtpContext :=
  match c.icmpSocket b addr with
  | some h => c.call h (UtpSocket.onIcmpFragmentation nextHopMtu)
  | none => c

def processIcmpError (b : Bytes) (addr : Address) (c : UtpContext) : UtpContext :=
  match c.icmpSocket b addr with
  | some h => c.call h UtpSocket.onIcmpError
  | none => c

/-- Each round acknowledges the first of the list, which leaves it. -/
def ackRounds : ℕ → UtpContext → UtpContext
  | 0, c => c
  | n + 1, c =>
    match c.ackSockets with
    | [] => c
    | h :: _ => ackRounds n (c.call h (UtpSocket.sendAck env false))

def issueDeferredAcks (c : UtpContext) : UtpContext := c.ackRounds env c.ackSockets.length

/-- The sweep of `rst_info` from index `i`: an expired entry is replaced by the last one. -/
def purgeRst (now : UInt64) : ℕ → ℕ → List RstInfo → List RstInfo
  | 0, _, rs => rs
  | fuel + 1, i, rs =>
    match rs[i]?, rs.getLast? with
    | some r, some last =>
      if RST_INFO_TIMEOUT ≤ (now - r.timestamp).toUInt32 then
        purgeRst now fuel i (rs.set i last).dropLast
      else purgeRst now fuel (i + 1) rs
    | _, _ => rs

/-- `destroy_socket` with the destructor. -/
def destroySocket (h : Handle) (c : UtpContext) : UtpContext :=
  match c.heap h with
  | none => c
  | some s =>
    let c := { c with
      sockets := c.sockets.filter fun e => e.1 ≠ s.key
      log := c.log ++ [Event.socket h s.conn.addr (.onStateChange .destroying)] }
    let c := if c.lastUtpSocket = some h then { c with lastUtpSocket := none } else c
    let c := c.removeAck h
    { c with heap := Function.update c.heap h none }

/-- One socket's turn in the sweep. -/
def checkSocket (c : UtpContext) (h : Handle) : UtpContext :=
  let c := c.call h (UtpSocket.checkTimeouts env)
  match c.heap h with
  | some s => if s.conn.state = .destroy then c.destroySocket h else c
  | none => c

/-- `check_timeouts`, the registered sockets taken in the order `order` of the hash table. -/
def checkTimeouts (order : List Handle) (c : UtpContext) : UtpContext :=
  let c := { c with currentMs := env.milliseconds c.tick, tick := c.tick + 1 }
  if c.currentMs - c.lastCheck < TIMEOUT_CHECK_INTERVAL then c
  else
    let c := { c with
      lastCheck := c.currentMs
      rstInfo := purgeRst c.currentMs c.rstInfo.length 0 c.rstInfo }
    order.foldl (checkSocket env) c

def setOption (opt : UtpSocket.SocketOption) (val : ℤ) (c : UtpContext) : UtpContext :=
  match opt with
  | .sndbuf => { c with optSndbuf := sizeT val }
  | .rcvbuf => { c with optRcvbuf := sizeT val }
  | .targetDelay => { c with targetDelay := sizeT val }

end UtpContext

end Utp
