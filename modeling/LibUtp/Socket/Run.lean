import LibUtp.Socket.Api
import LibUtp.Lib.Trace

/-! Runs of one socket: any sequence of calls by the application, its context and
the timer, with any datagrams, each call finding any clock and any answers. -/

namespace Utp

namespace UtpSocket

open Lts

/-- The operations on a socket. -/
inductive Op where
  | connect (addr : Address) (seed : UInt32)
  | accept (addr : Address) (syn : Bytes)
  | setOption (opt : SocketOption) (val : ℤ)
  | writev (iov : List Bytes)
  | readDrained
  | close
  | shutdown (how : ShutdownHow)
  | sendAck
  | processIncoming (b : Bytes)
  | onReset
  | onIcmpError
  | onIcmpFragmentation (nextHopMtu : UInt16)
  | checkTimeouts

/-- Only a fresh socket is made into an accepted one. -/
def Op.Enabled (s : UtpSocket) : Op → Prop
  | .accept _ _ => s.conn.state = .uninitialized
  | _ => True

def Op.run (env : Env) (s : UtpSocket) : Op → UtpSocket
  | .connect addr seed =>
    if s.conn.state = .uninitialized then s.connectWith env addr seed else s.connectAgain
  | .accept addr syn => s.acceptWith env addr syn
  | .setOption opt val => s.setOption opt val
  | .writev iov => (s.writev env iov).2
  | .readDrained => s.readDrained env
  | .close => s.close env
  | .shutdown how => s.shutdown env how
  | .sendAck => s.sendAck env false
  | .processIncoming b => s.processIncoming env b false
  | .onReset => s.onReset
  | .onIcmpError => s.onIcmpError
  | .onIcmpFragmentation nextHopMtu => s.onIcmpFragmentation nextHopMtu
  | .checkTimeouts => s.checkTimeouts env

/-- The bytes `writev` reports as accepted. -/
def Op.accepted (env : Env) (s : UtpSocket) : Op → Bytes
  | .writev iov => iov.flatten.take (s.writev env iov).1
  | _ => []

/-- The host as a socket finds it when an operation starts. -/
def lend (ms : UInt64) (tick : ℕ) (s : UtpSocket) : UtpSocket :=
  { s with conn.host := { currentMs := ms, tick := tick, out := [] } }

/-- A completed operation, with its effects and the bytes it accepted. -/
structure Call where
  op : Op
  effects : List Effect
  accepted : Bytes

/-- A call. -/
inductive Step : UtpSocket → List Call → UtpSocket → Prop
  | call {s : UtpSocket} (env : Env) (ms : UInt64) (tick : ℕ) (op : Op) (h : op.Enabled s) :
      Step s [⟨op, (op.run env (s.lend ms tick)).out, op.accepted env (s.lend ms tick)⟩]
        (op.run env (s.lend ms tick))

/-- A run from a new socket. -/
def Run (targetDelay rcvbuf sndbuf : ℕ) (calls : List Call) (s : UtpSocket) : Prop :=
  Trace Step (.new targetDelay rcvbuf sndbuf) calls s

/-- The calls one after the other, with one host. -/
def perform (env : Env) (s : UtpSocket) (ops : List Op) : UtpSocket :=
  ops.foldl (fun s op => op.run env (s.lend 0 0)) s

theorem trace_perform (env : Env) (s : UtpSocket) {l : List Op}
    (h : ∀ op ∈ l, ∀ s, op.Enabled s) : ∃ calls, Trace Step s calls (perform env s l) := by
  induction l generalizing s with
  | nil => exact ⟨[], .refl s⟩
  | cons op l ih =>
    obtain ⟨calls, ht⟩ := ih (op.run env (s.lend 0 0)) fun op' h' => h op' (List.mem_cons_of_mem _ h')
    exact ⟨_, .head (.call env 0 0 op (h op List.mem_cons_self s)) ht⟩

/-- A host whose clock stands still and whose read buffer is empty. -/
def stillHost : Env where
  milliseconds _ := 0
  microseconds _ := 0
  random _ := 0
  readBufferSize _ := 0
  udpMtu _ := 1400
  firewall _ := false

/-- A host whose random numbers are all `n`. -/
def drawingHost (n : UInt32) : Env := { stillHost with random := fun _ => n }

/-- A socket that has just dialled. -/
def dialled : UtpSocket :=
  Op.run stillHost ((new CCONTROL_TARGET 4096 4096).lend 0 0) (.connect ⟨0, 0⟩ 7)

theorem run_dialled : ∃ calls, Run CCONTROL_TARGET 4096 4096 calls dialled :=
  ⟨_, .single (.call stillHost 0 0 (.connect ⟨0, 0⟩ 7) trivial)⟩

theorem run_performed {l : List Op} (h : ∀ op ∈ l, ∀ s, op.Enabled s) :
    ∃ calls, Run CCONTROL_TARGET 4096 4096 calls (perform stillHost dialled l) := by
  obtain ⟨calls, hd⟩ := run_dialled
  obtain ⟨calls', hp⟩ := trace_perform stillHost dialled h
  exact ⟨_, hd.trans hp⟩

/-- A STATE packet of the peer. -/
def statePacket (seqNr ackNr : UInt16) : Bytes :=
  { freshHdr ST_STATE with seqNr := seqNr, ackNr := ackNr, windowsize := 65536 : PacketFormatV1 }.toBytes

/-- The same with an EACK bitmap. -/
def eackPacket (seqNr ackNr : UInt16) (mask : Bytes) : Bytes :=
  { freshHdr ST_STATE with
    seqNr := seqNr, ackNr := ackNr, windowsize := 65536, ext := 1 : PacketFormatV1 }.toBytes ++
    ([0, UInt8.ofNat mask.length] ++ mask)

/-- A datagram of data. -/
def dataPacket (seqNr : UInt16) (payload : Bytes) : Bytes :=
  { freshHdr ST_DATA with seqNr := seqNr : PacketFormatV1 }.toBytes ++ payload

def finPacket (seqNr : UInt16) : Bytes := { freshHdr ST_FIN with seqNr := seqNr : PacketFormatV1 }.toBytes

/-- The datagrams among effects. -/
def datagrams (l : List Effect) : List Bytes :=
  l.filterMap fun
    | .sendTo b _ => some b
    | _ => none

theorem datagrams_append (l l' : List Effect) :
    datagrams (l ++ l') = datagrams l ++ datagrams l' := List.filterMap_append

/-- The datagrams of a run as the packets they parse to. -/
def Receives (calls : List Call) (pp : ParsedPacket) : Prop :=
  ∃ c ∈ calls, ∃ b bits, c.op = .processIncoming b ∧ (parseBytes b bits).1 = some pp

end UtpSocket

end Utp
