import LibUtp.Invariant.EndOfStream
import Mathlib.Logic.Relation

/-! Two sockets and the network between them. A datagram that was sent may arrive any number of
times, in any order and late, or never; none is forged or altered. -/

namespace Utp

open Relation

namespace UtpSocket

/-- The side that dials and the side that is dialled. -/
inductive Side where
  | initiator
  | acceptor
  deriving DecidableEq, Repr

def Side.other : Side → Side
  | .initiator => .acceptor
  | .acceptor => .initiator

@[simp] theorem Side.other_other (i : Side) : i.other.other = i := by cases i <;> rfl

theorem Side.other_ne (i : Side) : i.other ≠ i := by cases i <;> simp [other]

theorem Side.eq_or_eq_other (i j : Side) : j = i ∨ j = i.other := by cases i <;> cases j <;> simp [other]

/-- Whether the context's list holds the socket after these effects. -/
def pendingAck (b : Bool) (l : List Effect) : Bool :=
  l.foldl (fun b e => if e = .scheduleAck then true else if e = .removeAck then false else b) b

/-- A socket with what its host sees: how many sequence numbers it has assigned, the bytes `writev`
accepted, those handed to `on_read`, whether a deferred acknowledgement is due, whether
`UTP_STATE_EOF` was posted, and whether that was while reading was not shut down. -/
structure Endpoint where
  socket : UtpSocket
  assigned : ℕ := 0
  accepted : Bytes := []
  delivered : Bytes := []
  ackDue : Bool := false
  posted : Bool := false
  eof : Bool := false

namespace Endpoint

variable (env : Env) (ms : UInt64) (tick : ℕ)

/-- The socket after a call. -/
def after (e : Endpoint) (op : Op) : UtpSocket := op.run env (e.socket.lend ms tick)

/-- The numbers that a call assigned. The one that sets the socket up fills an empty window. -/
def numbers (s t : UtpSocket) : ℕ :=
  if s.conn.state = .uninitialized then t.send.curWindowPackets.toNat else (t.send.seqNr - s.send.seqNr).toNat

def call (e : Endpoint) (op : Op) : Endpoint where
  socket := e.after env ms tick op
  assigned := e.assigned + numbers e.socket (e.after env ms tick op)
  accepted := e.accepted ++ op.accepted env (e.socket.lend ms tick)
  delivered := e.delivered ++ (readsOf (e.after env ms tick op).out).flatten
  ackDue := pendingAck e.ackDue (e.after env ms tick op).out
  posted := e.posted || decide (.onStateChange .eof ∈ (e.after env ms tick op).out)
  eof := e.eof || (decide (.onStateChange .eof ∈ (e.after env ms tick op).out) &&
    !(e.after env ms tick op).recv.readShutdown)

end Endpoint

/-- A datagram in flight, with what each side had assigned when the call that sent it was over. -/
structure Datagram where
  sender : Side
  bytes : Bytes
  stamp : Side → ℕ

def Datagram.type (d : Datagram) : UInt8 := (PacketFormatV1.ofBytes d.bytes).type

structure Network where
  ends : Side → Endpoint
  flight : List Datagram

namespace Network

/-- The sockets with the options of their contexts. -/
def start (targetDelay rcvbuf sndbuf : Side → ℕ) : Network where
  ends i := { socket := .new (targetDelay i) (rcvbuf i) (sndbuf i) }
  flight := []

variable (env : Env) (ms : UInt64) (tick : ℕ)

/-- The endpoints after a call of one side. -/
def endsAfter (n : Network) (i : Side) (op : Op) : Side → Endpoint :=
  Function.update n.ends i ((n.ends i).call env ms tick op)

/-- A call of one side. What it sends joins the datagrams in flight. -/
def call (n : Network) (i : Side) (op : Op) : Network where
  ends := n.endsAfter env ms tick i op
  flight := n.flight ++ (datagrams ((n.ends i).after env ms tick op).out).map fun b =>
    { sender := i, bytes := b, stamp := fun j => (n.endsAfter env ms tick i op j).assigned }

/-- Neither side has assigned `2 ^ 16 - 2048` numbers while the datagram was in flight. -/
def Fresh (n : Network) (d : Datagram) : Prop :=
  ∀ i, (n.ends i).assigned < d.stamp i + (2 ^ 16 - 2048)

end Network

/-- The calls that are up to the application and the host. A socket that is not set up asserts against most
of them, and before it is answered there is nothing to drain. -/
def Op.Local (s : UtpSocket) : Op → Prop
  | .setOption _ _ | .writev _ => True
  | .close | .shutdown _ | .checkTimeouts | .onReset | .onIcmpError | .onIcmpFragmentation _ =>
    s.conn.state ≠ .uninitialized
  | .readDrained => s.conn.state ≠ .uninitialized ∧ s.conn.state ≠ .synSent
  | _ => False

/-- The steps of the two sockets. The socket of the acceptor is made for a SYN of the initiator; any
other packet goes to the socket of the connection. -/
inductive Network.Step : Network → Network → Prop
  | dial {n : Network} (env : Env) (ms : UInt64) (tick : ℕ) (addr : Address) (seed : UInt32)
      (hu : (n.ends .initiator).socket.conn.state = .uninitialized) :
      Step n (n.call env ms tick .initiator (.connect addr seed))
  | accept {n : Network} {d : Datagram} (env : Env) (ms : UInt64) (tick : ℕ) (addr : Address)
      (hd : d ∈ n.flight) (hs : d.sender = .initiator) (hf : n.Fresh d) (ht : d.type = ST_SYN)
      (hu : (n.ends .acceptor).socket.conn.state = .uninitialized) :
      Step n (n.call env ms tick .acceptor (.accept addr d.bytes))
  | deliver {n : Network} {d : Datagram} (env : Env) (ms : UInt64) (tick : ℕ) (i : Side)
      (hd : d ∈ n.flight) (hs : d.sender = i.other) (hf : n.Fresh d) (ht : d.type ≠ ST_SYN)
      (hu : (n.ends i).socket.conn.state ≠ .uninitialized) :
      Step n (n.call env ms tick i (.processIncoming d.bytes))
  | deferredAck {n : Network} (env : Env) (ms : UInt64) (tick : ℕ) (i : Side) (h : (n.ends i).ackDue) :
      Step n (n.call env ms tick i .sendAck)
  | call {n : Network} (env : Env) (ms : UInt64) (tick : ℕ) (i : Side) (op : Op)
      (h : op.Local (n.ends i).socket) : Step n (n.call env ms tick i op)

/-- The networks that the two sockets can reach. -/
def Network.Reachable (targetDelay rcvbuf sndbuf : Side → ℕ) (n : Network) : Prop :=
  ReflTransGen Network.Step (.start targetDelay rcvbuf sndbuf) n

namespace Network

variable {n : Network} {env : Env} {ms : UInt64} {tick : ℕ} {i : Side} {op : Op}

@[simp] theorem ends_call_self : (n.call env ms tick i op).ends i = (n.ends i).call env ms tick op :=
  Function.update_self ..

@[simp] theorem ends_call_other : (n.call env ms tick i op).ends i.other = n.ends i.other :=
  Function.update_of_ne i.other_ne _ _

/-- A datagram in flight after a call was there before, or was sent in it. -/
theorem mem_flight_call {d : Datagram} : d ∈ (n.call env ms tick i op).flight ↔ d ∈ n.flight ∨
    ∃ b ∈ datagrams ((n.ends i).after env ms tick op).out, d = { sender := i, bytes := b, stamp := fun j =>
      ((n.call env ms tick i op).ends j).assigned } := by
  show d ∈ n.flight ++ _ ↔ _
  rw [List.mem_append, List.mem_map]
  constructor
  · rintro (h | ⟨b, hb, rfl⟩)
    · exact .inl h
    · exact .inr ⟨b, hb, rfl⟩
  · rintro (h | ⟨b, hb, rfl⟩)
    · exact .inl h
    · exact .inr ⟨b, hb, rfl⟩

/-! A short exchange. -/

instance {P : Side → Prop} [∀ i, Decidable (P i)] : Decidable (∀ i, P i) :=
  decidable_of_iff (P .initiator ∧ P .acceptor)
    ⟨fun h i => by cases i; exacts [h.1, h.2], fun h => ⟨h _, h _⟩⟩

instance (n : Network) (d : Datagram) : Decidable (n.Fresh d) := inferInstanceAs (Decidable (∀ _, _))

/-- The bytes of a datagram in flight. -/
def bytesAt (n : Network) (k : ℕ) : Bytes := (n.flight[k]?).elim [] Datagram.bytes

/-- A datagram of the peer is in flight that the socket can be given. -/
def Arrives (n : Network) (i : Side) (k : ℕ) : Prop :=
  (n.flight[k]?).any fun d => d.sender = i.other ∧ n.Fresh d ∧ d.type ≠ ST_SYN

instance (n : Network) (i : Side) (k : ℕ) : Decidable (n.Arrives i k) := inferInstanceAs (Decidable (_ = true))

theorem bytesAt_eq {n : Network} {k : ℕ} {d : Datagram} (h : n.flight[k]? = some d) : n.bytesAt k = d.bytes := by
  unfold bytesAt
  rw [h]
  rfl

theorem Arrives.datagram {k : ℕ} (h : n.Arrives i k) :
    ∃ d ∈ n.flight, d.bytes = n.bytesAt k ∧ d.sender = i.other ∧ n.Fresh d ∧ d.type ≠ ST_SYN := by
  obtain ⟨d, hd, hp⟩ := (Option.any_eq_true _ _).1 h
  exact ⟨d, List.mem_of_getElem? hd, (bytesAt_eq hd).symm, of_decide_eq_true hp⟩

theorem step_deliver (env : Env) (ms : UInt64) (tick : ℕ) {k : ℕ} (h : n.Arrives i k) (hu : (n.ends i).socket.conn.state ≠ .uninitialized) :
    n.Step (n.call env ms tick i (.processIncoming (n.bytesAt k))) := by
  obtain ⟨d, hd, hb, h1, h2, h3⟩ := h.datagram
  rw [← hb]
  exact .deliver env ms tick i hd h1 h2 h3 hu

/-- A SYN of the initiator is in flight. -/
def Summoned (n : Network) (k : ℕ) : Prop :=
  (n.flight[k]?).any fun d => d.sender = .initiator ∧ n.Fresh d ∧ d.type = ST_SYN

instance (n : Network) (k : ℕ) : Decidable (n.Summoned k) := inferInstanceAs (Decidable (_ = true))

theorem step_accept (env : Env) (ms : UInt64) (tick : ℕ) {k : ℕ} (h : n.Summoned k) (addr : Address)
    (hu : (n.ends .acceptor).socket.conn.state = .uninitialized) :
    n.Step (n.call env ms tick .acceptor (.accept addr (n.bytesAt k))) := by
  obtain ⟨d, hd, hp⟩ := (Option.any_eq_true _ _).1 h
  obtain ⟨h1, h2, h3⟩ := of_decide_eq_true hp
  rw [bytesAt_eq hd]
  exact .accept env ms tick addr (List.mem_of_getElem? hd) h1 h2 h3 hu

/-- A call on a host whose clock stands still. -/
def still (n : Network) (i : Side) (op : Op) : Network := n.call stillHost 0 0 i op

/-- One side dials. -/
def dialledPair : Network :=
  (start (fun _ => CCONTROL_TARGET) (fun _ => 4096) (fun _ => 4096)).still .initiator (.connect ⟨0, 0⟩ 7)

/-- The other side accepts. -/
def acceptedPair : Network := dialledPair.still .acceptor (.accept ⟨0, 0⟩ (dialledPair.bytesAt 0))

def openPair : Network := acceptedPair.still .initiator (.processIncoming (acceptedPair.bytesAt 1))

/-- An empty packet and one of a byte are sent, and the second arrives first. -/
def sentPair : Network :=
  ((openPair.still .initiator (.writev [])).still .initiator (.writev [[4]])).still .initiator (.writev [])

def heldPair : Network := sentPair.still .acceptor (.processIncoming (sentPair.bytesAt 3))

/-- Three bytes go over. -/
def writtenPair : Network := openPair.still .initiator (.writev [[1, 2], [3]])

def carriedPair : Network := writtenPair.still .acceptor (.processIncoming (writtenPair.bytesAt 2))

def ackingPair : Network := carriedPair.still .acceptor .sendAck

def ackedPair : Network := ackingPair.still .initiator (.processIncoming (ackingPair.bytesAt 3))

/-- The end of the stream follows. -/
def closingPair : Network := ackedPair.still .initiator (.shutdown .wr)

def closedPair : Network := closingPair.still .acceptor (.processIncoming (closingPair.bytesAt 4))

def lastAckPair : Network := closedPair.still .acceptor .sendAck

def donePair : Network := lastAckPair.still .initiator (.processIncoming (lastAckPair.bytesAt 5))

theorem reachable_openPair : openPair.Reachable (fun _ => CCONTROL_TARGET) (fun _ => 4096) (fun _ => 4096) := by
  have h₁ : dialledPair.Reachable (fun _ => CCONTROL_TARGET) (fun _ => 4096) (fun _ => 4096) :=
    .single (.dial stillHost 0 0 ⟨0, 0⟩ 7 rfl)
  have h₂ := h₁.tail (step_accept stillHost 0 0 (k := 0) (by decide +kernel) ⟨0, 0⟩
    (by decide +kernel))
  exact h₂.tail (step_deliver stillHost 0 0 (k := 1) (by decide +kernel) (by decide +kernel))

theorem reachable_heldPair : heldPair.Reachable (fun _ => CCONTROL_TARGET) (fun _ => 4096) (fun _ => 4096) := by
  have h : sentPair.Reachable (fun _ => CCONTROL_TARGET) (fun _ => 4096) (fun _ => 4096) :=
    ((reachable_openPair.tail (.call stillHost 0 0 .initiator (.writev []) trivial)).tail
      (.call stillHost 0 0 .initiator (.writev [[4]]) trivial)).tail
      (.call stillHost 0 0 .initiator (.writev []) trivial)
  exact h.tail (step_deliver stillHost 0 0 (k := 3) (by decide +kernel) (by decide +kernel))

theorem reachable_writtenPair : writtenPair.Reachable (fun _ => CCONTROL_TARGET) (fun _ => 4096) (fun _ => 4096) :=
  reachable_openPair.tail (.call stillHost 0 0 .initiator (.writev [[1, 2], [3]]) trivial)

theorem reachable_ackingPair : ackingPair.Reachable (fun _ => CCONTROL_TARGET) (fun _ => 4096) (fun _ => 4096) := by
  have h : carriedPair.Reachable (fun _ => CCONTROL_TARGET) (fun _ => 4096) (fun _ => 4096) :=
    reachable_writtenPair.tail (step_deliver stillHost 0 0 (k := 2) (by decide +kernel) (by decide +kernel))
  exact h.tail (.deferredAck stillHost 0 0 .acceptor (by decide +kernel))

theorem reachable_ackedPair : ackedPair.Reachable (fun _ => CCONTROL_TARGET) (fun _ => 4096) (fun _ => 4096) :=
  reachable_ackingPair.tail (step_deliver stillHost 0 0 (k := 3) (by decide +kernel) (by decide +kernel))

theorem reachable_closedPair : closedPair.Reachable (fun _ => CCONTROL_TARGET) (fun _ => 4096) (fun _ => 4096) := by
  have h : closingPair.Reachable (fun _ => CCONTROL_TARGET) (fun _ => 4096) (fun _ => 4096) :=
    reachable_ackedPair.tail (.call stillHost 0 0 .initiator (.shutdown .wr)
      (show (ackedPair.ends .initiator).socket.conn.state ≠ .uninitialized by decide +kernel))
  exact h.tail (step_deliver stillHost 0 0 (k := 4) (by decide +kernel) (by decide +kernel))

theorem step_lastAckPair : closedPair.Step lastAckPair := .deferredAck stillHost 0 0 .acceptor (by decide +kernel)

theorem reachable_donePair : donePair.Reachable (fun _ => CCONTROL_TARGET) (fun _ => 4096) (fun _ => 4096) := by
  have h : lastAckPair.Reachable (fun _ => CCONTROL_TARGET) (fun _ => 4096) (fun _ => 4096) :=
    reachable_closedPair.tail step_lastAckPair
  exact h.tail (step_deliver stillHost 0 0 (k := 5) (by decide +kernel) (by decide +kernel))

end Network

end UtpSocket

end Utp
