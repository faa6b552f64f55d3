import LibUtp.Pair.Exchange
import LibUtp.Registry.Attribution
import LibUtp.Registry.RstLimit

/-! What a context sends it would take itself: every datagram passes the checks of `process_udp`, and the
parser finds in it what was put there. -/

namespace Utp

open Lts Relation UtpSocket

/-- The bytes of the EACK extension. -/
def extensionBytes : Option Bytes → Bytes
  | none => []
  | some mask => [0, UInt8.ofNat mask.length] ++ mask

/-- The datagram `b` of a header, a bitmap and a payload passes the checks of `process_udp`, and the header
and the parser's packet are those that went in. -/
structure Legible (hdr : PacketFormatV1) (mask : Option Bytes) (payload b : Bytes) : Prop where
  bytes : b = hdr.toBytes ++ (extensionBytes mask ++ payload)
  wellFormed : UtpContext.wellFormed b = true
  header : PacketFormatV1.ofBytes b = hdr
  parses : ∀ bits, (parseBytes b bits).1 = some
    { payload := payload
      selack := mask
      seqNr := hdr.seqNr
      ackNr := hdr.ackNr
      type := hdr.type
      timestamp := hdr.tvUsec
      replyMicro := hdr.replyMicro
      windowsize := hdr.windowsize }

/-- Bytes that begin with a header of version 1. -/
theorem wellFormed_header {hdr : PacketFormatV1} (hv : hdr.version = 1) (ht : hdr.type < ST_NUM_STATES)
    (he : hdr.ext < 3) (rest : Bytes) : UtpContext.wellFormed (hdr.toBytes ++ rest) = true := by
  have hsize : PacketFormatV1.size ≤ (hdr.toBytes ++ rest).length := by
    rw [List.length_append, PacketFormatV1.toBytes_length]
    exact Nat.le_add_right _ _
  unfold UtpContext.wellFormed UtpContext.version
  rw [PacketFormatV1.ofBytes_toBytes, if_pos ⟨ht, he⟩, hv, decide_eq_true hsize]
  rfl

namespace Kernel

variable {k k' : Kernel} {x : Input} {acts : List Act} {p p' : OutgoingPacket} {b : Bytes} {flags : UInt32}

/-- A state that a run of a socket reaches. -/
def Reached (k : Kernel) : Prop := ReflTransGen (fun k k' => ∃ x acts, Micro x k acts k') initial k

theorem reached_initial : initial.Reached := .refl

theorem Reached.tail (h : k.Reached) (hm : Micro x k acts k') : k'.Reached := ReflTransGen.tail h ⟨x, acts, hm⟩

theorem Reached.plain (h : k.Reached) : k.Each Plain := by
  induction h with
  | refl => exact each_initial
  | tail _ hm ih =>
    obtain ⟨_, _, hm⟩ := hm
    exact each_micro (made_plain _) ih hm

/-- What a socket in state `k` puts into a datagram: a packet of its window, an acknowledgement with or
without a bitmap, or a keep-alive, which is an acknowledgement of one number less. -/
inductive Puts (k : Kernel) : PacketFormatV1 → Option Bytes → Bytes → Prop
  | packet {q p} (h : k.outbuf.slot q = some p) : k.Puts p.hdr none p.body
  | plain {j hdr} (hj : j = k ∨ j = k.behind) (h : j.StateHdr hdr) : k.Puts hdr none []
  | eack {j hdr} (hj : j = k ∨ j = k.behind) (h : j.StateHdr hdr) : k.Puts hdr (some (eackBytes j.eackMask)) []

/-- A socket has put the datagram together, and its receiver reads what went in. -/
def Composed (b : Bytes) : Prop :=
  ∃ (k : Kernel) (hdr : PacketFormatV1) (mask : Option Bytes) (payload : Bytes),
    k.Reached ∧ k.Puts hdr mask payload ∧ Legible hdr mask payload b

/-- A packet of the window, as it goes out. -/
theorem Plain.legible (h : Plain p) : Legible p.hdr none p.body (p.hdr.toBytes ++ p.body) := by
  have ht : p.hdr.type < ST_NUM_STATES := by
    rcases h.type with h | h | h <;> rw [h] <;> decide
  exact ⟨rfl, wellFormed_header h.version ht (by rw [h.ext]; decide) _, PacketFormatV1.ofBytes_toBytes _ _,
    parseBytes_segment ht h.ext p.body⟩

/-- An acknowledgement. -/
theorem StateBytes.legible {j : Kernel} (h : j.StateBytes b) (hj : j = k ∨ j = k.behind) :
    ∃ hdr mask, k.Puts hdr mask [] ∧ Legible hdr mask [] b := by
  cases h with
  | @plain hdr h hext hr =>
    have hwf := wellFormed_header h.version (by rw [h.type]; decide) (by rw [hext]; decide) []
    have hb := PacketFormatV1.ofBytes_toBytes hdr []
    rw [List.append_nil] at hwf hb
    exact ⟨hdr, none, .plain hj h, (List.append_nil _).symm, hwf, hb, parseBytes_plain h.type hext⟩
  | @eack hdr h hext hr hf =>
    exact ⟨hdr, some (eackBytes j.eackMask), .eack hj h, rfl,
      wellFormed_header h.version (by rw [h.type]; decide) (by rw [hext]; decide) _,
      PacketFormatV1.ofBytes_toBytes _ _, parseBytes_eack h.type hext j.eackMask⟩

/-- The datagrams of a step. -/
theorem composed_micro (h : k.Reached) (hm : Micro x k acts k') (hb : Effect.sendTo b flags ∈ acts.flatMap Act.effects) :
    Composed b := by
  have hk' := h.tail hm
  cases hm with
  | silent hq =>
    simp only [List.flatMap_cons, List.flatMap_nil, List.append_nil, Act.effects] at hb
    exact absurd (hq _ hb) (by simp [Effect.quiet])
  | @connect k seed seq p p' flags hu hp hp' =>
    simp only [List.flatMap_cons, List.flatMap_nil, List.append_nil, Act.effects, List.mem_singleton,
      Effect.sendTo.injEq] at hb
    rw [hb.1]
    have hslot := SequenceBuffer.slot_setSlot_self ((k.dial seed seq).queue p).outbuf seq (some p')
    exact ⟨_, _, _, _, hk', .packet hslot, (hk'.plain _ _ hslot).legible⟩
  | @transmit x k q p p' flags hp hp' =>
    simp only [List.flatMap_cons, List.flatMap_nil, List.append_nil, Act.effects, List.mem_singleton,
      Effect.sendTo.injEq] at hb
    rw [hb.1]
    have hslot := SequenceBuffer.slot_setSlot_self k.outbuf q (some p')
    exact ⟨_, _, _, _, hk', .packet hslot, (hk'.plain _ _ hslot).legible⟩
  | state hs =>
    simp only [List.flatMap_cons, List.flatMap_nil, List.append_nil, Act.effects, List.mem_singleton,
      Effect.sendTo.injEq] at hb
    rw [hb.1]
    obtain ⟨hdr, mask, hputs, hl⟩ := hs.legible (.inl rfl)
    exact ⟨_, hdr, mask, [], h, hputs, hl⟩
  | keepAlive hs =>
    simp only [List.flatMap_cons, List.flatMap_nil, List.append_nil, Act.effects, List.mem_singleton,
      Effect.sendTo.injEq] at hb
    rw [hb.1]
    obtain ⟨hdr, mask, hputs, hl⟩ := hs.legible (.inr rfl)
    exact ⟨_, hdr, mask, [], h, hputs, hl⟩
  | advance hs hp => exact absurd hb (hp.mute b flags)
  | mark hc hp ht hn => exact absurd hb (mute_removal _ _ b flags)
  | sack hm hb' hc hv hw hp ht => exact absurd hb (mute_removal _ _ b flags)
  | deliver ho hd ht hf hdr => exact absurd hb ((mute_readAct _ _).append hdr.mute.2 b flags)
  | _ => simp [Act.effects] at hb

/-- The datagrams of the steps of a call. -/
theorem composed_trace {T : Input → Prop} (h : k.Reached)
    (ht : Trace (fun k a k' => ∃ x, T x ∧ Micro x k a k') k acts k')
    (hb : Effect.sendTo b flags ∈ acts.flatMap Act.effects) : Composed b := by
  obtain ⟨a, ha, hb⟩ := List.mem_flatMap.1 hb
  refine ht.forall_labels (I := Reached) (P := fun a => Effect.sendTo b flags ∈ a.effects → Composed b) ?_ ?_ h a ha hb
  · rintro k l k' hk ⟨_, _, hm⟩
    exact hk.tail hm
  · rintro k l k' hk ⟨_, _, hm⟩ a ha hb
    exact composed_micro hk hm (List.mem_flatMap.2 ⟨a, ha, hb⟩)

end Kernel

namespace UtpContext

variable {c d : UtpContext} {env : Env} {x : Handle} {s t : UtpSocket} {b : Bytes} {flags : UInt32} {peer : Address}

/-- Runs reach every socket. -/
def AllReached (c : UtpContext) : Prop := ∀ x s, c.heap x = some s → s.kernel.Reached

theorem composed_runs {i : Input} {taken : Bytes} (h : Runs i taken s t) (hs : s.kernel.Reached) (ho : s.out = [])
    (hb : Effect.sendTo b flags ∈ t.out) : Kernel.Composed b := by
  obtain ⟨acts, ht, hout, -⟩ := h
  rw [hout, ho, List.nil_append] at hb
  exact Kernel.composed_trace (T := fun j => j = i) hs (ht.mono fun _ _ _ hm => ⟨i, rfl, hm⟩) hb

theorem Did.composed (h : Did c x t (.sendTo b flags)) (hc : c.AllReached) : Kernel.Composed b := by
  cases h with
  | call env op hs ho hop he =>
    obtain ⟨acts, ht, hout, -⟩ := UtpSocket.trace_run env ho c.currentMs c.tick
    rw [hout] at he
    exact Kernel.composed_trace (hc x _ hs) ht he
  | connect env addr seed hs hu he =>
    have h := hc x _ hs
    exact composed_runs (UtpSocket.runs_connectWith env addr seed (s := UtpSocket.lend _ _ _) hu) h rfl he
  | accept env addr syn hx he =>
    refine composed_runs (UtpSocket.runs_acceptWith env addr syn (s := UtpSocket.lend _ _ _) rfl) ?_ rfl he
    exact Kernel.reached_initial

/-! RST replies. -/

/-- A datagram as `send_rst` builds it: a header alone, that the receiver takes for a RST. -/
def Refusal (b : Bytes) : Prop :=
  ∃ id ackNr seqNr, b = (rstHdr id ackNr seqNr).toBytes ∧ b.length = PacketFormatV1.size ∧ wellFormed b = true ∧
    PacketFormatV1.ofBytes b = rstHdr id ackNr seqNr ∧ (PacketFormatV1.ofBytes b).type = ST_RESET

/-- From `c` to `d` no RST is sent but well-formed ones. -/
def Refuses (c d : UtpContext) : Prop := ∀ b peer, Event.sendRst b peer ∈ d.log → Event.sendRst b peer ∈ c.log ∨ Refusal b

theorem Plain.refuses (h : Plain c d) : Refuses c d := by
  obtain ⟨-, l, hl, hn⟩ := h
  intro b peer he
  rw [hl] at he
  rcases List.mem_append.1 he with he | he
  · exact .inl he
  · cases hn _ he

theorem refusal_rst (id : UInt32) (ackNr seqNr : UInt16) : Refusal (rstHdr id ackNr seqNr).toBytes := by
  -- the version and the type are those of the header that `freshHdr` makes
  have hv : (rstHdr id ackNr seqNr).version = 1 := by
    show (UtpSocket.freshHdr ST_RESET).version = 1
    decide
  have ht : (rstHdr id ackNr seqNr).type = ST_RESET := by
    show (UtpSocket.freshHdr ST_RESET).type = ST_RESET
    decide
  have he : (rstHdr id ackNr seqNr).ext < 3 := by
    show (UtpSocket.freshHdr ST_RESET).ext < 3
    decide
  have hb := PacketFormatV1.ofBytes_toBytes (rstHdr id ackNr seqNr) []
  have hwf := wellFormed_header hv (by rw [ht]; decide) he []
  rw [List.append_nil] at hb hwf
  exact ⟨id, ackNr, seqNr, rfl, PacketFormatV1.toBytes_length _, hwf, hb, by rw [hb, ht]⟩

theorem refuses_answerUnknown (env : Env) (addr : Address) (id : UInt32) (seqNr : UInt16) (c : UtpContext) :
    Refuses c (c.answerUnknown env addr id seqNr) := by
  unfold answerUnknown
  dsimp only
  split
  · exact fun b peer he => .inl he
  · split
    · exact fun b peer he => .inl he
    · intro b peer he
      rcases List.mem_append.1 he with he | he
      · exact .inl he
      · rw [List.mem_singleton, Event.sendRst.injEq] at he
        rw [he.1]
        exact .inr (refusal_rst _ _ _)

theorem refuses_processUdp (env : Env) (b : Bytes) (addr : Address) (c : UtpContext) :
    Refuses c (c.processUdp env b addr) := by
  unfold processUdp
  dsimp only
  split_ifs
  · exact (Plain.refl c).refuses
  · split
    · exact (plain_call c _ _).refuses
    · exact (Plain.refl c).refuses
  · have hroute := plain_route addr (PacketFormatV1.ofBytes b).connid.toUInt32 c
    split
    · rename_i h c' hr
      rw [hr] at hroute
      exact (hroute.trans (plain_call c' h _)).refuses
    · rename_i c' hr
      rw [hr] at hroute
      intro b' peer he
      rcases refuses_answerUnknown env addr _ _ c' b' peer he with he | he
      · exact hroute.refuses b' peer he
      · exact .inr he
  · exact (plain_processSyn env addr _ b c).refuses

theorem refuses_step {P : UtpContext → Op → Prop} (h : Step P c d) : Refuses c d := by
  cases h with
  | call env op ho hP hr =>
    cases op with
    | processUdp b addr =>
      cases hr
      exact refuses_processUdp env b addr c
    | checkTimeouts order =>
      cases hr
      intro b peer he
      unfold checkTimeouts at he
      dsimp only at he
      split at he
      · exact .inl he
      · have hsweep := (plain_sweep env order _).refuses b peer he
        exact hsweep
    | connect h addr fuel => exact (plain_connect hr).refuses
    | setOption opt val =>
      cases hr
      cases opt <;> exact (Plain.refl c).refuses
    | createSocket =>
      cases hr
      exact (Plain.refl c).refuses
    | socket h op =>
      cases hr
      exact (plain_call c h _).refuses
    | processIcmpFragmentation b addr nextHopMtu =>
      cases hr
      unfold processIcmpFragmentation
      split
      · exact (plain_call c _ _).refuses
      · exact (Plain.refl c).refuses
    | processIcmpError b addr =>
      cases hr
      unfold processIcmpError
      split
      · exact (plain_call c _ _).refuses
      · exact (Plain.refl c).refuses
    | issueDeferredAcks =>
      cases hr
      exact (plain_ackRounds env _ c).refuses

/-- In every run, each datagram that a socket of the context sends passes the checks of `process_udp`, which
reads the header that went in, and the parser finds the bitmap and the payload; each RST of the context is a
header alone that is read back. -/
theorem sent_legible (h : c.Reachable) :
    (∀ x peer b flags, .socket x peer (.sendTo b flags) ∈ c.log →
      ∃ (k : Kernel) (hdr : PacketFormatV1) (mask : Option Bytes) (payload : Bytes),
        k.Reached ∧ k.Puts hdr mask payload ∧ Legible hdr mask payload b) ∧
      ∀ b peer, .sendRst b peer ∈ c.log → ∃ id ackNr seqNr, b = (rstHdr id ackNr seqNr).toBytes ∧
        b.length = PacketFormatV1.size ∧ wellFormed b = true ∧
        PacketFormatV1.ofBytes b = rstHdr id ackNr seqNr ∧ (PacketFormatV1.ofBytes b).type = ST_RESET := by
  constructor
  · refine (h.invariant (I := fun c => c.AllReached ∧
      ∀ x peer b flags, .socket x peer (.sendTo b flags) ∈ c.log → Kernel.Composed b) ⟨by simp [AllReached], by simp⟩ ?_).2
    rintro c d hc ⟨hp, hl⟩ hm
    refine ⟨fun x t ht => (hm.became hc ht).kernel Kernel.reached_initial (fun hk hm => hk.tail hm) hp, fun x peer b flags he => ?_⟩
    rcases hm.logged he with he | he | ⟨t, hdid, -⟩
    · exact hl x peer b flags he
    · cases he
    · exact hdid.composed hp
  · have hrun : ReflTransGen (Step fun _ _ => True) {} c := h
    clear h
    induction hrun with
    | refl => simp
    | tail _ hs ih =>
      intro b peer he
      rcases refuses_step hs b peer he with he | he
      · exact ih b peer he
      · exact he

/-- The dialled socket connects and gets a packet out of order, the acknowledgements go out, and a packet
comes for a connection that there is none of. -/
def straying : List Op :=
  [.processUdp (packetTo 0 ST_STATE 100 0 []) ⟨0, 0⟩, .processUdp (packetTo 0 ST_DATA 101 0 [9]) ⟨0, 0⟩,
    .issueDeferredAcks, .processUdp (packetTo 99 ST_DATA 5 0 [1]) ⟨0, 0⟩]

def strayed : UtpContext := perform UtpSocket.stillHost met straying

theorem reachable_strayed : Reachable strayed := reachable_met.trans (steps_perform (by decide +kernel))

/-- The acknowledgement with the bit of the packet out of order. -/
def gapEack : Bytes :=
  { UtpSocket.freshHdr ST_STATE with
    connid := 1, windowsize := 1024 * 1024, seqNr := 1, ackNr := 99, ext := 1 : PacketFormatV1 }.toBytes ++
    [0, 4, 1, 0, 0, 0]

def gapRst : Bytes := (rstHdr 99 5 0).toBytes

/-- The bitmap is read back, and the RST is of its set length. -/
theorem sent_legible_strayed :
    (.socket 0 ⟨0, 0⟩ (.sendTo gapEack 0) ∈ strayed.log ∧
      ∃ (k : Kernel) (hdr : PacketFormatV1), k.Reached ∧ k.Puts hdr (some [1, 0, 0, 0]) [] ∧
        Legible hdr (some [1, 0, 0, 0]) [] gapEack) ∧
      .sendRst gapRst ⟨0, 0⟩ ∈ strayed.log ∧ gapRst.length = PacketFormatV1.size ∧ wellFormed gapRst = true := by
  have heack : .socket 0 ⟨0, 0⟩ (.sendTo gapEack 0) ∈ strayed.log := by decide +kernel
  have hrst : .sendRst gapRst ⟨0, 0⟩ ∈ strayed.log := by decide +kernel
  obtain ⟨hsent, hrefused⟩ := sent_legible reachable_strayed
  obtain ⟨k, hdr, mask, payload, hk, hputs, hl⟩ := hsent _ _ _ _ heack
  obtain ⟨id, ackNr, seqNr, -, hlen, hwf, -⟩ := hrefused _ _ hrst
  have hread : (parseBytes gapEack []).1.map (fun pp => (pp.selack, pp.payload)) =
      some (some [1, 0, 0, 0], []) := by decide +kernel
  rw [hl.parses, Option.map_some, Option.some.injEq, Prod.mk.injEq] at hread
  obtain ⟨rfl, rfl⟩ := hread
  exact ⟨⟨heack, k, hdr, hk, hputs, hl⟩, hrst, hlen, hwf⟩

end UtpContext

end Utp
