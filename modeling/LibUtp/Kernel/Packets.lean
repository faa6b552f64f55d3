import LibUtp.Kernel.Life

/-! The labels of the packets of a socket: the type and the connection id of what it
queues and sends. -/

namespace Utp

open Lts SequenceBuffer

/-- The fields of a header that stay while a packet is queued, grown and sent. -/
structure PacketFormatV1.SameLabel (h h' : PacketFormatV1) : Prop where
  type : h.type = h'.type
  version : h.version = h'.version
  ext : h.ext = h'.ext
  connid : h.connid = h'.connid

theorem PacketFormatV1.SameLabel.refl (h : PacketFormatV1) : h.SameLabel h := ⟨rfl, rfl, rfl, rfl⟩

namespace Kernel

variable {x : Input} {k k' : Kernel} {acts : List Act}

/-- A packet of this connection: a SYN carries the receive id of the side that dialled, any
other packet the send id. -/
structure Tagged (k : Kernel) (hdr : PacketFormatV1) : Prop where
  version : hdr.version = 1
  ext : hdr.ext < 3
  type : hdr.type < ST_NUM_STATES
  syn : hdr.type = ST_SYN → k.idSend = k.idRecv + 1 ∧ hdr.connid = k.idRecv.toUInt16
  other : hdr.type ≠ ST_SYN → hdr.connid = k.idSend.toUInt16

theorem Tagged.congr {hdr : PacketFormatV1} (h : k.Tagged hdr) (hr : k'.idRecv = k.idRecv)
    (hs : k'.idSend = k.idSend) : k'.Tagged hdr :=
  ⟨h.version, h.ext, h.type, by rw [hr, hs]; exact h.syn, by rw [hs]; exact h.other⟩

theorem Tagged.of_label {hdr hdr' : PacketFormatV1} (h : k.Tagged hdr') (hl : hdr.SameLabel hdr') :
    k.Tagged hdr :=
  ⟨hl.version.trans h.version, by rw [hl.ext]; exact h.ext, by rw [hl.type]; exact h.type,
    by rw [hl.type, hl.connid]; exact h.syn, by rw [hl.type, hl.connid]; exact h.other⟩

theorem Sent.label {p p' : OutgoingPacket} (h : k.Sent p p') : p'.hdr.SameLabel p.hdr :=
  ⟨h.type, h.version, h.ext, h.connid⟩

/-- A packet that is neither a SYN nor of an unknown type. -/
theorem tagged_plain {hdr : PacketFormatV1} (hv : hdr.version = 1) (he : hdr.ext < 3)
    (ht : hdr.type < ST_RESET) (hc : hdr.connid = k.idSend.toUInt16) : k.Tagged hdr := by
  have hlt : hdr.type.toNat < 3 := ht
  refine ⟨hv, he, ?_, fun h => ?_, fun _ => hc⟩
  · show hdr.type.toNat < 5
    omega
  · rw [h] at hlt
    exact absurd hlt (by decide)

theorem Fresh.tagged {flags : UInt8} {p : OutgoingPacket} (h : k.Fresh flags p)
    (hf : flags < ST_RESET) : k.Tagged p.hdr :=
  tagged_plain h.version (by rw [h.ext]; decide) (by rw [h.type]; exact hf) h.connid

theorem Extended.tagged {p p' : OutgoingPacket} {b : Bytes} (h : k.Extended p b p') :
    k.Tagged p'.hdr :=
  tagged_plain h.version (by rw [h.ext]; decide) (by rw [h.type]; decide) h.connid

theorem Syn.tagged {p : OutgoingPacket} {seed : UInt32} {seq : UInt16} (h : (k.dial seed seq).Syn p) :
    (k.dial seed seq).Tagged p.hdr where
  version := h.version
  ext := by rw [h.ext]; decide
  type := by rw [h.type]; decide
  syn _ := ⟨rfl, h.connid⟩
  other ht := absurd h.type ht

theorem StateHdr.tagged {hdr : PacketFormatV1} (h : k.StateHdr hdr) (he : hdr.ext < 3) :
    k.Tagged hdr := tagged_plain h.version he (by rw [h.type]; decide) h.connid

/-- `b` starts with a header of this connection. -/
def Sends (k : Kernel) (b : Bytes) : Prop := ∃ hdr rest, b = hdr.toBytes ++ rest ∧ k.Tagged hdr

theorem Sends.congr {b : Bytes} (h : k.Sends b) (hr : k'.idRecv = k.idRecv)
    (hs : k'.idSend = k.idSend) : k'.Sends b := by
  obtain ⟨hdr, rest, he, ht⟩ := h
  exact ⟨hdr, rest, he, ht.congr hr hs⟩

theorem StateBytes.sends {b : Bytes} (h : k.StateBytes b) : k.Sends b := by
  cases h with
  | plain h hext =>
    exact ⟨_, [], (List.append_nil _).symm, h.tagged (by rw [hext]; decide)⟩
  | eack h hext => exact ⟨_, _, rfl, h.tagged (by rw [hext]; decide)⟩

/-- The window of a socket that is not set up is empty, and its packets belong to the
connection. -/
structure Labelled (k : Kernel) : Prop where
  empty : k.state = .uninitialized → ∀ q, k.outbuf.slot q = none
  tagged : ∀ q p, k.outbuf.slot q = some p → k.Tagged p.hdr

/-- A slot is overwritten. -/
theorem tagged_setSlot {b : SequenceBuffer OutgoingPacket} {T : PacketFormatV1 → Prop}
    (h : ∀ q p, b.slot q = some p → T p.hdr) {q : UInt16} {y : Option OutgoingPacket}
    (hy : ∀ p, y = some p → T p.hdr) : ∀ r p, (b.setSlot q y).slot r = some p → T p.hdr := by
  intro r p hp
  rw [slot_setSlot] at hp
  split at hp
  · exact hy p hp
  · exact h r p hp

theorem tagged_queue {T : PacketFormatV1 → Prop} (h : ∀ q p, k.outbuf.slot q = some p → T p.hdr)
    {p : OutgoingPacket} (hp : T p.hdr) : ∀ r p', (k.queue p).outbuf.slot r = some p' → T p'.hdr := by
  refine tagged_setSlot (fun q p' hq => ?_) fun p' hp' => ?_
  · obtain ⟨r, -, -, hr⟩ := exists_of_slot_ensureSize hq
    exact h r p' hr
  · rw [← Option.some.inj hp']
    exact hp

theorem Pops.tagged {n : ℕ} {T : PacketFormatV1 → Prop} (hp : Pops n k acts k')
    (h : ∀ q p, k.outbuf.slot q = some p → T p.hdr) : ∀ q p, k'.outbuf.slot q = some p → T p.hdr := by
  induction hp with
  | done => exact h
  | acked hcur hp ht _ ih =>
    refine ih ?_
    exact tagged_setSlot h (by simp)
  | empty hcur hp _ ih => exact ih h
  | check _ _ ih => exact ih h

/-- Labels that send nothing. -/
def Mute (acts : List Act) : Prop := ∀ b flags, Effect.sendTo b flags ∉ acts.flatMap Act.effects

theorem mute_nil : Mute [] := by simp [Mute]

theorem Mute.append {l l' : List Act} (h : Mute l) (h' : Mute l') : Mute (l ++ l') := by
  intro b flags hm
  rw [List.flatMap_append] at hm
  rcases List.mem_append.1 hm with hm | hm
  · exact h b flags hm
  · exact h' b flags hm

theorem mute_removal (k : Kernel) (p : OutgoingPacket) : Mute (k.removal p) := by
  unfold removal
  split
  · exact mute_nil
  · simp [Mute, Act.effects]

theorem mute_readAct (k : Kernel) (b : Bytes) : Mute (k.readAct b) := by
  unfold readAct
  split
  · simp [Mute, Act.effects]
  · exact mute_nil

theorem Pops.mute {n : ℕ} (hp : Pops n k acts k') : Mute acts := by
  induction hp with
  | done => exact mute_nil
  | acked _ _ _ _ ih => exact (mute_removal _ _).append ih
  | empty _ _ _ ih => exact ih
  | check _ _ ih => exact Mute.append (l := [_]) (by simp [Mute, Act.effects]) ih

theorem Drains.mute (h : Drains k acts k') : k'.outbuf = k.outbuf ∧ Mute acts := by
  induction h with
  | eof => exact ⟨rfl, by simp [Mute, Act.effects]⟩
  | idle => exact ⟨rfl, mute_nil⟩
  | release _ _ _ _ ih => exact ⟨ih.1, (mute_readAct _ _).append ih.2⟩

/-- The packets of a socket that is set up stay packets of its connection. -/
theorem tagged_micro (hset : k.state ≠ .uninitialized)
    (h : ∀ q p, k.outbuf.slot q = some p → k.Tagged p.hdr) (hm : Micro x k acts k') :
    ∀ q p, k'.outbuf.slot q = some p → k.Tagged p.hdr := by
  cases hm with
  | connect hu => exact absurd hu hset
  | transmit hp hp' =>
    refine tagged_setSlot h fun y hy => ?_
    rw [← Option.some.inj hy]
    exact (h _ _ hp).of_label hp'.label
  | queue hs hf hc hp => exact tagged_queue h (hp.tagged (by decide))
  | extend hs hf hc hp ht hp' =>
    refine tagged_setSlot h fun y hy => ?_
    rw [← Option.some.inj hy]
    exact hp'.tagged
  | queueFin ho hf hp hb => exact tagged_queue h (hp.tagged (by decide))
  | mark hc hp ht hn =>
    have htag := h _ _ hp
    refine tagged_setSlot h fun y hy => ?_
    rw [← Option.some.inj hy]
    exact htag
  | @advance pp k acts k' hs hp =>
    obtain ⟨st, f, he⟩ := k.ackState_eq pp
    rw [he] at hp
    exact hp.tagged h
  | sack hm hb hc hv hw hp ht => exact tagged_setSlot h (by simp)
  | deliver ho hd ht hf hdr =>
    rw [hdr.mute.1]
    exact h
  | _ => exact h

theorem labelled_empty (h : ∀ q, k.outbuf.slot q = none) : k.Labelled := by
  refine ⟨fun _ => h, fun q p hq => ?_⟩
  rw [h q] at hq
  cases hq

/-- Only `connect` puts a packet into the window of a socket that is not set up. -/
theorem labelled_unset (hu : k.state = .uninitialized) (h : ∀ q, k.outbuf.slot q = none)
    (hm : Micro x k acts k') : k'.Labelled := by
  have hclosed : ¬ k.IsOpen := by
    rintro (ho | ho) <;>
    · rw [hu] at ho
      cases ho
  have hnone {q : UInt16} {p : OutgoingPacket} : k.outbuf.slot q ≠ some p := by simp [h q]
  cases hm with
  | @connect k seed seq p p' flags hu hp hp' =>
    have hq := tagged_queue (k := k.dial seed seq) (T := (k.dial seed seq).Tagged)
      (fun q p hq => absurd hq hnone) hp.tagged
    have hs := tagged_setSlot hq (q := seq) (y := some p') fun y hy => by
      rw [← Option.some.inj hy]
      exact hp.tagged.of_label hp'.label
    exact ⟨fun h' => by simp [transmit, queue, dial] at h', fun q p hq => (hs q p hq).congr rfl rfl⟩
  | transmit hp => exact absurd hp hnone
  | queue hs => exact absurd (.inl hs) hclosed
  | extend hs => exact absurd (.inl hs) hclosed
  | queueFin ho => exact absurd ho hclosed
  | mark hc hp => exact absurd hp hnone
  | @advance pp k acts k' hs hp =>
    obtain ⟨st, f, he⟩ := k.ackState_eq pp
    rw [he] at hp
    refine labelled_empty fun q => ?_
    by_contra hne
    obtain ⟨p, hq⟩ := Option.ne_none_iff_exists'.1 hne
    exact hp.tagged (T := fun _ => False) (fun q p hq => hnone hq) q p hq
  | sack hm hb hc hv hw hp => exact absurd hp hnone
  | deliver ho => exact absurd ho hclosed
  | _ => exact labelled_empty h

theorem labelled_micro (h : k.Labelled) (hm : Micro x k acts k') : k'.Labelled := by
  by_cases hu : k.state = .uninitialized
  · exact labelled_unset hu (h.empty hu) hm
  · have ht := tagged_micro hu h.tagged hm
    obtain ⟨hr, hs⟩ := ids_micro hu hm
    exact ⟨fun h' => absurd h' (set_micro hu hm), fun q p hq => (ht q p hq).congr hr hs⟩

theorem initial_labelled : Kernel.initial.Labelled :=
  labelled_empty fun _ => get_initialized _ _ _ _

/-- Every datagram starts with a header of the connection. -/
theorem sends_micro (h : k.Labelled) (hset : k.state ≠ .uninitialized) (hm : Micro x k acts k')
    {b : Bytes} {flags : UInt32} (hb : Effect.sendTo b flags ∈ acts.flatMap Act.effects) :
    k.Sends b := by
  cases hm with
  | silent hq =>
    simp only [List.flatMap_cons, List.flatMap_nil, List.append_nil, Act.effects] at hb
    exact absurd (hq _ hb) (by simp [Effect.quiet])
  | connect hu => exact absurd hu hset
  | transmit hp hp' =>
    simp only [List.flatMap_cons, List.flatMap_nil, List.append_nil, Act.effects,
      List.mem_singleton, Effect.sendTo.injEq] at hb
    rw [hb.1]
    exact ⟨_, _, rfl, (h.tagged _ _ hp).of_label hp'.label⟩
  | state hs =>
    simp only [List.flatMap_cons, List.flatMap_nil, List.append_nil, Act.effects,
      List.mem_singleton, Effect.sendTo.injEq] at hb
    rw [hb.1]
    exact hs.sends
  | keepAlive hs =>
    simp only [List.flatMap_cons, List.flatMap_nil, List.append_nil, Act.effects,
      List.mem_singleton, Effect.sendTo.injEq] at hb
    rw [hb.1]
    exact hs.sends.congr rfl rfl
  | advance hs hp => exact absurd hb (hp.mute b flags)
  | mark hc hp ht hn => exact absurd hb (mute_removal _ _ b flags)
  | sack hm hb' hc hv hw hp ht => exact absurd hb (mute_removal _ _ b flags)
  | deliver ho hd ht hf hdr => exact absurd hb ((mute_readAct _ _).append hdr.mute.2 b flags)
  | _ => simp [Act.effects] at hb

end Kernel

end Utp
