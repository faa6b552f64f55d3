import LibUtp.Registry.Moves
import LibUtp.Kernel.Packets

/-! Attribution: which socket a RST or an ICMP message that echoes the connection id of a
datagram is handed to. -/

namespace Utp

open Lts Relation

namespace UtpSocket

variable (env : Env)

/-- The socket dialled, and receives under its seed. -/
def Initiator (s : UtpSocket) : Prop := s.conn.connIdSend = s.conn.connIdRecv + 1

/-- One of the two ids is the 16-bit number the connection was set up with, and the other is
one more. -/
def Paired (s : UtpSocket) : Prop :=
  s.Initiator ∧ s.conn.connIdRecv.toNat < 2 ^ 16 ∨
    s.conn.connIdRecv = s.conn.connIdSend + 1 ∧ s.conn.connIdSend.toNat < 2 ^ 16

structure Named (s : UtpSocket) : Prop where
  labelled : s.kernel.Labelled
  paired : s.conn.state ≠ .uninitialized → s.Paired

theorem labelled_runs {x : Input} {b : Bytes} {s t : UtpSocket} (h : Runs x b s t)
    (hs : s.kernel.Labelled) : t.kernel.Labelled := by
  obtain ⟨acts, ht, -⟩ := h
  exact ht.invariant (fun _ _ _ hk hm => Kernel.labelled_micro hk hm) hs

theorem named_new (targetDelay rcvbuf sndbuf : ℕ) : (new targetDelay rcvbuf sndbuf).Named :=
  ⟨Kernel.initial_labelled, fun h => absurd rfl h⟩

theorem named_run {op : Op} {s : UtpSocket} (hn : s.Named) (ho : op.Enabled s)
    (hop : s.conn.state = .uninitialized → op.Early) (ms : UInt64) (tick : ℕ) :
    (op.run env (s.lend ms tick)).Named := by
  have hstep := Step.call env ms tick op ho
  obtain ⟨c, acts, -, -, ht, -⟩ := step_kernel hstep
  refine ⟨ht.invariant (fun _ _ _ hk ⟨_, _, hm⟩ => Kernel.labelled_micro hk hm) hn.labelled,
    fun hset => ?_⟩
  by_cases hu : s.conn.state = .uninitialized
  · exact absurd (early_run env (s := s.lend ms tick) (hop hu) hu).1 hset
  · obtain ⟨-, -, hr, hs, -⟩ := key_run env hu ho ms tick
    have hp := hn.paired hu
    unfold Paired Initiator at hp ⊢
    rw [hr, hs]
    exact hp

theorem paired_of_kernel {s : UtpSocket} (seed : UInt32) (h : seed.toNat < 2 ^ 16)
    (hids : s.kernel.idRecv = seed ∧ s.kernel.idSend = seed + 1 ∨
      s.kernel.idRecv = seed + 1 ∧ s.kernel.idSend = seed) : s.Paired := by
  rcases hids with ⟨hr, hs⟩ | ⟨hr, hs⟩
  · have hr : s.conn.connIdRecv = seed := hr
    have hs : s.conn.connIdSend = seed + 1 := hs
    exact .inl ⟨by unfold Initiator; rw [hr, hs], by rw [hr]; exact h⟩
  · have hr : s.conn.connIdRecv = seed + 1 := hr
    have hs : s.conn.connIdSend = seed := hs
    exact .inr ⟨by rw [hr, hs], by rw [hs]; exact h⟩

theorem named_connectWith {s : UtpSocket} (h : s.Named) (hu : s.conn.state = .uninitialized)
    (ms : UInt64) (tick : ℕ) (addr : Address) {seed : UInt32} (hseed : seed.toNat < 2 ^ 16) :
    ((s.lend ms tick).connectWith env addr seed).Named where
  labelled := labelled_runs (runs_connectWith env addr seed (s := s.lend ms tick) hu) h.labelled
  paired _ := paired_of_kernel seed hseed (.inl (ids_connectWith env addr seed _))

theorem named_acceptWith {s : UtpSocket} (h : s.Named) (hu : s.conn.state = .uninitialized)
    (ms : UInt64) (tick : ℕ) (addr : Address) (b : Bytes) :
    ((s.lend ms tick).acceptWith env addr b).Named where
  labelled := labelled_runs (runs_acceptWith env addr b (s := s.lend ms tick) hu) h.labelled
  paired _ := paired_of_kernel (PacketFormatV1.ofBytes b).connid.toUInt32
    (PacketFormatV1.ofBytes b).connid.toNat_lt (.inr (ids_acceptWith env addr b _))

theorem Named.setIda {s : UtpSocket} (h : s.Named) (i : ℤ) : ({ s with ida := i } : UtpSocket).Named :=
  ⟨h.labelled, h.paired⟩

/-! The datagrams of a call. -/

/-- Every datagram of a socket that is set up carries a header of its connection. -/
theorem sends_run {op : Op} {s : UtpSocket} (hl : s.kernel.Labelled)
    (hset : s.conn.state ≠ .uninitialized) (ho : op.Enabled s) (ms : UInt64) (tick : ℕ) {b : Bytes}
    {flags : UInt32} (hb : Effect.sendTo b flags ∈ (op.run env (s.lend ms tick)).out) :
    s.kernel.Sends b := by
  obtain ⟨acts, ht, hout, -⟩ := trace_run env ho ms tick
  rw [hout, List.mem_flatMap] at hb
  obtain ⟨a, ha, hb⟩ := hb
  refine ht.forall_labels (I := fun k : Kernel => k.Labelled ∧ k.state ≠ .uninitialized ∧
    k.idRecv = s.kernel.idRecv ∧ k.idSend = s.kernel.idSend)
    (P := fun a => Effect.sendTo b flags ∈ a.effects → s.kernel.Sends b) ?_ ?_
    ⟨hl, hset, rfl, rfl⟩ a ha hb
  · rintro k l k' ⟨hk, hu, hr, hs⟩ ⟨_, _, hm⟩
    obtain ⟨hr', hs'⟩ := Kernel.ids_micro hu hm
    exact ⟨Kernel.labelled_micro hk hm, Kernel.set_micro hu hm, hr'.trans hr, hs'.trans hs⟩
  · rintro k l k' ⟨hk, hu, hr, hs⟩ ⟨_, _, hm⟩ a ha hb
    exact (Kernel.sends_micro hk hu hm (List.mem_flatMap.2 ⟨a, ha, hb⟩)).congr hr.symm hs.symm

/-- The SYN that `connect` sends. -/
theorem sends_connectWith (addr : Address) (seed : UInt32) {s : UtpSocket} (ho : s.out = [])
    {b : Bytes} {flags : UInt32} (hb : Effect.sendTo b flags ∈ (s.connectWith env addr seed).out) :
    (s.connectWith env addr seed).kernel.Sends b := by
  obtain ⟨seq, p, p', f, l, hsyn, hsent, hk, hout, hq⟩ := dialled_connectWith env addr seed s
  rw [hk]
  rw [hout, ho] at hb
  simp only [List.nil_append, List.mem_append, List.mem_cons, List.not_mem_nil, or_false,
    reduceCtorEq, Effect.sendTo.injEq] at hb
  rcases hb with hb | ⟨rfl, -⟩
  · exact absurd (hq _ hb) (by simp [Effect.quiet])
  · exact ⟨_, _, rfl, (hsyn.tagged.of_label hsent.label).congr rfl rfl⟩

/-- The acknowledgement of a SYN. -/
theorem sends_acceptWith (addr : Address) (syn : Bytes) {s : UtpSocket} (ho : s.out = [])
    {b : Bytes} {flags : UInt32} (hb : Effect.sendTo b flags ∈ (s.acceptWith env addr syn).out) :
    (s.acceptWith env addr syn).kernel.Sends b := by
  obtain ⟨t, ⟨seq, l, hk, hout, hq⟩, he⟩ := acceptWith_spec env addr syn s
  obtain ⟨hk', l', b', hb', hout', hl'⟩ := sendAck_spec env true t
  rw [he, hk']
  rw [he, hout', hout, ho] at hb
  simp only [List.nil_append, List.mem_append, List.mem_cons, List.not_mem_nil, or_false,
    reduceCtorEq, Effect.sendTo.injEq] at hb
  rcases hb with hb | hb | ⟨rfl, -⟩
  · exact absurd (hq _ hb) (by simp [Effect.quiet])
  · obtain ⟨a, ha, -⟩ := hl' _ hb
    cases ha
  · exact hb'.sends

end UtpSocket

namespace UtpContext

variable {c d : UtpContext} {P : Handle → UtpSocket.Op → Prop}

theorem Became.named {x : Handle} {t : UtpSocket} (h : Became P c x t)
    (hc : ∀ x s, c.heap x = some s → s.Named) : t.Named := by
  cases h with
  | same i hs => exact (hc x _ hs).setIda i
  | call env op i hs hP ho hop => exact (UtpSocket.named_run env (hc x _ hs) ho hop _ _).setIda i
  | connect env addr seed i hs hu hseed hfree =>
    exact (UtpSocket.named_connectWith env (hc x _ hs) hu _ _ addr hseed).setIda i
  | accept env addr b i hx hfree =>
    exact (UtpSocket.named_acceptWith env (UtpSocket.named_new _ _ _) rfl _ _ addr b).setIda i
  | new => exact UtpSocket.named_new _ _ _

/-- A live socket is set up for the peer, and `b` carries a header of its connection. -/
def SentBy (s : UtpSocket) (peer : Address) (b : Bytes) : Prop :=
  s.conn.state ≠ .uninitialized ∧ peer = s.conn.addr ∧ s.kernel.Sends b

/-- The datagrams in the log were sent by sockets that were set up. -/
def Truthful (c : UtpContext) : Prop :=
  ∀ x peer b flags, .socket x peer (.sendTo b flags) ∈ c.log →
    x < c.nextHandle ∧ ∀ s, c.heap x = some s → SentBy s peer b

theorem Became.sentBy {x : Handle} {t : UtpSocket} (h : Became P c x t) (hx : x < c.nextHandle)
    {peer : Address} {b : Bytes} (hc : ∀ s, c.heap x = some s → SentBy s peer b) :
    SentBy t peer b := by
  cases h with
  | same i hs =>
    have h := hc _ hs
    exact h
  | call env op i hs hP ho hop =>
    obtain ⟨hset, ha, hb⟩ := hc _ hs
    obtain ⟨h1, h2, h3, h4, -⟩ := UtpSocket.key_run env hset ho c.currentMs c.tick
    exact ⟨h1, ha.trans h2.symm, hb.congr h3 h4⟩
  | connect env addr seed i hs hu => exact absurd hu (hc _ hs).1
  | accept env addr b i hx' => exact absurd hx' (Nat.ne_of_lt hx)
  | new hx' => exact absurd hx' (Nat.ne_of_lt hx)

theorem Did.sentBy {x : Handle} {t : UtpSocket} {b : Bytes} {flags : UInt32}
    (h : Did c x t (.sendTo b flags)) (hc : ∀ x s, c.heap x = some s → s.Named) :
    SentBy t t.conn.addr b := by
  cases h with
  | @call s _ env op hs ho hop he =>
    by_cases hu : s.conn.state = .uninitialized
    · obtain ⟨-, l, hl, hf⟩ := UtpSocket.early_run env (s := s.lend c.currentMs c.tick) (hop hu) hu
      rw [hl] at he
      obtain ⟨a, ha⟩ := hf _ he
      cases ha
    · obtain ⟨h1, -, h3, h4, -⟩ := UtpSocket.key_run env hu ho c.currentMs c.tick
      exact ⟨h1, rfl, (UtpSocket.sends_run env (hc x s hs).labelled hu ho _ _ he).congr h3 h4⟩
  | @connect s _ env addr seed hs hu he =>
    exact ⟨UtpSocket.set_connectWith env addr seed _, rfl,
      UtpSocket.sends_connectWith env addr seed (s := s.lend c.currentMs c.tick) rfl he⟩
  | accept env addr syn hx he =>
    exact ⟨UtpSocket.set_acceptWith env addr syn _, rfl, UtpSocket.sends_acceptWith env addr syn
      (s := (UtpSocket.new c.targetDelay c.optRcvbuf c.optSndbuf).lend c.currentMs c.tick) rfl he⟩

/-- A new datagram in the log is of a live socket. -/
theorem Move.sent (h : Move P c d) (hn : ∀ x s, c.heap x = some s → s.Named) {x : Handle}
    {peer : Address} {b : Bytes} {flags : UInt32} (he : .socket x peer (.sendTo b flags) ∈ d.log) :
    .socket x peer (.sendTo b flags) ∈ c.log ∨ ∃ s, d.heap x = some s ∧ SentBy s peer b := by
  rcases h.logged he with he | he | ⟨t, hdid, hp, i, hi⟩
  · exact .inl he
  · cases he
  · have hsent := hdid.sentBy hn
    rw [← hp] at hsent
    exact .inr ⟨_, hi, hsent⟩

theorem Truthful.move (hc : c.Consistent) (hn : ∀ x s, c.heap x = some s → s.Named)
    (ht : c.Truthful) (h : Move P c d) : d.Truthful := by
  intro x peer b flags he
  rcases h.sent hn he with he | ⟨t, hi, hsent⟩
  · obtain ⟨hx, hold⟩ := ht x peer b flags he
    exact ⟨hx.trans_le h.next_le, fun s hs => (h.became hc hs).sentBy hx hold⟩
  · refine ⟨(hc.move h).lt_next hi, fun s hs => ?_⟩
    rw [hi] at hs
    cases hs
    exact hsent

theorem Reachable.truthful (h : c.Reachable) :
    (∀ x s, c.heap x = some s → s.Named) ∧ c.Truthful :=
  h.invariant (I := fun c => (∀ x s, c.heap x = some s → s.Named) ∧ c.Truthful)
    ⟨by simp, by simp [Truthful]⟩ fun _ _ hc ⟨hn, ht⟩ hm =>
      ⟨fun _ _ hs => (hm.became hc hs).named hn, ht.move hc hn hm⟩

/-! The lookup. -/

/-- No other socket to the same peer is registered under the send id of `s`, and if `s` dialled
none sends with it. -/
def Unshared (c : UtpContext) (x : Handle) (s : UtpSocket) : Prop :=
  ∀ y t, c.heap y = some t → t.conn.state ≠ .uninitialized → y ≠ x → t.conn.addr = s.conn.addr →
    t.conn.connIdRecv ≠ s.conn.connIdSend ∧
      (s.Initiator → t.conn.connIdSend ≠ s.conn.connIdSend)

/-- A live socket that sends with the id. -/
def sendsWith (c : UtpContext) (id : UInt32) (h : Handle) : Bool :=
  (c.heap h).any fun s => s.conn.connIdSend = id

/-- The socket found is the one under the id, or else one beside it that sends with it. -/
theorem findSocketForId_iff {addr : Address} {id : UInt32} {x : Handle} :
    c.findSocketForId addr id = some x ↔ c.find ⟨addr, id⟩ = some x ∨ c.find ⟨addr, id⟩ = none ∧
      ((c.find ⟨addr, id + 1⟩).filter (c.sendsWith id) = some x ∨
        (c.find ⟨addr, id + 1⟩).filter (c.sendsWith id) = none ∧
          (c.find ⟨addr, id - 1⟩).filter (c.sendsWith id) = some x) := by
  have hsends : (fun h => (c.heap h).any fun s => decide (s.conn.connIdSend = id)) = c.sendsWith id := rfl
  unfold findSocketForId
  dsimp only
  rw [hsends]
  cases c.find ⟨addr, id⟩ with
  | some h => simp
  | none =>
    generalize (c.find ⟨addr, id + 1⟩).filter (c.sendsWith id) = o
    cases o with
    | some h => simp
    | none => simp

/-- A socket beside the id that sends with it. -/
theorem Keyed.beside_iff (hc : c.Keyed) {key : UtpSocketKey} {id : UInt32} {x : Handle} :
    (c.find key).filter (c.sendsWith id) = some x ↔
      ∃ s, c.heap x = some s ∧ s.key = key ∧ s.conn.state ≠ .uninitialized ∧
        s.conn.connIdSend = id := by
  rw [Option.filter_eq_some_iff, hc.find_iff]
  unfold sendsWith
  constructor
  · rintro ⟨⟨s, hs, hk, hu⟩, hany⟩
    rw [hs, Option.any_some] at hany
    exact ⟨s, hs, hk, hu, of_decide_eq_true hany⟩
  · rintro ⟨s, hs, hk, hu, hid⟩
    refine ⟨⟨s, hs, hk, hu⟩, ?_⟩
    rw [hs, Option.any_some]
    exact decide_eq_true hid

theorem key_eq_iff {s : UtpSocket} {addr : Address} {id : UInt32} :
    s.key = ⟨addr, id⟩ ↔ s.conn.addr = addr ∧ s.conn.connIdRecv = id := by
  unfold UtpSocket.key
  rw [UtpSocketKey.mk.injEq]

theorem widen_narrow {id : UInt32} (h : id.toNat < 2 ^ 16) : id.toUInt16.toUInt32 = id := by
  apply UInt32.toNat.inj
  rw [UInt16.toNat_toUInt32, UInt32.toNat_toUInt16]
  exact Nat.mod_eq_of_lt h

theorem initiator_narrow {s : UtpSocket} (hp : s.Paired) (hinit : s.Initiator) :
    s.conn.connIdRecv.toNat < 2 ^ 16 := by
  rcases hp with ⟨-, h⟩ | ⟨h, -⟩
  · exact h
  · have hinit : s.conn.connIdSend = s.conn.connIdRecv + 1 := hinit
    grind

/-- A SYN carries the very id its socket is registered under. -/
theorem found_syn (hc : c.Keyed) {x : Handle} {s : UtpSocket} (hs : c.heap x = some s)
    (hset : s.conn.state ≠ .uninitialized) (hp : s.Paired) {hdr : PacketFormatV1}
    (ht : s.kernel.Tagged hdr) (hsyn : hdr.type = ST_SYN) :
    c.findSocketForId s.conn.addr hdr.connid.toUInt32 = some x := by
  obtain ⟨hinit, hid⟩ := ht.syn hsyn
  have hlt := initiator_narrow hp hinit
  have hid : hdr.connid.toUInt32 = s.conn.connIdRecv := by
    rw [hid]
    exact widen_narrow hlt
  rw [hid]
  exact findSocketForId_iff.2 (.inl (hc.find_iff.2 ⟨s, hs, rfl, hset⟩))

/-- The lookup of the send id finds its socket only if the id is not shared. -/
theorem unshared_of_found (hc : c.Keyed) (hn : ∀ y t, c.heap y = some t → t.Named) {x : Handle}
    {s : UtpSocket} (hs : c.heap x = some s) (hset : s.conn.state ≠ .uninitialized)
    (hne : s.conn.connIdRecv ≠ s.conn.connIdSend)
    (h : c.findSocketForId s.conn.addr s.conn.connIdSend = some x) : c.Unshared x s := by
  intro y t ht hu hyx ha
  have hfirst : c.find ⟨s.conn.addr, s.conn.connIdSend⟩ ≠ some x := by
    intro hf
    obtain ⟨s', hs', hk, -⟩ := hc.find_iff.1 hf
    rw [hs] at hs'
    cases hs'
    exact hne (key_eq_iff.1 hk).2
  rw [findSocketForId_iff] at h
  obtain ⟨hnone, h⟩ := h.resolve_left hfirst
  refine ⟨fun hr => ?_, fun hinit hsend => ?_⟩
  · have hf := hc.find_iff.2 ⟨t, ht, key_eq_iff.2 ⟨ha, hr⟩, hu⟩
    rw [hnone] at hf
    cases hf
  · rcases (hn y t ht).paired hu with ⟨hti, -⟩ | ⟨htr, -⟩
    · -- both dialled, under one key
      have hr : t.conn.connIdRecv = s.conn.connIdRecv := by
        have h1 : t.conn.connIdSend = t.conn.connIdRecv + 1 := hti
        have h2 : s.conn.connIdSend = s.conn.connIdRecv + 1 := hinit
        grind
      have hfy := hc.find_iff.2 ⟨t, ht, key_eq_iff.2 ⟨ha, hr⟩, hu⟩
      have hfx := hc.find_iff.2 ⟨s, hs, rfl, hset⟩
      unfold UtpSocket.key at hfx
      rw [hfx] at hfy
      exact hyx (Option.some.inj hfy).symm
    · rw [hsend] at htr
      have hb := hc.beside_iff.2 ⟨t, ht, key_eq_iff.2 ⟨ha, htr⟩, hu, hsend⟩
      rcases h with h | ⟨h, -⟩
      · rw [h] at hb
        exact hyx (Option.some.inj hb).symm
      · rw [h] at hb
        cases hb

theorem found_of_unshared (hc : c.Keyed) {x : Handle} {s : UtpSocket} (hs : c.heap x = some s)
    (hset : s.conn.state ≠ .uninitialized) (hp : s.Paired)
    (hne : s.conn.connIdRecv ≠ s.conn.connIdSend) (h : c.Unshared x s) :
    c.findSocketForId s.conn.addr s.conn.connIdSend = some x := by
  have hnone : c.find ⟨s.conn.addr, s.conn.connIdSend⟩ = none := by
    by_contra hf
    obtain ⟨y, hy⟩ := Option.ne_none_iff_exists'.1 hf
    obtain ⟨t, ht, hk, hu⟩ := hc.find_iff.1 hy
    obtain ⟨ha, hr⟩ := key_eq_iff.1 hk
    by_cases hyx : y = x
    · rw [hyx, hs] at ht
      cases ht
      exact hne hr
    · exact (h y t ht hu hyx ha).1 hr
  refine findSocketForId_iff.2 (.inr ⟨hnone, ?_⟩)
  rcases hp with ⟨hinit, -⟩ | ⟨hacc, -⟩
  · have hi : s.conn.connIdSend = s.conn.connIdRecv + 1 := hinit
    refine .inr ⟨?_, hc.beside_iff.2 ⟨s, hs, key_eq_iff.2 ⟨rfl, by grind⟩, hset, rfl⟩⟩
    by_contra hf
    obtain ⟨y, hy⟩ := Option.ne_none_iff_exists'.1 hf
    obtain ⟨t, ht, hk, hu, hsend⟩ := hc.beside_iff.1 hy
    obtain ⟨ha, hr⟩ := key_eq_iff.1 hk
    by_cases hyx : y = x
    · rw [hyx, hs] at ht
      cases ht
      grind
    · exact (h y t ht hu hyx ha).2 hinit hsend
  · exact .inl (hc.beside_iff.2 ⟨s, hs, key_eq_iff.2 ⟨rfl, hacc⟩, hset, rfl⟩)

/-- The id of a packet that is not a SYN has 16 bits. -/
theorem found_lt {x : Handle} {s : UtpSocket} (hc : c.Keyed) (hs : c.heap x = some s) (hp : s.Paired)
    (h : c.findSocketForId s.conn.addr s.conn.connIdSend.toUInt16.toUInt32 = some x) :
    s.conn.connIdSend.toNat < 2 ^ 16 := by
  by_contra hge
  -- only the seed 0xffff leads to a send id of 17 bits
  have hr : s.conn.connIdRecv = 0xffff ∧ s.conn.connIdSend = 0x10000 := by
    rcases hp with ⟨hinit, hlt⟩ | ⟨-, hlt⟩
    · have hi : s.conn.connIdSend = s.conn.connIdRecv + 1 := hinit
      have hnat : s.conn.connIdSend.toNat = s.conn.connIdRecv.toNat + 1 := by
        rw [hi, UInt32.toNat_add]
        exact Nat.mod_eq_of_lt (by simp; omega)
      have h1 : s.conn.connIdRecv.toNat = 0xffff := by omega
      exact ⟨UInt32.toNat.inj h1, UInt32.toNat.inj (by rw [hnat, h1]; rfl)⟩
    · exact absurd hlt hge
  have hkey {id : UInt32} (hf : ∃ s', c.heap x = some s' ∧ s'.key = ⟨s.conn.addr, id⟩) :
      (0xffff : UInt32) = id := by
    obtain ⟨s', hs', hk⟩ := hf
    rw [hs] at hs'
    cases hs'
    rw [← hr.1]
    exact (key_eq_iff.1 hk).2
  rw [hr.2, findSocketForId_iff, hc.beside_iff, hc.beside_iff, hc.find_iff] at h
  rcases h with ⟨s', h1, h2, -⟩ | ⟨-, ⟨s', h1, h2, -⟩ | ⟨-, s', h1, h2, -⟩⟩ <;>
  · have := hkey ⟨s', h1, h2⟩
    revert this
    decide

/-- A RST or ICMP message that echoes the id of a datagram of a registered socket is handed to
that socket exactly if the datagram was the SYN, or the send id has 16 bits and no other socket
to the peer is registered under it or, for a socket that dialled, sends with it. -/
theorem echo_attributed (h : c.Reachable) {x : Handle} {s : UtpSocket} (hs : c.heap x = some s)
    {peer : Address} {b : Bytes} {flags : UInt32} (hb : .socket x peer (.sendTo b flags) ∈ c.log) :
    c.findSocketForId peer (PacketFormatV1.ofBytes b).connid.toUInt32 = some x ↔
      (PacketFormatV1.ofBytes b).type = ST_SYN ∨
        s.conn.connIdSend.toNat < 2 ^ 16 ∧ c.Unshared x s := by
  obtain ⟨hn, ht⟩ := h.truthful
  have hc := h.moves.1.toKeyed
  obtain ⟨hset, rfl, hdr, rest, rfl, htag⟩ := (ht x peer b flags hb).2 s hs
  rw [PacketFormatV1.ofBytes_toBytes]
  have hp := (hn x s hs).paired hset
  have hne : s.conn.connIdRecv ≠ s.conn.connIdSend := by
    unfold UtpSocket.Paired UtpSocket.Initiator at hp
    grind
  by_cases hsyn : hdr.type = ST_SYN
  · exact ⟨fun _ => .inl hsyn, fun _ => found_syn hc hs hset hp htag hsyn⟩
  · have hid : hdr.connid = s.conn.connIdSend.toUInt16 := htag.other hsyn
    rw [hid]
    constructor
    · intro hf
      have hlt := found_lt hc hs hp hf
      rw [widen_narrow hlt] at hf
      exact .inr ⟨hlt, unshared_of_found hc hn hs hset hne hf⟩
    · rintro (hty | ⟨hlt, hun⟩)
      · exact absurd hty hsyn
      · rw [widen_narrow hlt]
        exact found_of_unshared hc hs hset hp hne hun

/-! A socket that dials and one that answers, with ids side by side. -/

/-- The acknowledgement of a SYN goes to its sender. -/
theorem logged_accept (c : UtpContext) (env : Env) (addr : Address) (syn : Bytes) :
    ∃ b, .socket c.nextHandle addr (.sendTo b 0) ∈ (c.accept env addr syn).log ∧
      ∃ (hdr : PacketFormatV1) (rest : Bytes), b = hdr.toBytes ++ rest ∧ hdr.type = ST_STATE ∧
        hdr.connid = (PacketFormatV1.ofBytes syn).connid := by
  have hs : c.createSocket.2.heap c.nextHandle =
      some (.new c.targetDelay c.optRcvbuf c.optSndbuf) := by rw [heap_createSocket, if_pos rfl]
  have hlog : (c.accept env addr syn).log = (c.createSocket.2.absorb c.nextHandle
      (((UtpSocket.new c.targetDelay c.optRcvbuf c.optSndbuf).lend c.currentMs c.tick
        ).acceptWith env addr syn)).log ++ [.onAccept c.nextHandle] := by
    show ((c.createSocket.2.call c.nextHandle (UtpSocket.acceptWith env addr syn)
      ).registerSocket c.nextHandle).log ++ _ = _
    rw [log_registerSocket, (frame_call hs _).log]
    rfl
  rw [hlog]
  obtain ⟨t, ⟨seq, l, hk, hout, -⟩, he⟩ := UtpSocket.acceptWith_spec env addr syn
    ((UtpSocket.new c.targetDelay c.optRcvbuf c.optSndbuf).lend c.currentMs c.tick)
  obtain ⟨-, l', b, hb, hout', -⟩ := UtpSocket.sendAck_spec env true t
  have ha := (UtpSocket.addr_acceptWith env addr syn
    ((UtpSocket.new c.targetDelay c.optRcvbuf c.optSndbuf).lend c.currentMs c.tick)).1
  rw [he] at ha ⊢
  have hmem : Effect.sendTo b 0 ∈ (t.sendAck env true).out := by
    rw [hout']
    simp
  generalize t.sendAck env true = u at ha hmem
  refine ⟨b, List.mem_append_left _ (List.mem_append_right _ (List.mem_map.2 ⟨_, hmem, ?_⟩)), ?_⟩
  · rw [ha]
  · have hconn : t.kernel.idSend.toUInt16 = (PacketFormatV1.ofBytes syn).connid := by
      rw [hk]
      simp
    rw [← hconn]
    cases hb with
    | plain h => exact ⟨_, [], (List.append_nil _).symm, h.type, h.connid⟩
    | eack h => exact ⟨_, _, rfl, h.type, h.connid⟩

/-- The context of a socket that dialled with seed 0, after a SYN of the same peer with id 0. -/
def crossed : UtpContext :=
  accept UtpSocket.stillHost ⟨0, 0⟩ (synPacket 0) { dialling with tick := dialling.tick + 1 }

theorem reachable_crossed : Reachable crossed := by
  refine .tail reachable_dialling (.call UtpSocket.stillHost (.processUdp (synPacket 0) ⟨0, 0⟩)
    trivial trivial (congrArg some (processUdp_syn (by decide) (by decide) ?_ ?_ rfl)))
  · unfold find
    rw [sockets_dialling]
    rfl
  · rw [sockets_dialling]
    decide

theorem next_dialling : dialling.nextHandle = 1 := by
  unfold dialling
  rw [next_registerSocket, next_call]
  rfl

/-- A RST that echoes the acknowledgement of the SYN reaches the socket that dialled. -/
theorem echo_astray : ¬ ∀ c : UtpContext, c.Reachable → ∀ x s, c.heap x = some s →
    ∀ peer b flags, .socket x peer (.sendTo b flags) ∈ c.log →
      c.findSocketForId peer (PacketFormatV1.ofBytes b).connid.toUInt32 = some x := by
  intro h
  obtain ⟨b, hb, hdr, rest, rfl, -, hconn⟩ := logged_accept
    { dialling with tick := dialling.tick + 1 } UtpSocket.stillHost ⟨0, 0⟩ (synPacket 0)
  obtain ⟨i, hi⟩ := heap_accept { dialling with tick := dialling.tick + 1 } UtpSocket.stillHost
    ⟨0, 0⟩ (synPacket 0)
  have hfound := h crossed reachable_crossed _ _ hi _ _ _ hb
  rw [PacketFormatV1.ofBytes_toBytes, hconn] at hfound
  have hmem : ((⟨⟨0, 0⟩, 0⟩, 0) : UtpSocketKey × Handle) ∈ crossed.sockets := by
    have hh : HostOnly dialling { dialling with tick := dialling.tick + 1 } :=
      ⟨rfl, [], (List.append_nil _).symm, by simp⟩
    have hsock := ((reachable_dialling.moves.1.host hh).accept UtpSocket.stillHost ⟨0, 0⟩
      (synPacket 0) (by unfold find; rw [sockets_dialling]; rfl)).2
    unfold crossed
    rw [hsock, sockets_dialling]
    decide
  have hc := reachable_crossed.moves.1.toKeyed
  obtain ⟨s, hs, hk, hu⟩ := hc.keyed _ hmem
  have hother : crossed.findSocketForId ⟨0, 0⟩ 0 = some 0 :=
    findSocketForId_iff.2 (.inl (hc.find_iff.2 ⟨s, hs, hk, hu⟩))
  have hid : (PacketFormatV1.ofBytes (synPacket 0)).connid.toUInt32 = 0 := by decide
  rw [hid, hother] at hfound
  have hx : (0 : ℕ) = dialling.nextHandle := Option.some.inj hfound
  rw [next_dialling] at hx
  cases hx

/-- The acknowledgement of the SYN that comes from the dialled peer. -/
def synAck : Bytes :=
  { UtpSocket.freshHdr ST_STATE with connid := 7, windowsize := 1024 * 1024 : PacketFormatV1 }.toBytes

theorem unshared_met {s : UtpSocket} (hs : met.heap 1 = some s) : met.Unshared 1 s := by
  have hnext : met.nextHandle = 2 := by decide +kernel
  have hsend : ∀ s ∈ met.heap 1, s.conn.connIdSend = 7 := by decide +kernel
  have hother : ∀ t ∈ met.heap 0, t.conn.connIdRecv ≠ 7 ∧ t.conn.connIdSend ≠ 7 := by decide +kernel
  intro y t ht _ hne _
  have hy : y < met.nextHandle := by
    by_contra hge
    rw [reachable_met.moves.1.fresh y (not_lt.1 hge)] at ht
    cases ht
  rw [hnext] at hy
  obtain rfl : y = 0 := Nat.lt_one_iff.1 (lt_of_le_of_ne (Nat.le_of_lt_succ hy) hne)
  rw [hsend s hs]
  exact (hother t ht).imp_right fun h _ => h

/-- With a second socket to the same peer, the echo of the acknowledgement reaches the one that sent it. -/
theorem echo_attributed_met : .socket 1 ⟨0, 0⟩ (.sendTo synAck 0) ∈ met.log ∧ met.Registered 0 ∧
    met.findSocketForId ⟨0, 0⟩ (PacketFormatV1.ofBytes synAck).connid.toUInt32 = some 1 := by
  have hlog : .socket 1 ⟨0, 0⟩ (.sendTo synAck 0) ∈ met.log := by decide +kernel
  have hsome : (met.heap 1).isSome := by decide +kernel
  have hshort : ∀ s ∈ met.heap 1, s.conn.connIdSend.toNat < 2 ^ 16 := by decide +kernel
  have hreg : 0 ∈ met.sockets.map Prod.snd := by decide +kernel
  obtain ⟨s, hs⟩ := Option.isSome_iff_exists.1 hsome
  exact ⟨hlog, hreg, (echo_attributed reachable_met hs hlog).2 (.inr ⟨hshort s hs, unshared_met hs⟩)⟩

end UtpContext

end Utp
