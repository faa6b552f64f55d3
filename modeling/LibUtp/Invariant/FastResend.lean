import LibUtp.Kernel.Arrival
import LibUtp.Invariant.SendWindow

/-! The fast resend pointer. It moves between the most advanced acknowledged number and the
next number to be assigned, once the first acknowledgement has brought it there. -/

namespace Utp

open Lts SequenceBuffer

/-- The order of the source on 16-bit numbers. -/
theorem wrappingCompareLess_iff (x y : UInt32) : wrappingCompareLess x y ACK_NR_MASK ↔
    y.toUInt16 - x.toUInt16 < x.toUInt16 - y.toUInt16 := by
  have h (z : UInt32) : (z &&& ACK_NR_MASK).toNat = z.toUInt16.toNat := by
    rw [UInt32.toNat_and, UInt32.toNat_toUInt16]
    exact Nat.and_two_pow_sub_one_eq_mod _ 16
  unfold wrappingCompareLess
  dsimp only
  rw [decide_eq_true_iff, UInt32.lt_iff_toNat_lt, h, h, UInt32.toUInt16_sub, UInt32.toUInt16_sub,
    UInt16.lt_iff_toNat_lt]

/-- The further of two acknowledgement numbers, in the cyclic order. -/
def mostAdvanced (A a : UInt16) : UInt16 :=
  if wrappingCompareLess A.toUInt32 a.toUInt32 ACK_NR_MASK then a else A

def furthest : List UInt16 → Option UInt16
  | [] => none
  | a :: acks => some (acks.foldl mostAdvanced a)

theorem furthest_append (acks : List UInt16) (a : UInt16) : furthest (acks ++ [a]) =
    some (match furthest acks with
      | none => a
      | some A => mostAdvanced A a) := by
  cases acks with
  | nil => rfl
  | cons b acks =>
    show some ((acks ++ [a]).foldl mostAdvanced b) = _
    rw [List.foldl_append]
    rfl

/-- The pointer after an acknowledgement of `a`. -/
def raised (a f : UInt16) : UInt16 :=
  if wrappingCompareLess f.toUInt32 (a + 1).toUInt32 ACK_NR_MASK then a + 1 else f

/-- The pointer stands behind a packet of the window that it did not exceed by much. -/
def Rises (q f f' : UInt16) : Prop :=
  f' = f ∨ ∃ w, (w - f).toNat ≤ 1024 ∧ (q - 1 - w).toNat ≤ 2048 ∧ f' = w + 1

variable {q A a f f' : UInt16}

/-- From the pointer to the next number it is no further than from the acknowledged one. -/
theorem le_iff_gap (q lo f : UInt16) : f - lo ≤ q - lo ↔ q - f ≤ q - lo := by
  rw [show q - f = q - lo - (f - lo) by grind]
  generalize f - lo = d
  generalize q - lo = e
  rw [UInt16.le_iff_toNat_le, UInt16.le_iff_toNat_le, UInt16.toNat_sub]
  have := d.toNat_lt
  have := e.toNat_lt
  omega

/-- Of two numbers not far behind `q` the one further from it is the lesser. -/
theorem less_iff_gap {x y : UInt16} (hx : (q - x).toNat ≤ 8192) (hy : (q - y).toNat ≤ 8192) :
    wrappingCompareLess x.toUInt32 y.toUInt32 ACK_NR_MASK ↔ (q - y).toNat < (q - x).toNat := by
  have h₁ : y - x = q - x - (q - y) := by grind
  have h₂ : x - y = q - y - (q - x) := by grind
  rw [wrappingCompareLess_iff, UInt16.toUInt16_toUInt32, UInt16.toUInt16_toUInt32, h₁, h₂,
    UInt16.lt_iff_toNat_lt, UInt16.toNat_sub (q - x), UInt16.toNat_sub (q - y)]
  omega

theorem gap_mostAdvanced (hA : (q - (A + 1)).toNat ≤ 4096) (ha : (q - (a + 1)).toNat ≤ 4096) :
    (q - (mostAdvanced A a + 1)).toNat = min (q - (A + 1)).toNat (q - (a + 1)).toNat := by
  have hgap (x : UInt16) (hx : (q - (x + 1)).toNat ≤ 4096) :
      (q - x).toNat = (q - (x + 1)).toNat + 1 := by
    rw [show q - x = q - (x + 1) + 1 by grind, UInt16.toNat_add, UInt16.toNat_one]
    omega
  have h₁ := hgap A hA
  have h₂ := hgap a ha
  have hless := less_iff_gap (q := q) (x := A) (y := a) (by omega) (by omega)
  unfold mostAdvanced
  split
  · have := hless.1 ‹_›
    omega
  · have := mt hless.2 ‹_›
    omega

theorem gap_raised (hf : (q - f).toNat ≤ 4096) (ha : (q - (a + 1)).toNat ≤ 4096) :
    (q - raised a f).toNat = min (q - f).toNat (q - (a + 1)).toNat := by
  have hless := less_iff_gap (q := q) (x := f) (y := a + 1) (by omega) (by omega)
  unfold raised
  split
  · have := hless.1 ‹_›
    omega
  · have := mt hless.2 ‹_›
    omega

theorem Rises.gap (h : Rises q f f') (hf : (q - f).toNat ≤ 4096) :
    (q - f').toNat ≤ (q - f).toNat := by
  rcases h with rfl | ⟨w, h₁, h₂, rfl⟩
  · exact le_refl _
  · have he : q - f = q - 1 - w + (w - f) + 1 := by grind
    rw [he, UInt16.toNat_add, UInt16.toNat_add, UInt16.toNat_one,
      show q - (w + 1) = q - 1 - w by grind]
    omega

/-! The numbers of the window under the kernel steps. -/

namespace Kernel

variable {x : Input} {k k' : Kernel} {acts : List Act}

theorem Pops.seqNr {n : ℕ} (h : Pops n k acts k') : k'.seqNr = k.seqNr := by
  induction h with
  | done => rfl
  | acked _ _ _ _ ih => exact ih
  | empty _ _ _ ih => exact ih
  | check _ _ ih => exact ih

theorem Drains.numbers (h : Drains k acts k') : k'.seqNr = k.seqNr ∧ k'.cur = k.cur := by
  induction h with
  | eof => exact ⟨rfl, rfl⟩
  | idle => exact ⟨rfl, rfl⟩
  | release _ _ _ _ ih => exact ih

/-- The next number moves only when a packet is queued. -/
theorem numbers_micro (hu : k.state ≠ .uninitialized) (hx : ∀ pp, x ≠ .ack pp)
    (hm : Micro x k acts k') : k'.seqNr = k.seqNr ∧ k'.cur = k.cur ∨
      x = .api ∧ k.IsOpen ∧ k'.seqNr = k.seqNr + 1 ∧ k'.cur = k.cur + 1 := by
  cases hm with
  | advance => exact absurd rfl (hx _)
  | accept h => exact absurd h hu
  | connect h => exact absurd h hu
  | queue hs => exact .inr ⟨rfl, .inl hs, rfl, rfl⟩
  | queueFin ho => exact .inr ⟨rfl, ho, rfl, rfl⟩
  | deliver ho hd ht hf hdr => exact .inl hdr.numbers
  | _ => exact .inl ⟨rfl, rfl⟩

theorem seqNr_micro_eack {pp : ParsedPacket} (hm : Micro (.eack pp) k acts k') :
    k'.seqNr = k.seqNr := by
  cases hm <;> rfl

theorem seqNr_micro_ack {pp : ParsedPacket} (hm : Micro (.ack pp) k acts k') :
    k'.seqNr = k.seqNr := by
  cases hm with
  | advance hs hp =>
    obtain ⟨st, f, he⟩ := k.ackState_eq pp
    rw [hp.seqNr, he]
  | _ => rfl

/-- The pointer `f` is no further from the next number than the acknowledged number `A`. -/
structure Ahead (A f : UInt16) (k : Kernel) : Prop where
  between : (k.seqNr - f).toNat ≤ (k.seqNr - (A + 1)).toNat
  near : (k.seqNr - (A + 1)).toNat ≤ k.cur.toNat + 1030

theorem ahead_micro (hw : k.Window) (hu : k.state ≠ .uninitialized) (hx : ∀ pp, x ≠ .ack pp)
    {A f : UInt16} (h : k.Ahead A f) (hm : Micro x k acts k') : k'.Ahead A f := by
  obtain ⟨h₁, h₂⟩ := h
  have hcur := hw.length_le
  rcases numbers_micro hu hx hm with ⟨hq, hc⟩ | ⟨-, -, hq, hc⟩
  · exact ⟨by rw [hq]; exact h₁, by rw [hq, hc]; exact h₂⟩
  · have hsucc (y : UInt16) : k'.seqNr - y = k.seqNr - y + 1 := by grind
    have hc' : k'.cur.toNat = k.cur.toNat + 1 := by
      rw [hc, UInt16.toNat_add, UInt16.toNat_one]
      omega
    constructor
    · rw [hsucc, hsucc, UInt16.toNat_add, UInt16.toNat_add, UInt16.toNat_one]
      omega
    · rw [hsucc, UInt16.toNat_add, UInt16.toNat_one, hc']
      omega

/-- Before the handshake is over nothing is queued. -/
def Unopened (k : Kernel) : Prop := k.state ≠ .uninitialized ∧ ¬ k.IsOpen

theorem unopened_micro (h : k.Unopened) (hx : ∀ pp, x ≠ .ack pp) (hm : Micro x k acts k') :
    k'.Unopened ∧ k'.seqNr = k.seqNr := by
  obtain ⟨hu, ho⟩ := h
  refine ⟨⟨set_micro hu hm, ?_⟩, ?_⟩
  · cases hm with
    | advance => exact absurd rfl (hx _)
    | writable hs => exact absurd (.inr hs) ho
    | full hs => exact absurd (.inl hs) ho
    | accept h => exact absurd h hu
    | connect h => exact absurd h hu
    | deliver ho' => exact absurd ho' ho
    | closeAgain _ ho' => exact absurd ho' ho
    | queueFin ho' => exact absurd ho' ho
    | broken =>
      unfold IsOpen
      dsimp only
      split <;> simp
    | destroy => simp [IsOpen]
    | timeout => simp [IsOpen, k.gaveUp_ne]
    | _ => exact ho
  · rcases numbers_micro hu hx hm with ⟨hq, -⟩ | ⟨-, ho', -⟩
    · exact hq
    · exact absurd ho' ho

end Kernel

namespace UtpSocket

variable (env : Env) {r m : Bool} {x : Input}

theorem pointer_beside {s t : UtpSocket} (h : Beside env r false m s t) :
    t.timing.fastResendSeqNr = s.timing.fastResendSeqNr := h.fast rfl

theorem raiseFastResend_pointer (pp : ParsedPacket) (s : UtpSocket) :
    (s.raiseFastResend pp).timing.fastResendSeqNr = raised pp.ackNr s.timing.fastResendSeqNr := by
  unfold raiseFastResend raised
  split <;> rfl

/-- A packet in the slot of the head lies in the window. -/
theorem head_lt {s : UtpSocket} (hw : s.kernel.Window) {p : OutgoingPacket}
    (hp : s.send.outbuf.get s.headIdx = some p) :
    (s.send.seqNr - 1 - s.windowStart).toNat ≤ 1024 := by
  rw [get_headIdx] at hp
  have hlt : p.hdr.seqNr - s.kernel.head < s.kernel.cur := (hw.occupied _ p hp).1
  have hcur := hw.length_le
  have hhead : s.send.seqNr - 1 - s.windowStart = s.kernel.cur - 1 := by
    show s.kernel.seqNr - 1 - (s.kernel.seqNr - s.kernel.cur) = _
    grind
  rw [UInt16.lt_iff_toNat_lt] at hlt
  rw [hhead, UInt16.toNat_sub, UInt16.toNat_one]
  omega

theorem rises_fastTimeout {s : UtpSocket} (hw : s.kernel.Window) :
    Rises s.send.seqNr s.timing.fastResendSeqNr (s.fastTimeout env).timing.fastResendSeqNr := by
  unfold fastTimeout
  split
  · split
    · exact .inl rfl
    · rename_i hne
      rw [not_not] at hne
      cases hp : s.send.outbuf.get s.headIdx with
      | none => exact .inl rfl
      | some p =>
        dsimp only
        split
        · refine .inr ⟨s.timing.fastResendSeqNr, by simp, ?_, ?_⟩
          · rw [← hne]
            exact (head_lt hw hp).trans (by omega)
          · exact pointer_beside env (beside_sendPacket env (r := true) s.headIdx _)
        · exact .inl rfl
  · exact .inl rfl

/-! The packets that an EACK bitmap has resent. -/

/-- The window and the pointer are where they were. -/
def SamePlace (s t : UtpSocket) : Prop :=
  t.send.seqNr = s.send.seqNr ∧ t.send.curWindowPackets = s.send.curWindowPackets ∧
    t.timing.fastResendSeqNr = s.timing.fastResendSeqNr

theorem SamePlace.trans {s t u : UtpSocket} (h : SamePlace s t) (h' : SamePlace t u) :
    SamePlace s u := ⟨h'.1.trans h.1, h'.2.1.trans h.2.1, h'.2.2.trans h.2.2⟩

theorem SamePlace.of_kernel {s t : UtpSocket} (hk : t.kernel = s.kernel)
    (hb : Beside env r false m s t) : SamePlace s t := by
  obtain ⟨-, h1, h2, -⟩ := fields_of_kernel hk
  exact ⟨h1, h2, pointer_beside env hb⟩

theorem samePlace_ackPacket (seq : UInt16) (s : UtpSocket) :
    SamePlace s (s.ackPacket env seq).2 := by
  cases hp : s.kernel.outbuf.slot seq with
  | none =>
    rw [ackPacket_missing env hp]
    exact ⟨rfl, rfl, rfl⟩
  | some p =>
    by_cases ht : p.transmissions = 0
    · rw [ackPacket_unsent env hp ht]
      exact ⟨rfl, rfl, rfl⟩
    · have hk := (ackPacket_acked env hp (Nat.pos_of_ne_zero ht)).2.1
      exact ⟨congrArg Kernel.seqNr hk, congrArg Kernel.cur hk,
        pointer_beside env (beside_ackPacket env (f := false) (m := true) seq s)⟩

theorem mem_pushResend {resends : List ℤ} {v w : ℤ} (h : w ∈ pushResend resends v) :
    w ∈ resends ∨ w = v := by
  unfold pushResend at h
  rw [List.mem_append, List.mem_singleton] at h
  refine h.imp_left fun h => ?_
  split at h
  · exact List.mem_of_mem_drop h
  · exact h

/-- `v` lies in the window and not far from the pointer. -/
def Resendable (s : UtpSocket) (v : ℤ) : Prop :=
  s.inEackWindow v ∧ (UInt16.ofInt v - s.timing.fastResendSeqNr).toNat ≤ 1024

theorem SamePlace.inEackWindow {s t : UtpSocket} (h : SamePlace s t) (v : ℤ) :
    t.inEackWindow v = s.inEackWindow v := by
  unfold UtpSocket.inEackWindow
  rw [h.1, h.2.1]

theorem SamePlace.resendable {s t : UtpSocket} (h : SamePlace s t) {v : ℤ} :
    t.Resendable v ↔ s.Resendable v := by
  unfold Resendable
  rw [h.inEackWindow, h.2.2]

/-- The scan collects packets of the window, and counts only bits for such. -/
structure Scanned (base : ℤ) (mask : Bytes) (s : UtpSocket) (count : ℕ) (resends : List ℤ)
    (r : ℕ × List ℤ × UtpSocket) : Prop where
  place : SamePlace s r.2.2
  resends : ∀ v ∈ r.2.1, v ∈ resends ∨ s.Resendable v
  count : count < r.1 → ∃ bits : ℕ, bits < 8 * mask.length ∧ s.inEackWindow (base + bits)

theorem Scanned.of_place {base : ℤ} {mask : Bytes} {s t : UtpSocket} {count : ℕ} {resends : List ℤ}
    {r : ℕ × List ℤ × UtpSocket} (hp : SamePlace s t) (h : Scanned base mask t count resends r) :
    Scanned base mask s count resends r where
  place := hp.trans h.place
  resends v hv := (h.resends v hv).imp_right hp.resendable.1
  count hc := by
    obtain ⟨bits, hb, hin⟩ := h.count hc
    rw [hp.inEackWindow] at hin
    exact ⟨bits, hb, hin⟩

theorem scanned_eackLoop (base : ℤ) (mask : Bytes) (n count : ℕ) (resends : List ℤ)
    (s : UtpSocket) :
    Scanned base mask s count resends (s.eackLoop env base mask n count resends) := by
  induction n generalizing count resends s with
  | zero => exact ⟨⟨rfl, rfl, rfl⟩, fun v hv => .inl hv, fun h => absurd h (lt_irrefl _)⟩
  | succ n ih =>
    unfold eackLoop
    dsimp only
    generalize hbits : (n : ℤ) - 1 = bits
    split
    · rename_i hw
      -- a bit that counts is one of the window
      have hcount {count' : ℕ} {resends' : List ℤ} {r : ℕ × List ℤ × UtpSocket}
          (hc : maskBit mask bits ∨ count' = count) (h : Scanned base mask s count' resends' r)
          (hr : ∀ v ∈ resends', v ∈ resends ∨ s.Resendable v) :
          Scanned base mask s count resends r := by
        refine ⟨h.place, fun v hv => ?_, fun hlt => ?_⟩
        · rcases h.resends v hv with hv | hv
          · exact hr v hv
          · exact .inr hv
        · rcases hc with hb | rfl
          · obtain ⟨k, rfl, hk⟩ := maskBit_range hb
            exact ⟨k, hk, hw⟩
          · exact h.count hlt
      split
      · refine hcount ?_ (ih _ _ _) fun v hv => .inl hv
        by_cases hb : maskBit mask bits
        · exact .inl hb
        · exact .inr (if_neg hb)
      · split
        · rename_i hb
          have hpl : SamePlace s ((s.assert (s.send.outbuf.idx (base + bits) ≠
              s.send.outbuf.idx s.headIdx) .eackHead).ackPacket env
                (UInt16.ofInt (base + bits))).2 :=
            (SamePlace.of_kernel env (r := true) (m := true) (kernel_assert _ _ s)
              (beside_assert env _ s rfl)).trans (samePlace_ackPacket env _ _)
          exact hcount (.inl hb) ((ih _ _ _).of_place hpl) fun v hv => .inl hv
        · split
          · rename_i hf
            unfold fastResend at hf
            rw [Bool.and_eq_true, decide_eq_true_eq] at hf
            refine hcount (.inr rfl) (ih _ _ _) fun v hv => ?_
            rcases mem_pushResend hv with hv | rfl
            · exact .inl hv
            · exact .inr ⟨hw, hf.1⟩
          · exact hcount (.inr rfl) (ih _ _ _) fun v hv => .inl hv
    · exact ih _ _ _

theorem pointer_resendLoop (vs : List ℤ) (i : ℕ) (backOff : Bool) (s : UtpSocket) :
    (s.resendLoop env vs i backOff).2.timing.fastResendSeqNr = s.timing.fastResendSeqNr ∨
      ∃ v ∈ vs, (s.resendLoop env vs i backOff).2.timing.fastResendSeqNr = UInt16.ofInt (v + 1) := by
  induction vs generalizing i backOff s with
  | nil => exact .inl rfl
  | cons v vs ih =>
    unfold resendLoop
    split
    · dsimp only
      split
      · exact .inr ⟨v, List.mem_cons_self, rfl⟩
      · right
        rcases ih (i - 1) true ((s.sendPacket env v).setTiming { (s.sendPacket env v).timing with
          fastResendSeqNr := UInt16.ofInt (v + 1) }) with h | ⟨w, hw, h⟩
        · exact ⟨v, List.mem_cons_self, h⟩
        · exact ⟨w, List.mem_cons_of_mem _ hw, h⟩
    · rcases ih i backOff s with h | ⟨w, hw, h⟩
      · exact .inl h
      · exact .inr ⟨w, List.mem_cons_of_mem _ hw, h⟩

/-- In a window that is not empty the bits stand for packets before the next number. -/
theorem inEackWindow_gap {s : UtpSocket} (h0 : s.send.curWindowPackets ≠ 0)
    (hc : s.send.curWindowPackets.toNat ≤ 1024) {v : ℤ} (h : s.inEackWindow v) :
    (s.send.seqNr - 1 - UInt16.ofInt v).toNat ≤ 1022 := by
  unfold inEackWindow at h
  rw [decide_eq_true_eq, UInt16.lt_iff_toNat_lt] at h
  have he : s.send.seqNr - 1 - UInt16.ofInt v = s.send.seqNr - UInt16.ofInt v - 1 := by grind
  have hpos : 0 < s.send.curWindowPackets.toNat :=
    Nat.pos_of_ne_zero fun h => h0 (UInt16.toNat.inj h)
  rw [he]
  rw [UInt16.toNat_sub _ 1, UInt16.toNat_sub _ 1, UInt16.toNat_one] at h
  rw [UInt16.toNat_sub _ 1, UInt16.toNat_one]
  omega

theorem ofInt_mod (i : ℤ) : UInt16.ofInt (i % 2 ^ 16) = UInt16.ofInt i := by
  apply UInt16.toNat.inj
  have h₁ := toNat_ofInt (i % 2 ^ 16)
  have h₂ := toNat_ofInt i
  omega

/-- The resends move the pointer behind a packet of the window. The packet that is expected
next is one of them only if a later one was seen. -/
theorem rises_selectiveAck {a : UInt16} {mask : Bytes} {s : UtpSocket} (hm : mask.length ≤ 255)
    (hc : s.send.curWindowPackets.toNat ≤ 1024) (ha : (s.send.seqNr - (a + 1)).toNat ≤ 1027) :
    Rises s.send.seqNr s.timing.fastResendSeqNr
      (s.selectiveAck env (a.toNat + 2) mask).timing.fastResendSeqNr := by
  unfold selectiveAck
  split
  · exact .inl rfl
  rename_i h0
  obtain ⟨⟨hq, hcur, hf⟩, hres, hcount⟩ :=
    scanned_eackLoop env (a.toNat + 2) mask (8 * mask.length + 1) 0 [] s
  generalize s.eackLoop env (a.toNat + 2) mask (8 * mask.length + 1) 0 [] = r at hq hcur hf hres hcount ⊢
  dsimp only
  have hpoint := pointer_resendLoop env (if r.2.2.fastResend ((a.toNat : ℤ) + 2 - 1) r.1 then
    r.2.1 ++ [((a.toNat : ℤ) + 2 - 1) % 2 ^ 16] else r.2.1).reverse 4 false r.2.2
  generalize hvs : (if r.2.2.fastResend ((a.toNat : ℤ) + 2 - 1) r.1 then
    r.2.1 ++ [((a.toNat : ℤ) + 2 - 1) % 2 ^ 16] else r.2.1) = vs at hpoint ⊢
  generalize r.2.2.resendLoop env vs.reverse 4 false = b at hpoint ⊢
  have hset (u : UtpSocket) (c : LedbatController) (d : Bool) (n : UInt8) :
      ((if d then u.setCc c else u).setDuplicateAck n).timing = u.timing := by
    cases d <;> rfl
  rw [hset]
  rcases hpoint with h | ⟨v, hv, h⟩
  · exact .inl (h.trans hf)
  right
  rw [h, UInt16.ofInt_add, UInt16.ofInt_one]
  rw [List.mem_reverse, ← hvs] at hv
  have hmem {v : ℤ} (hv : v ∈ r.2.1) : ∃ w, (w - s.timing.fastResendSeqNr).toNat ≤ 1024 ∧
      (s.send.seqNr - 1 - w).toNat ≤ 2048 ∧ UInt16.ofInt v + 1 = w + 1 := by
    rcases hres v hv with hv | hv
    · cases hv
    · exact ⟨_, hv.2, (inEackWindow_gap h0 hc hv.1).trans (by omega), rfl⟩
  split at hv
  · rename_i hfast
    rw [List.mem_append, List.mem_singleton] at hv
    rcases hv with hv | rfl
    · exact hmem hv
    · unfold fastResend at hfast
      rw [Bool.and_eq_true, decide_eq_true_eq, decide_eq_true_eq, hf] at hfast
      obtain ⟨bits, hbits, hin⟩ := hcount (lt_of_lt_of_le (by decide) hfast.2)
      have hgap := inEackWindow_gap h0 hc hin
      have hbase : UInt16.ofInt ((a.toNat : ℤ) + 2 - 1) = a + 1 := by
        rw [show (a.toNat : ℤ) + 2 - 1 = a.toNat + 1 by ring, ofInt_add_one]
      have hv : s.send.seqNr - 1 - UInt16.ofInt ((a.toNat : ℤ) + 2 + bits) =
          s.send.seqNr - (a + 1) - UInt16.ofNat (bits + 2) := by
        rw [show (a.toNat : ℤ) + 2 + bits = a.toNat + ((bits + 2 : ℕ) : ℤ) by push_cast; ring,
          ofInt_add]
        grind
      rw [hv, UInt16.toNat_sub, UInt16.toNat_ofNat'] at hgap
      refine ⟨a + 1, ?_, ?_, ?_⟩
      · rw [← hbase]
        exact hfast.1
      · rw [show s.send.seqNr - 1 - (a + 1) = s.send.seqNr - (a + 1) - 1 by grind,
          UInt16.toNat_sub, UInt16.toNat_one]
        omega
      · rw [ofInt_mod, hbase]
  · exact hmem hv

theorem toNat_add_three {c : UInt16} (hc : c.toNat ≤ 1024) :
    (max (c + ACK_NR_ALLOWED_WINDOW) ACK_NR_ALLOWED_WINDOW).toNat = c.toNat + 3 := by
  have h : (c + ACK_NR_ALLOWED_WINDOW).toNat = c.toNat + 3 := by
    rw [UInt16.toNat_add]
    exact Nat.mod_eq_of_lt (by show c.toNat + 3 < 2 ^ 16; omega)
  have hle : ACK_NR_ALLOWED_WINDOW ≤ c + ACK_NR_ALLOWED_WINDOW := by
    rw [UInt16.le_iff_toNat_le, h]
    exact Nat.le_add_left 3 _
  show (if c + ACK_NR_ALLOWED_WINDOW ≤ ACK_NR_ALLOWED_WINDOW then ACK_NR_ALLOWED_WINDOW
    else c + ACK_NR_ALLOWED_WINDOW).toNat = _
  split
  · rename_i h'
    rw [← h, UInt16.le_antisymm h' hle]
  · exact h

/-- An accepted number is one of the last that this side has sent. -/
theorem near_of_valid {s : UtpSocket} {pp : ParsedPacket} (hc : s.send.curWindowPackets.toNat ≤ 1024)
    (hs : pp.type ≠ ST_SYN) (h : s.invalidAck pp = false) :
    (s.send.seqNr - 1 - pp.ackNr).toNat ≤ s.send.curWindowPackets.toNat + 3 := by
  unfold invalidAck at h
  have hcw := toNat_add_three hc
  dsimp only at h
  generalize max (s.send.curWindowPackets + ACK_NR_ALLOWED_WINDOW) ACK_NR_ALLOWED_WINDOW = w at h hcw
  rw [decide_eq_true hs, Bool.true_or, Bool.true_and, Bool.or_eq_false_iff, ← Bool.not_eq_true,
    ← Bool.not_eq_true, wrappingCompareLess_iff, wrappingCompareLess_iff] at h
  simp only [UInt32.toUInt16_sub, UInt16.toUInt16_toUInt32] at h
  obtain ⟨h₁, h₂⟩ := h
  rw [show (1 : UInt32).toUInt16 = 1 from rfl] at h₁ h₂
  -- how far the number lies behind the last one
  generalize hd : s.send.seqNr - 1 - pp.ackNr = d
  rw [show pp.ackNr - (s.send.seqNr - 1) = 0 - d by grind, show s.send.seqNr - 1 - pp.ackNr = d by grind,
    UInt16.lt_iff_toNat_lt, UInt16.toNat_sub, UInt16.toNat_zero] at h₁
  rw [show s.send.seqNr - 1 - w - pp.ackNr = d - w by grind,
    show pp.ackNr - (s.send.seqNr - 1 - w) = w - d by grind, UInt16.lt_iff_toNat_lt,
    UInt16.toNat_sub, UInt16.toNat_sub] at h₂
  have := d.toNat_lt
  omega

theorem seqNr_runs {pp : ParsedPacket} {b : Bytes} {s t : UtpSocket} (h : Runs (.eack pp) b s t) :
    t.kernel.seqNr = s.kernel.seqNr := by
  obtain ⟨acts, ht, -⟩ := h
  exact ht.invariant (I := fun k => k.seqNr = s.kernel.seqNr)
    (fun _ _ _ hk hm => (Kernel.seqNr_micro_eack hm).trans hk) rfl

/-- The distance from the pointer to the next number. -/
def gap (s : UtpSocket) : ℕ := (s.send.seqNr - s.timing.fastResendSeqNr).toNat

/-- What a packet that acknowledges `a` may leave between the pointer and the next number. -/
def gapAfter (a : UInt16) (s : UtpSocket) : ℕ :=
  (s.send.seqNr - raised a s.timing.fastResendSeqNr).toNat

theorem gap_advanceSendWindow (pp : ParsedPacket) {s : UtpSocket} (hw : s.kernel.Window)
    (hs : s.kernel.state = .synSent → s.kernel.ackNr = pp.seqNr - 1) {t : UtpSocket}
    (ht : t = s.advanceSendWindow env pp (s.kernel.ackCount pp)) :
    t.kernel.Window ∧ t.kernel.seqNr = s.kernel.seqNr ∧
      (s.gapAfter pp.ackNr ≤ 4096 → t.gap ≤ s.gapAfter pp.ackNr) := by
  obtain ⟨pre, acts, -, hm, -⟩ := advanced_advanceSendWindow env pp hs
  rw [advanceSendWindow_eq env (s.kernel.ackCount_le pp)] at ht
  have hpoint : (((s.peerWindow pp.windowsize).ackState pp (s.kernel.ackCount pp)
      ).raiseFastResend pp).timing.fastResendSeqNr = raised pp.ackNr s.timing.fastResendSeqNr := by
    rw [raiseFastResend_pointer, pointer_beside env (r := true) (m := true) (beside_ackState env _ _ _),
      pointer_beside env (r := true) (m := true) (beside_peerWindow env _ s)]
  generalize ((s.peerWindow pp.windowsize).ackState pp (s.kernel.ackCount pp)).raiseFastResend pp = v
    at hm hpoint ht
  have hk : (v.advance env (s.kernel.ackCount pp)).kernel =
      (v.ackLoop env (s.kernel.ackCount pp)).finishAdvance.kernel := by
    rw [advance_eq, kernel_assert]
  rw [← hk] at hm
  have hb := pointer_beside env (r := true) (m := true)
    (beside_advance env (r := true) (s.kernel.ackCount pp) nofun v)
  generalize v.advance env (s.kernel.ackCount pp) = w at hm hb ht
  have hww := (Kernel.window_micro hw hm).1
  have hq := Kernel.seqNr_micro_ack hm
  have hl := runs_sendLast (x := .eack pp) env w
  have hbl := pointer_beside env (r := true) (beside_sendLast env w)
  have hwl := window_runs hl hww
  have hql := (seqNr_runs hl).trans hq
  generalize w.sendLast env = y at hwl hql hbl ht
  have hft := runs_fastTimeout (x := .eack pp) env y
  have hrise := rises_fastTimeout env hwl
  rw [← ht] at hft hrise
  have hqt := (seqNr_runs hft).trans hql
  refine ⟨window_runs hft hwl, hqt, fun hf => ?_⟩
  have hqy : y.send.seqNr = s.send.seqNr := hql
  have hqt' : t.send.seqNr = s.send.seqNr := hqt
  rw [hqy, hbl, hb, hpoint] at hrise
  unfold gap
  rw [hqt']
  exact hrise.gap hf

theorem length_chain {b bits : Bytes} {fuel : ℕ} {extension : UInt8} {pos : ℕ}
    {selack : Option Bytes} {end' : ℕ × Option Bytes} {mask : Bytes}
    (hs : ∀ mask, selack = some mask → mask.length ≤ 255)
    (h : (parseExtensions b fuel extension pos selack bits).1 = some end')
    (hm : end'.2 = some mask) : mask.length ≤ 255 := by
  induction fuel generalizing extension pos selack bits with
  | zero => cases h
  | succ fuel ih =>
    have hs' : ∀ mask, (if extension = 1 then
        some ((b.drop (pos + 2)).take (rd8 b (pos + 1)).toNat) else selack) = some mask →
          mask.length ≤ 255 := by
      intro mask hmask
      split at hmask
      · cases hmask
        have := (rd8 b (pos + 1)).toNat_lt
        rw [List.length_take]
        omega
      · exact hs mask hmask
    unfold parseExtensions at h
    dsimp only at h
    split at h
    · cases h
    · split at h
      · cases h
      · split at h
        · cases h
          exact hs' mask hm
        · exact ih hs' h

theorem length_selack {b bits : Bytes} {pp : ParsedPacket} (h : (parseBytes b bits).1 = some pp)
    {mask : Bytes} (hm : pp.selack = some mask) : mask.length ≤ 255 := by
  unfold parseBytes at h
  dsimp only at h
  split at h
  · cases h
  · split at h
    · cases h
    · split at h
      · cases h
        cases hm
      · obtain ⟨x, hx, rfl⟩ := Option.map_eq_some_iff.1 h
        exact length_chain (by simp) hx hm

theorem gap_processAck {b bits : Bytes} {pp : ParsedPacket}
    (hp : (parseBytes b bits).1 = some pp) (time : UInt64) {s : UtpSocket} (hw : s.kernel.Window)
    (hs : s.kernel.state = .synSent → s.kernel.ackNr = pp.seqNr - 1)
    (ha : (s.kernel.seqNr - (pp.ackNr + 1)).toNat ≤ 1027) {t : UtpSocket}
    (ht : t = s.processAck env pp time) : t.kernel.Window ∧ t.kernel.seqNr = s.kernel.seqNr ∧
      (s.gapAfter pp.ackNr ≤ 4096 → t.gap ≤ s.gapAfter pp.ackNr) := by
  unfold processAck at ht
  have hq : Quiet s ((s.countDuplicate pp).processAcks env pp (s.ackCount pp) time) :=
    (quiet_countDuplicate pp s).trans (quiet_processAcks env pp _ time _)
  have hpl : SamePlace s ((s.countDuplicate pp).processAcks env pp (s.ackCount pp) time) :=
    .of_kernel env (r := true) hq.1 ((beside_countDuplicate env pp s).trans
      (beside_processAcks env pp _ time _))
  have hk := hq.1
  have hacks : s.ackCount pp = s.kernel.ackCount pp := rfl
  dsimp only at ht
  generalize s.ackCount pp = acks at hpl hk hacks ht
  generalize (s.countDuplicate pp).processAcks env pp acks time = u at hpl hk ht
  rw [← hk] at hw hs hacks
  rw [hacks] at ht
  have hgap : u.gapAfter pp.ackNr = s.gapAfter pp.ackNr := by
    unfold gapAfter
    rw [hpl.1, hpl.2.2]
  rw [← hgap]
  obtain ⟨hwv, hqv, hgv⟩ := gap_advanceSendWindow env pp hw hs rfl
  generalize u.advanceSendWindow env pp (u.kernel.ackCount pp) = v at hwv hqv hgv ht
  have hsel := runs_selectiveAckOf env pp v
  have hrise : Rises v.send.seqNr v.timing.fastResendSeqNr
      (v.selectiveAckOf env pp).timing.fastResendSeqNr := by
    unfold selectiveAckOf
    split
    · rename_i mask hm
      refine rises_selectiveAck env (length_selack hp hm) hwv.length_le ?_
      have hqs : v.send.seqNr = s.kernel.seqNr := hqv.trans (congrArg Kernel.seqNr hk)
      rw [hqs]
      exact ha
    · exact .inl rfl
  have hww := window_runs hsel hwv
  have hqw := (seqNr_runs hsel).trans hqv
  have hrise (hf : u.gapAfter pp.ackNr ≤ 4096) := hrise.gap ((hgv hf).trans hf)
  have hqe : (v.selectiveAckOf env pp).send.seqNr = v.send.seqNr := seqNr_runs hsel
  generalize v.selectiveAckOf env pp = w at hrise hww hqw hqe ht
  have hgw (hf : u.gapAfter pp.ackNr ≤ 4096) : w.gap ≤ u.gapAfter pp.ackNr := by
    unfold gap at hgv ⊢
    rw [hqe]
    exact (hrise hf).trans (hgv hf)
  have hlast : Runs (.eack pp) [] w t := by
    rw [ht]
    exact (runs_assertHead (a := .incomingHead) (fun k => Iff.rfl) _).trans_nil
      (runs_becomeWritable _)
  have hplast : t.timing.fastResendSeqNr = w.timing.fastResendSeqNr := by
    rw [ht]
    exact pointer_beside env (r := true) (m := true)
      ((beside_assert env _ w rfl).trans (beside_becomeWritable env _))
  have hqt := seqNr_runs hlast
  refine ⟨window_runs hlast hww, (hqt.trans hqw).trans (congrArg Kernel.seqNr hk), fun hf => ?_⟩
  have hqt' : t.send.seqNr = w.send.seqNr := hqt
  unfold gap at hgw ⊢
  rw [hqt', hplast]
  exact hgw hf

theorem gap_takePacket {b bits : Bytes} {pp : ParsedPacket}
    (hp : (parseBytes b bits).1 = some pp) (time : UInt64) {s : UtpSocket} (hw : s.kernel.Window)
    (hs : s.kernel.state = .synSent → s.kernel.ackNr = pp.seqNr - 1)
    (hd : (s.kernel.seqDistance pp).toNat < 1024)
    (ha : (s.kernel.seqNr - (pp.ackNr + 1)).toNat ≤ 1027) :
    (s.takePacket env pp time).kernel.seqNr = s.kernel.seqNr ∧ (s.gapAfter pp.ackNr ≤ 4096 →
      (s.takePacket env pp time).gap ≤ s.gapAfter pp.ackNr) := by
  obtain ⟨hwt, hqt, hgt⟩ := gap_processAck env hp time hw hs ha rfl
  have hspec := processAck_spec env pp time hs
  unfold takePacket
  dsimp only
  generalize s.processAck env pp time = t at hwt hqt hgt hspec ⊢
  split_ifs with h₁ h₂
  · exact ⟨hqt, hgt⟩
  · exact ⟨hqt, hgt⟩
  obtain ⟨t', u, hq, had, hr⟩ := hspec
  have hack := (ackNr_of_eack hr).trans (had.ackNr.trans (congrArg Kernel.ackNr hq.1))
  have hopen : t.kernel.IsOpen := by
    by_contra hc
    exact h₂ ⟨fun h => hc (.inl h), fun h => hc (.inr h)⟩
  have hsd : s.seqDistance pp = t.kernel.seqDistance pp := by
    show s.kernel.seqDistance pp = _
    unfold Kernel.seqDistance
    rw [hack]
  have hsd' : s.kernel.seqDistance pp = t.kernel.seqDistance pp := hsd
  rw [hsd'] at hd
  rw [hsd]
  obtain ⟨acts, htr, -⟩ := (delivered_deliverData env hopen hd h₁).runs
  have hpoint := pointer_beside env (r := true) (m := true)
    (beside_deliverData env pp (t.kernel.seqDistance pp) t)
  generalize t.deliverData env pp (t.kernel.seqDistance pp) = v at htr hpoint ⊢
  have hset : t.kernel.state ≠ .uninitialized := hopen.ne_uninitialized
  have hqv := (htr.invariant (I := fun k : Kernel => k.state ≠ .uninitialized ∧
      k.seqNr = t.kernel.seqNr) (fun _ _ _ hk hm => ⟨Kernel.set_micro hk.1 hm, by
    rcases Kernel.numbers_micro hk.1 (fun _ h => by cases h) hm with ⟨h, -⟩ | ⟨h, -⟩
    · exact h.trans hk.2
    · cases h⟩) ⟨hset, rfl⟩).2
  refine ⟨hqv.trans hqt, ?_⟩
  have hqv' : v.send.seqNr = t.send.seqNr := hqv
  unfold gap at hgt ⊢
  rw [hqv', hpoint]
  exact hgt

/-! Runs with the acknowledgement numbers they have applied. -/

/-- A SYN reaches no socket but the one that is made for it. -/
def Op.Routed (op : Op) : Prop :=
  ∀ b, op = .processIncoming b → (PacketFormatV1.ofBytes b).type ≠ ST_SYN

/-- The life of a socket that `c` set up and left as `s₀`, with the numbers applied since. -/
inductive Acked (targetDelay rcvbuf sndbuf : ℕ) : Call → UtpSocket → List UInt16 → UtpSocket → Prop
  | setUp {calls c s s₀} (h : Run targetDelay rcvbuf sndbuf calls s)
      (ho : ∀ c ∈ calls, c.op.Early) (hs : Step s [c] s₀) (hc : c.op.SetsUp) :
      Acked targetDelay rcvbuf sndbuf c s₀ [] s₀
  | call {c s₀ acks s} (h : Acked targetDelay rcvbuf sndbuf c s₀ acks s) (env : Env) (ms : UInt64)
      (tick : ℕ) (op : Op) (ho : op.Enabled s) (hr : op.Routed) :
      Acked targetDelay rcvbuf sndbuf c s₀ (acks ++ op.acks (s.lend ms tick))
        (op.run env (s.lend ms tick))

/-- Where the pointer is: as it was set up, or ahead of the most advanced number. -/
def Placed (s₀ : UtpSocket) (acks : List UInt16) (s : UtpSocket) : Prop :=
  match furthest acks with
  | none => s.kernel.Unopened ∧ s.send.seqNr = s₀.send.seqNr ∧
      s.timing.fastResendSeqNr = s₀.timing.fastResendSeqNr
  | some A => s.kernel.Ahead A s.timing.fastResendSeqNr

theorem pointer_run {op : Op} {s : UtpSocket} (hs : s.conn.state ≠ .uninitialized)
    (ho : op.Enabled s) (hop : ∀ b, op ≠ .processIncoming b) :
    (op.run env s).timing.fastResendSeqNr = s.timing.fastResendSeqNr := by
  have hb (h : op.Routine) := pointer_beside env (beside_run env (f := false) h (fun _ => hop) s)
  cases op with
  | connect addr seed =>
    simp only [Op.run, if_neg hs]
    exact pointer_beside env (r := true) (m := true) (beside_connectAgain env s)
  | accept addr syn => exact absurd ho hs
  | onIcmpFragmentation nextHopMtu =>
    have ha (c : Prop) [Decidable c] (a : Assertion) (m : MtuDiscovery) :
        ((s.assert c a).setMtu m).timing = s.timing := by
      unfold UtpSocket.assert
      split <;> rfl
    simp only [Op.run]
    unfold onIcmpFragmentation
    split <;> rw [ha]
  | processIncoming b => exact absurd rfl (hop b)
  | _ => exact hb trivial

theorem not_ack_of_takes {op : Op} {x : Input} (hop : ∀ b, op ≠ .processIncoming b)
    (h : op.Takes x) (pp : ParsedPacket) : x ≠ .ack pp := by
  rintro rfl
  cases op with
  | processIncoming b => exact hop b rfl
  | _ => cases h

variable {s₀ : UtpSocket} {acks : List UInt16}

/-- Steps without a cumulative acknowledgement leave the pointer in its place. -/
theorem Placed.of_trace {step : Kernel → List Act → Kernel → Prop} {l : List Act} {s t : UtpSocket}
    (hstep : ∀ k l k', step k l k' → ∃ x, (∀ pp, x ≠ .ack pp) ∧ Kernel.Micro x k l k')
    (h : Trace step s.kernel l t.kernel) (hw : s.kernel.Window) (hs : s.conn.state ≠ .uninitialized)
    (hf : t.timing.fastResendSeqNr = s.timing.fastResendSeqNr) (hp : Placed s₀ acks s) :
    Placed s₀ acks t := by
  unfold Placed at hp ⊢
  generalize furthest acks = A at hp ⊢
  cases A with
  | none =>
    obtain ⟨ho, hq, hf'⟩ := hp
    obtain ⟨h₁, h₂⟩ := h.invariant (I := fun k => k.Unopened ∧ k.seqNr = s.kernel.seqNr) (by
      rintro k l k' ⟨ho, hq⟩ hst
      obtain ⟨x, hx, hm⟩ := hstep k l k' hst
      obtain ⟨h₁, h₂⟩ := Kernel.unopened_micro ho hx hm
      exact ⟨h₁, h₂.trans hq⟩) ⟨ho, rfl⟩
    exact ⟨h₁, Eq.trans h₂ hq, hf.trans hf'⟩
  | some A =>
    rw [hf]
    exact (h.invariant (I := fun k => k.Window ∧ k.state ≠ .uninitialized ∧
      k.Ahead A s.timing.fastResendSeqNr) (by
      rintro k l k' ⟨hw, hu, ha⟩ hst
      obtain ⟨x, hx, hm⟩ := hstep k l k' hst
      exact ⟨(Kernel.window_micro hw hm).1, Kernel.set_micro hu hm,
        Kernel.ahead_micro hw hu hx ha hm⟩) ⟨hw, hs, hp⟩).2.2

theorem type_parseBytes {b bits : Bytes} {pp : ParsedPacket}
    (h : (parseBytes b bits).1 = some pp) : pp.type = (PacketFormatV1.ofBytes b).type := by
  unfold parseBytes at h
  dsimp only at h
  split at h
  · cases h
  · split at h
    · cases h
    · split at h
      · cases h
        rfl
      · obtain ⟨x, hx, rfl⟩ := Option.map_eq_some_iff.1 h
        rfl

/-- The first acknowledgement brings the pointer to the window, or finds it there. -/
def FirstNear (s₀ : UtpSocket) (a : UInt16) : Prop :=
  (s₀.send.seqNr - raised a s₀.timing.fastResendSeqNr).toNat ≤ (s₀.send.seqNr - (a + 1)).toNat

/-- An acknowledgement `a` takes the pointer along. -/
theorem placed_accepted {s t : UtpSocket} {a : UInt16} (hw : s.kernel.Window)
    (ha : (s.kernel.seqNr - (a + 1)).toNat ≤ s.kernel.cur.toNat + 3) (hp : Placed s₀ acks s)
    (hfirst : acks = [] → FirstNear s₀ a) (hq : t.kernel.seqNr = s.kernel.seqNr)
    (hgap : s.gapAfter a ≤ 4096 → t.gap ≤ s.gapAfter a) : Placed s₀ (acks ++ [a]) t := by
  have hcur := hw.length_le
  have hqs : s.kernel.seqNr = s.send.seqNr := rfl
  unfold Placed at hp ⊢
  rw [furthest_append]
  cases hA : furthest acks with
  | none =>
    rw [hA] at hp
    obtain ⟨-, hq₀, hf₀⟩ := hp
    have hnil : acks = [] := by
      cases acks with
      | nil => rfl
      | cons => cases hA
    have hn := hfirst hnil
    unfold FirstNear at hn
    rw [← hq₀, ← hf₀] at hn
    have hg := hgap (hn.trans (by rw [hqs] at ha; omega))
    dsimp only
    refine ⟨?_, ?_⟩
    · rw [hq]
      unfold gap gapAfter at hg
      have hqt : t.send.seqNr = s.kernel.seqNr := hq
      rw [hqt] at hg
      exact hg.trans hn
    · rw [hq]
      omega
  | some A =>
    rw [hA] at hp
    obtain ⟨h₁, h₂⟩ := hp
    have hmin := gap_mostAdvanced (q := s.kernel.seqNr) (A := A) (a := a) (by omega) (by omega)
    have hr := gap_raised (q := s.kernel.seqNr) (a := a) (f := s.timing.fastResendSeqNr)
      (by omega) (by omega)
    have hg := hgap (by unfold gapAfter; rw [← hqs]; omega)
    unfold gap gapAfter at hg
    have hqt : t.send.seqNr = s.kernel.seqNr := hq
    rw [hqt, ← hqs] at hg
    dsimp only
    exact ⟨by rw [hq]; omega, by rw [hq]; omega⟩

/-- A packet that fails a test leaves the pointer in its place. -/
theorem placed_refused {s t : UtpSocket} (hw : s.kernel.Window) (hs : s.conn.state ≠ .uninitialized)
    (hk : t.kernel = s.kernel ∨ ∃ pp, t.kernel = s.kernel.expect pp)
    (hb : Beside env false false false s t) (hp : Placed s₀ acks s) : Placed s₀ acks t := by
  have htrace : ∃ l pp, Trace (Kernel.Micro (.packet pp)) s.kernel l t.kernel := by
    rcases hk with hk | ⟨pp, hk⟩
    · rw [hk]
      exact ⟨[], ⟨[], none, 0, 0, 0, 0, 0, 0⟩, .refl _⟩
    · rw [hk]
      unfold Kernel.expect
      split
      · exact ⟨_, pp, .single (.synSentAck ‹_›)⟩
      · exact ⟨[], pp, .refl _⟩
  obtain ⟨l, pp, ht⟩ := htrace
  exact hp.of_trace (fun _ _ _ hm => ⟨.packet pp, (fun _ h => by cases h), hm⟩) ht hw hs
    (pointer_beside env hb)

theorem placed_datagram {b : Bytes} {s : UtpSocket} (hw : s.kernel.Window)
    (hs : s.conn.state ≠ .uninitialized) (hr : (Op.processIncoming b).Routed) (hp : Placed s₀ acks s)
    (hfirst : acks = [] → ∀ a, ((Op.processIncoming b).acks s).head? = some a → FirstNear s₀ a) :
    Placed s₀ (acks ++ (Op.processIncoming b).acks s) (s.processIncoming env b false) := by
  cases arrives_processIncoming env b s with
  | dropped hpb hk hb =>
    rw [acks_dropped hpb, List.append_nil]
    exact placed_refused env hw hs (.inl hk) hb hp
  | @refused pp hpb hn hk hb =>
    rw [acks_refused hpb hn, List.append_nil]
    exact placed_refused env hw hs (hk.imp_right fun h => ⟨pp, h⟩) hb hp
  | @accepted pp time u hpb hacc hu ht =>
    rw [acks_accepted hpb hacc] at hfirst ⊢
    obtain ⟨hk, hb⟩ := hu
    have hsame : (s.kernel.expect pp).seqNr = s.kernel.seqNr ∧ (s.kernel.expect pp).cur = s.kernel.cur ∧
        (s.kernel.expect pp).state = s.kernel.state := by
      unfold Kernel.expect
      split <;> exact ⟨rfl, rfl, rfl⟩
    have hwu : u.kernel.Window := by
      rw [hk]
      exact hw.expect pp
    have hsent : u.kernel.state = .synSent → u.kernel.ackNr = pp.seqNr - 1 := by
      rw [hk]
      exact Kernel.expect_synSent pp
    have hd : (u.kernel.seqDistance pp).toNat < 1024 := by
      rw [hk]
      exact hacc.2
    have hsyn : pp.type ≠ ST_SYN := by
      rw [type_parseBytes hpb]
      exact hr b rfl
    have hnear := near_of_valid (s := s) hw.length_le hsyn hacc.1
    have hgapeq : s.send.seqNr - 1 - pp.ackNr = s.kernel.seqNr - (pp.ackNr + 1) := by
      show s.kernel.seqNr - 1 - pp.ackNr = _
      grind
    rw [hgapeq] at hnear
    have hqu : u.kernel.seqNr = s.kernel.seqNr := by rw [hk, hsame.1]
    have hcur := hw.length_le
    have hnear' : (s.kernel.seqNr - (pp.ackNr + 1)).toNat ≤ s.kernel.cur.toNat + 3 := hnear
    have hau : (u.kernel.seqNr - (pp.ackNr + 1)).toNat ≤ 1027 := by
      rw [hqu]
      omega
    have hgapu : u.gapAfter pp.ackNr = s.gapAfter pp.ackNr := by
      unfold gapAfter
      rw [pointer_beside env hb, show u.send.seqNr = s.send.seqNr from hqu]
    obtain ⟨hqt, hgt⟩ := gap_takePacket env hpb time hwu hsent hd hau
    rw [← ht] at hqt hgt
    rw [hgapu] at hgt
    exact placed_accepted hw hnear' hp (fun h => hfirst h _ rfl)
      (hqt.trans hqu) hgt

theorem placed_call {s : UtpSocket} {op : Op} (hw : s.kernel.Window)
    (hs : s.conn.state ≠ .uninitialized) (ho : op.Enabled s) (hr : op.Routed) (hp : Placed s₀ acks s)
    (hfirst : acks = [] → ∀ a, (op.acks s).head? = some a → FirstNear s₀ a) :
    Placed s₀ (acks ++ op.acks s) (op.run env s) := by
  by_cases hop : ∀ b, op ≠ .processIncoming b
  · have hnil : op.acks s = [] := by
      cases op with
      | processIncoming b => exact absurd rfl (hop b)
      | _ => rfl
    rw [hnil, List.append_nil]
    obtain ⟨l, ht, -⟩ := runs_op env ho
    exact hp.of_trace (fun k l k' ⟨x, hx, hm⟩ => ⟨x, not_ack_of_takes hop hx, hm⟩) ht hw hs
      (pointer_run env hs ho hop)
  · simp only [not_forall, not_not] at hop
    obtain ⟨b, rfl⟩ := hop
    exact placed_datagram env hw hs hr hp hfirst

/-! The set-up. -/

theorem Op.SetsUp.cases {op : Op} (h : op.SetsUp) :
    (∃ addr seed, op = .connect addr seed) ∨ ∃ addr syn, op = .accept addr syn := by
  cases op with
  | connect addr seed => exact .inl ⟨addr, seed, rfl⟩
  | accept addr syn => exact .inr ⟨addr, syn, rfl⟩
  | _ => cases h

/-- `connect` leaves the pointer as it was. -/
theorem pointer_connectWith (addr : Address) (seed : UInt32) (s : UtpSocket) :
    (s.connectWith env addr seed).timing.fastResendSeqNr = s.timing.fastResendSeqNr := by
  obtain ⟨n, ms, hs⟩ := outer_initializeSocket env addr seed seed (seed + 1) s
  unfold connectWith
  rw [pointer_beside env (beside_sendSyn env _)]
  exact congrArg OuterFields.fastResend hs

/-- `accept_syn` sets the pointer to the next number. -/
theorem pointer_acceptWith (addr : Address) (b : Bytes) (s : UtpSocket) :
    (s.acceptWith env addr b).timing.fastResendSeqNr = (s.acceptWith env addr b).send.seqNr := by
  unfold acceptWith
  dsimp only
  generalize s.initializeSocket env addr (PacketFormatV1.ofBytes b).connid.toUInt32
    ((PacketFormatV1.ofBytes b).connid.toUInt32 + 1) (PacketFormatV1.ofBytes b).connid.toUInt32 = t
  have hpoint : (t.acceptSyn env (PacketFormatV1.ofBytes b).seqNr).timing.fastResendSeqNr =
      (t.acceptSyn env (PacketFormatV1.ofBytes b).seqNr).send.seqNr := rfl
  have hst : (t.acceptSyn env (PacketFormatV1.ofBytes b).seqNr).kernel.state = .synRecv := rfl
  generalize t.acceptSyn env (PacketFormatV1.ofBytes b).seqNr = u at hpoint hst ⊢
  have hk := (quiet_processIncoming_syn env b hst).1
  have hb := (beside_processIncoming_syn env (r := true) (f := false) (m := true) b u).trans
    (beside_sendAck env true _)
  have hq : ((u.processIncoming env b true).sendAck env true).send.seqNr = u.send.seqNr :=
    congrArg Kernel.seqNr ((sendAck_spec env true _).1.trans hk)
  rw [pointer_beside env hb, hq, hpoint]

theorem unopened_setUp {s : UtpSocket} {op : Op} (hs : s.conn.state = .uninitialized)
    (hc : op.SetsUp) : (op.run env s).kernel.Unopened := by
  have hst : (op.run env s).kernel.state = .synSent ∨ (op.run env s).kernel.state = .synRecv := by
    rcases hc.cases with ⟨addr, seed, rfl⟩ | ⟨addr, syn, rfl⟩
    · simp only [Op.run, if_pos hs]
      exact .inl (state_connectWith env addr seed s)
    · exact .inr (state_acceptWith env addr syn s)
  unfold Kernel.Unopened Kernel.IsOpen
  rcases hst with h | h <;>
  · rw [h]
    simp

def Op.Dials : Op → Prop
  | .connect _ _ => True
  | _ => False

variable {targetDelay rcvbuf sndbuf : ℕ} {c : Call}

theorem Acked.run {s : UtpSocket} (h : Acked targetDelay rcvbuf sndbuf c s₀ acks s) :
    ∃ calls, Run targetDelay rcvbuf sndbuf calls s := by
  induction h with
  | setUp h ho hs hc => exact ⟨_, h.trans (.single hs)⟩
  | call h env ms tick op ho hr ih =>
    obtain ⟨calls, h⟩ := ih
    exact ⟨_, h.trans (.single (.call env ms tick op ho))⟩

theorem unset_run {calls : List Call} {s : UtpSocket} (h : Run targetDelay rcvbuf sndbuf calls s)
    (ho : ∀ c ∈ calls, c.op.Early) : s.Unset :=
  unset_early (C := fun _ _ _ => True) (h.mono fun _ _ _ hs => by
    cases hs with
    | call env ms tick op h => exact .call env ms tick op h trivial) ho (unset_new _ _ _)

theorem Acked.placed {s : UtpSocket} (h : Acked targetDelay rcvbuf sndbuf c s₀ acks s)
    (hfirst : ∀ a, acks.head? = some a → FirstNear s₀ a) :
    s.conn.state ≠ .uninitialized ∧ Placed s₀ acks s := by
  induction h with
  | setUp h ho hs hc =>
    have hu := unset_run h ho
    refine ⟨set_setUp hs hc hu.state, ?_⟩
    cases hs with
    | call env ms tick op hop => exact ⟨unopened_setUp env (s := UtpSocket.lend ms tick _) hu.state hc, rfl, rfl⟩
  | @call c s₀ acks s h env ms tick op ho hr ih =>
    obtain ⟨hset, hp⟩ := ih fun a ha => hfirst a (by
      cases acks with
      | nil => cases ha
      | cons => exact ha)
    obtain ⟨calls, hrun⟩ := h.run
    have hw : (s.lend ms tick).kernel.Window := (window_run hrun).1
    have ho' := ho.lend ms tick
    refine ⟨set_step (.call env ms tick op ho) hset, placed_call env hw hset ho' hr hp fun hnil a ha => ?_⟩
    rw [hnil] at hfirst
    exact hfirst a ha

/-- Where the set-up leaves the pointer. -/
theorem Acked.start {s : UtpSocket} (h : Acked targetDelay rcvbuf sndbuf c s₀ acks s) :
    c.op.Dials ∧ s₀.timing.fastResendSeqNr = 1 ∨ s₀.timing.fastResendSeqNr = s₀.send.seqNr := by
  induction h with
  | call h env ms tick op ho hr ih => exact ih
  | setUp h ho hs hc =>
    have hu := unset_run h ho
    cases hs with
    | call env ms tick op hop =>
      rcases hc.cases with ⟨addr, seed, rfl⟩ | ⟨addr, syn, rfl⟩
      · left
        have hst : (UtpSocket.lend ms tick _).conn.state = .uninitialized := hu.state
        refine ⟨trivial, ?_⟩
        simp only [Op.run, if_pos hst]
        rw [pointer_connectWith]
        exact congrArg TimingState.fastResendSeqNr hu.timing
      · exact .inr (pointer_acceptWith env addr syn _)

theorem firstNear_of_start {a : UInt16} (h : s₀.timing.fastResendSeqNr = 1 ∧
      (a < 0x8000 ∨ 1 - (a + 1) ≤ s₀.send.seqNr - (a + 1)) ∨
    s₀.timing.fastResendSeqNr = s₀.send.seqNr) : FirstNear s₀ a := by
  unfold FirstNear raised
  rcases h with ⟨hf, ha⟩ | hf
  · rw [hf]
    split
    · exact le_refl _
    · rename_i hless
      rw [← UInt16.le_iff_toNat_le, ← le_iff_gap]
      rcases ha with ha | ha
      · -- below 2^15 only 0 is not ahead of the pointer
        have h0 : a = 0 := by
          by_contra h0
          refine hless ((wrappingCompareLess_iff _ _).2 ?_)
          rw [UInt16.toUInt16_toUInt32, UInt16.toUInt16_toUInt32,
            show a + 1 - 1 = a by grind, show 1 - (a + 1) = 0 - a by grind]
          rw [UInt16.lt_iff_toNat_lt] at ha ⊢
          rw [UInt16.toNat_sub, UInt16.toNat_zero]
          have hpos : a.toNat ≠ 0 := fun h => h0 (UInt16.toNat.inj h)
          have h8 : (0x8000 : UInt16).toNat = 2 ^ 15 := rfl
          omega
        rw [h0]
        simp
      · exact ha
  · rw [hf]
    split
    · exact le_refl _
    · simp

/-- In every life the fast resend pointer lies between the number after the most advanced
acknowledgement and the next number, if the first acknowledgement of a socket that dialled is
below 2^15 or finds the pointer there. -/
theorem fastResend_tracks {s : UtpSocket} (h : Acked targetDelay rcvbuf sndbuf c s₀ acks s)
    (hfirst : c.op.Dials → ∀ a, acks.head? = some a →
      a < 0x8000 ∨ 1 - (a + 1) ≤ s₀.send.seqNr - (a + 1)) :
    ∀ A, furthest acks = some A →
      s.timing.fastResendSeqNr - (A + 1) ≤ s.send.seqNr - (A + 1) := by
  intro A hA
  have hp := (h.placed fun a ha => firstNear_of_start (h.start.imp_left fun ⟨hd, hf⟩ =>
    ⟨hf, hfirst hd a ha⟩)).2
  unfold Placed at hp
  rw [hA] at hp
  rw [le_iff_gap, UInt16.le_iff_toNat_le]
  exact hp.between

/-- A socket that has dialled with the SYN number `n`. -/
def dialledAt (n : UInt16) : UtpSocket :=
  Op.run (drawingHost n.toUInt32) ((new CCONTROL_TARGET 4096 4096).lend 0 0) (.connect ⟨0, 0⟩ 7)

/-- The same after the answer to its SYN. -/
def answeredAt (n : UInt16) : UtpSocket :=
  Op.run stillHost ((dialledAt n).lend 0 0) (.processIncoming (statePacket 100 n))

theorem acked_answeredAt (n : UInt16) :
    ∃ c, c.op.Dials ∧ Acked CCONTROL_TARGET 4096 4096 c (dialledAt n)
      ([] ++ (Op.processIncoming (statePacket 100 n)).acks ((dialledAt n).lend 0 0)) (answeredAt n) := by
  refine ⟨_, ?_, .call (.setUp (.refl _) (by simp) (.call (drawingHost n.toUInt32) 0 0
    (.connect ⟨0, 0⟩ 7) trivial) trivial) stillHost 0 0 (.processIncoming (statePacket 100 n)) trivial ?_⟩
  · trivial
  · rintro b ⟨⟩
    have htype : (PacketFormatV1.ofBytes (statePacket 100 n)).type = ST_STATE := by
      rw [← List.append_nil (statePacket 100 n), statePacket, PacketFormatV1.ofBytes_toBytes]
      show (freshHdr ST_STATE).type = ST_STATE
      decide
    rw [htype]
    decide

theorem fastResend_tracks_answered :
    (answeredAt 0x7fff).timing.fastResendSeqNr - 0x8000 ≤ (answeredAt 0x7fff).send.seqNr - 0x8000 := by
  obtain ⟨c, -, h⟩ := acked_answeredAt 0x7fff
  have hacks : [] ++ (Op.processIncoming (statePacket 100 0x7fff)).acks ((dialledAt 0x7fff).lend 0 0) =
      [0x7fff] := by
    decide +kernel
  rw [hacks] at h
  exact fastResend_tracks h (fun _ a ha => .inl (by cases ha; decide)) 0x7fff rfl

/-- A SYN number in the upper half leaves the pointer behind at 1. -/
theorem fastResend_stuck : ¬ ∀ targetDelay rcvbuf sndbuf c s₀ acks s,
    Acked targetDelay rcvbuf sndbuf c s₀ acks s → ∀ A, furthest acks = some A →
      s.timing.fastResendSeqNr - (A + 1) ≤ s.send.seqNr - (A + 1) := by
  intro hall
  obtain ⟨c, -, h⟩ := acked_answeredAt 0xc000
  have hacks : [] ++ (Op.processIncoming (statePacket 100 0xc000)).acks
      ((dialledAt 0xc000).lend 0 0) = [0xc000] := by decide +kernel
  rw [hacks] at h
  have hle := hall _ _ _ _ _ _ _ h 0xc000 rfl
  have hlt : ¬ (answeredAt 0xc000).timing.fastResendSeqNr - (0xc000 + 1) ≤
      (answeredAt 0xc000).send.seqNr - (0xc000 + 1) := by decide +kernel
  exact hlt hle

end UtpSocket

end Utp
