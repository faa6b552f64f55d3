import LibUtp.Invariant.ReorderBuffer

/-! The EACK bitmap: what `send_ack` and `send_keep_alive` write and what the peer's
`parse_packet` and `selective_ack` read there. -/

namespace Utp

open Lts SequenceBuffer

namespace Kernel

variable {R : ParsedPacket → Prop} {k : Kernel}

/-- The loop of `send_ack` sets the bits of the occupied slots it scans. -/
theorem testBit_eackMask (k : Kernel) (i : ℕ) : k.eackMask.testBit i = true ↔
    i < min 30 k.inbuf.size ∧ (k.inbuf.slot (k.ackNr + UInt16.ofNat i + 2)).isSome := by
  unfold eackMask
  generalize min (14 + 16) k.inbuf.size = n
  induction n with
  | zero => simp
  | succ n ih =>
    rw [List.range_succ, List.foldl_append]
    simp only [List.foldl_cons, List.foldl_nil]
    generalize (List.range n).foldl (fun m (i : ℕ) =>
      if (k.inbuf.slot (k.ackNr + UInt16.ofNat i + 2)).isSome then m ||| (1 <<< i) else m) 0 = m
      at ih ⊢
    split
    · rename_i hn
      rw [Nat.testBit_or, Nat.one_shiftLeft, Nat.testBit_two_pow, Bool.or_eq_true, ih,
        decide_eq_true_eq]
      constructor
      · rintro (⟨hi, hs⟩ | rfl)
        · exact ⟨by omega, hs⟩
        · exact ⟨Nat.lt_succ_self n, hn⟩
      · rintro ⟨hi, hs⟩
        rcases Nat.lt_succ_iff_lt_or_eq.1 hi with hi | rfl
        · exact .inl ⟨hi, hs⟩
        · exact .inr rfl
    · rename_i hn
      rw [ih]
      constructor
      · rintro ⟨hi, hs⟩
        exact ⟨by omega, hs⟩
      · rintro ⟨hi, hs⟩
        rcases Nat.lt_succ_iff_lt_or_eq.1 hi with hi | rfl
        · exact ⟨hi, hs⟩
        · exact absurd hs hn

/-- The buffer holds the packet numbered `q`: a payload received under that number,
in the slot of that number, among the `mask` numbers past the last one in order. -/
def Holds (R : ParsedPacket → Prop) (k : Kernel) (q : UInt16) : Prop :=
  (q - k.ackNr).toNat ≤ k.inbuf.mask ∧
    ∃ pp, R pp ∧ pp.seqNr = q ∧ k.inbuf.slot q = some ⟨pp.payload⟩

/-- A slot at most two numbers behind the ring is occupied only by the packet of its number. -/
theorem Reorder.holds (h : k.Reorder R 2) {q : UInt16} (hq : (q - k.ackNr).toNat < k.inbuf.size + 2)
    (hs : (k.inbuf.slot q).isSome) : k.Holds R q := by
  obtain ⟨x, hx⟩ := Option.isSome_iff_exists.1 hs
  obtain ⟨pp, hR, hd, hsame, h1, h2⟩ := h.stored q x hx
  have hlt := mask_lt_size k.inbuf
  have hz := Int.eq_zero_of_abs_lt_dvd (hsame.dvd_offset k.ackNr) (by rw [abs_lt]; omega)
  have he : q - k.ackNr = pp.seqNr - k.ackNr := UInt16.toNat.inj (by omega)
  have hqp : q = pp.seqNr := by grind
  refine ⟨by omega, pp, hR, hqp.symm, ?_⟩
  obtain ⟨data⟩ := x
  rw [hx, ← hd]

/-- The bits of a plain acknowledgement or of a keep-alive, which counts from one number
earlier, are the packets held. -/
theorem Reorder.scanned_iff (h : k.Reorder R 2) {d : UInt16} (hd : d = 0 ∨ d = 1) {i : ℕ}
    (hi : i < 30) : (i < min 30 k.inbuf.size ∧
      (k.inbuf.slot (k.ackNr - d + UInt16.ofNat i + 2)).isSome) ↔
        k.Holds R (k.ackNr - d + 2 + UInt16.ofNat i) := by
  have hcomm : k.ackNr - d + UInt16.ofNat i + 2 = k.ackNr - d + 2 + UInt16.ofNat i := by grind
  rw [hcomm]
  have hoff : (k.ackNr - d + 2 + UInt16.ofNat i - k.ackNr).toNat = i + 2 - d.toNat := by
    have he : k.ackNr - d + 2 + UInt16.ofNat i - k.ackNr = UInt16.ofNat i + 2 - d := by grind
    rw [he]
    rcases hd with rfl | rfl
    · simp [UInt16.toNat_add]
      omega
    · simp [UInt16.toNat_sub, UInt16.toNat_add]
      omega
  have hdle : d.toNat ≤ 1 := by
    rcases hd with rfl | rfl <;> decide
  constructor
  · rintro ⟨hlt, hs⟩
    exact h.holds (by omega) hs
  · rintro ⟨hle, pp, -, -, hs⟩
    have := mask_lt_size k.inbuf
    exact ⟨by omega, by rw [hs]; rfl⟩

end Kernel

namespace UtpSocket

/-- Bit `i` as the loops of `selective_ack` test it; without the extension it is zero. -/
def eackBit (pp : ParsedPacket) (i : ℕ) : Bool := maskBit (pp.selack.getD []) i

/-- The four bytes hold the 32 bits of the mask. -/
theorem maskBit_eackBytes (m : ℕ) {i : ℕ} (hi : i < 32) :
    maskBit (eackBytes m) i = m.testBit i := by
  have hbyte (j : ℕ) (hj : j < 8) (n : ℕ) : (UInt8.ofNat n).toNat.testBit j = n.testBit j := by
    rw [UInt8.toNat_ofNat', Nat.testBit_mod_two_pow, decide_eq_true hj, Bool.true_and]
  have hdiv : ((i : ℤ) / 8).toNat = i / 8 := by omega
  have hmod : ((i : ℤ) % 8).toNat = i % 8 := by omega
  have hlt : i % 8 < 8 := Nat.mod_lt _ (by norm_num)
  have hlen : (eackBytes m).length = 4 := rfl
  unfold maskBit
  rw [hdiv, hmod, hlen, decide_eq_true (by omega), decide_eq_true (by omega), Bool.true_and,
    Bool.true_and]
  have hcase : i / 8 = 0 ∨ i / 8 = 1 ∨ i / 8 = 2 ∨ i / 8 = 3 := by omega
  rcases hcase with h | h | h | h
  · rw [h, show rd8 (eackBytes m) 0 = UInt8.ofNat m from rfl, hbyte _ hlt]
    congr 1
    omega
  · rw [h, show rd8 (eackBytes m) 1 = UInt8.ofNat (m >>> 8) from rfl, hbyte _ hlt,
      Nat.testBit_shiftRight]
    congr 1
    omega
  · rw [h, show rd8 (eackBytes m) 2 = UInt8.ofNat (m >>> 16) from rfl, hbyte _ hlt,
      Nat.testBit_shiftRight]
    congr 1
    omega
  · rw [h, show rd8 (eackBytes m) 3 = UInt8.ofNat (m >>> 24) from rfl, hbyte _ hlt,
      Nat.testBit_shiftRight]
    congr 1
    omega

/-- What the parser makes of a header, a bitmap and a payload. -/
def parsed (hdr : PacketFormatV1) (mask : Option Bytes) (payload : Bytes) : ParsedPacket where
  payload := payload
  selack := mask
  seqNr := hdr.seqNr
  ackNr := hdr.ackNr
  type := hdr.type
  timestamp := hdr.tvUsec
  replyMicro := hdr.replyMicro
  windowsize := hdr.windowsize

/-- A packet without extensions is read as it was built. -/
theorem parseBytes_segment {hdr : PacketFormatV1} (ht : hdr.type < ST_NUM_STATES) (he : hdr.ext = 0)
    (body bits : Bytes) : (parseBytes (hdr.toBytes ++ body) bits).1 = some (parsed hdr none body) := by
  have hbody : (hdr.toBytes ++ body).drop PacketFormatV1.size = body := rfl
  have hlen : ¬ (hdr.toBytes ++ body).length < PacketFormatV1.size := by
    rw [List.length_append, PacketFormatV1.toBytes_length]
    omega
  unfold parseBytes
  dsimp only
  rw [PacketFormatV1.ofBytes_toBytes, if_neg (UInt8.not_le.2 ht), if_neg hlen, if_pos he, hbody]
  rfl

/-- A STATE packet without the extension. -/
theorem parseBytes_plain {hdr : PacketFormatV1} (ht : hdr.type = ST_STATE) (he : hdr.ext = 0)
    (bits : Bytes) : (parseBytes hdr.toBytes bits).1 = some (parsed hdr none []) := by
  have hlt : hdr.type < ST_NUM_STATES := by
    rw [ht]
    decide
  have h := parseBytes_segment hlt he [] bits
  rwa [List.append_nil] at h

/-- A STATE packet with the extension; its body is the four bytes of the mask. -/
theorem parseBytes_eack {hdr : PacketFormatV1} (ht : hdr.type = ST_STATE) (he : hdr.ext = 1)
    (m : ℕ) (bits : Bytes) : (parseBytes (hdr.toBytes ++ ([0, 4] ++ eackBytes m)) bits).1 =
      some (parsed hdr (some (eackBytes m)) []) := by
  have hh := PacketFormatV1.ofBytes_toBytes hdr ([0, 4] ++ eackBytes m)
  have hlen : (hdr.toBytes ++ ([0, 4] ++ eackBytes m)).length = 26 := rfl
  have h0 : rd8 (hdr.toBytes ++ ([0, 4] ++ eackBytes m)) 20 = 0 := rfl
  have h1 : rd8 (hdr.toBytes ++ ([0, 4] ++ eackBytes m)) 21 = 4 := rfl
  have hbody : (hdr.toBytes ++ ([0, 4] ++ eackBytes m)).drop 22 = eackBytes m := rfl
  have hx : parseExtensions (hdr.toBytes ++ ([0, 4] ++ eackBytes m)) 26 1 20 none bits =
      (some (26, some (eackBytes m)), bits) := by
    unfold parseExtensions
    dsimp only
    rw [h0, h1, hlen, hbody, if_neg (by decide), if_neg (by decide), if_pos rfl, if_pos rfl]
    rfl
  unfold parseBytes parsed
  dsimp only
  rw [hh, ht, he, hlen, if_neg (by decide), if_neg (by decide), if_neg (by decide)]
  rw [show PacketFormatV1.size = 20 from rfl, hx]
  rfl

/-- What the peer reads in a STATE packet: the number `ack` and the packets held past it. -/
structure Reports (R : ParsedPacket → Prop) (s : UtpSocket) (seqNr ack : UInt16)
    (pp : ParsedPacket) : Prop where
  type : pp.type = ST_STATE
  ackNr : pp.ackNr = ack
  seqNr : pp.seqNr = seqNr
  bits : ∀ i < 30, eackBit pp i = true ↔ s.kernel.Holds R (ack + 2 + UInt16.ofNat i)

/-- A STATE packet is read as it was meant. -/
theorem reports_stateBytes {R : ParsedPacket → Prop} {s t : UtpSocket}
    (h : s.kernel.Reorder R 2) (hf : s.recv.gotFinReached = false) (ht : t.recv = s.recv)
    {d : UInt16} (hd : d = 0 ∨ d = 1) {b : Bytes}
    (hb : Kernel.StateBytes { t.kernel with ackNr := t.kernel.ackNr - d } b) (peer : UtpSocket) :
    ∃ pp, (peer.parsePacket b).1 = some pp ∧ s.Reports R t.send.seqNr (s.recv.ackNr - d) pp := by
  have hack : t.kernel.ackNr = s.kernel.ackNr := congrArg ReceiveState.ackNr ht
  have hin : t.kernel.inbuf = s.kernel.inbuf := congrArg ReceiveState.inbuf ht
  have hcount : t.kernel.reorderCount = s.kernel.reorderCount :=
    congrArg ReceiveState.reorderCount ht
  have hreached : t.kernel.gotFinReached = false := (congrArg ReceiveState.gotFinReached ht).trans hf
  cases hb with
  | @plain hdr hst hext hr =>
    refine ⟨_, parseBytes_plain hst.type hext peer.conn.extensions, hst.type, ?_, hst.seqNr, fun i _ => ?_⟩
    · show hdr.ackNr = _
      rw [hst.ackNr, hack]
      rfl
    · have h0 : s.kernel.reorderCount = 0 := by
        rw [← hcount]
        rcases hr with hr | hr
        · exact hr
        · rw [show t.kernel.gotFinReached = true from hr] at hreached
          cases hreached
      unfold eackBit Kernel.Holds
      rw [show (parsed hdr none []).selack = none from rfl, h.empty h0]
      simp [maskBit]
  | @eack hdr hst hext hr hf' =>
    refine ⟨_, parseBytes_eack hst.type hext (Kernel.eackMask { t.kernel with ackNr := t.kernel.ackNr - d })
      peer.conn.extensions, hst.type, ?_, hst.seqNr, fun i hi => ?_⟩
    · show hdr.ackNr = _
      rw [hst.ackNr, hack]
      rfl
    · unfold eackBit parsed
      rw [Option.getD_some, maskBit_eackBytes _ (by omega), Kernel.testBit_eackMask, hack, hin]
      exact h.scanned_iff hd hi

theorem datagrams_sendAck (env : Env) (synack : Bool) (s : UtpSocket) :
    ∃ b, s.kernel.StateBytes b ∧ datagrams (s.sendAck env synack).out = datagrams s.out ++ [b] := by
  obtain ⟨-, l, b, hb, ho, hl⟩ := sendAck_spec env synack s
  have hnil : datagrams l = [] := by
    rw [datagrams, List.filterMap_eq_nil_iff]
    intro e he
    obtain ⟨a, rfl, -⟩ := hl e he
    rfl
  refine ⟨b, hb, ?_⟩
  rw [ho, datagrams_append, datagrams_append, datagrams_append, hnil]
  rfl

theorem datagrams_sendKeepAlive (env : Env) (s : UtpSocket) :
    ∃ b, s.kernel.behind.StateBytes b ∧
      datagrams (s.sendKeepAlive env).out = datagrams s.out ++ [b] :=
  datagrams_sendAck env false (s.setRecv { s.recv with ackNr := s.recv.ackNr - 1 })

theorem reorder_of_run {targetDelay rcvbuf sndbuf : ℕ} {calls : List Call} {s : UtpSocket}
    (h : Run targetDelay rcvbuf sndbuf calls s) (hf : s.recv.gotFinReached = false) :
    s.kernel.Reorder (Receives calls) 2 := by
  have hb := (run_invariant (I := Kernel.Buffer (Receives calls)) (P := fun _ => True)
    (G := Given calls) (fun x k acts k' hG hk hm => Kernel.buffer_micro hk (by
      rintro pp rfl
      exact hG) hm) (by simp) h (fun c hc x hx => given_of_takes hc hx) (by
      rw [kernel_new]
      exact Kernel.initial_buffer)).1
  exact hb.reorder hf

/-- In every run until the end of the stream, the STATE packet that `send_ack` or
`send_keep_alive` then builds is parsed by any peer, which finds its numbers and,
bit by bit, the packets held. The rest of the socket may have changed meanwhile. -/
theorem eack_agrees {targetDelay rcvbuf sndbuf : ℕ} {calls : List Call} {s t : UtpSocket}
    (h : Run targetDelay rcvbuf sndbuf calls s) (hf : s.recv.gotFinReached = false)
    (ht : t.recv = s.recv) (env : Env) (synack : Bool) :
    (∃ b, datagrams (t.sendAck env synack).out = datagrams t.out ++ [b] ∧
      ∀ peer : UtpSocket, ∃ pp, (peer.parsePacket b).1 = some pp ∧
        s.Reports (Receives calls) t.send.seqNr s.recv.ackNr pp) ∧
    ∃ b, datagrams (t.sendKeepAlive env).out = datagrams t.out ++ [b] ∧
      ∀ peer : UtpSocket, ∃ pp, (peer.parsePacket b).1 = some pp ∧
        s.Reports (Receives calls) t.send.seqNr (s.recv.ackNr - 1) pp := by
  have hr := reorder_of_run h hf
  refine ⟨?_, ?_⟩
  · obtain ⟨b, hb, hd⟩ := datagrams_sendAck env synack t
    refine ⟨b, hd, fun peer => ?_⟩
    have := reports_stateBytes hr hf ht (d := 0) (.inl rfl) (b := b) (by simpa using hb) peer
    simpa using this
  · obtain ⟨b, hb, hd⟩ := datagrams_sendKeepAlive env t
    exact ⟨b, hd, reports_stateBytes hr hf ht (.inr rfl) hb⟩

theorem eack_agrees_holding : holding.recv.reorderCount = 1 ∧
    ∃ calls b pp, datagrams (holding.sendAck stillHost false).out = datagrams holding.out ++ [b] ∧
      (dialled.parsePacket b).1 = some pp ∧
        holding.Reports (Receives calls) holding.send.seqNr holding.recv.ackNr pp := by
  obtain ⟨calls, h⟩ := run_holding
  have hf : holding.recv.gotFinReached = false := by decide +kernel
  have hcount : holding.recv.reorderCount = 1 := by decide +kernel
  obtain ⟨⟨b, hd, hp⟩, -⟩ := eack_agrees h hf (Eq.refl holding.recv) stillHost false
  obtain ⟨pp, hpp, hr⟩ := hp dialled
  exact ⟨hcount, calls, b, pp, hd, hpp, hr⟩

end UtpSocket

end Utp
