import Mathlib.Tactic

/-! Constants of `utp::config`, the wire header `PacketFormatV1` with its byte
layout, and the wrapping comparison every sequence test goes through. -/

namespace Utp

abbrev Bytes := List UInt8

def TIMEOUT_CHECK_INTERVAL : UInt64 := 500
def RST_INFO_TIMEOUT : UInt32 := 10000
def KEEPALIVE_INTERVAL : UInt32 := 29000
def CCONTROL_TARGET : ℕ := 100 * 1000
def MAX_CWND_INCREASE_BYTES_PER_RTT : ℕ := 3000
def REORDER_BUFFER_MAX_SIZE : ℕ := 1024
def OUTGOING_BUFFER_MAX_SIZE : ℕ := 1024
def PACKET_SIZE : ℕ := 1435
def MIN_WINDOW_SIZE : ℕ := 10
def MAX_WINDOW_DECAY : ℤ := 100
def DUPLICATE_ACKS_BEFORE_RESEND : ℕ := 3
def ACK_NR_ALLOWED_WINDOW : UInt16 := 3
def RST_INFO_LIMIT : ℕ := 1000
def ACK_NR_MASK : UInt32 := 0xFFFF
def TIMESTAMP_MASK : UInt32 := 0xFFFFFFFF
def UTP_IOV_MAX : ℕ := 1024
def UTP_UDP_DONTFRAG : UInt32 := 2
def INT_MAX : ℕ := 2 ^ 31 - 1

def ST_DATA : UInt8 := 0
def ST_FIN : UInt8 := 1
def ST_STATE : UInt8 := 2
def ST_RESET : UInt8 := 3
def ST_SYN : UInt8 := 4
def ST_NUM_STATES : UInt8 := 5

/-- `lhs` is below `rhs` when the way up from it is the shorter one. -/
def wrappingCompareLess (lhs rhs mask : UInt32) : Bool :=
  let distDown := (lhs - rhs) &&& mask
  let distUp := (rhs - lhs) &&& mask
  decide (distUp < distDown)

/-- The 20 header bytes, multi-byte fields in host order. -/
structure PacketFormatV1 where
  verType : UInt8 := 0
  ext : UInt8 := 0
  connid : UInt16 := 0
  tvUsec : UInt32 := 0
  replyMicro : UInt32 := 0
  windowsize : UInt32 := 0
  seqNr : UInt16 := 0
  ackNr : UInt16 := 0
  deriving DecidableEq, Repr

namespace PacketFormatV1

def size : ℕ := 20

def version (h : PacketFormatV1) : UInt8 := h.verType &&& (0xf : UInt8)

def type (h : PacketFormatV1) : UInt8 := h.verType >>> 4

def setVersion (h : PacketFormatV1) (v : UInt8) : PacketFormatV1 :=
  { h with verType := (h.verType &&& (0xf0 : UInt8)) ||| (v &&& (0xf : UInt8)) }

def setType (h : PacketFormatV1) (t : UInt8) : PacketFormatV1 :=
  { h with verType := (h.verType &&& (0x0f : UInt8)) ||| (t <<< (4 : UInt8)) }

theorem type_nibble : ∀ v : Fin 256, ∀ t : Fin 16,
    ((UInt8.ofNat v &&& (0x0f : UInt8)) ||| (UInt8.ofNat t <<< (4 : UInt8))) >>> (4 : UInt8) =
      UInt8.ofNat t := by
  decide +kernel

theorem type_setType (h : PacketFormatV1) {t : UInt8} (ht : t < 16) : (h.setType t).type = t := by
  have := type_nibble ⟨h.verType.toNat, h.verType.toNat_lt⟩
    ⟨t.toNat, by simpa [UInt8.lt_iff_toNat_lt] using ht⟩
  simpa [type, setType] using this

@[simp] theorem version_setType (h : PacketFormatV1) (t : UInt8) :
    (h.setType t).version = h.version := by
  apply UInt8.toBitVec_inj.1
  apply BitVec.eq_of_getLsbD_eq
  intro i hi
  simp only [version, setType]
  interval_cases i <;> simp

theorem version_setVersion (h : PacketFormatV1) (v : UInt8) :
    (h.setVersion v).version = v &&& 0xf := by
  apply UInt8.toBitVec_inj.1
  apply BitVec.eq_of_getLsbD_eq
  intro i hi
  simp only [version, setVersion]
  interval_cases i <;> simp

end PacketFormatV1

/-- `uint16_big`: most significant byte first. -/
def be16 (x : UInt16) : Bytes := [UInt8.ofNat (x.toNat / 256), UInt8.ofNat x.toNat]

/-- `uint32_big`: most significant byte first. -/
def be32 (x : UInt32) : Bytes :=
  [UInt8.ofNat (x.toNat / 2 ^ 24), UInt8.ofNat (x.toNat / 2 ^ 16), UInt8.ofNat (x.toNat / 2 ^ 8),
    UInt8.ofNat x.toNat]

def rd8 (b : Bytes) (i : ℕ) : UInt8 := b.getD i 0

def rd16 (b : Bytes) (i : ℕ) : UInt16 :=
  UInt16.ofNat ((rd8 b i).toNat * 256 + (rd8 b (i + 1)).toNat)

def rd32 (b : Bytes) (i : ℕ) : UInt32 :=
  UInt32.ofNat ((rd8 b i).toNat * 2 ^ 24 + (rd8 b (i + 1)).toNat * 2 ^ 16 +
    (rd8 b (i + 2)).toNat * 2 ^ 8 + (rd8 b (i + 3)).toNat)

theorem rd16_be16 (x : UInt16) (t : Bytes) : rd16 (be16 x ++ t) 0 = x := by
  apply UInt16.toNat.inj
  have := x.toNat_lt
  simp [rd16, rd8, be16]
  omega

theorem rd32_be32 (x : UInt32) (t : Bytes) : rd32 (be32 x ++ t) 0 = x := by
  apply UInt32.toNat.inj
  have := x.toNat_lt
  simp [rd32, rd8, be32]
  omega

theorem rd8_append_length (p b : Bytes) (i : ℕ) : rd8 (p ++ b) (p.length + i) = rd8 b i := by
  simp [rd8, List.getElem?_append_right]

theorem rd16_append_length (p b : Bytes) : rd16 (p ++ b) p.length = rd16 b 0 := by
  simpa [rd16] using congrArg₂ (fun x y : UInt8 => UInt16.ofNat (x.toNat * 256 + y.toNat))
    (rd8_append_length p b 0) (rd8_append_length p b 1)

theorem rd32_append_length (p b : Bytes) : rd32 (p ++ b) p.length = rd32 b 0 := by
  have h0 := rd8_append_length p b 0
  have h1 := rd8_append_length p b 1
  have h2 := rd8_append_length p b 2
  have h3 := rd8_append_length p b 3
  simp only [Nat.add_zero] at h0
  simp [rd32, h0, h1, h2, h3]

namespace PacketFormatV1

def toBytes (h : PacketFormatV1) : Bytes :=
  [h.verType, h.ext] ++ (be16 h.connid ++ (be32 h.tvUsec ++ (be32 h.replyMicro ++
    (be32 h.windowsize ++ (be16 h.seqNr ++ be16 h.ackNr)))))

/-- The cast `(PacketFormatV1*)buffer` of at least 20 bytes. -/
def ofBytes (b : Bytes) : PacketFormatV1 where
  verType := rd8 b 0
  ext := rd8 b 1
  connid := rd16 b 2
  tvUsec := rd32 b 4
  replyMicro := rd32 b 8
  windowsize := rd32 b 12
  seqNr := rd16 b 16
  ackNr := rd16 b 18

@[simp] theorem toBytes_length (h : PacketFormatV1) : h.toBytes.length = size := rfl

/-- A header that was written is read back, whatever follows it. -/
theorem ofBytes_toBytes (h : PacketFormatV1) (t : Bytes) : ofBytes (h.toBytes ++ t) = h := by
  obtain ⟨vt, e, c, tv, rm, w, sq, ak⟩ := h
  have hc := rd16_append_length [vt, e]
  have htv := rd32_append_length ([vt, e] ++ be16 c)
  have hrm := rd32_append_length ([vt, e] ++ be16 c ++ be32 tv)
  have hw := rd32_append_length ([vt, e] ++ be16 c ++ be32 tv ++ be32 rm)
  have hsq := rd16_append_length ([vt, e] ++ be16 c ++ be32 tv ++ be32 rm ++ be32 w)
  have hak := rd16_append_length ([vt, e] ++ be16 c ++ be32 tv ++ be32 rm ++ be32 w ++ be16 sq)
  simp only [List.append_assoc] at hc htv hrm hw hsq hak
  simp only [ofBytes, toBytes, List.append_assoc, mk.injEq]
  refine ⟨rfl, rfl, ?_, ?_, ?_, ?_, ?_, ?_⟩
  · exact (hc _).trans (rd16_be16 _ _)
  · exact (htv _).trans (rd32_be32 _ _)
  · exact (hrm _).trans (rd32_be32 _ _)
  · exact (hw _).trans (rd32_be32 _ _)
  · exact (hsq _).trans (rd16_be16 _ _)
  · exact (hak _).trans (rd16_be16 _ _)

end PacketFormatV1

end Utp
