import LibUtp.Socket.Incoming

/-! The grammar of a datagram, and that `parse_packet` accepts exactly its
sentences. The length left is compared as an `int`, so the two agree on
datagrams short enough for that comparison, which every UDP datagram is. -/

namespace Utp

/-- A chain of extension blocks whose first has type `t`: each block is the type
of the next one, a length and that many bytes, and type 0 ends the chain. -/
inductive Chain : UInt8 → Bytes → List (UInt8 × Bytes) → Bytes → Prop
  | done {rest} : Chain 0 rest [] rest
  | block {t next body tail blocks rest} (ht : t ≠ 0) (hn : body.length < 256)
      (hbits : t = 2 → body.length = 8) (h : Chain next tail blocks rest) :
      Chain t (next :: UInt8.ofNat body.length :: (body ++ tail)) ((t, body) :: blocks) rest

def noteEack (found : Option Bytes) (block : UInt8 × Bytes) : Option Bytes :=
  if block.1 = 1 then some block.2 else found

/-- The body of the last block of type 1. -/
def lastEack (blocks : List (UInt8 × Bytes)) : Option Bytes := blocks.foldl noteEack none

theorem Chain.rest_eq_drop {t : UInt8} {l rest : Bytes} {blocks : List (UInt8 × Bytes)}
    (h : Chain t l blocks rest) : ∃ n ≤ l.length, rest = l.drop n := by
  induction h with
  | done => exact ⟨0, Nat.zero_le _, rfl⟩
  | @block t next body tail blocks rest ht hn hbits h ih =>
    obtain ⟨n, hn, rfl⟩ := ih
    refine ⟨2 + body.length + n, ?_, ?_⟩
    · simp only [List.length_cons, List.length_append]
      omega
    · rw [← List.drop_drop, ← List.drop_drop]
      simp

/-- The longest datagram whose lengths an `int` holds. -/
def PARSE_LIMIT : ℕ := 2 ^ 31 + 22

namespace UtpSocket

def headerPacket (b payload : Bytes) (selack : Option Bytes) : ParsedPacket where
  payload := payload
  selack := selack
  seqNr := (PacketFormatV1.ofBytes b).seqNr
  ackNr := (PacketFormatV1.ofBytes b).ackNr
  type := (PacketFormatV1.ofBytes b).type
  timestamp := (PacketFormatV1.ofBytes b).tvUsec
  replyMicro := (PacketFormatV1.ofBytes b).replyMicro
  windowsize := (PacketFormatV1.ofBytes b).windowsize

/-- A sentence of the grammar and the packet it stands for. -/
def Sentence (b : Bytes) (pp : ParsedPacket) : Prop :=
  (PacketFormatV1.ofBytes b).type < ST_NUM_STATES ∧ ∃ blocks rest,
    Chain (PacketFormatV1.ofBytes b).ext (b.drop PacketFormatV1.size) blocks rest ∧
      pp = headerPacket b rest (lastEack blocks)

/-- The offsets at which the chain is read, in order; `none` if the loop has not
ended within the fuel. -/
def extensionReads (b : Bytes) : ℕ → UInt8 → ℕ → Option (List ℕ)
  | 0, _, _ => none
  | fuel + 1, extension, pos =>
    let body := pos + 2
    let left := int32 ((b.length : ℤ) - body)
    let len := (rd8 b (pos + 1)).toNat
    if left < 0 then some []
    else if left < len then some [pos + 1]
    else if extension = 2 ∧ len ≠ 8 then some [pos + 1]
    else
      let here := (pos + 1) :: ((if extension = 2 then List.range' body 8 else []) ++ [pos])
      if rd8 b pos = 0 then some here
      else (extensionReads b fuel (rd8 b pos) (body + len)).map (here ++ ·)

/-- All offsets `parse_packet` reads: the header fields and the chain. -/
def packetReads (b : Bytes) : Option (List ℕ) :=
  let numbers := List.range' 16 4 ++ [0]
  let header := numbers ++ List.range' 4 12 ++ [1]
  if ST_NUM_STATES ≤ (PacketFormatV1.ofBytes b).type then some numbers
  else if b.length < PacketFormatV1.size then some (numbers ++ List.range' 4 12)
  else if (PacketFormatV1.ofBytes b).ext = 0 then some header
  else (extensionReads b b.length (PacketFormatV1.ofBytes b).ext PacketFormatV1.size).map
    (header ++ ·)

theorem drop_eq_block {b : Bytes} {pos : ℕ} {next len : UInt8} {body tail : Bytes} :
    b.drop pos = next :: len :: (body ++ tail) ↔
      pos + 2 + body.length ≤ b.length ∧ rd8 b pos = next ∧ rd8 b (pos + 1) = len ∧
        (b.drop (pos + 2)).take body.length = body ∧ b.drop (pos + 2 + body.length) = tail := by
  constructor
  · intro h
    have h2 : b.drop (pos + 2) = body ++ tail := by
      rw [← List.drop_drop, h]
      rfl
    have hl := congrArg List.length h
    simp only [List.length_drop, List.length_cons, List.length_append] at hl
    refine ⟨by omega, ?_, ?_, ?_, ?_⟩
    · have := congrArg (fun l => l.getD 0 0) h
      simpa [rd8] using this
    · have := congrArg (fun l => l.getD 1 0) h
      simpa [rd8] using this
    · rw [h2, List.take_left]
    · rw [← List.drop_drop, h2, List.drop_left]
  · rintro ⟨hl, rfl, rfl, hb, rfl⟩
    have h0 : pos < b.length := by omega
    have h1 : pos + 1 < b.length := by omega
    rw [List.drop_eq_getElem_cons h0, List.drop_eq_getElem_cons h1]
    congr 1
    · simp [rd8, h0]
    congr 1
    · simp [rd8, h1]
    have := List.take_append_drop body.length (b.drop (pos + 2))
    rw [hb, List.drop_drop] at this
    exact this.symm

theorem chain_iff {b rest : Bytes} {pos : ℕ} {t : UInt8} {blocks : List (UInt8 × Bytes)} (ht : t ≠ 0) :
    Chain t (b.drop pos) blocks rest ↔
      pos + 2 + (rd8 b (pos + 1)).toNat ≤ b.length ∧ (t = 2 → (rd8 b (pos + 1)).toNat = 8) ∧
        ∃ tail, blocks = (t, (b.drop (pos + 2)).take (rd8 b (pos + 1)).toNat) :: tail ∧
          Chain (rd8 b pos) (b.drop (pos + 2 + (rd8 b (pos + 1)).toNat)) tail rest := by
  constructor
  · intro h
    generalize hl : b.drop pos = l at h
    cases h with
    | done => exact absurd rfl ht
    | @block t next body tail blocks rest _ hn hbits h =>
      obtain ⟨hle, rfl, hlen, hbody, rfl⟩ := drop_eq_block.1 hl
      have hlen' : (rd8 b (pos + 1)).toNat = body.length := by
        rw [hlen, UInt8.toNat_ofNat']
        omega
      rw [hlen', hbody]
      exact ⟨hle, hbits, blocks, rfl, h⟩
  · rintro ⟨hle, hbits, tail, rfl, h⟩
    have hbody : ((b.drop (pos + 2)).take (rd8 b (pos + 1)).toNat).length =
        (rd8 b (pos + 1)).toNat := by
      rw [List.length_take, List.length_drop]
      omega
    have hd : b.drop pos = rd8 b pos :: rd8 b (pos + 1) ::
        ((b.drop (pos + 2)).take (rd8 b (pos + 1)).toNat ++
          b.drop (pos + 2 + (rd8 b (pos + 1)).toNat)) :=
      drop_eq_block.2 ⟨by rw [hbody]; exact hle, rfl, rfl, by rw [hbody], by rw [hbody]⟩
    rw [hd]
    have := Chain.block (t := t) ht (by rw [hbody]; exact (rd8 b (pos + 1)).toNat_lt)
      (by rw [hbody]; exact hbits) h
    rwa [hbody, UInt8.ofNat_toNat] at this

theorem chain_zero {l rest : Bytes} {blocks : List (UInt8 × Bytes)} :
    Chain 0 l blocks rest ↔ blocks = [] ∧ rest = l := by
  constructor
  · intro h
    cases h with
    | done => exact ⟨rfl, rfl⟩
    | block ht => exact absurd rfl ht
  · rintro ⟨rfl, rfl⟩
    exact .done

theorem left_eq {b : Bytes} {pos : ℕ} (hlen : b.length < PARSE_LIMIT) (hpos : 20 ≤ pos)
    (hle : pos ≤ b.length) :
    int32 ((b.length : ℤ) - (pos + 2 : ℕ)) = (b.length : ℤ) - (pos + 2 : ℕ) := by
  unfold PARSE_LIMIT at hlen
  apply int32_eq <;> push_cast <;> omega

/-- The loop finds the end of the chain, and fails exactly when there is none. -/
theorem parseExtensions_iff {b bits : Bytes} (hlen : b.length < PARSE_LIMIT) {fuel : ℕ} {t : UInt8}
    {pos e : ℕ} {selack x : Option Bytes} (ht : t ≠ 0) (hpos : 20 ≤ pos) (hle : pos ≤ b.length)
    (hfuel : b.length < pos + fuel) :
    (parseExtensions b fuel t pos selack bits).1 = some (e, x) ↔
      ∃ blocks, Chain t (b.drop pos) blocks (b.drop e) ∧ e ≤ b.length ∧
        x = blocks.foldl noteEack selack := by
  induction fuel generalizing t pos selack bits with
  | zero => omega
  | succ fuel ih =>
    have hleft := left_eq hlen hpos hle
    simp only [chain_iff ht]
    unfold parseExtensions
    dsimp only
    rw [hleft]
    set len := (rd8 b (pos + 1)).toNat with hlen8
    generalize (if t = 2 then (b.drop (pos + 2)).take len else bits) = bits'
    by_cases hshort : (b.length : ℤ) - (pos + 2 : ℕ) < 0 ∨ (b.length : ℤ) - (pos + 2 : ℕ) < len
    · rw [if_pos hshort]
      simp only [reduceCtorEq, false_iff]
      rintro ⟨blocks, ⟨hc, -⟩, -⟩
      push_cast at hshort
      omega
    rw [if_neg hshort]
    have hfit : pos + 2 + len ≤ b.length := by
      push_cast at hshort
      omega
    by_cases hbits : t = 2 ∧ len ≠ 8
    · rw [if_pos hbits]
      simp only [reduceCtorEq, false_iff]
      rintro ⟨blocks, ⟨-, hc, -⟩, -⟩
      exact hbits.2 (hc hbits.1)
    rw [if_neg hbits]
    have hbits8 : t = 2 → len = 8 := fun h => by_contra fun hn => hbits ⟨h, hn⟩
    have hstep : (if t = 1 then some ((b.drop (pos + 2)).take len) else selack) =
        noteEack selack (t, (b.drop (pos + 2)).take len) := rfl
    rw [hstep]
    by_cases hend : rd8 b pos = 0
    · -- the last block: the payload starts behind it
      rw [if_pos hend]
      simp only [hend, chain_zero, Option.some.injEq, Prod.mk.injEq]
      constructor
      · rintro ⟨rfl, rfl⟩
        exact ⟨_, ⟨hfit, hbits8, [], rfl, rfl, rfl⟩, hfit, rfl⟩
      · rintro ⟨blocks, ⟨-, -, tail, rfl, rfl, hd⟩, he, rfl⟩
        refine ⟨?_, rfl⟩
        have := congrArg List.length hd
        simp only [List.length_drop] at this
        omega
    · rw [if_neg hend, ih hend (by omega) hfit (by omega)]
      constructor
      · rintro ⟨tail, hc, he, rfl⟩
        exact ⟨_, ⟨hfit, hbits8, tail, rfl, hc⟩, he, rfl⟩
      · rintro ⟨blocks, ⟨-, -, tail, rfl, hc⟩, he, rfl⟩
        exact ⟨tail, hc, he, rfl⟩

/-- On datagrams with a header the parser accepts the sentences of the grammar,
each as the packet it stands for. -/
theorem parseBytes_iff {b bits : Bytes} {pp : ParsedPacket} (hsize : PacketFormatV1.size ≤ b.length)
    (hlen : b.length < PARSE_LIMIT) : (parseBytes b bits).1 = some pp ↔ Sentence b pp := by
  unfold parseBytes Sentence
  dsimp only
  by_cases htype : ST_NUM_STATES ≤ (PacketFormatV1.ofBytes b).type
  · rw [if_pos htype]
    simp only [reduceCtorEq, false_iff]
    rintro ⟨h, -⟩
    exact UInt8.not_lt.2 htype h
  rw [if_neg htype, if_neg (not_lt.2 hsize)]
  have htype' := UInt8.not_le.1 htype
  by_cases hext : (PacketFormatV1.ofBytes b).ext = 0
  · rw [if_pos hext]
    simp only [hext, chain_zero, htype', true_and, Option.some.injEq]
    constructor
    · rintro rfl
      exact ⟨[], _, ⟨rfl, rfl⟩, rfl⟩
    · rintro ⟨blocks, rest, ⟨rfl, rfl⟩, rfl⟩
      rfl
  rw [if_neg hext]
  have hfuel : b.length < PacketFormatV1.size + b.length := by
    unfold PacketFormatV1.size
    omega
  simp only [Option.map_eq_some_iff, htype', true_and]
  constructor
  · rintro ⟨⟨e, x⟩, he, rfl⟩
    obtain ⟨blocks, hc, -, rfl⟩ := (parseExtensions_iff hlen hext le_rfl hsize hfuel).1 he
    exact ⟨blocks, _, hc, rfl⟩
  · rintro ⟨blocks, rest, hc, rfl⟩
    obtain ⟨n, hn, rfl⟩ := hc.rest_eq_drop
    rw [List.drop_drop] at hc ⊢
    rw [List.length_drop] at hn
    exact ⟨⟨_, _⟩, (parseExtensions_iff hlen hext le_rfl hsize hfuel).2
      ⟨blocks, hc, by omega, rfl⟩, rfl⟩

theorem blockReads_lt {b : Bytes} {t : UInt8} {pos len : ℕ} (hfit : pos + 2 + len ≤ b.length)
    (hbits : t = 2 → len = 8) :
    ∀ i ∈ (pos + 1) :: ((if t = 2 then List.range' (pos + 2) 8 else []) ++ [pos]), i < b.length := by
  intro i hi
  simp only [List.mem_cons, List.mem_append] at hi
  rcases hi with rfl | hi | hi
  · omega
  · split at hi
    · rename_i ht
      have := hbits ht
      have := List.mem_range'_1.1 hi
      omega
    · cases hi
  · rcases hi with rfl | hi
    · omega
    · cases hi

/-- The loop ends, and what it reads lies in the datagram. -/
theorem extensionReads_spec {b : Bytes} (fuel : ℕ) {t : UInt8} {pos : ℕ}
    (hle : pos ≤ b.length) (hfuel : b.length < pos + fuel) :
    ∃ l, extensionReads b fuel t pos = some l ∧ ∀ i ∈ l, i < b.length := by
  induction fuel generalizing t pos with
  | zero => omega
  | succ fuel ih =>
    -- a truncated length is never larger than the true one
    have hleft := int32_le (x := (b.length : ℤ) - (pos + 2 : ℕ)) (by push_cast; omega)
    generalize hx : int32 ((b.length : ℤ) - (pos + 2 : ℕ)) = left at hleft
    push_cast at hleft
    unfold extensionReads
    dsimp only
    rw [hx]
    by_cases hneg : left < 0
    · rw [if_pos hneg]
      exact ⟨[], rfl, by simp⟩
    rw [if_neg hneg]
    have hone : ∀ i ∈ [pos + 1], i < b.length := by
      intro i hi
      rw [List.mem_singleton.1 hi]
      omega
    by_cases hshort : left < (rd8 b (pos + 1)).toNat
    · rw [if_pos hshort]
      exact ⟨_, rfl, hone⟩
    rw [if_neg hshort]
    by_cases hbits : t = 2 ∧ (rd8 b (pos + 1)).toNat ≠ 8
    · rw [if_pos hbits]
      exact ⟨_, rfl, hone⟩
    rw [if_neg hbits]
    have hfit : pos + 2 + (rd8 b (pos + 1)).toNat ≤ b.length := by omega
    have hhere := blockReads_lt (t := t) hfit fun h => by_contra fun hn => hbits ⟨h, hn⟩
    by_cases hend : rd8 b pos = 0
    · rw [if_pos hend]
      exact ⟨_, rfl, hhere⟩
    · rw [if_neg hend]
      obtain ⟨l, hl, hlt⟩ := ih (t := rd8 b pos) hfit (by omega)
      rw [hl]
      refine ⟨_, rfl, fun i hi => ?_⟩
      rcases List.mem_append.1 hi with hi | hi
      · exact hhere i hi
      · exact hlt i hi

theorem packetReads_spec {b : Bytes} (hsize : PacketFormatV1.size ≤ b.length) :
    ∃ l, packetReads b = some l ∧ ∀ i ∈ l, i < b.length := by
  have h20 : 20 ≤ b.length := hsize
  obtain ⟨l, hl, hlt⟩ := extensionReads_spec (b := b) b.length
    (t := (PacketFormatV1.ofBytes b).ext) hsize (by unfold PacketFormatV1.size; omega)
  unfold packetReads
  dsimp only
  rw [hl]
  split_ifs
  · refine ⟨_, rfl, fun i hi => ?_⟩
    simp at hi
    omega
  · refine ⟨_, rfl, fun i hi => ?_⟩
    simp at hi
    omega
  · refine ⟨_, rfl, fun i hi => ?_⟩
    simp at hi
    omega
  · refine ⟨_, rfl, fun i hi => ?_⟩
    rcases List.mem_append.1 hi with hi | hi
    · simp at hi
      omega
    · exact hlt i hi

theorem parseExtensions_fuel {b bits : Bytes} {t : UInt8} {pos n m : ℕ} {selack : Option Bytes}
    {l : List ℕ} (h : extensionReads b n t pos = some l) (hm : n ≤ m) :
    parseExtensions b m t pos selack bits = parseExtensions b n t pos selack bits := by
  induction n generalizing t pos m selack bits l with
  | zero => cases h
  | succ n ih =>
    obtain ⟨m, rfl⟩ : ∃ k, m = k + 1 := ⟨m - 1, by omega⟩
    unfold extensionReads at h
    unfold parseExtensions
    dsimp only at h ⊢
    generalize int32 ((b.length : ℤ) - (pos + 2 : ℕ)) = left at h ⊢
    by_cases hshort : left < 0 ∨ left < (rd8 b (pos + 1)).toNat
    · rw [if_pos hshort, if_pos hshort]
    rw [if_neg hshort, if_neg hshort]
    rw [not_or] at hshort
    rw [if_neg hshort.1, if_neg hshort.2] at h
    by_cases hbits : t = 2 ∧ (rd8 b (pos + 1)).toNat ≠ 8
    · rw [if_pos hbits, if_pos hbits]
    rw [if_neg hbits, if_neg hbits]
    rw [if_neg hbits] at h
    by_cases hend : rd8 b pos = 0
    · rw [if_pos hend, if_pos hend]
    rw [if_neg hend, if_neg hend]
    rw [if_neg hend, Option.map_eq_some_iff] at h
    obtain ⟨l', hl', -⟩ := h
    exact ih hl' (by omega)

theorem chain_located {b rest : Bytes} {pos : ℕ} {t : UInt8} {blocks : List (UInt8 × Bytes)}
    (h : Chain t (b.drop pos) blocks rest) {block : UInt8 × Bytes} (hb : block ∈ blocks) :
    ∃ i, pos + 2 ≤ i ∧ i + block.2.length ≤ b.length ∧
      (rd8 b (i - 1)).toNat = block.2.length ∧ (b.drop i).take block.2.length = block.2 := by
  induction blocks generalizing t pos with
  | nil => cases hb
  | cons first tail ih =>
    have ht : t ≠ 0 := by
      rintro rfl
      cases (chain_zero.1 h).1
    obtain ⟨hfit, -, tail', heq, hc⟩ := (chain_iff ht).1 h
    obtain ⟨rfl, rfl⟩ := List.cons.inj heq
    rcases List.mem_cons.1 hb with rfl | hb
    · have hlen : ((b.drop (pos + 2)).take (rd8 b (pos + 1)).toNat).length =
          (rd8 b (pos + 1)).toNat := by
        rw [List.length_take, List.length_drop]
        omega
      refine ⟨pos + 2, le_rfl, ?_, ?_, ?_⟩
      · rw [hlen]
        exact hfit
      · rw [hlen]
        rfl
      · rw [hlen]
    · obtain ⟨i, hi, h⟩ := ih hc hb
      exact ⟨i, by omega, h⟩

theorem mem_of_foldl_noteEack {blocks : List (UInt8 × Bytes)} {found : Option Bytes} {mask : Bytes}
    (h : blocks.foldl noteEack found = some mask) :
    found = some mask ∨ ((1 : UInt8), mask) ∈ blocks := by
  induction blocks generalizing found with
  | nil => exact .inl h
  | cons block blocks ih =>
    rcases ih h with h | h
    · unfold noteEack at h
      split at h
      · rename_i h1
        right
        rw [← h1, ← Option.some.inj h]
        exact List.mem_cons_self
      · exact .inl h
    · exact .inr (List.mem_cons_of_mem _ h)

theorem selack_located {b : Bytes} {pp : ParsedPacket} (h : Sentence b pp) {mask : Bytes}
    (hm : pp.selack = some mask) : ∃ i, PacketFormatV1.size + 2 ≤ i ∧ i + mask.length ≤ b.length ∧
      (rd8 b (i - 1)).toNat = mask.length ∧ (b.drop i).take mask.length = mask := by
  obtain ⟨-, blocks, rest, hc, rfl⟩ := h
  rcases mem_of_foldl_noteEack hm with h | h
  · cases h
  · exact chain_located hc h

/-- `parse_packet` on a datagram with a header: its loop ends, it reads the datagram only,
and it accepts the sentences of the grammar, with the payload behind the chain and the
EACK of its last block of type 1. -/
theorem parsePacket_grammar {b bits : Bytes} (hsize : PacketFormatV1.size ≤ b.length)
    (hlen : b.length < PARSE_LIMIT) :
    (∃ l, packetReads b = some l ∧ ∀ i ∈ l, i < b.length) ∧
      (∀ fuel, b.length ≤ fuel → parseExtensions b fuel (PacketFormatV1.ofBytes b).ext
          PacketFormatV1.size none bits =
        parseExtensions b b.length (PacketFormatV1.ofBytes b).ext PacketFormatV1.size none bits) ∧
      (∀ pp, (parseBytes b bits).1 = some pp ↔ Sentence b pp) ∧
      ∀ pp mask, (parseBytes b bits).1 = some pp → pp.selack = some mask →
        ∃ i, PacketFormatV1.size + 2 ≤ i ∧ i + mask.length ≤ b.length ∧
          (rd8 b (i - 1)).toNat = mask.length ∧ (b.drop i).take mask.length = mask := by
  refine ⟨packetReads_spec hsize, fun fuel hf => ?_, fun pp => parseBytes_iff hsize hlen,
    fun pp mask hp hm => selack_located ((parseBytes_iff hsize hlen).1 hp) hm⟩
  obtain ⟨l, hl, -⟩ := extensionReads_spec (b := b) b.length
    (t := (PacketFormatV1.ofBytes b).ext) hsize (by unfold PacketFormatV1.size; omega)
  exact parseExtensions_fuel hl hf

/-- A STATE packet with an EACK of two bytes and a block of extension bits. -/
def twoBlocks : Bytes :=
  ({ freshHdr ST_STATE with ext := 1 } : PacketFormatV1).toBytes ++
    ([2, 2, 5, 6] ++ [0, 8, 1, 2, 3, 4, 5, 6, 7, 8] ++ [9, 9])

theorem parsePacket_grammar_twoBlocks : Sentence twoBlocks (headerPacket twoBlocks [9, 9] (some [5, 6])) :=
  ((@parsePacket_grammar twoBlocks [] (by decide) (by unfold PARSE_LIMIT; decide)).2.2.1 _).1
    (by decide +kernel)

def longDatagram (n : ℕ) : Bytes :=
  ({ freshHdr ST_STATE with ext := 1 } : PacketFormatV1).toBytes ++ (0 :: 0 :: List.replicate n 0)

/-- From `2 ^ 31` bytes behind a block on, the length left no longer fits an `int`. -/
theorem parseBytes_longDatagram {n : ℕ} (h : 2 ^ 31 ≤ n) (h' : n < 2 ^ 32) (bits : Bytes) :
    (parseBytes (longDatagram n) bits).1 = none ∧ ∃ pp, Sentence (longDatagram n) pp := by
  have hhdr : PacketFormatV1.ofBytes (longDatagram n) = { freshHdr ST_STATE with ext := 1 } :=
    PacketFormatV1.ofBytes_toBytes _ _
  have hlen : (longDatagram n).length = n + 21 + 1 := by
    simp [longDatagram, PacketFormatV1.size]
    omega
  have hdrop : (longDatagram n).drop PacketFormatV1.size = 0 :: 0 :: ([] ++ List.replicate n 0) := rfl
  constructor
  · have hneg : int32 (((n + 21 + 1 : ℕ) : ℤ) - (PacketFormatV1.size + 2 : ℕ)) < 0 := by
      unfold PacketFormatV1.size
      rw [show ((n + 21 + 1 : ℕ) : ℤ) - (20 + 2 : ℕ) = n by push_cast; ring]
      apply int32_neg <;> exact_mod_cast ‹_›
    unfold parseBytes
    dsimp only
    rw [hhdr, hlen, if_neg (by decide), if_neg (by unfold PacketFormatV1.size; omega),
      if_neg (by decide), parseExtensions]
    dsimp only
    rw [hlen, if_pos (.inl hneg)]
    rfl
  · refine ⟨_, ?_, [(1, [])], List.replicate n 0, ?_, rfl⟩
    · rw [hhdr]
      decide
    · rw [hhdr, hdrop]
      exact @Chain.block 1 0 [] (List.replicate n 0) [] _ (by decide) (by simp) (by decide) .done

theorem parsePacket_truncates : ¬ ∀ b bits : Bytes, PacketFormatV1.size ≤ b.length →
    ∀ pp, (parseBytes b bits).1 = some pp ↔ Sentence b pp := by
  intro h
  obtain ⟨n, hn, hn'⟩ : ∃ n, 2 ^ 31 ≤ n ∧ n < 2 ^ 32 := ⟨2 ^ 31, le_rfl, by norm_num⟩
  obtain ⟨hnone, pp, hpp⟩ := parseBytes_longDatagram hn hn' []
  have := (h (longDatagram n) [] (by
    unfold longDatagram
    rw [List.length_append, PacketFormatV1.toBytes_length]
    exact Nat.le_add_right _ _) pp).2 hpp
  rw [hnone] at this
  cases this

end UtpSocket

end Utp
