import LibUtp.Registry.Run
import Mathlib.Data.List.Perm.Basic

/-! The rate limit on RST replies: one entry for each packet that was answered, kept for the
timeout after the packet was last seen. -/

namespace Utp

open Lts

/-- The packet that a RST answers: the peer, the id and the number. -/
abbrev PacketId := Address × UInt32 × UInt16

def RstInfo.packet (r : RstInfo) : PacketId := (r.addr, r.connid, r.ackNr)

def Event.rst : Event → Option PacketId
  | .sendRst b peer =>
    some (peer, (PacketFormatV1.ofBytes b).connid.toUInt32, (PacketFormatV1.ofBytes b).ackNr)
  | _ => none

namespace UtpContext

variable {c c' d : UtpContext} {env : Env}

/-- The entries stay and no RST is sent. -/
structure Plain (c c' : UtpContext) : Prop where
  rstInfo : c'.rstInfo = c.rstInfo
  log : ∃ l, c'.log = c.log ++ l ∧ ∀ e ∈ l, e.rst = none

namespace Plain

theorem of_eq (hr : c'.rstInfo = c.rstInfo) (hl : c'.log = c.log) : Plain c c' :=
  ⟨hr, [], by rw [hl, List.append_nil], by simp⟩

theorem refl (c : UtpContext) : Plain c c := of_eq rfl rfl

theorem trans (h : Plain c c') (h' : Plain c' d) : Plain c d := by
  obtain ⟨hr, l, hl, hn⟩ := h
  obtain ⟨hr', l', hl', hn'⟩ := h'
  refine ⟨hr'.trans hr, l ++ l', by rw [hl', hl, List.append_assoc], fun e he => ?_⟩
  rcases List.mem_append.1 he with he | he
  · exact hn e he
  · exact hn' e he

theorem ite {p : Prop} [Decidable p] (h : p → Plain c c') (h' : ¬ p → Plain c d) :
    Plain c (if p then c' else d) := by
  split
  · exact h ‹_›
  · exact h' ‹_›

end Plain

theorem plain_frame (h : c.AckFrame c') : Plain c c' := .of_eq (by rw [h.rest]) h.log

theorem plain_call (c : UtpContext) (h : Handle) (f : UtpSocket → UtpSocket) : Plain c (c.call h f) := by
  cases hs : c.heap h with
  | none =>
    unfold call
    rw [hs]
    exact .refl c
  | some s =>
    rw [call_eq hs]
    have habsorb : Plain c (c.absorb h (f (s.lend c.currentMs c.tick))) := by
      refine ⟨rfl, _, rfl, fun e he => ?_⟩
      obtain ⟨e', -, rfl⟩ := List.mem_map.1 he
      rfl
    exact habsorb.trans (plain_frame (frame_reacts h _ _))

theorem plain_registerSocket (c : UtpContext) (h : Handle) : Plain c (c.registerSocket h) := by
  unfold registerSocket
  split <;> exact .of_eq rfl rfl

theorem plain_destroySocket (c : UtpContext) (h : Handle) : Plain c (c.destroySocket h) := by
  cases hs : c.heap h with
  | none =>
    unfold destroySocket
    rw [hs]
    exact .refl c
  | some s =>
    rw [destroySocket_eq hs]
    have hforget : Plain c (c.forget h s) := by
      refine ⟨rfl, _, rfl, ?_⟩
      simp [Event.rst]
    exact (hforget.trans (plain_frame (frame_removeAck _ h))).trans (.of_eq rfl rfl)

theorem plain_accept (env : Env) (addr : Address) (b : Bytes) (c : UtpContext) :
    Plain c (c.accept env addr b) := by
  have hc : Plain c c.createSocket.2 := .of_eq rfl rfl
  refine ((hc.trans (plain_call _ c.createSocket.1 (UtpSocket.acceptWith env addr b))).trans
    (plain_registerSocket _ c.createSocket.1)).trans ⟨rfl, _, rfl, ?_⟩
  simp [Event.rst]

theorem plain_processSyn (env : Env) (addr : Address) (id : UInt32) (b : Bytes) (c : UtpContext) :
    Plain c (c.processSyn env addr id b) := by
  unfold processSyn
  refine .ite (fun _ => .refl c) (fun _ => .ite (fun _ => .refl c) (fun _ => .ite (fun _ => ?_) (fun _ => ?_)))
  · exact .of_eq rfl rfl
  · have hask : Plain c { c with tick := c.tick + 1 } := .of_eq rfl rfl
    exact hask.trans (plain_accept env addr b _)

theorem plain_route (addr : Address) (id : UInt32) (c : UtpContext) : Plain c (c.route addr id).2 := by
  unfold route
  split
  · exact .refl c
  · split <;> exact .of_eq rfl rfl

theorem plain_ackRounds (env : Env) (n : ℕ) (c : UtpContext) : Plain c (c.ackRounds env n) := by
  induction n generalizing c with
  | zero => exact .refl c
  | succ n ih =>
    unfold ackRounds
    split
    · exact .refl c
    · exact (plain_call c _ _).trans (ih _)

theorem plain_checkSocket (env : Env) (c : UtpContext) (h : Handle) : Plain c (c.checkSocket env h) := by
  unfold checkSocket
  have hc := plain_call c h (UtpSocket.checkTimeouts env)
  dsimp only
  split
  · exact hc.trans (.ite (fun _ => plain_destroySocket _ h) (fun _ => .refl _))
  · exact hc

theorem plain_sweep (env : Env) (order : List Handle) (c : UtpContext) :
    Plain c (order.foldl (checkSocket env) c) := by
  induction order generalizing c with
  | nil => exact .refl c
  | cons h order ih => exact (plain_checkSocket env c h).trans (ih _)

theorem plain_connect {fuel : ℕ} {h : Handle} {addr : Address}
    (hr : c.connect env fuel h addr = some c') : Plain c c' := by
  unfold connect at hr
  split at hr
  · cases hr
    exact .refl c
  · split at hr
    · cases hr
      exact plain_call c h _
    · obtain ⟨r, -, rfl⟩ := Option.map_eq_some_iff.1 hr
      have hdraw : Plain c { c with tick := r.2 } := .of_eq rfl rfl
      exact (hdraw.trans (plain_call _ h _)).trans (plain_registerSocket _ h)

/-! The entries. -/

/-- What happens to the entries at time `t`, with the packets that are answered. -/
inductive Limit (t : UInt64) : List RstInfo → List PacketId → List RstInfo → Prop
  | keep (rs : List RstInfo) : Limit t rs [] rs
  | refresh (rs : List RstInfo) (i : ℕ) :
      Limit t rs [] (rs.modify i fun r => { r with timestamp := t })
  | answer {rs : List RstInfo} {r : RstInfo} (hnew : ∀ r' ∈ rs, r'.packet ≠ r.packet)
      (hl : rs.length ≤ RST_INFO_LIMIT) (ht : r.timestamp = t) : Limit t rs [r.packet] (rs ++ [r])
  | purge {rs rs' gone : List RstInfo} (hp : (rs' ++ gone).Perm rs)
      (hg : ∀ r ∈ gone, RST_INFO_TIMEOUT.toNat ≤ (t - r.timestamp).toNat) : Limit t rs [] rs'

/-- The last entry moves into the place of the one that expired. -/
theorem perm_swapRemove {α : Type} {rs : List α} {i : ℕ} {r last : α} (hr : rs[i]? = some r)
    (hl : rs.getLast? = some last) : ((rs.set i last).dropLast ++ [r]).Perm rs := by
  obtain ⟨init, rfl⟩ : ∃ init, rs = init ++ [last] := by
    obtain ⟨ys, rfl⟩ := List.getLast?_eq_some_iff.1 hl
    exact ⟨ys, rfl⟩
  obtain ⟨hi, rfl⟩ := List.getElem?_eq_some_iff.1 hr
  rw [List.length_append, List.length_singleton] at hi
  by_cases hlt : i < init.length
  · rw [List.set_append_left _ _ hlt, List.dropLast_concat, List.getElem_append_left hlt]
    refine List.perm_append_comm.trans ?_
    refine (List.Perm.cons _ (List.set_perm_cons_eraseIdx hlt last)).trans ?_
    refine (List.Perm.swap _ _ _).trans ?_
    exact ((List.getElem_cons_eraseIdx_perm hlt).cons last).trans
      (List.perm_append_singleton last init).symm
  · obtain rfl : i = init.length := by omega
    simp

theorem mem_of_mem_modify {α : Type} {l : List α} {i : ℕ} {f : α → α} {x : α} (h : x ∈ l.modify i f) :
    x ∈ l ∨ ∃ y ∈ l, x = f y := by
  obtain ⟨n, hn⟩ := List.mem_iff_getElem?.1 h
  rw [List.getElem?_modify] at hn
  obtain ⟨y, hy, he⟩ := Option.map_eq_some_iff.1 hn
  have hy := List.mem_iff_getElem?.2 ⟨n, hy⟩
  split at he
  · exact .inr ⟨y, hy, he.symm⟩
  · rw [← he]
    exact .inl hy

theorem mem_modify_of_mem {α : Type} {l : List α} (i : ℕ) (f : α → α) {x : α} (h : x ∈ l) :
    x ∈ l.modify i f ∨ f x ∈ l.modify i f := by
  obtain ⟨n, hn⟩ := List.mem_iff_getElem?.1 h
  have hmod : (l.modify i f)[n]? = some (if i = n then f x else x) := by
    rw [List.getElem?_modify, hn]
    rfl
  have := List.mem_iff_getElem?.2 ⟨n, hmod⟩
  split at this
  · exact .inr this
  · exact .inl this

theorem toUInt32_le (x : UInt64) : x.toUInt32.toNat ≤ x.toNat := by
  rw [UInt64.toNat_toUInt32]
  exact Nat.mod_le _ _

theorem purgeRst_spec (now : UInt64) (fuel i : ℕ) (rs : List RstInfo) :
    ∃ gone, (purgeRst now fuel i rs ++ gone).Perm rs ∧
      ∀ r ∈ gone, RST_INFO_TIMEOUT.toNat ≤ (now - r.timestamp).toNat := by
  induction fuel generalizing i rs with
  | zero => exact ⟨[], by simp [purgeRst], by simp⟩
  | succ fuel ih =>
    unfold purgeRst
    split
    · rename_i r last hr hl
      split
      · rename_i hexp
        obtain ⟨gone, hp, hg⟩ := ih i (rs.set i last).dropLast
        refine ⟨gone ++ [r], ?_, fun r' hr' => ?_⟩
        · rw [← List.append_assoc]
          exact (hp.append_right [r]).trans (perm_swapRemove hr hl)
        · rcases List.mem_append.1 hr' with hr' | hr'
          · exact hg r' hr'
          · rw [List.mem_singleton.1 hr']
            exact (UInt32.le_iff_toNat_le.1 hexp).trans (toUInt32_le _)
      · exact ih (i + 1) rs
    · exact ⟨[], by simp, by simp⟩

/-- A step on the entries at a time that the clock shows. -/
def Limits (env : Env) (c c' : UtpContext) : Prop :=
  ∃ n l, c'.log = c.log ++ l ∧ Limit (env.milliseconds n) c.rstInfo (l.filterMap Event.rst) c'.rstInfo ∧
    (l.filterMap Event.rst ≠ [] → c'.currentMs = env.milliseconds n)

theorem Plain.limits (h : Plain c c') : Limits env c c' := by
  obtain ⟨hr, l, hl, hn⟩ := h
  have he : l.filterMap Event.rst = [] := List.filterMap_eq_nil_iff.2 hn
  refine ⟨0, l, hl, ?_, fun hne => absurd he hne⟩
  rw [hr, he]
  exact .keep _

theorem Plain.trans_limits (h : Plain c d) (h' : Limits env d c') : Limits env c c' := by
  obtain ⟨hr, l, hl, hn⟩ := h
  obtain ⟨n, l', hl', hlim, hms⟩ := h'
  have he : (l ++ l').filterMap Event.rst = l'.filterMap Event.rst := by
    rw [List.filterMap_append, List.filterMap_eq_nil_iff.2 hn, List.nil_append]
  refine ⟨n, l ++ l', by rw [hl', hl, List.append_assoc], ?_, ?_⟩
  · rw [he, ← hr]
    exact hlim
  · rw [he]
    exact hms

theorem limits_answerUnknown (env : Env) (addr : Address) (connid seqNr : UInt16) (c : UtpContext) :
    Limits env c (c.answerUnknown env addr connid.toUInt32 seqNr) := by
  unfold answerUnknown
  dsimp only
  split
  · exact ⟨c.tick, [], (List.append_nil _).symm, .refresh _ _, fun h => absurd rfl h⟩
  · rename_i hnone
    split
    · exact ⟨c.tick, [], (List.append_nil _).symm, .keep _, fun h => absurd rfl h⟩
    · rename_i hlim
      have hrst (s : UInt16) : Event.rst (.sendRst (rstHdr connid.toUInt32 seqNr s).toBytes addr) =
          some (addr, connid.toUInt32, seqNr) := by
        have hb := PacketFormatV1.ofBytes_toBytes (rstHdr connid.toUInt32 seqNr s) []
        rw [List.append_nil] at hb
        simp only [Event.rst, hb]
        simp [rstHdr]
      refine ⟨c.tick, _, rfl, ?_, fun _ => rfl⟩
      rw [List.filterMap_cons_some (hrst _), List.filterMap_nil]
      refine .answer (r := ⟨addr, connid.toUInt32, seqNr, env.milliseconds c.tick⟩) ?_ (not_lt.1 hlim) rfl
      intro r hr he
      have := List.findIdx?_eq_none_iff.1 hnone r hr
      simp only [RstInfo.packet, Prod.mk.injEq] at he
      simp [he] at this

theorem limits_processUdp (env : Env) (b : Bytes) (addr : Address) (c : UtpContext) :
    Limits env c (c.processUdp env b addr) := by
  unfold processUdp
  dsimp only
  split
  · exact (Plain.refl c).limits
  · split
    · split
      · exact (plain_call c _ _).limits
      · exact (Plain.refl c).limits
    · split
      · have hroute := plain_route addr (PacketFormatV1.ofBytes b).connid.toUInt32 c
        split
        · rename_i h c' hr
          rw [hr] at hroute
          exact (hroute.trans (plain_call c' h _)).limits
        · rename_i c' hr
          rw [hr] at hroute
          exact hroute.trans_limits (limits_answerUnknown env addr _ _ c')
      · exact (plain_processSyn env addr _ b c).limits

theorem limits_checkTimeouts (env : Env) (order : List Handle) (c : UtpContext) :
    Limits env c (c.checkTimeouts env order) := by
  unfold checkTimeouts
  dsimp only
  split
  · exact (Plain.of_eq rfl rfl).limits
  · obtain ⟨gone, hp, hg⟩ := purgeRst_spec (env.milliseconds c.tick) c.rstInfo.length 0 c.rstInfo
    have hsweep := plain_sweep env order { c with
      currentMs := env.milliseconds c.tick
      tick := c.tick + 1
      lastCheck := env.milliseconds c.tick
      rstInfo := purgeRst (env.milliseconds c.tick) c.rstInfo.length 0 c.rstInfo }
    obtain ⟨hr, l, hl, hn⟩ := hsweep
    have he : l.filterMap Event.rst = [] := List.filterMap_eq_nil_iff.2 hn
    refine ⟨c.tick, l, hl, ?_, fun hne => absurd he hne⟩
    rw [he, hr]
    exact .purge hp hg

theorem limits_run {op : Op} (hr : op.run env c = some c') : Limits env c c' := by
  cases op with
  | setOption opt val =>
    cases hr
    cases opt <;> exact (Plain.of_eq rfl rfl).limits
  | createSocket =>
    cases hr
    exact (Plain.of_eq rfl rfl).limits
  | connect h addr fuel => exact (plain_connect hr).limits
  | socket h op =>
    cases hr
    exact (plain_call c h _).limits
  | processUdp b addr =>
    cases hr
    exact limits_processUdp env b addr c
  | processIcmpFragmentation b addr nextHopMtu =>
    cases hr
    unfold processIcmpFragmentation
    split
    · exact (plain_call c _ _).limits
    · exact (Plain.refl c).limits
  | processIcmpError b addr =>
    cases hr
    unfold processIcmpError
    split
    · exact (plain_call c _ _).limits
    · exact (Plain.refl c).limits
  | issueDeferredAcks =>
    cases hr
    exact (plain_ackRounds env _ c).limits
  | checkTimeouts order =>
    cases hr
    exact limits_checkTimeouts env order c

/-! Runs with a clock. -/

/-- `sent` are the packets answered so far with the times. Each is still covered by an entry that is
no older, or was answered long ago. -/
structure RstLimited (sent : List (PacketId × UInt64)) (rs : List RstInfo) (now : UInt64) : Prop where
  nodup : (rs.map RstInfo.packet).Nodup
  length : rs.length ≤ RST_INFO_LIMIT + 1
  past : ∀ r ∈ rs, r.timestamp ≤ now
  covered : ∀ a ∈ sent, a.2.toNat + RST_INFO_TIMEOUT.toNat ≤ now.toNat ∨
    ∃ r ∈ rs, r.packet = a.1 ∧ a.2 ≤ r.timestamp
  apart : sent.Pairwise fun a b => a.1 = b.1 → a.2.toNat + RST_INFO_TIMEOUT.toNat ≤ b.2.toNat

namespace RstLimited

variable {sent : List (PacketId × UInt64)} {rs rs' : List RstInfo} {now t now' : UInt64}

/-- Time passes. -/
theorem wait (h : RstLimited sent rs now) (hn : now ≤ now') : RstLimited sent rs now' where
  nodup := h.nodup
  length := h.length
  past r hr := UInt64.le_trans (h.past r hr) hn
  covered a ha := by
    refine (h.covered a ha).imp_left fun h => ?_
    have := UInt64.le_iff_toNat_le.1 hn
    omega
  apart := h.apart

theorem refresh (h : RstLimited sent rs t) (i : ℕ) :
    RstLimited sent (rs.modify i fun r => { r with timestamp := t }) t := by
  have hpacket : (rs.modify i fun r => { r with timestamp := t }).map RstInfo.packet =
      rs.map RstInfo.packet := by
    apply List.ext_getElem?
    intro n
    rw [List.getElem?_map, List.getElem?_modify, List.getElem?_map]
    cases rs[n]? with
    | none => rfl
    | some r =>
      simp only [Option.map_eq_map, Option.map_some]
      split <;> rfl
  refine ⟨by rw [hpacket]; exact h.nodup, by simpa using h.length, fun r hr => ?_, fun a ha => ?_,
    h.apart⟩
  · rcases mem_of_mem_modify hr with hr | ⟨r', hr', rfl⟩
    · exact h.past r hr
    · exact UInt64.le_refl t
  · refine (h.covered a ha).imp_right ?_
    rintro ⟨r, hr, hp, hle⟩
    rcases mem_modify_of_mem i (fun r => { r with timestamp := t }) hr with hr' | hr'
    · exact ⟨r, hr', hp, hle⟩
    · exact ⟨_, hr', hp, UInt64.le_trans hle (h.past r hr)⟩

theorem answer (h : RstLimited sent rs t) {r : RstInfo} (hnew : ∀ r' ∈ rs, r'.packet ≠ r.packet)
    (hl : rs.length ≤ RST_INFO_LIMIT) (ht : r.timestamp = t) :
    RstLimited (sent ++ [(r.packet, t)]) (rs ++ [r]) t where
  nodup := by
    rw [List.map_append, List.nodup_append]
    refine ⟨h.nodup, by simp, fun a ha b hb => ?_⟩
    obtain ⟨r', hr', rfl⟩ := List.mem_map.1 ha
    rw [List.mem_singleton.1 hb]
    exact hnew r' hr'
  length := by simpa using hl
  past r' hr' := by
    rcases List.mem_append.1 hr' with hr' | hr'
    · exact h.past r' hr'
    · rw [List.mem_singleton.1 hr', ht]
      exact UInt64.le_refl t
  covered a ha := by
    rcases List.mem_append.1 ha with ha | ha
    · refine (h.covered a ha).imp_right ?_
      rintro ⟨r', hr', hrest⟩
      exact ⟨r', List.mem_append_left _ hr', hrest⟩
    · rw [List.mem_singleton.1 ha]
      refine .inr ⟨r, by simp, rfl, ?_⟩
      rw [ht]
      exact UInt64.le_refl t
  apart := by
    rw [List.pairwise_append]
    refine ⟨h.apart, List.pairwise_singleton _ _, fun a ha b hb he => ?_⟩
    rw [List.mem_singleton.1 hb] at he ⊢
    rcases h.covered a ha with hold | ⟨r', hr', hp, -⟩
    · exact hold
    · exact absurd (hp.trans he) (hnew r' hr')

theorem purge (h : RstLimited sent rs t) {gone : List RstInfo} (hp : (rs' ++ gone).Perm rs)
    (hg : ∀ r ∈ gone, RST_INFO_TIMEOUT.toNat ≤ (t - r.timestamp).toNat) : RstLimited sent rs' t where
  nodup := by
    have := (hp.map RstInfo.packet).nodup_iff.2 h.nodup
    rw [List.map_append] at this
    exact (List.nodup_append.1 this).1
  length := by
    have := hp.length_eq
    have := h.length
    rw [List.length_append] at *
    omega
  past r hr := h.past r (hp.mem_iff.1 (List.mem_append_left _ hr))
  covered a ha := by
    rcases h.covered a ha with hold | ⟨r, hr, hpk, hle⟩
    · exact .inl hold
    rcases List.mem_append.1 (hp.mem_iff.2 hr) with hr' | hr'
    · exact .inr ⟨r, hr', hpk, hle⟩
    · -- the entry had not been refreshed for the timeout
      have hexp := hg r hr'
      rw [UInt64.toNat_sub_of_le _ _ (h.past r hr)] at hexp
      have hle := UInt64.le_iff_toNat_le.1 hle
      have hpast := UInt64.le_iff_toNat_le.1 (h.past r hr)
      exact .inl (by omega)
  apart := h.apart

theorem step (h : RstLimited sent rs now) {l : List PacketId} (hs : Limit t rs l rs') (h₁ : now ≤ t)
    (h₂ : t ≤ now') : RstLimited (sent ++ l.map (·, t)) rs' now' := by
  have h := h.wait h₁
  cases hs with
  | keep =>
    rw [List.map_nil, List.append_nil]
    exact h.wait h₂
  | refresh i =>
    rw [List.map_nil, List.append_nil]
    exact (h.refresh i).wait h₂
  | answer hnew hl ht => exact (h.answer hnew hl ht).wait h₂
  | purge hp hg =>
    rw [List.map_nil, List.append_nil]
    exact (h.purge hp hg).wait h₂

end RstLimited

/-- An operation between the times `now` and `now'`, with the packets it answers and the time of
the answer. The clock shows times in between. -/
inductive ClockStep : UtpContext × UInt64 → List (PacketId × UInt64) → UtpContext × UInt64 → Prop
  | call {c c' : UtpContext} {now now' : UInt64} (env : Env) (op : Op) (ho : op.Enabled c)
      (hr : op.run env c = some c')
      (hclock : ∀ n, now ≤ env.milliseconds n ∧ env.milliseconds n ≤ now') :
      ClockStep (c, now) (((c'.log.drop c.log.length).filterMap Event.rst).map (·, c'.currentMs)) (c', now')

theorem rstLimited_step {sent : List (PacketId × UInt64)} {x x' : UtpContext × UInt64}
    {l : List (PacketId × UInt64)} (h : RstLimited sent x.1.rstInfo x.2) (hs : ClockStep x l x') :
    RstLimited (sent ++ l) x'.1.rstInfo x'.2 := by
  cases hs with
  | @call c c' now now' env op ho hr hclock =>
    obtain ⟨n, l, hl, hlim, hms⟩ := limits_run hr
    have hstep := RstLimited.step h hlim (hclock n).1 (hclock n).2
    have hdrop : c'.log.drop c.log.length = l := by rw [hl, List.drop_left]
    rw [hdrop]
    by_cases he : l.filterMap Event.rst = []
    · rw [he] at hstep ⊢
      exact hstep
    · rw [hms he]
      exact hstep

/-- In every run with a clock that does not go back, no two entries are for the same packet, there
is at most one more than the limit, and the answers to the same packet are the timeout apart. -/
theorem rst_limited {start now : UInt64} {sent : List (PacketId × UInt64)} {c : UtpContext}
    (h : Trace ClockStep ({}, start) sent (c, now)) :
    (c.rstInfo.map RstInfo.packet).Nodup ∧ c.rstInfo.length ≤ RST_INFO_LIMIT + 1 ∧
      sent.Pairwise fun a b => a.1 = b.1 → a.2.toNat + RST_INFO_TIMEOUT.toNat ≤ b.2.toNat := by
  have h₀ : RstLimited [] ({} : UtpContext).rstInfo start :=
    ⟨List.nodup_nil, Nat.zero_le _, by simp, by simp, List.Pairwise.nil⟩
  obtain ⟨g, hg, hs⟩ := h.ghost (fun g x => RstLimited g x.1.rstInfo x.2)
    (fun g l g' => g' = g ++ l) (fun g => (List.append_nil g).symm)
    (fun g a g₁ l g' h h' => by rw [h', h, List.append_assoc])
    (fun g x l x' hR hst => ⟨_, rfl, rstLimited_step hR hst⟩) h₀
  rw [List.nil_append] at hg
  subst hg
  exact ⟨hs.nodup, hs.length, hs.apart⟩

/-- A packet is answered, forgotten after twenty seconds and answered again. -/
def answeredAgain : UtpContext :=
  ((({} : UtpContext).processUdp (hostAt 0) (UtpSocket.statePacket 1 1) ⟨0, 0⟩).checkTimeouts
    (hostAt 20000) []).processUdp (hostAt 20000) (UtpSocket.statePacket 1 1) ⟨0, 0⟩

theorem trace_answeredAgain :
    Trace ClockStep ({}, 0) [((⟨0, 0⟩, 0, 1), 0), ((⟨0, 0⟩, 0, 1), 20000)] (answeredAgain, 20000) := by
  have hsame (ms : UInt64) (n : ℕ) : ms ≤ (hostAt ms).milliseconds n ∧ (hostAt ms).milliseconds n ≤ ms :=
    ⟨UInt64.le_refl ms, UInt64.le_refl ms⟩
  have hnone : (({} : UtpContext).processUdp (hostAt 0) (UtpSocket.statePacket 1 1) ⟨0, 0⟩).sockets = [] := by
    decide +kernel
  have h₁ := ClockStep.call (c := {}) (hostAt 0) (.processUdp (UtpSocket.statePacket 1 1) ⟨0, 0⟩)
    trivial rfl (hsame 0)
  have h₂ : ClockStep (_, 0) _ _ := ClockStep.call (hostAt 20000) (.checkTimeouts [])
    (show List.Perm _ _ by rw [hnone]; exact .nil) rfl
    fun n => ⟨show (0 : UInt64) ≤ 20000 by decide, (hsame 20000 n).2⟩
  have h₃ := ClockStep.call (c := (({} : UtpContext).processUdp (hostAt 0) (UtpSocket.statePacket 1 1)
    ⟨0, 0⟩).checkTimeouts (hostAt 20000) []) (hostAt 20000) (.processUdp (UtpSocket.statePacket 1 1) ⟨0, 0⟩) trivial rfl
    (hsame 20000)
  convert Trace.head h₁ (.head h₂ (.single h₃)) using 1
  · decide +kernel
  · rfl

theorem rst_limited_again : (answeredAgain.rstInfo.map RstInfo.packet).Nodup ∧
    [(((⟨0, 0⟩, 0, 1) : PacketId), (0 : UInt64)), ((⟨0, 0⟩, 0, 1), 20000)].Pairwise fun a b =>
      a.1 = b.1 → a.2.toNat + RST_INFO_TIMEOUT.toNat ≤ b.2.toNat := by
  obtain ⟨h₁, -, h₂⟩ := rst_limited trace_answeredAgain
  exact ⟨h₁, h₂⟩

end UtpContext

end Utp
