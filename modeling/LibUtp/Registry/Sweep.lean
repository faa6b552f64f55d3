import LibUtp.Registry.Isolation
import LibUtp.Registry.RstLimit

/-! The timer sweep of a context: every registered socket has one turn, after which it is destroyed or goes
on, and the entries of answered packets are kept until they expire. -/

namespace Utp

open Relation

namespace UtpContext

variable {c d : UtpContext} {x h : Handle} {s : UtpSocket} {env : Env}

/-! The entries. -/

/-- An entry that the sweep keeps. -/
def RstInfo.live (now : UInt64) (r : RstInfo) : Bool := ¬ RST_INFO_TIMEOUT ≤ (now - r.timestamp).toUInt32

/-- What stands before the entry that is replaced stays, and the rest is the same but for that entry. -/
theorem drop_swapRemove {α : Type} {rs : List α} {i : ℕ} {r last : α} (hr : rs[i]? = some r)
    (hl : rs.getLast? = some last) : (rs.set i last).dropLast.take i = rs.take i ∧
      ((rs.set i last).dropLast.drop i ++ [r]).Perm (rs.drop i) := by
  have hlt := (List.getElem?_eq_some_iff.1 hr).1
  have htake : (rs.set i last).dropLast.take i = rs.take i := by
    rw [List.dropLast_eq_take, List.take_take, List.length_set, Nat.min_eq_left (by omega), List.take_set_of_le le_rfl]
  refine ⟨htake, ?_⟩
  have hp := perm_swapRemove hr hl
  rw [← List.take_append_drop i (rs.set i last).dropLast, htake, List.append_assoc] at hp
  have hsplit := hp.trans (List.Perm.of_eq (List.take_append_drop i rs).symm)
  exact (List.perm_append_left_iff _).1 hsplit

/-- The entries before the index are kept, those from it on are filtered. -/
theorem purgeRst_perm (now : UInt64) {fuel i : ℕ} {rs : List RstInfo} (h : rs.length ≤ i + fuel) :
    (purgeRst now fuel i rs).Perm (rs.take i ++ (rs.drop i).filter (RstInfo.live now)) := by
  induction fuel generalizing i rs with
  | zero =>
    have hend : rs.length ≤ i := h
    unfold purgeRst
    rw [List.take_of_length_le hend, List.drop_eq_nil_of_le hend]
    simp
  | succ fuel ih =>
    unfold purgeRst
    split
    · rename_i r last hr hl
      obtain ⟨hi, hri⟩ := List.getElem?_eq_some_iff.1 hr
      split
      · rename_i hexp
        obtain ⟨htake, hdrop⟩ := drop_swapRemove hr hl
        have hlen : (rs.set i last).dropLast.length ≤ i + fuel := by
          rw [List.length_dropLast, List.length_set]
          omega
        have hdead : RstInfo.live now r = false := decide_eq_false (not_not.2 hexp)
        have hfilter := hdrop.filter (RstInfo.live now)
        rw [List.filter_append, List.filter_singleton, hdead, Bool.cond_false, List.append_nil] at hfilter
        refine (ih hlen).trans ?_
        rw [htake]
        exact hfilter.append_left _
      · rename_i hlive
        refine (ih (by omega)).trans ?_
        have hkept : RstInfo.live now rs[i] = true := by simpa [RstInfo.live, hri] using hlive
        rw [List.drop_eq_getElem_cons hi, List.filter_cons_of_pos hkept, List.take_succ_eq_append_getElem hi,
          List.append_assoc]
        exact .refl _
    · rename_i hnone
      have hend : rs.length ≤ i := by
        by_contra hlt
        have hi := List.getElem?_eq_getElem (not_le.1 hlt)
        have hne : rs ≠ [] := by
          rintro rfl
          simp at hlt
        exact hnone _ _ hi (List.getLast?_eq_some_getLast hne)
      rw [List.take_of_length_le hend, List.drop_eq_nil_of_le hend]
      simp

/-! The sockets. -/

theorem rests_frame (h : c.AckFrame d) : Rests x c d := by
  refine ⟨h.heap x, ?_⟩
  unfold eventsOf
  rw [h.log]

theorem rests_destroySocket (hc : c.Consistent) (hx : x ≠ h) (hs : c.heap h = some s)
    (hu : s.conn.state ≠ .uninitialized) : Rests x c (c.destroySocket h) := by
  obtain ⟨-, -, -, hcore⟩ := hc.destroy hs hu
  refine ⟨hcore x hx, ?_⟩
  have hforget : (c.forget h s).eventsOf x = c.eventsOf x := by
    refine eventsOf_append (l := [.socket h s.conn.addr (.onStateChange .destroying)]) rfl fun e he peer e' heq => ?_
    rw [List.mem_singleton.1 he] at heq
    exact hx (Event.socket.inj heq).1.symm
  rw [destroySocket_eq hs]
  exact (rests_frame (frame_removeAck (c.forget h s) h)).events.trans hforget

/-- The turn of another socket. -/
theorem rests_checkSocket (hc : c.Consistent) (env : Env) (hx : x ≠ h) (hr : c.Registered h) :
    Rests x c (c.checkSocket env h) := by
  have hcall := rests_call hx (UtpSocket.checkTimeouts env) c
  have hm : Move (fun _ _ => True) c (c.call h (UtpSocket.checkTimeouts env)) :=
    hc.move_call hr env .checkTimeouts trivial fun _ => trivial
  unfold checkSocket
  dsimp only
  split
  · rename_i s hs
    split
    · rename_i hst
      exact hcall.trans (rests_destroySocket (hc.move hm) hx hs (by rw [hst]; simp))
    · exact hcall
  · exact hcall

theorem rests_sweep (hc : c.Consistent) (env : Env) {l : List Handle} (hnd : l.Nodup)
    (hr : ∀ h ∈ l, c.Registered h) (hx : x ∉ l) : Rests x c (l.foldl (checkSocket env) c) := by
  induction l generalizing c with
  | nil => exact .refl x c
  | cons h l ih =>
    rw [List.nodup_cons] at hnd
    rw [List.mem_cons, not_or] at hx
    have hreg := hr h List.mem_cons_self
    obtain ⟨hm, hrest⟩ := moves_checkSocket (P := fun _ _ => True) hc env (fun _ => trivial) hreg
    refine (rests_checkSocket hc env hx.1 hreg).trans (ih (hc.moves hm) hnd.2 (fun y hy => ?_) hx.2)
    refine hrest y ?_ (hr y (List.mem_cons_of_mem _ hy))
    rintro rfl
    exact hnd.1 hy

/-- The turn of socket `x`, which was `s`: its `check_timeouts` ran once, at some time and with some index in the
list of delayed acknowledgements, and if that left it in `CS_DESTROY` it was destroyed. Nothing else happened to
it. -/
inductive Turn (env : Env) (s : UtpSocket) (x : Handle) (c d : UtpContext) : Prop
  | destroyed (t : UtpSocket) (i : ℤ) (ms : UInt64) (tick : ℕ)
      (ht : t = (({ s with ida := i } : UtpSocket).lend ms tick).checkTimeouts env) (hst : t.conn.state = .destroy)
      (hd : d.heap x = none)
      (he : d.eventsOf x = c.eventsOf x ++ t.out.map (.socket x s.conn.addr) ++
        [.socket x s.conn.addr (.onStateChange .destroying)])
  | kept (t : UtpSocket) (i j : ℤ) (ms : UInt64) (tick : ℕ)
      (ht : t = (({ s with ida := i } : UtpSocket).lend ms tick).checkTimeouts env) (hst : t.conn.state ≠ .destroy)
      (hd : d.heap x = some { t with ida := j })
      (he : d.eventsOf x = c.eventsOf x ++ t.out.map (.socket x s.conn.addr))

/-- All the new events are those of the socket. -/
theorem eventsOf_own {l : List Event} (hl : d.log = c.log ++ l) (ho : ∀ e ∈ l, ∃ peer e', e = .socket x peer e') :
    d.eventsOf x = c.eventsOf x ++ l := by
  unfold eventsOf
  rw [hl, List.filter_append]
  refine congrArg _ (List.filter_eq_self.2 fun e he => ?_)
  obtain ⟨peer, e', rfl⟩ := ho e he
  exact decide_eq_true rfl

theorem turn_checkSocket (hc : c.Consistent) (hs : c.heap x = some s) (hu : s.conn.state ≠ .uninitialized) (env : Env) :
    Turn env s x c (c.checkSocket env x) := by
  have hf := frame_call hs (UtpSocket.checkTimeouts env)
  have hen : UtpSocket.Op.checkTimeouts.Enabled s := trivial
  obtain ⟨hset, haddr, -⟩ := UtpSocket.key_run env hu hen c.currentMs c.tick
  obtain ⟨j, hj⟩ := hf.some (x := x) (by rw [heap_absorb, if_pos rfl])
  have hm : Move (fun _ _ => True) c (c.call x (UtpSocket.checkTimeouts env)) :=
    .call env .checkTimeouts hs trivial trivial fun h' => absurd h' hu
  have hd := hc.move hm
  have haddr : ((s.lend c.currentMs c.tick).checkTimeouts env).conn.addr = s.conn.addr := haddr
  have hset : ((s.lend c.currentMs c.tick).checkTimeouts env).conn.state ≠ .uninitialized := hset
  have hlog : (c.call x (UtpSocket.checkTimeouts env)).log = c.log ++
      ((s.lend c.currentMs c.tick).checkTimeouts env).out.map (.socket x s.conn.addr) := by
    rw [hf.log, ← haddr]
    rfl
  unfold checkSocket
  dsimp only
  generalize c.call x (UtpSocket.checkTimeouts env) = d at hj hd hlog
  generalize ht : (s.lend c.currentMs c.tick).checkTimeouts env = t at haddr hset hj hlog
  have hown : d.eventsOf x = c.eventsOf x ++ t.out.map (.socket x s.conn.addr) := by
    refine eventsOf_own hlog fun e he => ?_
    obtain ⟨e', -, rfl⟩ := List.mem_map.1 he
    exact ⟨_, _, rfl⟩
  rw [hj]
  dsimp only
  split_ifs with hst
  · refine .destroyed t s.ida c.currentMs c.tick ht.symm hst ?_ ?_
    · exact (hd.destroy hj hset).2.1.heap
    · rw [destroySocket_eq hj, ← hown]
      refine (rests_frame (frame_removeAck (d.forget x _) x)).events.trans ?_
      refine eventsOf_own ?_ fun e he => ⟨_, _, List.mem_singleton.1 he⟩
      rw [← haddr]
      rfl
  · exact .kept t s.ida j c.currentMs c.tick ht.symm hst hj hown

theorem Turn.after (h : Turn env s x c d) {c' : UtpContext} (h' : Rests x d c') : Turn env s x c c' := by
  cases h with
  | destroyed t i ms tick ht hst hd he =>
    refine .destroyed t i ms tick ht hst ?_ (h'.events.trans he)
    have hx := h'.heap
    rw [hd] at hx
    exact Option.map_eq_none_iff.1 hx
  | kept t i j ms tick ht hst hd he =>
    obtain ⟨j', hj'⟩ := h'.some hd
    exact .kept t i j' ms tick ht hst hj' (h'.events.trans he)

theorem Turn.before {i : ℤ} {c' : UtpContext} (h : Turn env { s with ida := i } x c d) (h' : Rests x c' c) :
    Turn env s x c' d := by
  cases h with
  | destroyed t i ms tick ht hst hd he =>
    rw [h'.events] at he
    exact .destroyed t i ms tick ht hst hd he
  | kept t i j ms tick ht hst hd he =>
    rw [h'.events] at he
    exact .kept t i j ms tick ht hst hd he

theorem turn_sweep (hc : c.Consistent) (env : Env) {l : List Handle} (hnd : l.Nodup) (hr : ∀ h ∈ l, c.Registered h)
    (hx : x ∈ l) (hs : c.heap x = some s) (hu : s.conn.state ≠ .uninitialized) :
    Turn env s x c (l.foldl (checkSocket env) c) := by
  obtain ⟨l₁, l₂, rfl⟩ := List.append_of_mem hx
  obtain ⟨hnd₁, hnd₂, hdisj⟩ := List.nodup_append.1 hnd
  rw [List.nodup_cons] at hnd₂
  have hr₁ (y : Handle) (hy : y ∈ l₁) : c.Registered y := hr y (List.mem_append_left _ hy)
  have hx₁ : x ∉ l₁ := fun hin => hdisj x hin x List.mem_cons_self rfl
  obtain ⟨hm, hreg⟩ := moves_sweep (P := fun _ _ => True) hc env (fun _ => trivial) hnd₁ hr₁
  have hrest := rests_sweep hc env hnd₁ hr₁ hx₁
  have hc₁ := hc.moves hm
  rw [List.foldl_append, List.foldl_cons]
  generalize l₁.foldl (checkSocket env) c = c₁ at hreg hrest hc₁
  obtain ⟨i, hi⟩ := hrest.some hs
  have hregx : c₁.Registered x := hreg x hx₁ (hr x hx)
  obtain ⟨hm₂, hreg₂⟩ := moves_checkSocket (P := fun _ _ => True) hc₁ env (fun _ => trivial) hregx
  refine ((turn_checkSocket hc₁ hi hu env).before hrest).after
    (rests_sweep (hc₁.moves hm₂) env hnd₂.2 (fun y hy => ?_) hnd₂.1)
  refine hreg₂ y ?_ (hreg y (fun hin => hdisj y hin y (List.mem_cons_of_mem _ hy) rfl)
    (hr y (List.mem_append_right _ (List.mem_cons_of_mem _ hy))))
  rintro rfl
  exact hnd₂.1 hy

/-- The context as the sweep over its sockets begins. -/
def swept (env : Env) (c : UtpContext) : UtpContext :=
  { c with
    currentMs := env.milliseconds c.tick
    tick := c.tick + 1
    lastCheck := env.milliseconds c.tick
    rstInfo := purgeRst (env.milliseconds c.tick) c.rstInfo.length 0 c.rstInfo }

theorem checkTimeouts_eq {order : List Handle}
    (hguard : ¬ env.milliseconds c.tick - c.lastCheck < TIMEOUT_CHECK_INTERVAL) :
    c.checkTimeouts env order = order.foldl (checkSocket env) (c.swept env) := if_neg hguard

theorem hostOnly_swept (env : Env) (c : UtpContext) : HostOnly c (c.swept env) :=
  ⟨rfl, [], (List.append_nil _).symm, by simp⟩

/-- A sweep that the interval lets through gives every registered socket one turn, in whatever order the table
has them, and touches no other socket; of the registered sockets it leaves none is in `CS_DESTROY`. -/
theorem sweep_turns (h : c.Reachable) {order : List Handle} (ho : order.Perm (c.sockets.map Prod.snd))
    (hguard : ¬ env.milliseconds c.tick - c.lastCheck < TIMEOUT_CHECK_INTERVAL) :
    (∀ x s, c.heap x = some s → c.Registered x → Turn env s x c (c.checkTimeouts env order)) ∧
      (∀ x, ¬ c.Registered x → Rests x c (c.checkTimeouts env order)) ∧
      ∀ x, (c.checkTimeouts env order).Registered x →
        ∃ s, (c.checkTimeouts env order).heap x = some s ∧ s.conn.state ≠ .destroy := by
  have hc := h.moves.1
  have hd := hc.moves (moves_checkTimeouts hc env ho)
  have hh := hostOnly_swept env c
  have hc₁ := hc.host hh
  have hnd := ho.nodup_iff.2 hc.nodup_handles
  have hreg (y : Handle) : y ∈ order ↔ (c.swept env).Registered y := ho.mem_iff
  rw [checkTimeouts_eq hguard] at hd ⊢
  have hturn (x : Handle) (s : UtpSocket) (hs : c.heap x = some s) (hx : c.Registered x) :
      Turn env s x c (order.foldl (checkSocket env) (c.swept env)) := by
    obtain ⟨t, ht, hu⟩ := hc.alive hx
    rw [hs] at ht
    obtain rfl := Option.some.inj ht
    exact (turn_sweep (s := { s with ida := s.ida }) hc₁ env hnd (fun y hy => (hreg y).1 hy) ((hreg x).2 hx) hs
      hu).before (rests_host hh)
  have hrest (x : Handle) (hx : ¬ c.Registered x) : Rests x c (order.foldl (checkSocket env) (c.swept env)) :=
    (rests_host hh).trans (rests_sweep hc₁ env hnd (fun y hy => (hreg y).1 hy) fun hin => hx ((hreg x).1 hin))
  refine ⟨hturn, hrest, fun x hx => ?_⟩
  obtain ⟨s, hs, hu⟩ := hd.alive hx
  refine ⟨s, hs, ?_⟩
  by_cases hxc : c.Registered x
  · obtain ⟨s₀, hs₀, -⟩ := hc.alive hxc
    cases hturn x s₀ hs₀ hxc with
    | destroyed t i ms tick ht hst hd he =>
      rw [hd] at hs
      cases hs
    | kept t i j ms tick ht hst hd he =>
      rw [hd] at hs
      obtain rfl := Option.some.inj hs
      exact hst
  · -- what was not registered was not set up, and is as it was
    have hheap := (hrest x hxc).heap
    rw [hs, Option.map_some] at hheap
    obtain ⟨s₀, hs₀, he⟩ := Option.map_eq_some_iff.1 hheap.symm
    have hst : s₀.core.conn.state = s.core.conn.state := by rw [he]
    have hst : s₀.conn.state = s.conn.state := hst
    exact absurd (hc.registered_iff.2 ⟨s₀, hs₀, by rw [hst]; exact hu⟩) hxc

/-- The second socket is destroyed in its turn; the first has its own and stays. -/
theorem sweep_turns_parted : ∃ s s', parted.heap 0 = some s ∧ parted.heap 1 = some s' ∧
    Turn (hostAt 1000) s 0 parted (parted.checkTimeouts (hostAt 1000) [1, 0]) ∧
    Turn (hostAt 1000) s' 1 parted (parted.checkTimeouts (hostAt 1000) [1, 0]) ∧
    (parted.checkTimeouts (hostAt 1000) [1, 0]).heap 1 = none ∧
    ((parted.checkTimeouts (hostAt 1000) [1, 0]).heap 0).isSome := by
  have hreg : ∀ x ∈ [0, 1], parted.Registered x := by
    unfold Registered
    decide +kernel
  obtain ⟨s, hs, -⟩ := reachable_parted.moves.1.alive (hreg 0 (by simp))
  obtain ⟨s', hs', -⟩ := reachable_parted.moves.1.alive (hreg 1 (by simp))
  have hperm : [1, 0].Perm (parted.sockets.map Prod.snd) := by decide +kernel
  have hguard : ¬ (hostAt 1000).milliseconds parted.tick - parted.lastCheck < TIMEOUT_CHECK_INTERVAL := by
    decide +kernel
  obtain ⟨hturn, -, -⟩ := sweep_turns reachable_parted hperm hguard
  exact ⟨s, s', hs, hs', hturn 0 s hs (hreg 0 (by simp)), hturn 1 s' hs' (hreg 1 (by simp)),
    Option.isNone_iff_eq_none.1 (by decide +kernel), by decide +kernel⟩

/-- Such a sweep leaves exactly the entries that have not expired. -/
theorem sweep_entries {order : List Handle} (hguard : ¬ env.milliseconds c.tick - c.lastCheck < TIMEOUT_CHECK_INTERVAL) :
    (c.checkTimeouts env order).rstInfo.Perm (c.rstInfo.filter (RstInfo.live (env.milliseconds c.tick))) := by
  rw [checkTimeouts_eq hguard, (plain_sweep env order (c.swept env)).rstInfo]
  have hall : c.rstInfo.length ≤ 0 + c.rstInfo.length := by omega
  have hp := purgeRst_perm (env.milliseconds c.tick) hall
  rw [List.take_zero, List.drop_zero, List.nil_append] at hp
  exact hp

/-- Of two entries the one that was noted at once with the sweep stays. -/
theorem sweep_entries_two : ((({ rstInfo := [⟨⟨0, 0⟩, 1, 1, 0⟩, ⟨⟨0, 0⟩, 2, 2, 20000⟩] } : UtpContext).checkTimeouts
    (hostAt 20000) []).rstInfo).Perm [⟨⟨0, 0⟩, 2, 2, 20000⟩] :=
  sweep_entries (c := { rstInfo := [⟨⟨0, 0⟩, 1, 1, 0⟩, ⟨⟨0, 0⟩, 2, 2, 20000⟩] })
    (by decide)

end UtpContext

end Utp
