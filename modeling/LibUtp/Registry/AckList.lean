import LibUtp.Context
import LibUtp.Kernel.Beside
import LibUtp.Kernel.Sending
import LibUtp.Lib.IndexList
import Mathlib.Logic.Relation

/-! The list of delayed acknowledgements. It stays the inverse of the indices its sockets
hold, and issuing the acknowledgements sends one for each socket and empties it. -/

namespace Utp

open IndexList Relation

namespace UtpSocket

/-- A socket but for its index. -/
def core (s : UtpSocket) : UtpSocket := { s with ida := 0 }

end UtpSocket

namespace UtpContext

/-- Only the list of delayed acknowledgements and the indices differ. -/
structure AckFrame (c c' : UtpContext) : Prop where
  rest : c' = { c with ackSockets := c'.ackSockets, heap := c'.heap }
  heap : ∀ h, (c'.heap h).map UtpSocket.core = (c.heap h).map UtpSocket.core

namespace AckFrame

variable {c c' c'' : UtpContext}

theorem refl (c : UtpContext) : c.AckFrame c := ⟨rfl, fun _ => rfl⟩

theorem trans (h : c.AckFrame c') (h' : c'.AckFrame c'') : c.AckFrame c'' := by
  refine ⟨?_, fun x => (h'.heap x).trans (h.heap x)⟩
  have h1 := h'.rest
  rw [h.rest] at h1
  exact h1

theorem isSome (h : c.AckFrame c') (x : Handle) : (c'.heap x).isSome = (c.heap x).isSome := by
  have := congrArg Option.isSome (h.heap x)
  rwa [Option.isSome_map, Option.isSome_map] at this

theorem log (h : c.AckFrame c') : c'.log = c.log := by rw [h.rest]

end AckFrame

theorem heap_setIda (c : UtpContext) (h : Handle) (i : ℤ) (x : Handle) :
    (c.setIda h i).heap x = if x = h then (c.heap h).map fun s => { s with ida := i } else c.heap x := by
  unfold setIda
  cases hs : c.heap h with
  | none =>
    dsimp only
    split
    · rename_i hx
      rw [hx, hs]
      rfl
    · rfl
  | some s =>
    unfold setSocket
    dsimp only
    split
    · rename_i hx
      rw [hx, Function.update_self]
      rfl
    · rename_i hx
      rw [Function.update_of_ne hx]

theorem ackSockets_setIda (c : UtpContext) (h : Handle) (i : ℤ) :
    (c.setIda h i).ackSockets = c.ackSockets := by
  unfold setIda
  split <;> rfl

theorem frame_setIda (c : UtpContext) (h : Handle) (i : ℤ) : c.AckFrame (c.setIda h i) := by
  refine ⟨?_, fun x => ?_⟩
  · unfold setIda
    split <;> rfl
  · rw [heap_setIda]
    split
    · rename_i hx
      rw [hx, Option.map_map]
      rfl
    · rfl

theorem frame_ackSockets (c : UtpContext) (l : List Handle) :
    c.AckFrame { c with ackSockets := l } := ⟨rfl, fun _ => rfl⟩

/-- The index of a live socket is set. -/
theorem ida_setIda {c : UtpContext} {h : Handle} (hl : (c.heap h).isSome) (i : ℤ) :
    (c.setIda h i).ida = Function.update c.ida h i := by
  obtain ⟨s, hs⟩ := Option.isSome_iff_exists.1 hl
  funext x
  unfold ida
  rw [heap_setIda]
  by_cases hx : x = h
  · rw [if_pos hx, hx, hs, Function.update_self]
    rfl
  · rw [if_neg hx, Function.update_of_ne hx]

/-- The list is the inverse of the indices, and its sockets are alive. -/
structure AckList (c : UtpContext) : Prop where
  linked : Linked c.ackSockets c.ida
  alive : ∀ h ∈ c.ackSockets, (c.heap h).isSome

theorem scheduleAck_eq {c : UtpContext} {h : Handle} (hl : (c.heap h).isSome) :
    (c.scheduleAck h).ackSockets = (push h c.ackSockets c.ida).1 ∧
      (c.scheduleAck h).ida = (push h c.ackSockets c.ida).2 := by
  unfold scheduleAck push
  split
  · exact ⟨ackSockets_setIda _ _ _,
      ida_setIda (c := { c with ackSockets := c.ackSockets ++ [h] }) hl _⟩
  · exact ⟨rfl, rfl⟩

theorem frame_scheduleAck (c : UtpContext) (h : Handle) : c.AckFrame (c.scheduleAck h) := by
  unfold scheduleAck
  split
  · exact (frame_ackSockets c _).trans (frame_setIda _ h _)
  · exact .refl c

theorem removeAck_eq {c : UtpContext} {h : Handle} (hc : c.AckList) (hl : (c.heap h).isSome) :
    (c.removeAck h).ackSockets = (swapRemove h c.ackSockets c.ida).1 ∧
      (c.removeAck h).ida = (swapRemove h c.ackSockets c.ida).2 := by
  unfold removeAck swapRemove
  dsimp only
  split
  · exact ⟨rfl, rfl⟩
  · cases hlast : c.ackSockets.getLast? with
    | none => exact ⟨rfl, rfl⟩
    | some last =>
      have hlive := hc.alive last (List.mem_of_getLast? hlast)
      have hf := frame_setIda c last (c.ida h)
      have hida := ida_setIda hlive (c.ida h)
      have hack := ackSockets_setIda c last (c.ida h)
      dsimp only
      generalize c.setIda last (c.ida h) = d at hf hida hack
      have hl' : (d.heap h).isSome := by rwa [hf.isSome]
      rw [hack]
      have hset := ida_setIda (c := { d with ackSockets := (c.ackSockets.set (c.ida h).toNat last).dropLast })
        hl' (-1)
      refine ⟨ackSockets_setIda _ _ _, hset.trans ?_⟩
      show Function.update d.ida h (-1) = _
      rw [hida]

theorem frame_removeAck (c : UtpContext) (h : Handle) : c.AckFrame (c.removeAck h) := by
  unfold removeAck
  dsimp only
  split
  · exact .refl c
  · split
    · exact .refl c
    · have hf := frame_setIda c ‹Handle› (c.ida h)
      generalize c.setIda ‹Handle› (c.ida h) = d at hf ⊢
      exact (hf.trans (frame_ackSockets d _)).trans (frame_setIda _ h _)

namespace AckList

variable {c : UtpContext} {h : Handle}

theorem scheduleAck (hc : c.AckList) (hl : (c.heap h).isSome) : (c.scheduleAck h).AckList ∧
    ∀ x, x ∈ (c.scheduleAck h).ackSockets ↔ x ∈ c.ackSockets ∨ x = h := by
  obtain ⟨h1, h2⟩ := scheduleAck_eq hl
  have hmem (x : Handle) : x ∈ (c.scheduleAck h).ackSockets ↔ x ∈ c.ackSockets ∨ x = h := by
    rw [h1]
    exact hc.linked.mem_push
  refine ⟨⟨?_, fun x hx => ?_⟩, hmem⟩
  · rw [h1, h2]
    exact hc.linked.push h
  · rw [(frame_scheduleAck c h).isSome]
    rcases (hmem x).1 hx with hx | rfl
    · exact hc.alive x hx
    · exact hl

theorem removeAck (hc : c.AckList) (hl : (c.heap h).isSome) : (c.removeAck h).AckList ∧
    ∀ x, x ∈ (c.removeAck h).ackSockets ↔ x ∈ c.ackSockets ∧ x ≠ h := by
  obtain ⟨h1, h2⟩ := removeAck_eq hc hl
  have hmem (x : Handle) : x ∈ (c.removeAck h).ackSockets ↔ x ∈ c.ackSockets ∧ x ≠ h := by
    rw [h1]
    exact hc.linked.mem_swapRemove
  refine ⟨⟨?_, fun x hx => ?_⟩, hmem⟩
  · rw [h1, h2]
    exact hc.linked.swapRemove h
  · rw [(frame_removeAck c h).isSome]
    exact hc.alive x ((hmem x).1 hx).1

theorem react (hc : c.AckList) (hl : (c.heap h).isSome) (e : Effect) : (c.react h e).AckList := by
  unfold UtpContext.react
  split
  · exact (hc.scheduleAck hl).1
  · exact (hc.removeAck hl).1
  · exact hc

end AckList

theorem frame_react (h : Handle) (c : UtpContext) (e : Effect) : c.AckFrame (c.react h e) := by
  unfold react
  split
  · exact frame_scheduleAck c h
  · exact frame_removeAck c h
  · exact .refl c

theorem frame_reacts (h : Handle) (l : List Effect) (c : UtpContext) :
    c.AckFrame (l.foldl (react h) c) := by
  induction l generalizing c with
  | nil => exact .refl c
  | cons e l ih => exact (frame_react h c e).trans (ih _)

theorem AckList.reacts {c : UtpContext} {h : Handle} (hc : c.AckList) (hl : (c.heap h).isSome)
    (l : List Effect) : (l.foldl (UtpContext.react h) c).AckList := by
  induction l generalizing c with
  | nil => exact hc
  | cons e l ih =>
    refine ih (hc.react hl e) ?_
    rw [(frame_react h c e).isSome]
    exact hl

/-! A call of a socket. -/

/-- The context takes back socket `h` with the clock and the effects. -/
def absorb (h : Handle) (s : UtpSocket) (c : UtpContext) : UtpContext :=
  { c.setSocket h s with
    currentMs := s.currentMs
    tick := s.tick
    log := c.log ++ s.out.map (.socket h s.conn.addr) }

theorem call_eq {c : UtpContext} {h : Handle} {s : UtpSocket} (hs : c.heap h = some s)
    (f : UtpSocket → UtpSocket) : c.call h f =
      (f (s.lend c.currentMs c.tick)).out.foldl (react h)
        (c.absorb h (f (s.lend c.currentMs c.tick))) := by
  unfold call
  rw [hs]
  rfl

theorem heap_absorb (c : UtpContext) (h : Handle) (s : UtpSocket) (x : Handle) :
    (c.absorb h s).heap x = if x = h then some s else c.heap x := by
  unfold absorb setSocket
  exact Function.update_apply _ _ _ _

/-- The index of the socket stays. -/
theorem ida_absorb {c : UtpContext} {h : Handle} {s s' : UtpSocket} (hs : c.heap h = some s)
    (hi : s'.ida = s.ida) : (c.absorb h s').ida = c.ida := by
  funext x
  unfold ida
  rw [heap_absorb]
  split
  · rename_i hx
    rw [hx, hs, Option.map_some, Option.map_some, hi]
  · rfl

theorem AckList.absorb {c : UtpContext} (hc : c.AckList) {h : Handle} {s s' : UtpSocket}
    (hs : c.heap h = some s) (hi : s'.ida = s.ida) : (c.absorb h s').AckList := by
  refine ⟨?_, fun x hx => ?_⟩
  · rw [ida_absorb hs hi]
    exact hc.linked
  · rw [heap_absorb]
    split
    · rfl
    · exact hc.alive x hx

/-- Effects that leave the list alone. -/
theorem reacts_failures (h : Handle) {l : List Effect} (c : UtpContext)
    (hl : ∀ e ∈ l, ∃ a, e = .assertFailed a) : l.foldl (react h) c = c := by
  induction l with
  | nil => rfl
  | cons e l ih =>
    obtain ⟨a, rfl⟩ := hl e List.mem_cons_self
    exact ih fun e' he' => hl e' (List.mem_cons_of_mem _ he')

/-- The socket that has sent a datagram. -/
def sender : Event → Option Handle
  | .socket h _ (.sendTo _ _) => some h
  | _ => none

/-- `l` logs one acknowledgement of socket `h`, a STATE packet to its peer. -/
def AckLogged (c : UtpContext) (h : Handle) (l : List Event) : Prop :=
  l.filterMap sender = [h] ∧ ∀ x peer b flags, Event.socket x peer (.sendTo b flags) ∈ l →
    ∃ s, c.heap h = some s ∧ x = h ∧ peer = s.conn.addr ∧ s.kernel.StateBytes b

variable (env : Env)

/-- One acknowledgement is sent and the socket leaves the list. -/
theorem sendAck_round {c : UtpContext} (hc : c.AckList) {h : Handle} {s : UtpSocket}
    (hs : c.heap h = some s) :
    (c.call h (UtpSocket.sendAck env false)).AckList ∧
      (∀ x, x ∈ (c.call h (UtpSocket.sendAck env false)).ackSockets ↔ x ∈ c.ackSockets ∧ x ≠ h) ∧
      (∃ l, (c.call h (UtpSocket.sendAck env false)).log = c.log ++ l ∧ c.AckLogged h l) ∧
      ∀ x, x ≠ h → ((c.call h (UtpSocket.sendAck env false)).heap x).map UtpSocket.core =
        (c.heap x).map UtpSocket.core := by
  rw [call_eq hs]
  obtain ⟨hk, l, b, hb, ho, hl⟩ :=
    UtpSocket.sendAck_spec env false (s.lend c.currentMs c.tick)
  have hside := UtpSocket.beside_sendAck env (r := false) (f := false) (m := false) false
    (s.lend c.currentMs c.tick)
  have hi : ((s.lend c.currentMs c.tick).sendAck env false).ida = s.ida := hside.ida
  have haddr : ((s.lend c.currentMs c.tick).sendAck env false).conn.addr = s.conn.addr := hside.addr
  have hout : (s.lend c.currentMs c.tick).out = [] := rfl
  rw [hout, List.nil_append] at ho
  have hb : s.kernel.StateBytes b := hb
  generalize (s.lend c.currentMs c.tick).sendAck env false = t at hi ho haddr
  have hfail : ∀ e ∈ l, ∃ a, e = .assertFailed a := fun e he => by
    obtain ⟨a, ha, -⟩ := hl e he
    exact ⟨a, ha⟩
  have hfold : t.out.foldl (react h) (c.absorb h t) = ((c.absorb h t).removeAck h).removeAck h := by
    rw [ho, List.foldl_append, List.foldl_append, reacts_failures h _ hfail]
    rfl
  rw [hfold]
  have hc₁ := hc.absorb hs hi
  have hlive : ((c.absorb h t).heap h).isSome := by
    rw [heap_absorb, if_pos rfl]
    rfl
  have hf₁ := frame_removeAck (c.absorb h t) h
  obtain ⟨hc₂, hm₂⟩ := hc₁.removeAck hlive
  have hlog : (c.absorb h t).log = c.log ++ t.out.map (.socket h s.conn.addr) := by
    rw [← haddr]
    rfl
  have hack : (c.absorb h t).ackSockets = c.ackSockets := rfl
  have hheap := heap_absorb c h t
  generalize c.absorb h t = d at hc₁ hlive hf₁ hc₂ hm₂ hlog hack hheap
  have hlive₂ : ((d.removeAck h).heap h).isSome := by
    rw [hf₁.isSome]
    exact hlive
  obtain ⟨hc₃, hm₃⟩ := hc₂.removeAck hlive₂
  have hf := hf₁.trans (frame_removeAck _ h)
  refine ⟨hc₃, fun x => ?_, ⟨t.out.map (.socket h s.conn.addr), ?_, ?_, ?_⟩, fun x hx => ?_⟩
  · rw [hm₃, hm₂, hack]
    tauto
  · rw [hf.log, hlog]
  · have hnil : (l.map (Event.socket h s.conn.addr)).filterMap sender = [] := by
      rw [List.filterMap_eq_nil_iff]
      intro e he
      obtain ⟨e', he', rfl⟩ := List.mem_map.1 he
      obtain ⟨a, rfl⟩ := hfail e' he'
      rfl
    rw [ho, List.map_append, List.map_append, List.filterMap_append, List.filterMap_append, hnil]
    rfl
  · intro x peer b' flags hmem
    obtain ⟨e, he, hev⟩ := List.mem_map.1 hmem
    obtain ⟨rfl, rfl, rfl⟩ := Event.socket.inj hev
    refine ⟨s, hs, rfl, rfl, ?_⟩
    rw [ho] at he
    simp only [List.mem_append, List.mem_cons, List.not_mem_nil, or_false, reduceCtorEq,
      Effect.sendTo.injEq] at he
    rcases he with he | ⟨rfl, -⟩
    · obtain ⟨a, ha⟩ := hfail _ he
      cases ha
    · exact hb
  · rw [hf.heap x, hheap, if_neg hx]

/-- `l` logs one acknowledgement for each socket of the list: a STATE packet to its peer. -/
def AcksLogged (c : UtpContext) (l : List Event) : Prop :=
  (l.filterMap sender).Perm c.ackSockets ∧ ∀ x peer b flags,
    Event.socket x peer (.sendTo b flags) ∈ l →
      ∃ s, c.heap x = some s ∧ peer = s.conn.addr ∧ s.kernel.StateBytes b

theorem kernel_of_core {s t : UtpSocket} (h : s.core = t.core) :
    s.kernel = t.kernel ∧ s.conn.addr = t.conn.addr := by
  have hk : s.core.kernel = t.core.kernel := by rw [h]
  have ha : s.core.conn.addr = t.core.conn.addr := by rw [h]
  exact ⟨hk, ha⟩

/-- The rounds send the acknowledgements and empty the list. -/
theorem ackRounds_spec {n : ℕ} {c : UtpContext} (hc : c.AckList) (hn : c.ackSockets.length = n) :
    (c.ackRounds env n).AckList ∧ (c.ackRounds env n).ackSockets = [] ∧
      ∃ l, (c.ackRounds env n).log = c.log ++ l ∧ c.AcksLogged l := by
  induction n generalizing c with
  | zero =>
    have hnil := List.length_eq_zero_iff.1 hn
    exact ⟨hc, hnil, [], (List.append_nil _).symm, by rw [hnil]; exact .refl _, by simp⟩
  | succ n ih =>
    unfold ackRounds
    cases hack : c.ackSockets with
    | nil =>
      rw [hack] at hn
      cases hn
    | cons h l =>
      have hmem : h ∈ c.ackSockets := by
        rw [hack]
        exact List.mem_cons_self
      obtain ⟨s, hs⟩ := Option.isSome_iff_exists.1 (hc.alive h hmem)
      obtain ⟨hc₁, hm₁, ⟨l₁, hlog₁, hone, hack₁⟩, hheap₁⟩ := sendAck_round env hc hs
      dsimp only
      generalize c.call h (UtpSocket.sendAck env false) = d at hc₁ hm₁ hlog₁ hheap₁
      have hnd := hc.linked.nodup
      rw [hack, List.nodup_cons] at hnd
      have hperm : d.ackSockets.Perm l := by
        rw [List.perm_ext_iff_of_nodup hc₁.linked.nodup hnd.2]
        intro x
        rw [hm₁, hack, List.mem_cons]
        constructor
        · rintro ⟨rfl | hx, hne⟩
          · exact absurd rfl hne
          · exact hx
        · intro hx
          refine ⟨.inr hx, ?_⟩
          rintro rfl
          exact hnd.1 hx
      have hlen : d.ackSockets.length = n := by
        rw [hperm.length_eq]
        rw [hack] at hn
        exact Nat.succ.inj hn
      obtain ⟨hc₂, hnil, l₂, hlog₂, hp₂, hack₂⟩ := ih hc₁ hlen
      refine ⟨hc₂, hnil, l₁ ++ l₂, by rw [hlog₂, hlog₁, List.append_assoc], ?_, ?_⟩
      · rw [List.filterMap_append, hone, hack]
        exact (hp₂.trans hperm).cons h
      · intro x peer b flags hx
        rcases List.mem_append.1 hx with hx | hx
        · obtain ⟨s', hs', rfl, h1, h2⟩ := hack₁ x peer b flags hx
          exact ⟨s', hs', h1, h2⟩
        · obtain ⟨s', hs', h1, h2⟩ := hack₂ x peer b flags hx
          have hxl : x ∈ d.ackSockets := hp₂.mem_iff.1
            (List.mem_filterMap.2 ⟨_, hx, rfl⟩)
          have hne := ((hm₁ x).1 hxl).2
          have hcore := hheap₁ x hne
          rw [hs', Option.map_some] at hcore
          obtain ⟨s₀, hs₀, he⟩ := Option.map_eq_some_iff.1 hcore.symm
          obtain ⟨hk, ha⟩ := kernel_of_core he
          exact ⟨s₀, hs₀, by rw [h1, ha], by rw [hk]; exact h2⟩

/-- The loop of `issue_deferred_acks` with its unsigned index, which wraps below zero in
each round; `none` when `fuel` rounds were not enough. -/
def deferredLoop : ℕ → UInt64 → UtpContext → Option UtpContext
  | 0, _, _ => none
  | fuel + 1, i, c =>
    match c.ackSockets[i.toNat]? with
    | none => some c
    | some h => deferredLoop fuel (i - 1 + 1) (c.call h (UtpSocket.sendAck env false))

theorem deferredLoop_eq {n : ℕ} {c : UtpContext} (hc : c.AckList) (hn : c.ackSockets.length = n) :
    c.deferredLoop env (n + 1) 0 = some (c.ackRounds env n) := by
  induction n generalizing c with
  | zero =>
    have hnil := List.length_eq_zero_iff.1 hn
    unfold deferredLoop
    rw [hnil]
    rfl
  | succ n ih =>
    unfold deferredLoop ackRounds
    cases hack : c.ackSockets with
    | nil =>
      rw [hack] at hn
      cases hn
    | cons h l =>
      have hmem : h ∈ c.ackSockets := by
        rw [hack]
        exact List.mem_cons_self
      obtain ⟨s, hs⟩ := Option.isSome_iff_exists.1 (hc.alive h hmem)
      obtain ⟨hc₁, hm₁, -, -⟩ := sendAck_round env hc hs
      have hnd := hc.linked.nodup
      rw [hack, List.nodup_cons] at hnd
      have hlen : (c.call h (UtpSocket.sendAck env false)).ackSockets.length = n := by
        have hperm : (c.call h (UtpSocket.sendAck env false)).ackSockets.Perm l := by
          rw [List.perm_ext_iff_of_nodup hc₁.linked.nodup hnd.2]
          intro x
          rw [hm₁, hack, List.mem_cons]
          constructor
          · rintro ⟨rfl | hx, hne⟩
            · exact absurd rfl hne
            · exact hx
          · intro hx
            refine ⟨.inr hx, ?_⟩
            rintro rfl
            exact hnd.1 hx
        rw [hperm.length_eq]
        rw [hack] at hn
        exact Nat.succ.inj hn
      have hzero : (0 : UInt64).toNat = 0 := rfl
      rw [hzero, List.getElem?_cons_zero]
      exact ih hc₁ hlen

/-- The calls of `schedule_ack` and `remove_ack` for live sockets. -/
inductive AckStep : UtpContext → UtpContext → Prop
  | schedule {c h} (hl : (c.heap h).isSome) : AckStep c (c.scheduleAck h)
  | remove {c h} (hl : (c.heap h).isSome) : AckStep c (c.removeAck h)

theorem ackList_steps {c d : UtpContext} (h : ReflTransGen AckStep c d) (hc : c.AckList) : d.AckList := by
  induction h with
  | refl => exact hc
  | tail _ hs ih =>
    cases hs with
    | schedule hl => exact (ih.scheduleAck hl).1
    | remove hl => exact (ih.removeAck hl).1

theorem ackList_initial {c : UtpContext} (h₀ : c.ackSockets = [])
    (hi : ∀ h s, c.heap h = some s → s.ida = -1) : c.AckList := by
  refine ⟨⟨by simp [h₀], fun h _ => ?_⟩, by simp [h₀]⟩
  unfold ida
  cases hs : c.heap h with
  | none => rfl
  | some s => exact hi h s hs

/-- After any calls the list has no duplicates and is the inverse of the indices; issuing the
acknowledgements then ends, sends one for each socket of the list and empties it. -/
theorem deferredAcks_drain {c₀ c : UtpContext} (h₀ : c₀.ackSockets = [])
    (hi : ∀ h s, c₀.heap h = some s → s.ida = -1) (h : ReflTransGen AckStep c₀ c) :
    c.ackSockets.Nodup ∧ (∀ (i : ℕ) h, c.ackSockets[i]? = some h → c.ida h = i) ∧
      (∀ h, h ∉ c.ackSockets → c.ida h = -1) ∧
      ∀ env, ∃ n, c.deferredLoop env n 0 = some (c.issueDeferredAcks env) ∧
        (c.issueDeferredAcks env).ackSockets = [] ∧ (∀ h, (c.issueDeferredAcks env).ida h = -1) ∧
        ∃ l, (c.issueDeferredAcks env).log = c.log ++ l ∧ c.AcksLogged l := by
  have hc := ackList_steps h (ackList_initial h₀ hi)
  refine ⟨hc.linked.nodup, hc.linked.index_of, hc.linked.index_out, fun env => ?_⟩
  obtain ⟨hd, hnil, l, hlog, hacks⟩ := ackRounds_spec env hc rfl
  refine ⟨_, deferredLoop_eq env hc rfl, hnil, fun h => ?_, l, hlog, hacks⟩
  exact hd.linked.index_out h (by rw [hnil]; simp)

/-- Two new sockets. -/
def twoSockets : UtpContext := (createSocket (createSocket {}).2).2

theorem deferredAcks_drain_two :
    (((twoSockets.scheduleAck 0).scheduleAck 1).issueDeferredAcks UtpSocket.stillHost).ackSockets = [] ∧
      ((twoSockets.scheduleAck 0).scheduleAck 1).ackSockets.Nodup := by
  have hrun : ReflTransGen AckStep twoSockets ((twoSockets.scheduleAck 0).scheduleAck 1) :=
    ReflTransGen.tail (.single (.schedule (by decide))) (.schedule (by decide))
  obtain ⟨hnd, -, -, hd⟩ := deferredAcks_drain (show twoSockets.ackSockets = [] from rfl) (fun h s hs => by
    unfold twoSockets createSocket setSocket at hs
    dsimp only at hs
    simp only [Function.update_apply] at hs
    split_ifs at hs <;> cases hs <;> rfl) hrun
  obtain ⟨n, -, hnil, -⟩ := hd UtpSocket.stillHost
  exact ⟨hnil, hnd⟩

end UtpContext

end Utp
