import Mathlib.Logic.Relation
import Mathlib.Data.List.Infix

/-! A reliable pipe: what is written comes out once and in order, and its end is reported only after
all of it. -/

open Relation

variable {α : Type*}

/-- What was written and what was read so far. The writer may have closed the pipe, the reader may
want no more, or it was told of the end. -/
structure Pipe (α : Type*) where
  written : List α := []
  read : List α := []
  closed : Bool := false
  deaf : Bool := false
  ended : Bool := false

namespace Pipe

variable {p q : Pipe α}

inductive Step : Pipe α → Pipe α → Prop
  | write {p : Pipe α} (l : List α) (h : p.closed = false) : Step p { p with written := p.written ++ l }
  | close {p : Pipe α} : Step p { p with closed := true }
  | read {p : Pipe α} (l : List α) (hd : p.deaf = false) (he : p.ended = false)
      (hl : p.read ++ l <+: p.written) : Step p { p with read := p.read ++ l }
  | turnAway {p : Pipe α} : Step p { p with deaf := true }
  | finish {p : Pipe α} (hc : p.closed) (hd : p.deaf = false) (hr : p.read = p.written) :
      Step p { p with ended := true }

/-- What holds of a pipe at any time. -/
structure Sound (p : Pipe α) : Prop where
  integrity : p.read <+: p.written
  ended : p.ended → p.closed ∧ p.read = p.written

theorem sound_step (h : p.Sound) (hs : Step p q) : q.Sound := by
  cases hs with
  | write l hc =>
    refine ⟨h.integrity.trans (List.prefix_append _ _), fun he => ?_⟩
    have := (h.ended he).1
    simp [hc] at this
  | close => exact ⟨h.integrity, fun he => ⟨rfl, (h.ended he).2⟩⟩
  | read l hd he hl => exact ⟨hl, fun he' => absurd he' (by simp [he])⟩
  | turnAway => exact ⟨h.integrity, h.ended⟩
  | finish hc hd hr => exact ⟨h.integrity, fun _ => ⟨hc, hr⟩⟩

/-- Past its end a pipe carries nothing. -/
theorem final_step (h : p.Sound) (he : p.ended) (hs : Step p q) :
    q.ended ∧ q.written = p.written ∧ q.read = p.read := by
  cases hs with
  | write l hc =>
    have := (h.ended he).1
    simp [hc] at this
  | close => exact ⟨he, rfl, rfl⟩
  | read l hd he' => simp [he'] at he
  | turnAway => exact ⟨he, rfl, rfl⟩
  | finish => exact ⟨rfl, rfl, rfl⟩

theorem sound_run (h : p.Sound) (hs : ReflTransGen Step p q) : q.Sound := by
  induction hs with
  | refl => exact h
  | tail _ hstep ih => exact sound_step ih hstep

theorem final_run (h : p.Sound) (he : p.ended) (hs : ReflTransGen Step p q) :
    q.ended ∧ q.written = p.written ∧ q.read = p.read := by
  induction hs with
  | refl => exact ⟨he, rfl, rfl⟩
  | tail hpath hstep ih =>
    obtain ⟨h1, h2, h3⟩ := ih
    obtain ⟨h4, h5, h6⟩ := final_step (sound_run h hpath) h1 hstep
    exact ⟨h4, h5.trans h2, h6.trans h3⟩

/-- The writer writes `l`, or it closes the pipe. -/
theorem run_writer (l : List α) {c : Bool} (hl : p.closed → l = []) (hc : p.closed → c) :
    ReflTransGen Step p { p with written := p.written ++ l, closed := c } := by
  obtain ⟨w, r, closed, deaf, ended⟩ := p
  cases closed with
  | true =>
    obtain rfl := hl rfl
    obtain rfl : c = true := hc rfl
    rw [List.append_nil]
  | false =>
    have hwrite := Step.write (p := ⟨w, r, false, deaf, ended⟩) l rfl
    cases c with
    | false => exact .single hwrite
    | true => exact .tail (.single hwrite) .close

/-- The reader reads `l`, is told of the end, or turns away. -/
theorem run_reader (l : List α) {d e : Bool} (hd : p.deaf → d) (he : p.ended → e)
    (hl : p.deaf ∨ p.ended → l = []) (hp : p.read ++ l <+: p.written)
    (hend : p.ended = false → e → p.closed ∧ d = false ∧ p.read ++ l = p.written) :
    ReflTransGen Step p { p with read := p.read ++ l, deaf := d, ended := e } := by
  obtain ⟨w, r, closed, deaf, ended⟩ := p
  have hread : ReflTransGen Step ⟨w, r, closed, deaf, ended⟩ ⟨w, r ++ l, closed, deaf, ended⟩ := by
    by_cases h : deaf ∨ ended
    · obtain rfl := hl h
      rw [List.append_nil]
    · rw [not_or, Bool.not_eq_true, Bool.not_eq_true] at h
      exact .single (.read l h.1 h.2 hp)
  refine hread.trans ?_
  have hturn {e : Bool} : ReflTransGen Step ⟨w, r ++ l, closed, deaf, e⟩ ⟨w, r ++ l, closed, d, e⟩ := by
    cases deaf with
    | true =>
      obtain rfl : d = true := hd rfl
      exact .refl
    | false =>
      cases d with
      | false => exact .refl
      | true => exact .single .turnAway
  cases ended with
  | true =>
    obtain rfl : e = true := he rfl
    exact hturn
  | false =>
    cases e with
    | false => exact hturn
    | true =>
      obtain ⟨hc, rfl, hr⟩ := hend rfl rfl
      have hdeaf : deaf = false := by
        cases deaf with
        | false => rfl
        | true => exact absurd (hd rfl) (by simp)
      subst hdeaf
      exact .single (.finish hc rfl hr)

end Pipe
