import Mathlib.Data.List.Basic

/-! Traces of a labelled transition relation whose steps carry a list of labels
each: composition, invariants, and invariants that follow a ghost state. -/

namespace Lts

variable {σ ε γ : Type*}

/-- The steps from one state to another, with the labels in order. -/
inductive Trace (step : σ → List ε → σ → Prop) : σ → List ε → σ → Prop
  | refl (s : σ) : Trace step s [] s
  | head {s a s₁ l s'} (h : step s a s₁) (t : Trace step s₁ l s') : Trace step s (a ++ l) s'

namespace Trace

variable {step step' : σ → List ε → σ → Prop} {s s₁ s' : σ} {l l' : List ε}

theorem single (h : step s l s') : Trace step s l s' := by
  have := head h (refl s')
  rwa [List.append_nil] at this

theorem trans (h : Trace step s l s₁) (h' : Trace step s₁ l' s') : Trace step s (l ++ l') s' := by
  induction h with
  | refl => exact h'
  | head hs _ ih =>
    rw [List.append_assoc]
    exact head hs (ih h')

theorem mono (hm : ∀ s l s', step s l s' → step' s l s') (h : Trace step s l s') :
    Trace step' s l s' := by
  induction h with
  | refl => exact refl _
  | head hs _ ih => exact head (hm _ _ _ hs) ih

/-- What each step preserves, a trace preserves. -/
theorem invariant {I : σ → Prop} (hI : ∀ s l s', I s → step s l s' → I s')
    (h : Trace step s l s') (hs : I s) : I s' := by
  induction h with
  | refl => exact hs
  | head h₁ _ ih => exact ih (hI _ _ _ hs h₁)

/-- What holds of the labels of each step from a good state holds of all labels. -/
theorem forall_labels {I : σ → Prop} {P : ε → Prop} (hI : ∀ s l s', I s → step s l s' → I s')
    (hP : ∀ s l s', I s → step s l s' → ∀ e ∈ l, P e) (h : Trace step s l s') (hs : I s) :
    ∀ e ∈ l, P e := by
  induction h with
  | refl => simp
  | head h₁ _ ih =>
    intro e he
    rcases List.mem_append.1 he with he | he
    · exact hP _ _ _ hs h₁ e he
    · exact ih (hI _ _ _ hs h₁) e he

/-- A ghost state that every step can update from its labels. -/
theorem ghost (R : γ → σ → Prop) (upd : γ → List ε → γ → Prop)
    (hrefl : ∀ g, upd g [] g)
    (htrans : ∀ g a g₁ l g', upd g a g₁ → upd g₁ l g' → upd g (a ++ l) g')
    (hR : ∀ g s l s', R g s → step s l s' → ∃ g', upd g l g' ∧ R g' s')
    (h : Trace step s l s') {g : γ} (hg : R g s) : ∃ g', upd g l g' ∧ R g' s' := by
  induction h generalizing g with
  | refl => exact ⟨g, hrefl g, hg⟩
  | head h₁ _ ih =>
    obtain ⟨g₁, hu, h1⟩ := hR _ _ _ _ hg h₁
    obtain ⟨g', hu', h'⟩ := ih h1
    exact ⟨g', htrans _ _ _ _ _ hu hu', h'⟩

end Trace

end Lts
