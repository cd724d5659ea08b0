import Mathlib.Logic.Basic

/-!
# Machines that take one step at a time

A machine takes labelled steps. A step has no result in a state in which it is not possible.
-/

namespace Xadma

variable {σ L : Type}

structure Machine (σ L : Type) where
  step : L → σ → Option σ

namespace Machine

/-- The states that runs from `s₀` reach when every step `l` is taken in a state `s` with
`ok s l`. -/
inductive Reach (M : Machine σ L) (ok : σ → L → Prop) (s₀ : σ) : σ → Prop
  | refl : Reach M ok s₀ s₀
  | step {s s' : σ} {l : L} : Reach M ok s₀ s → ok s l → M.step l s = some s' → Reach M ok s₀ s'

/-- Every step may be taken. -/
abbrev Runs (M : Machine σ L) : σ → σ → Prop := M.Reach fun _ _ => True

/-- Take the steps of a list in order, checking `ok` before each. -/
def run (M : Machine σ L) (ok : σ → L → Prop) [∀ s l, Decidable (ok s l)] : σ → List L → Option σ
  | s, [] => some s
  | s, l :: ls => if ok s l then (M.step l s).bind fun s' => M.run ok s' ls else none

variable {M : Machine σ L} {ok : σ → L → Prop} {s₀ s s' : σ}

/-- The induction over a run: what one step preserves. -/
theorem Reach.invariant (I : σ → Prop) (hinit : I s₀)
    (hstep : ∀ s l s', I s → ok s l → M.step l s = some s' → I s') (h : M.Reach ok s₀ s) : I s := by
  induction h with
  | refl => exact hinit
  | step _ hl hs ih => exact hstep _ _ _ ih hl hs

theorem Reach.single {l : L} (hl : ok s l) (h : M.step l s = some s') : M.Reach ok s s' :=
  Reach.refl.step hl h

theorem Reach.trans (h : M.Reach ok s₀ s) (h' : M.Reach ok s s') : M.Reach ok s₀ s' := by
  induction h' with
  | refl => exact h
  | step _ hl hs ih => exact ih.step hl hs

/-- A machine that follows another one: each step of that is matched by a run of its own. -/
theorem Reach.follow {τ K : Type} {N : Machine τ K} {ok' : τ → K → Prop} {t₀ : τ}
    (R : σ → τ → Prop) (hinit : R s₀ t₀)
    (hstep : ∀ s l s' t, M.Reach ok s₀ s → N.Reach ok' t₀ t → R s t → ok s l →
      M.step l s = some s' → ∃ t', N.Reach ok' t t' ∧ R s' t')
    (h : M.Reach ok s₀ s) : ∃ t, N.Reach ok' t₀ t ∧ R s t := by
  induction h with
  | refl => exact ⟨t₀, .refl, hinit⟩
  | step hs hl hnext ih =>
    obtain ⟨t, ht, hr⟩ := ih
    obtain ⟨t', ht', hr'⟩ := hstep _ _ _ t hs ht hr hl hnext
    exact ⟨t', ht.trans ht', hr'⟩

theorem Reach.run [∀ s l, Decidable (ok s l)] {ls : List L} (h : M.Reach ok s₀ s)
    (hr : M.run ok s ls = some s') : M.Reach ok s₀ s' := by
  induction ls generalizing s with
  | nil =>
    cases hr
    exact h
  | cons l ls ih =>
    simp only [Machine.run] at hr
    split at hr
    · next hl =>
      obtain ⟨s₁, hs, hr⟩ := Option.bind_eq_some_iff.mp hr
      exact ih (h.step hl hs) hr
    · cases hr

/-- What is checked at the end of a run holds of a state that is reached. -/
theorem Reach.exists_of_run [∀ s l, Decidable (ok s l)] (ls : List L) (p : σ → Bool)
    (h : ((M.run ok s₀ ls).any p) = true) : ∃ s, M.Reach ok s₀ s ∧ p s = true := by
  cases hr : M.run ok s₀ ls with
  | none => simp [hr] at h
  | some s => exact ⟨s, Reach.refl.run hr, by simpa [hr] using h⟩

end Machine

end Xadma
