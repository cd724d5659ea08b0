import Xadma.Theory.Machine
import Xadma.Theory.Prog

/-!
# Machines side by side

Machines that take their steps one at a time, in any order, and share a part of the state that each
of their steps may change. What a machine does is not changed by the others: what holds over its
runs alone holds of it in a run of all.
-/

namespace Xadma

namespace Machine

variable {ι σ L γ : Type} [DecidableEq ι]

/-- A step of machine `i` that takes it from `s` changes what is shared by `share i l s`. -/
def sideBySide (M : ι → Machine σ L) (share : ι → L → σ → γ → γ) :
    Machine ((ι → σ) × γ) (ι × L) where
  step := fun l s => ((M l.1).step l.2 (s.1 l.1)).map fun s' =>
    (Function.update s.1 l.1 s', share l.1 l.2 (s.1 l.1) s.2)

variable {M : ι → Machine σ L} {share : ι → L → σ → γ → γ} {s s' s₀ : (ι → σ) × γ}
  {ok : (ι → σ) × γ → ι × L → Prop} {l : ι × L} {i : ι}

theorem sideBySide_step_eq (h : (sideBySide M share).step l s = some s') :
    ∃ x, (M l.1).step l.2 (s.1 l.1) = some x ∧ s'.1 = Function.update s.1 l.1 x ∧
      s'.2 = share l.1 l.2 (s.1 l.1) s.2 := by
  obtain ⟨x, hx, rfl⟩ := Option.map_eq_some_iff.mp h
  exact ⟨x, hx, rfl, rfl⟩

/-- Each machine gets where it can get alone. -/
theorem Reach.component (h : (sideBySide M share).Reach ok s₀ s) (i : ι) :
    (M i).Runs (s₀.1 i) (s.1 i) := by
  refine h.invariant (fun s => (M i).Runs (s₀.1 i) (s.1 i)) .refl fun s l s' hi _ hs => ?_
  obtain ⟨x, hx, hs, -⟩ := sideBySide_step_eq hs
  rw [hs]
  by_cases hl : i = l.1
  · subst hl
    rw [Function.update_self]
    exact hi.step trivial hx
  · rw [Function.update_of_ne hl]
    exact hi

end Machine

namespace Threads

variable {Op : Type} {Res : Op → Type} {σ T E A : Type} [DecidableEq T] [DecidableEq Op]

def machine (S : Threads Op Res σ T E A) : Machine (Config Op Res σ T) (Label Op Res T E A) where
  step := fun l c => S.step c l

variable {S : Threads Op Res σ T E A} {c₀ c : Config Op Res σ T}

theorem reach_of_runs (h : S.machine.Runs c₀ c) : S.Reach (fun _ _ => True) c₀ c := by
  induction h with
  | refl => exact .refl
  | step _ _ hs ih => exact ih.step trivial hs

end Threads

end Xadma
