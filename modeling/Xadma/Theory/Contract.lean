import Xadma.Theory.Prog

/-!
# Routines that make admissible calls as long as they get admissible answers

`Meets A P p Q` says of a routine alone that every call it makes is in `P` and every result in `Q`,
if every answer it gets is in `A`. `Reach.meets` puts the threads together: when the shared state
gives such answers to such calls, every call of every run is in `P`.
-/

namespace Xadma

namespace Prog

variable {Op : Type} {Res : Op → Type} {α β : Type}

def Meets (A : (op : Op) → Res op → Prop) (P : Op → Prop) :
    Prog Op Res α → (α → Prop) → Prop
  | .ret a, Q => Q a
  | .call op k, Q => P op ∧ ∀ r, A op r → Meets A P (k r) Q

namespace Meets

variable {A : (op : Op) → Res op → Prop} {P : Op → Prop} {Q Q' : α → Prop}

theorem perform {op : Op} {Q : Res op → Prop} (hop : P op) (hQ : ∀ r, A op r → Q r) :
    (Prog.perform op).Meets A P Q :=
  ⟨hop, hQ⟩

theorem bind {p : Prog Op Res α} {f : α → Prog Op Res β} {Q' : β → Prop} (h : p.Meets A P Q)
    (hf : ∀ a, Q a → (f a).Meets A P Q') : (p >>= f).Meets A P Q' := by
  induction p with
  | ret a => exact hf a h
  | call op k ih => exact ⟨h.1, fun r hr => ih r (h.2 r hr)⟩

theorem when {b : Prop} [Decidable b] {p : Prog Op Res Unit} {Q : Unit → Prop} (hQ : Q ())
    (h : b → p.Meets A P Q) : (Prog.when b p).Meets A P Q := by
  unfold Prog.when
  split
  · next hb => exact h hb
  · exact hQ

theorem head {p : Prog Op Res α} {op : Op} {k : Res op → Prog Op Res α} (h : p.Meets A P Q)
    (hp : p = .call op k) : P op := by
  subst hp
  exact h.1

end Meets

end Prog

namespace Threads

variable {Op : Type} {Res : Op → Type} {σ T E A : Type} [DecidableEq T] [DecidableEq Op]
  {S : Threads Op Res σ T E A} {ok : σ → Label Op Res T E A → Prop} {I : σ → Prop}
  {answers : (op : Op) → Res op → Prop} {P : Op → Prop}

/-- Every thread of every reachable configuration goes on with calls in `P`. -/
theorem Reach.meets {c₀ c : Config Op Res σ T} (hI : I c₀.state)
    (hinit : ∀ t, (c₀.thread t).Meets answers P fun _ => True)
    (hcall : ∀ t op s r s', I s → P op → S.act t op s r = some s' → answers op r ∧ I s')
    (henv : ∀ e s s', I s → S.env e s = some s' → I s')
    (hstart : ∀ t a s s' p, I s → S.start t a s = some (s', p) →
      I s' ∧ p.Meets answers P fun _ => True)
    (h : S.Reach ok c₀ c) : I c.state ∧ ∀ t, (c.thread t).Meets answers P fun _ => True := by
  induction h with
  | refl => exact ⟨hI, hinit⟩
  | @step c c' l _ _ hs ih =>
    obtain ⟨hi, hmeets⟩ := ih
    cases l with
    | call t op r =>
      obtain ⟨k, s', hp, ha, rfl⟩ := step_call_eq hs
      have ht := hmeets t
      rw [hp] at ht
      obtain ⟨hr, hi'⟩ := hcall t op _ r s' hi ht.1 ha
      refine ⟨hi', fun u => ?_⟩
      by_cases hut : u = t
      · subst hut; simpa using ht.2 r hr
      · simpa [hut] using hmeets u
    | env e =>
      obtain ⟨s', ha, rfl⟩ := step_env_eq hs
      exact ⟨henv e _ s' hi ha, hmeets⟩
    | start t a =>
      obtain ⟨s', p, hp, ha, rfl⟩ := step_start_eq hs
      obtain ⟨hi', hk⟩ := hstart t a _ s' p hi ha
      refine ⟨hi', fun u => ?_⟩
      by_cases hut : u = t
      · subst hut; simpa using hk
      · simpa [hut] using hmeets u

end Threads

end Xadma
