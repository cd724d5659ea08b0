import Xadma.Theory.Prog
import Mathlib.Logic.Relation

/-!
# Rely and guarantee for threads of routines

`I` is an invariant of the shared state and `R t` what thread `t` relies on: every step of the
environment and of another thread is in `R t`. `Safe t p Q s` says that thread `t`, with `p` left
to do in the state `s`, keeps `I`, respects what the other threads rely on, and ends in `Q`,
whatever the steps of `R t` between its calls. `Reach.safe` puts the threads together: one
derivation for each routine, made along its text, is a proof about every interleaving.
-/

namespace Xadma

namespace Threads

open Relation

variable {Op : Type} {Res : Op → Type} {σ T E A : Type}

section
variable (S : Threads Op Res σ T E A) (ok : σ → Label Op Res T E A → Prop)
  (I : σ → Prop) (R : T → σ → σ → Prop)

/-- A step of the others, seen from thread `t`. -/
def Other (t : T) (s s' : σ) : Prop := I s ∧ I s' ∧ R t s s'

/-- No step of the others invalidates `P`. -/
def Stable (t : T) (P : σ → Prop) : Prop := ∀ s s', I s → I s' → R t s s' → P s → P s'

def Safe {α : Type} (t : T) : Prog Op Res α → (α → σ → Prop) → σ → Prop
  | .ret a, Q, s => ∀ s', ReflTransGen (Other I R t) s s' → Q a s'
  | .call op k, Q, s => ∀ s', I s' → ReflTransGen (Other I R t) s s' →
      ∀ r s'', ok s' (.call t op r) → S.act t op s' r = some s'' →
        I s'' ∧ (∀ u, u ≠ t → R u s' s'') ∧ Safe t (k r) Q s''

end

variable {S : Threads Op Res σ T E A} {ok : σ → Label Op Res T E A → Prop}
  {I : σ → Prop} {R : T → σ → σ → Prop} {t : T} {α β : Type}

theorem Stable.later {P : σ → Prop} (h : Stable I R t P) {s s' : σ} (hs : P s)
    (hr : ReflTransGen (Other I R t) s s') : P s' := by
  induction hr with
  | refl => exact hs
  | tail _ hstep ih => exact h _ _ hstep.1 hstep.2.1 hstep.2.2 ih

theorem Stable.and {P P' : σ → Prop} (h : Stable I R t P) (h' : Stable I R t P') :
    Stable I R t fun s => P s ∧ P' s :=
  fun s s' hi hi' hr hs => ⟨h s s' hi hi' hr hs.1, h' s s' hi hi' hr hs.2⟩

theorem Stable.const (p : Prop) : Stable I R t fun _ => p := fun _ _ _ _ _ h => h

namespace Safe

theorem ret {Q : α → σ → Prop} {a : α} {s : σ} (hQ : Stable I R t (Q a)) (h : Q a s) :
    Safe S ok I R t (.ret a) Q s :=
  fun _ hr => hQ.later h hr

/-- The rule for one call: `P` holds before it, whatever the others did. -/
theorem call {Q : α → σ → Prop} {op : Op} {k : Res op → Prog Op Res α} {s : σ} (P : σ → Prop)
    (hP : Stable I R t P) (hs : P s)
    (hstep : ∀ s r s', I s → P s → ok s (.call t op r) → S.act t op s r = some s' →
      I s' ∧ (∀ u, u ≠ t → R u s s') ∧ Safe S ok I R t (k r) Q s') :
    Safe S ok I R t (.call op k) Q s :=
  fun s' hi hr r s'' hl ha => hstep s' r s'' hi (hP.later hs hr) hl ha

/-- A call on its own, whose answer and effect are what comes after. -/
theorem perform {op : Op} {Q : Res op → σ → Prop} {s : σ} (P : σ → Prop) (hP : Stable I R t P)
    (hQ : ∀ r, Stable I R t (Q r)) (hs : P s)
    (hstep : ∀ s r s', I s → P s → ok s (.call t op r) → S.act t op s r = some s' →
      I s' ∧ (∀ u, u ≠ t → R u s s') ∧ Q r s') :
    Safe S ok I R t (Prog.perform op) Q s :=
  call P hP hs fun s r s' hi hp hl ha =>
    have ⟨hi', hu, hq⟩ := hstep s r s' hi hp hl ha
    ⟨hi', hu, ret (hQ r) hq⟩

theorem later {p : Prog Op Res α} {Q : α → σ → Prop} {s s' : σ} (h : Safe S ok I R t p Q s)
    (hr : ReflTransGen (Other I R t) s s') : Safe S ok I R t p Q s' := by
  cases p with
  | ret a => exact fun s'' hr' => h s'' (hr.trans hr')
  | call op k => exact fun s'' hi hr' => h s'' hi (hr.trans hr')

theorem mono {p : Prog Op Res α} {Q Q' : α → σ → Prop} {s : σ} (h : Safe S ok I R t p Q s)
    (hQ : ∀ a s, Q a s → Q' a s) : Safe S ok I R t p Q' s := by
  induction p generalizing s with
  | ret a => exact fun s' hr => hQ a s' (h s' hr)
  | call op k ih =>
    intro s' hi hr r s'' hl ha
    obtain ⟨hi', hu, hk⟩ := h s' hi hr r s'' hl ha
    exact ⟨hi', hu, ih r hk⟩

theorem bind {p : Prog Op Res α} {f : α → Prog Op Res β} {Q : α → σ → Prop} {Q' : β → σ → Prop}
    {s : σ} (h : Safe S ok I R t p Q s) (hf : ∀ a s, Q a s → Safe S ok I R t (f a) Q' s) :
    Safe S ok I R t (p >>= f) Q' s := by
  induction p generalizing s with
  | ret a => exact hf a s (h s .refl)
  | call op k ih =>
    intro s' hi hr r s'' hl ha
    obtain ⟨hi', hu, hk⟩ := h s' hi hr r s'' hl ha
    exact ⟨hi', hu, ih r hk⟩

theorem when {b : Prop} [Decidable b] {p : Prog Op Res Unit} {Q : Unit → σ → Prop} {s : σ}
    (hQ : Stable I R t (Q ())) (h : Q () s) (hp : b → Safe S ok I R t p Q s) :
    Safe S ok I R t (Prog.when b p) Q s := by
  unfold Prog.when
  split
  · next hb => exact hp hb
  · exact ret hQ h

/-- The rule for a loop over a list: `P xs` holds when `xs` is left. -/
theorem forEach {body : β → Prog Op Res Unit} (P : List β → σ → Prop)
    (hP : Stable I R t (P [])) {xs : List β} {s : σ} (hs : P xs s)
    (hbody : ∀ x xs s, P (x :: xs) s → Safe S ok I R t (body x) (fun _ => P xs) s) :
    Safe S ok I R t (Prog.forEach xs body) (fun _ => P []) s := by
  induction xs generalizing s with
  | nil => exact ret hP hs
  | cons x xs ih => exact (hbody x xs s hs).bind fun _ s' hs' => ih hs'

/-- The rule for a loop that counts: `P k` holds when `k` rounds are done. -/
theorem forRange {body : Nat → Prog Op Res Unit} {n : Nat} (P : Nat → σ → Prop)
    (hP : Stable I R t (P n)) {s : σ} (hs : P 0 s)
    (hbody : ∀ k < n, ∀ s, P k s → Safe S ok I R t (body k) (fun _ => P (k + 1)) s) :
    Safe S ok I R t (Prog.forEach (List.range n) body) (fun _ => P n) s := by
  have hrest : ∀ m k s, k + m = n → P k s →
      Safe S ok I R t (Prog.forEach (List.range' k m) body) (fun _ => P n) s := by
    intro m
    induction m with
    | zero =>
      rintro k s rfl h
      exact ret hP h
    | succ m ih =>
      intro k s hk h
      rw [List.range'_succ]
      exact (hbody k (by omega) s h).bind fun _ s h => ih (k + 1) s (by omega) h
  rw [List.range_eq_range']
  exact hrest n 0 s (Nat.zero_add n) hs

/-- The rule for a routine whose calls keep the invariant and `J` wherever they are made. -/
theorem all {P : Op → Prop} {J : σ → Prop} {p : Prog Op Res α} {s : σ} (hJ : Stable I R t J)
    (hp : p.All P) (hs : J s)
    (hstep : ∀ op, P op → ∀ s r s', I s → J s → ok s (.call t op r) → S.act t op s r = some s' →
      I s' ∧ (∀ u, u ≠ t → R u s s') ∧ J s') :
    Safe S ok I R t p (fun _ => J) s := by
  induction p generalizing s with
  | ret a => exact ret hJ hs
  | call op k ih =>
    apply call J hJ hs
    intro s r s' hi hs hl ha
    obtain ⟨hi', hu, hs'⟩ := hstep op hp.1 s r s' hi hs hl ha
    exact ⟨hi', hu, ih r (hp.2 r) hs'⟩

/-- A routine that is run alone, with no step of the others in between. -/
theorem exec {P : Op → Prop} {answer : (op : Op) → σ → Res op} {p : Prog Op Res α}
    {Q : α → σ → Prop} {a : α} {s s' : σ} (h : Safe S ok I R t p Q s) (hp : p.All P) (hi : I s)
    (hok : ∀ op s, P op → ok s (.call t op (answer op s)))
    (he : Prog.exec (S.act t) answer p s = some (a, s')) :
    I s' ∧ Q a s' ∧ ∀ u, u ≠ t → ReflTransGen (Other I R u) s s' := by
  induction p generalizing s with
  | ret b =>
    cases he
    exact ⟨hi, h _ .refl, fun u _ => .refl⟩
  | call op k ih =>
    rw [Prog.exec_call] at he
    obtain ⟨s₁, hs₁, he⟩ := Option.bind_eq_some_iff.mp he
    obtain ⟨hi₁, hu, hk⟩ := h s hi .refl _ s₁ (hok op s hp.1) hs₁
    obtain ⟨hi', hq, hothers⟩ := ih _ hk (hp.2 _) hi₁ he
    exact ⟨hi', hq, fun u hut => .head ⟨hi, hi₁, hu u hut⟩ (hothers u hut)⟩

/-- What an idle thread left behind still holds. -/
theorem idle {Q : α → σ → Prop} {a : α} {s : σ} (h : Safe S ok I R t (.ret a) Q s) : Q a s :=
  h s .refl

end Safe

variable [DecidableEq T] [DecidableEq Op]

/-- Every reachable configuration keeps the invariant, and every thread in it is safe. -/
theorem Reach.safe {Q : T → σ → Prop} {c₀ c : Config Op Res σ T} (hI : I c₀.state)
    (hinit : ∀ t, Safe S ok I R t (c₀.thread t) (fun _ => Q t) c₀.state)
    (henv : ∀ e s s', I s → ok s (.env e) → S.env e s = some s' → I s' ∧ ∀ u, R u s s')
    (hstart : ∀ t a s s' p, I s → Q t s → ok s (.start t a) → S.start t a s = some (s', p) →
      I s' ∧ (∀ u, u ≠ t → R u s s') ∧ Safe S ok I R t p (fun _ => Q t) s')
    (h : S.Reach ok c₀ c) :
    I c.state ∧ ∀ t, Safe S ok I R t (c.thread t) (fun _ => Q t) c.state := by
  induction h with
  | refl => exact ⟨hI, hinit⟩
  | @step c c' l _ hl hs ih =>
    obtain ⟨hi, hsafe⟩ := ih
    -- a thread that did not move is safe after any step that its rely admits
    have frame : ∀ u s', I s' → R u c.state s' →
        Safe S ok I R u (c.thread u) (fun _ => Q u) s' := fun u s' hi' hr =>
      (hsafe u).later (.single ⟨hi, hi', hr⟩)
    cases l with
    | call t op r =>
      obtain ⟨k, s', hp, ha, rfl⟩ := step_call_eq hs
      have ht := hsafe t
      rw [hp] at ht
      obtain ⟨hi', hu, hk⟩ := ht c.state hi .refl r s' hl ha
      refine ⟨hi', fun u => ?_⟩
      by_cases hut : u = t
      · subst hut; simpa using hk
      · simpa [hut] using frame u s' hi' (hu u hut)
    | env e =>
      obtain ⟨s', ha, rfl⟩ := step_env_eq hs
      obtain ⟨hi', hu⟩ := henv e _ s' hi hl ha
      exact ⟨hi', fun u => frame u s' hi' (hu u)⟩
    | start t a =>
      obtain ⟨s', p, hp, ha, rfl⟩ := step_start_eq hs
      have ht := hsafe t
      rw [hp] at ht
      obtain ⟨hi', hu, hk⟩ := hstart t a _ s' p hi ht.idle hl ha
      refine ⟨hi', fun u => ?_⟩
      by_cases hut : u = t
      · subst hut; simpa using hk
      · simpa [hut] using frame u s' hi' (hu u hut)

end Threads

end Xadma
