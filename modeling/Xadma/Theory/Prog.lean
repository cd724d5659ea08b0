import Mathlib.Logic.Function.Basic

/-!
# Routines as trees of atomic calls, and the threads that run them

A routine is a tree: it has returned, or it is about to make one atomic call and goes on with the
answer (`Prog`). A call is the unit of interleaving. What a call does to the shared state is not
part of the tree; it is given by the `act` of a `Threads`, so that one routine can be run alone
(`Prog.exec`) or next to other threads and to an environment (`Threads.step`).
-/

namespace Xadma

/-- A routine over the calls `Op`, where `op` is answered by a value of `Res op`. -/
inductive Prog (Op : Type) (Res : Op → Type) (α : Type) : Type
  | ret (a : α)
  | call (op : Op) (k : Res op → Prog Op Res α)

namespace Prog

variable {Op : Type} {Res : Op → Type} {α β σ : Type}

def bind : Prog Op Res α → (α → Prog Op Res β) → Prog Op Res β
  | .ret a, f => f a
  | .call op k, f => .call op fun r => (k r).bind f

instance : Monad (Prog Op Res) where
  pure := .ret
  bind := .bind

/-- The routine that makes the one call `op` and returns its answer. -/
def perform (op : Op) : Prog Op Res (Res op) := .call op .ret

@[simp] theorem call_bind (op : Op) (k : Res op → Prog Op Res α) (f : α → Prog Op Res β) :
    (Prog.call op k >>= f) = .call op fun r => k r >>= f := rfl

/-- The branch without an else. -/
def when (b : Prop) [Decidable b] (p : Prog Op Res Unit) : Prog Op Res Unit :=
  if b then p else .ret ()

/-- The loop that runs `body` on the members of a list in order. -/
def forEach : List β → (β → Prog Op Res Unit) → Prog Op Res Unit
  | [], _ => .ret ()
  | x :: xs, body => body x >>= fun _ => forEach xs body

/-- The routine as one over a larger set of calls. -/
def mapOp {Op' : Type} {Res' : Op' → Type} (f : Op → Op') (g : (op : Op) → Res' (f op) → Res op) :
    Prog Op Res α → Prog Op' Res' α
  | .ret a => .ret a
  | .call op k => .call (f op) fun r => mapOp f g (k (g op r))

/-- The routine with a routine over other calls in the place of each call. -/
def expand {Op' : Type} {Res' : Op' → Type} (h : (op : Op) → Prog Op' Res' (Res op)) :
    Prog Op Res α → Prog Op' Res' α
  | .ret a => .ret a
  | .call op k => h op >>= fun r => expand h (k r)

/-- The routine has returned. -/
def isDone : Prog Op Res α → Bool
  | .ret _ => true
  | .call .. => false

theorem eq_ret_of_isDone {p : Prog Op Res Unit} (h : p.isDone = true) : p = .ret () := by
  cases p with
  | ret a => rfl
  | call op k => cases h

/-- Every call that the routine can make is in `P`. -/
def All (P : Op → Prop) : Prog Op Res α → Prop
  | .ret _ => True
  | .call op k => P op ∧ ∀ r, All P (k r)

/-- Every way through the routine makes the call `o`. -/
def Calls (o : Op) : Prog Op Res α → Prop
  | .ret _ => False
  | .call op k => op = o ∨ ∀ r, Calls o (k r)

/-- The call that the routine makes next. -/
def head? : Prog Op Res α → Option Op
  | .ret _ => none
  | .call op _ => some op

/-- Where `next` names a call behind an answer, the routine goes on with that call. -/
def Followed (next : (op : Op) → Res op → Option Op) : Prog Op Res α → Prop
  | .ret _ => True
  | .call op k => (∀ r op', next op r = some op' → (k r).head? = some op') ∧
    ∀ r, Followed next (k r)

/-- The routine makes calls of `P` only and then goes on as `q`. -/
inductive Until (P : Op → Prop) (q : Prog Op Res α) : Prog Op Res α → Prop
  | here : Until P q q
  | call {op : Op} {k : Res op → Prog Op Res α} (hop : P op) (hk : ∀ r, Until P q (k r)) :
    Until P q (.call op k)

section
variable {P : Op → Prop}

theorem All.perform {op : Op} (h : P op) : (Prog.perform op : Prog Op Res (Res op)).All P :=
  ⟨h, fun _ => trivial⟩

theorem All.bind {p : Prog Op Res α} {f : α → Prog Op Res β} (h : p.All P)
    (hf : ∀ a, (f a).All P) : (p >>= f).All P := by
  induction p with
  | ret a => exact hf a
  | call op k ih => exact ⟨h.1, fun r => ih r (h.2 r)⟩

theorem All.when {b : Prop} [Decidable b] {p : Prog Op Res Unit} (h : p.All P) :
    (Prog.when b p).All P := by
  unfold Prog.when
  split
  · exact h
  · exact trivial

theorem All.forEach {body : β → Prog Op Res Unit} (h : ∀ x, (body x).All P) (xs : List β) :
    (Prog.forEach xs body).All P := by
  induction xs with
  | nil => exact trivial
  | cons x xs ih => exact (h x).bind fun _ => ih

theorem All.mapOp {Op' : Type} {Res' : Op' → Type} {f : Op → Op'}
    {g : (op : Op) → Res' (f op) → Res op} {P : Op' → Prop} (h : ∀ op, P (f op))
    (p : Prog Op Res α) : (p.mapOp f g).All P := by
  induction p with
  | ret a => exact trivial
  | call op k ih => exact ⟨h op, fun r => ih (g op r)⟩

theorem All.of_forall (h : ∀ op, P op) (p : Prog Op Res α) : p.All P := by
  induction p with
  | ret a => exact trivial
  | call op k ih => exact ⟨h op, ih⟩

theorem All.mono {P' : Op → Prop} {p : Prog Op Res α} (h : p.All P) (hP : ∀ op, P op → P' op) :
    p.All P' := by
  induction p with
  | ret a => exact trivial
  | call op k ih => exact ⟨hP op h.1, fun r => ih r (h.2 r)⟩

theorem All.of_bind {p : Prog Op Res α} {f : α → Prog Op Res β} (h : (p >>= f).All P) :
    p.All P := by
  induction p with
  | ret a => exact trivial
  | call op k ih => exact ⟨h.1, fun r => ih r (h.2 r)⟩

theorem All.answer {op : Op} {f : Res op → Prog Op Res β} (h : (Prog.perform op >>= f).All P)
    (r : Res op) : (f r).All P :=
  h.2 r

/-- Some way through the first part leads to the second. -/
theorem All.exists_of_bind [hres : ∀ op, Nonempty (Res op)] {p : Prog Op Res α}
    {f : α → Prog Op Res β} (h : (p >>= f).All P) : ∃ a, (f a).All P := by
  induction p with
  | ret a => exact ⟨a, h⟩
  | call op k ih =>
    obtain ⟨r⟩ := hres op
    exact ih r (h.2 r)

theorem all_mapOp_iff {Op' : Type} {Res' : Op' → Type} {f : Op → Op'}
    {g : (op : Op) → Res' (f op) → Res op} (hg : ∀ op, Function.Surjective (g op))
    {P : Op' → Prop} {p : Prog Op Res α} : (p.mapOp f g).All P ↔ p.All fun op => P (f op) := by
  induction p with
  | ret a => exact Iff.rfl
  | call op k ih =>
    constructor
    · intro h
      refine ⟨h.1, fun r => ?_⟩
      obtain ⟨r', rfl⟩ := hg op r
      exact (ih _).mp (h.2 r')
    · intro h
      exact ⟨h.1, fun r => (ih _).mpr (h.2 _)⟩

theorem All.until {p : Prog Op Res α} {f : α → Prog Op Res β} {q : Prog Op Res β} (h : p.All P)
    (hf : ∀ a, Until P q (f a)) : Until P q (p >>= f) := by
  induction p with
  | ret a => exact hf a
  | call op k ih => exact .call h.1 fun r => ih r (h.2 r)

theorem Until.calls {o : Op} {p q : Prog Op Res α} (h : Until P q p) (hq : q.Calls o) :
    p.Calls o := by
  induction h with
  | here => exact hq
  | call _ _ ih => exact .inr ih

end

theorem eq_call_of_head? {p : Prog Op Res α} {op : Op} (h : p.head? = some op) :
    ∃ k, p = .call op k := by
  cases p with
  | ret a => cases h
  | call op' k =>
    cases h
    exact ⟨k, rfl⟩

theorem head?_bind {p : Prog Op Res α} {f : α → Prog Op Res β} {op : Op} (h : p.head? = some op) :
    (p >>= f).head? = some op := by
  cases p with
  | ret a => cases h
  | call op' k => exact h

section
variable {next : (op : Op) → Res op → Option Op}

theorem Followed.bind {p : Prog Op Res α} {f : α → Prog Op Res β} (h : p.Followed next)
    (hf : ∀ a, (f a).Followed next) : (p >>= f).Followed next := by
  induction p with
  | ret a => exact hf a
  | call op k ih =>
    exact ⟨fun r op' hr => head?_bind (h.1 r op' hr), fun r => ih r (h.2 r)⟩

/-- Nothing is asked behind calls that `next` names no other for. -/
theorem All.followed {P : Op → Prop} {p : Prog Op Res α} (h : p.All P)
    (hP : ∀ op, P op → ∀ r, next op r = none) : p.Followed next := by
  induction p with
  | ret a => exact trivial
  | call op k ih =>
    refine ⟨fun r op' hr => ?_, fun r => ih r (h.2 r)⟩
    rw [hP op h.1 r] at hr
    cases hr

end

theorem mapOp_bind {Op' : Type} {Res' : Op' → Type} (f : Op → Op')
    (g : (op : Op) → Res' (f op) → Res op) (p : Prog Op Res α) (h : α → Prog Op Res β) :
    (p >>= h).mapOp f g = p.mapOp f g >>= fun a => (h a).mapOp f g := by
  induction p with
  | ret a => rfl
  | call op k ih => exact congrArg _ (funext fun r => ih (g op r))

theorem bind_ret (p : Prog Op Res α) : (p >>= fun a => .ret a) = p := by
  induction p with
  | ret a => rfl
  | call op k ih => exact congrArg (Prog.call op) (funext ih)

theorem bind_assoc {γ : Type} (p : Prog Op Res α) (f : α → Prog Op Res β) (g : β → Prog Op Res γ) :
    p >>= f >>= g = p >>= fun a => f a >>= g := by
  induction p with
  | ret a => rfl
  | call op k ih => exact congrArg (Prog.call op) (funext ih)

section
variable {Op' : Type} {Res' : Op' → Type} (h : (op : Op) → Prog Op' Res' (Res op))

theorem expand_perform (op : Op) : (perform op : Prog Op Res (Res op)).expand h = h op :=
  bind_ret (h op)

theorem expand_bind (p : Prog Op Res α) (f : α → Prog Op Res β) :
    (p >>= f).expand h = p.expand h >>= fun a => (f a).expand h := by
  induction p with
  | ret a => rfl
  | call op k ih =>
    rw [call_bind, expand, expand, bind_assoc]
    exact congrArg _ (funext ih)

theorem expand_when (b : Prop) [Decidable b] (p : Prog Op Res Unit) :
    (when b p).expand h = when b (p.expand h) := by
  unfold when
  split <;> rfl

end

/-- Run a routine alone: `act` says what a call does, `answer` which answer it gets. `none` when
a call cannot be answered that way. -/
def exec (act : (op : Op) → σ → Res op → Option σ) (answer : (op : Op) → σ → Res op) :
    Prog Op Res α → σ → Option (α × σ)
  | .ret a, s => some (a, s)
  | .call op k, s => (act op s (answer op s)).bind fun s' => exec act answer (k (answer op s)) s'

section
variable {act : (op : Op) → σ → Res op → Option σ} {answer : (op : Op) → σ → Res op}

@[simp] theorem exec_ret (a : α) (s : σ) :
    exec act answer (.ret a : Prog Op Res α) s = some (a, s) := rfl

@[simp] theorem exec_call (op : Op) (k : Res op → Prog Op Res α) (s : σ) :
    exec act answer (.call op k) s =
      (act op s (answer op s)).bind fun s' => exec act answer (k (answer op s)) s' := rfl

@[simp] theorem exec_bind (p : Prog Op Res α) (f : α → Prog Op Res β) (s : σ) :
    exec act answer (p >>= f) s =
      (exec act answer p s).bind fun x => exec act answer (f x.1) x.2 := by
  induction p generalizing s with
  | ret a => rfl
  | call op k ih =>
    simp only [call_bind, exec_call, Option.bind_assoc]
    exact congrArg _ (funext fun s' => ih _ s')

end

/-- What is run behind a routine that returns. -/
theorem exec_bind_of_some {act : (op : Op) → σ → Res op → Option σ}
    {answer : (op : Op) → σ → Res op} {p : Prog Op Res α} {f : α → Prog Op Res β} {a : α} {s s' : σ}
    (h : exec act answer p s = some (a, s')) :
    exec act answer (p >>= f) s = exec act answer (f a) s' := by
  rw [exec_bind, h]
  rfl

theorem exec_perform_bind {act : (op : Op) → σ → Res op → Option σ}
    {answer : (op : Op) → σ → Res op} {op : Op} {k : Res op → Prog Op Res α} {s s' : σ} {r : Res op}
    (hanswer : answer op s = r) (hact : act op s r = some s') :
    exec act answer (perform op >>= k) s = exec act answer (k r) s' := by
  subst hanswer
  rw [perform, call_bind, exec_call, hact, Option.bind_some]
  rfl

theorem exec_isSome {act : (op : Op) → σ → Res op → Option σ} {answer : (op : Op) → σ → Res op}
    (h : ∀ op s, (act op s (answer op s)).isSome = true) (p : Prog Op Res α) (s : σ) :
    (exec act answer p s).isSome = true := by
  induction p generalizing s with
  | ret a => rfl
  | call op k ih =>
    obtain ⟨s', hs⟩ := Option.isSome_iff_exists.mp (h op s)
    rw [exec_call, hs, Option.bind_some]
    exact ih _ s'

/-- A routine over a larger set of calls, which work on a part of the state. -/
theorem exec_mapOp {Op' τ : Type} {Res' : Op' → Type} {f : Op → Op'}
    {g : (op : Op) → Res' (f op) → Res op} (get : τ → σ) (set : τ → σ → τ)
    {act : (op : Op) → σ → Res op → Option σ} {answer : (op : Op) → σ → Res op}
    {act' : (op : Op') → τ → Res' op → Option τ} {answer' : (op : Op') → τ → Res' op}
    (hanswer : ∀ op t, g op (answer' (f op) t) = answer op (get t))
    (hact : ∀ op t, act' (f op) t (answer' (f op) t) =
      (act op (get t) (answer op (get t))).map (set t))
    (hget : ∀ t s, get (set t s) = s) (hset : ∀ t s s', set (set t s) s' = set t s')
    (hsame : ∀ t, set t (get t) = t) (p : Prog Op Res α) (t : τ) :
    exec act' answer' (p.mapOp f g) t =
      (exec act answer p (get t)).map fun x => (x.1, set t x.2) := by
  induction p generalizing t with
  | ret a => exact congrArg some (congrArg _ (hsame t).symm)
  | call op k ih =>
    rw [mapOp, exec_call, exec_call, hact, hanswer, Option.bind_map, Option.map_bind]
    refine congrArg _ (funext fun s => ?_)
    simp only [Function.comp_apply]
    rw [ih, hget]
    simp only [hset]

/-- The calls that a routine run alone makes, in order. -/
def trace (act : (op : Op) → σ → Res op → Option σ) (answer : (op : Op) → σ → Res op) :
    Prog Op Res α → σ → List Op
  | .ret _, _ => []
  | .call op k, s =>
    op :: (act op s (answer op s)).elim [] fun s' => trace act answer (k (answer op s)) s'

theorem trace_perform_bind {act : (op : Op) → σ → Res op → Option σ}
    {answer : (op : Op) → σ → Res op} {op : Op} {k : Res op → Prog Op Res α} {s s' : σ} {r : Res op}
    (hanswer : answer op s = r) (hact : act op s r = some s') :
    trace act answer (perform op >>= k) s = op :: trace act answer (k r) s' := by
  subst hanswer
  rw [perform, call_bind, trace, hact, Option.elim_some]
  rfl

/-- What is made behind a routine that returns is made in the state it leaves. -/
theorem trace_bind {act : (op : Op) → σ → Res op → Option σ} {answer : (op : Op) → σ → Res op}
    {p : Prog Op Res α} {f : α → Prog Op Res β} {a : α} {s s' : σ}
    (h : exec act answer p s = some (a, s')) :
    trace act answer (p >>= f) s = trace act answer p s ++ trace act answer (f a) s' := by
  induction p generalizing s with
  | ret b =>
    cases h
    rfl
  | call op k ih =>
    obtain ⟨s'', hs, hrest⟩ := Option.bind_eq_some_iff.mp h
    rw [call_bind, trace, trace, hs, Option.elim_some, Option.elim_some, ih _ hrest]
    rfl

theorem All.trace {act : (op : Op) → σ → Res op → Option σ} {answer : (op : Op) → σ → Res op}
    {P : Op → Prop} {p : Prog Op Res α} {s : σ} (h : p.All P) :
    ∀ op ∈ p.trace act answer s, P op := by
  induction p generalizing s with
  | ret a => exact fun op hop => by cases hop
  | call op k ih =>
    rw [Prog.trace, List.forall_mem_cons]
    refine ⟨h.1, fun op' hop' => ?_⟩
    cases hs : act op s (answer op s) with
    | none =>
      rw [hs] at hop'
      cases hop'
    | some s' =>
      rw [hs] at hop'
      exact ih _ (h.2 _) op' hop'

theorem trace_bind_ret {act : (op : Op) → σ → Res op → Option σ}
    {answer : (op : Op) → σ → Res op} (p : Prog Op Res α) (f : α → β) (s : σ) :
    trace act answer (p >>= fun a => .ret (f a)) s = trace act answer p s := by
  induction p generalizing s with
  | ret a => rfl
  | call op k ih =>
    rw [call_bind, trace, trace]
    congr 2
    exact funext fun s' => ih _ s'

/-- Run alone from `s`, the routine `p` makes calls of `P` only until it goes on as `q` from
`s'`. -/
inductive Leads (act : (op : Op) → σ → Res op → Option σ) (answer : (op : Op) → σ → Res op)
    (P : Op → Prop) : Prog Op Res α → σ → Prog Op Res α → σ → Prop
  | refl {p : Prog Op Res α} {s : σ} : Leads act answer P p s p s
  | call {op : Op} {k : Res op → Prog Op Res α} {q : Prog Op Res α} {s s' s'' : σ} (hop : P op)
    (hact : act op s (answer op s) = some s') (hk : Leads act answer P (k (answer op s)) s' q s'') :
    Leads act answer P (.call op k) s q s''

namespace Leads

variable {act : (op : Op) → σ → Res op → Option σ} {answer : (op : Op) → σ → Res op}
  {P : Op → Prop} {p q r : Prog Op Res α} {s s' s'' : σ}

theorem trans (h : Leads act answer P p s q s') (h' : Leads act answer P q s' r s'') :
    Leads act answer P p s r s'' := by
  induction h with
  | refl => exact h'
  | call hop hact _ ih => exact .call hop hact (ih h')

theorem bind (h : Leads act answer P p s q s') (f : α → Prog Op Res β) :
    Leads act answer P (p >>= f) s (q >>= f) s' := by
  induction h with
  | refl => exact .refl
  | call hop hact _ ih => exact .call hop hact ih

/-- The rule for a part that returns. -/
theorem seq {a : α} {f : α → Prog Op Res β} {q' : Prog Op Res β}
    (h : Leads act answer P p s (.ret a) s') (h' : Leads act answer P (f a) s' q' s'') :
    Leads act answer P (p >>= f) s q' s'' :=
  (h.bind f).trans h'

/-- The rule for one call. -/
theorem perform {op : Op} (hop : P op) (hact : act op s (answer op s) = some s') :
    Leads act answer P (Prog.perform op) s (.ret (answer op s)) s' :=
  .call hop hact .refl

theorem exec (h : Leads act answer P p s q s') : p.exec act answer s = q.exec act answer s' := by
  induction h with
  | refl => rfl
  | call _ hact _ ih => rw [exec_call, hact, Option.bind_some, ih]

theorem trace (h : Leads act answer P p s q s') :
    ∃ ops, p.trace act answer s = ops ++ q.trace act answer s' ∧ ∀ op ∈ ops, P op := by
  induction h with
  | refl => exact ⟨[], rfl, nofun⟩
  | @call op _ _ _ _ _ hop hact _ ih =>
    obtain ⟨ops, hops, hall⟩ := ih
    refine ⟨op :: ops, ?_, List.forall_mem_cons.mpr ⟨hop, hall⟩⟩
    rw [Prog.trace, hact, Option.elim_some, hops]
    rfl

/-- All the calls of a routine that returns. -/
theorem all_trace {a : α} (h : Leads act answer P p s (.ret a) s') :
    ∀ op ∈ p.trace act answer s, P op := by
  obtain ⟨ops, hops, hall⟩ := h.trace
  rwa [hops, Prog.trace, List.append_nil]

/-- The call that the routine comes to. -/
theorem mem_trace {op : Op} {k : Res op → Prog Op Res α}
    (h : Leads act answer P p s (.call op k) s') : op ∈ p.trace act answer s := by
  obtain ⟨ops, hops, -⟩ := h.trace
  rw [hops, Prog.trace]
  exact List.mem_append_right _ List.mem_cons_self

end Leads

/-- What a routine returns that only reads. -/
def eval (read : (op : Op) → Res op) : Prog Op Res α → α
  | .ret a => a
  | .call op k => eval read (k (read op))

/-- What it reads, in order. -/
def asked (read : (op : Op) → Res op) : Prog Op Res α → List Op
  | .ret _ => []
  | .call op k => op :: asked read (k (read op))

@[simp] theorem eval_bind (read : (op : Op) → Res op) (p : Prog Op Res α) (f : α → Prog Op Res β) :
    (p >>= f).eval read = (f (p.eval read)).eval read := by
  induction p with
  | ret a => rfl
  | call op k ih => exact ih _

@[simp] theorem asked_bind (read : (op : Op) → Res op) (p : Prog Op Res α)
    (f : α → Prog Op Res β) :
    (p >>= f).asked read = p.asked read ++ (f (p.eval read)).asked read := by
  induction p with
  | ret a => rfl
  | call op k ih => exact congrArg (op :: ·) (ih _)

/-- It depends on what it reads only. -/
theorem eval_congr {read read' : (op : Op) → Res op} {p : Prog Op Res α}
    (h : ∀ op ∈ p.asked read, read' op = read op) : p.eval read' = p.eval read := by
  induction p with
  | ret a => rfl
  | call op k ih =>
    rw [asked, List.forall_mem_cons] at h
    rw [eval, eval, h.1]
    exact ih _ h.2

/-- The routine run alone ends in `Q`, or it does not return and then `N` holds. -/
def Runs (act : (op : Op) → σ → Res op → Option σ) (answer : (op : Op) → σ → Res op) (N : Prop)
    (p : Prog Op Res α) (Q : α → σ → Prop) (s : σ) : Prop :=
  match exec act answer p s with
  | some x => Q x.1 x.2
  | none => N

namespace Runs

variable {act : (op : Op) → σ → Res op → Option σ} {answer : (op : Op) → σ → Res op} {N N' : Prop}
  {Q Q' : α → σ → Prop} {s : σ}

theorem ret {a : α} (h : Q a s) : Runs act answer N (.ret a) Q s := h

/-- The rule for one call. -/
theorem attempt {op : Op} {Q : Res op → σ → Prop}
    (hnone : act op s (answer op s) = none → N)
    (h : ∀ s', act op s (answer op s) = some s' → Q (answer op s) s') :
    Runs act answer N (Prog.perform op) Q s := by
  unfold Runs
  cases hs : act op s (answer op s) with
  | none =>
    have hexec : exec act answer (Prog.perform op) s = none := by simp [Prog.perform, hs]
    rw [hexec]
    exact hnone hs
  | some s' =>
    have hexec : exec act answer (Prog.perform op) s = some (answer op s, s') := by
      simp [Prog.perform, hs]
    rw [hexec]
    exact h s' hs

/-- The rule for one call that is answered. -/
theorem perform {op : Op} {Q : Res op → σ → Prop}
    (hsome : (act op s (answer op s)).isSome = true)
    (h : ∀ s', act op s (answer op s) = some s' → Q (answer op s) s') :
    Runs act answer N (Prog.perform op) Q s := by
  apply attempt _ h
  intro hnone
  rw [hnone] at hsome
  cases hsome

/-- The rule for one call that is known to lead to `s'`. -/
theorem performs {op : Op} {Q : Res op → σ → Prop} {s' : σ}
    (hact : act op s (answer op s) = some s') (h : Q (answer op s) s') :
    Runs act answer N (Prog.perform op) Q s := by
  apply perform
  · rw [hact]
    rfl
  · intro s'' hs
    rw [hact] at hs
    cases hs
    exact h

theorem bind {p : Prog Op Res α} {f : α → Prog Op Res β} {Q' : β → σ → Prop}
    (h : Runs act answer N p Q s) (hf : ∀ a s, Q a s → Runs act answer N (f a) Q' s) :
    Runs act answer N (p >>= f) Q' s := by
  unfold Runs at h ⊢
  rw [exec_bind]
  cases hp : exec act answer p s with
  | none => rw [hp] at h; exact h
  | some x => rw [hp] at h; exact hf x.1 x.2 h

theorem mono {p : Prog Op Res α} (h : Runs act answer N p Q s) (hQ : ∀ a s, Q a s → Q' a s)
    (hN : N → N') : Runs act answer N' p Q' s := by
  unfold Runs at h ⊢
  split
  · next x hx => rw [hx] at h; exact hQ _ _ h
  · next hx => rw [hx] at h; exact hN h

theorem post {p : Prog Op Res α} (h : Runs act answer N p Q s) (hQ : ∀ a s, Q a s → Q' a s) :
    Runs act answer N p Q' s :=
  h.mono hQ id

theorem when {b : Prop} [Decidable b] {p : Prog Op Res Unit} {Q : Unit → σ → Prop}
    (hp : b → Runs act answer N p Q s) (h : ¬ b → Q () s) :
    Runs act answer N (Prog.when b p) Q s := by
  unfold Prog.when
  split
  · next hb => exact hp hb
  · next hb => exact h hb

/-- The rule for a routine whose calls keep `J` wherever they are made. -/
theorem all {P : Op → Prop} {J : σ → Prop} {p : Prog Op Res α} (hp : p.All P) (hs : J s)
    (hnone : ∀ op s, P op → J s → act op s (answer op s) = none → N)
    (hstep : ∀ op s s', P op → J s → act op s (answer op s) = some s' → J s') :
    Runs act answer N p (fun _ => J) s := by
  induction p generalizing s with
  | ret a => exact ret hs
  | call op k ih =>
    have hcall : Runs act answer N (Prog.perform op) (fun _ => J) s :=
      attempt (hnone op s hp.1 hs) fun s' => hstep op s s' hp.1 hs
    exact hcall.bind fun r s' hs' => ih r (hp.2 r) hs'

theorem of_none {p : Prog Op Res α} (hexec : exec act answer p s = none) (hN : N) :
    Runs act answer N p Q s := by
  unfold Runs
  rw [hexec]
  exact hN

theorem of_eq_some {p : Prog Op Res α} {a : α} {s' : σ}
    (hexec : exec act answer p s = some (a, s')) (h : Q a s') : Runs act answer N p Q s := by
  unfold Runs
  rw [hexec]
  exact h

theorem of_some {p : Prog Op Res α} {a : α} {s' : σ} (h : Runs act answer N p Q s)
    (hexec : exec act answer p s = some (a, s')) : Q a s' := by
  unfold Runs at h
  rw [hexec] at h
  exact h

theorem isSome {p : Prog Op Res α} (h : Runs act answer N p Q s) (hN : ¬ N) :
    (exec act answer p s).isSome = true := by
  unfold Runs at h
  split at h
  · next x hx => rw [hx]; rfl
  · exact absurd h hN

end Runs

end Prog

/-- Threads over one shared state, with an environment that takes steps of its own. -/
structure Threads (Op : Type) (Res : Op → Type) (σ T E A : Type) where
  /-- What the call `op` of a thread does when it gets the given answer; `none` if that answer is
  not possible. -/
  act : T → (op : Op) → σ → Res op → Option σ
  env : E → σ → Option σ
  /-- The routine that an idle thread takes up on `a`. -/
  start : T → A → σ → Option (σ × Prog Op Res Unit)

/-- The shared state and what each thread has still to do. An idle thread has returned. -/
structure Config (Op : Type) (Res : Op → Type) (σ T : Type) where
  state : σ
  thread : T → Prog Op Res Unit

/-- One step of a system. -/
inductive Label (Op : Type) (Res : Op → Type) (T E A : Type)
  | call (t : T) (op : Op) (r : Res op)
  | env (e : E)
  | start (t : T) (a : A)

namespace Threads

variable {Op : Type} {Res : Op → Type} {σ T E A : Type} [DecidableEq T] [DecidableEq Op]
  (S : Threads Op Res σ T E A)

def step (c : Config Op Res σ T) : Label Op Res T E A → Option (Config Op Res σ T)
  | .call t op r =>
    match c.thread t with
    | .ret _ => none
    | .call op' k =>
      if h : op = op' then
        (S.act t op c.state r).map fun s => ⟨s, Function.update c.thread t (k (h ▸ r))⟩
      else none
  | .env e => (S.env e c.state).map fun s => ⟨s, c.thread⟩
  | .start t a =>
    match c.thread t with
    | .ret _ => (S.start t a c.state).map fun x => ⟨x.1, Function.update c.thread t x.2⟩
    | .call .. => none

variable {S}

theorem step_call_eq {c c' : Config Op Res σ T} {t : T} {op : Op} {r : Res op}
    (h : S.step c (.call t op r) = some c') :
    ∃ k s', c.thread t = .call op k ∧ S.act t op c.state r = some s' ∧
      c' = ⟨s', Function.update c.thread t (k r)⟩ := by
  simp only [step] at h
  cases hp : c.thread t with
  | ret a => simp [hp] at h
  | call op' k =>
    rw [hp] at h
    by_cases heq : op = op'
    · subst heq
      simp only [dite_true, Option.map_eq_some_iff] at h
      obtain ⟨s', hs, rfl⟩ := h
      exact ⟨k, s', rfl, hs, rfl⟩
    · simp [heq] at h

theorem step_env_eq {c c' : Config Op Res σ T} {e : E} (h : S.step c (.env e) = some c') :
    ∃ s', S.env e c.state = some s' ∧ c' = ⟨s', c.thread⟩ := by
  simp only [step, Option.map_eq_some_iff] at h
  obtain ⟨s', hs, rfl⟩ := h
  exact ⟨s', hs, rfl⟩

theorem step_start_eq {c c' : Config Op Res σ T} {t : T} {a : A}
    (h : S.step c (.start t a) = some c') :
    ∃ s' p, c.thread t = .ret () ∧ S.start t a c.state = some (s', p) ∧
      c' = ⟨s', Function.update c.thread t p⟩ := by
  simp only [step] at h
  cases hp : c.thread t with
  | ret u =>
    simp only [hp, Option.map_eq_some_iff] at h
    obtain ⟨⟨s', p⟩, hs, rfl⟩ := h
    exact ⟨s', p, rfl, hs, rfl⟩
  | call op k => simp [hp] at h

variable (S)

/-- The configurations that runs from `c₀` reach when every step `l` is taken in a state `s` with
`ok s l`. -/
inductive Reach (ok : σ → Label Op Res T E A → Prop) (c₀ : Config Op Res σ T) :
    Config Op Res σ T → Prop
  | refl : Reach ok c₀ c₀
  | step {c c' : Config Op Res σ T} {l : Label Op Res T E A} :
    Reach ok c₀ c → ok c.state l → S.step c l = some c' → Reach ok c₀ c'

/-- Take the steps of a list in order, checking `ok` before each. -/
def run (ok : σ → Label Op Res T E A → Prop) [∀ s l, Decidable (ok s l)] :
    Config Op Res σ T → List (Label Op Res T E A) → Option (Config Op Res σ T)
  | c, [] => some c
  | c, l :: ls => if ok c.state l then (S.step c l).bind fun c' => run ok c' ls else none

variable {S}

theorem Reach.mono {ok ok' : σ → Label Op Res T E A → Prop} {c₀ c : Config Op Res σ T}
    (h : S.Reach ok c₀ c) (hok : ∀ s l, ok s l → ok' s l) : S.Reach ok' c₀ c := by
  induction h with
  | refl => exact .refl
  | step _ hl hs ih => exact ih.step (hok _ _ hl) hs

theorem Reach.run {ok : σ → Label Op Res T E A → Prop} [∀ s l, Decidable (ok s l)]
    {c₀ c c' : Config Op Res σ T} {ls : List (Label Op Res T E A)} (h : S.Reach ok c₀ c)
    (hr : S.run ok c ls = some c') : S.Reach ok c₀ c' := by
  induction ls generalizing c with
  | nil => cases hr; exact h
  | cons l ls ih =>
    simp only [Threads.run] at hr
    split at hr
    · next hl =>
      obtain ⟨c₁, hs, hr⟩ := Option.bind_eq_some_iff.mp hr
      exact ih (h.step hl hs) hr
    · cases hr

/-- What is checked at the end of a run holds of a configuration that is reached. -/
theorem Reach.exists_of_steps {ok : σ → Label Op Res T E A → Prop} [∀ s l, Decidable (ok s l)]
    {c₀ : Config Op Res σ T} (ls : List (Label Op Res T E A)) (p : Config Op Res σ T → Bool)
    (h : ((S.run ok c₀ ls).any p) = true) : ∃ c, S.Reach ok c₀ c ∧ p c = true := by
  cases hr : S.run ok c₀ ls with
  | none => simp [hr] at h
  | some c => exact ⟨c, Reach.refl.run hr, by simpa [hr] using h⟩

theorem Reach.exists_of_run {ok : σ → Label Op Res T E A → Prop} [∀ s l, Decidable (ok s l)]
    {c₀ : Config Op Res σ T} (ls : List (Label Op Res T E A)) (p : σ → Bool)
    (h : ((S.run ok c₀ ls).any fun c => p c.state) = true) :
    ∃ c, S.Reach ok c₀ c ∧ p c.state = true :=
  Reach.exists_of_steps ls (fun c => p c.state) h

/-- The induction over a run, with one case for each kind of step. -/
theorem Reach.invariant {ok : σ → Label Op Res T E A → Prop} {c₀ c : Config Op Res σ T}
    (P : σ → Prop) (hinit : P c₀.state)
    (hcall : ∀ t op r s s', P s → ok s (.call t op r) → S.act t op s r = some s' → P s')
    (henv : ∀ e s s', P s → ok s (.env e) → S.env e s = some s' → P s')
    (hstart : ∀ t a s s' p, P s → ok s (.start t a) → S.start t a s = some (s', p) → P s')
    (h : S.Reach ok c₀ c) : P c.state := by
  induction h with
  | refl => exact hinit
  | @step c c' l _ hl hs ih =>
    cases l with
    | call t op r =>
      obtain ⟨_, _, _, ha, rfl⟩ := step_call_eq hs
      exact hcall _ _ _ _ _ ih hl ha
    | env e =>
      obtain ⟨_, ha, rfl⟩ := step_env_eq hs
      exact henv _ _ _ ih hl ha
    | start t a =>
      obtain ⟨_, _, _, ha, rfl⟩ := step_start_eq hs
      exact hstart _ _ _ _ _ ih hl ha

/-- What all the routines that a thread takes up keep from one call to the next. -/
theorem Reach.thread_invariant {ok : σ → Label Op Res T E A → Prop} {c₀ c : Config Op Res σ T}
    {t : T} (K : Prog Op Res Unit → Prop) (hinit : K (c₀.thread t))
    (hcall : ∀ op k, K (.call op k) → ∀ r, K (k r))
    (hstart : ∀ a s s' p, S.start t a s = some (s', p) → K p) (h : S.Reach ok c₀ c) :
    K (c.thread t) := by
  induction h with
  | refl => exact hinit
  | @step c c' l _ _ hs ih =>
    cases l with
    | call u op r =>
      obtain ⟨k, s', hk, _, rfl⟩ := step_call_eq hs
      by_cases htu : t = u
      · subst htu
        rw [hk] at ih
        simpa using hcall op k ih r
      · simpa [htu] using ih
    | env e =>
      obtain ⟨s', _, rfl⟩ := step_env_eq hs
      exact ih
    | start u a =>
      obtain ⟨s', p, _, hp, rfl⟩ := step_start_eq hs
      by_cases htu : t = u
      · subst htu
        simpa using hstart a _ s' p hp
      · simpa [htu] using ih

/-- A thread goes on with calls in `P` when all the routines it takes up make no others. -/
theorem Reach.thread_all {ok : σ → Label Op Res T E A → Prop} {c₀ c : Config Op Res σ T} {t : T}
    {P : Op → Prop} (hinit : (c₀.thread t).All P)
    (hstart : ∀ a s s' p, S.start t a s = some (s', p) → p.All P) (h : S.Reach ok c₀ c) :
    (c.thread t).All P :=
  h.thread_invariant (Prog.All P) hinit (fun _ _ hk => hk.2) hstart

end Threads

end Xadma
