import Xadma.Theory.Prog

/-!
# Runs with a history

A history is kept next to the shared state. Every step updates it and none depends on it, so that a
run with the history is a run without it. What is known of every state that is reached may be asked
for before each step.
-/

namespace Xadma

variable {Op : Type} {Res : Op → Type} {σ T E A γ : Type}

/-- How the steps of a system update a history, from the state before the step. -/
structure History (Op : Type) (Res : Op → Type) (σ T E A γ : Type) where
  call : T → (op : Op) → Res op → σ → γ → γ
  env : E → σ → γ → γ
  start : T → A → σ → γ → γ

/-- The configuration without its history. -/
def Config.forget (c : Config Op Res (σ × γ) T) : Config Op Res σ T := ⟨c.state.1, c.thread⟩

namespace Threads

def withHistory (S : Threads Op Res σ T E A) (H : History Op Res σ T E A γ) :
    Threads Op Res (σ × γ) T E A where
  act := fun t op x r => (S.act t op x.1 r).map fun s => (s, H.call t op r x.1 x.2)
  env := fun e x => (S.env e x.1).map fun s => (s, H.env e x.1 x.2)
  start := fun t a x => (S.start t a x.1).map fun y => ((y.1, H.start t a x.1 x.2), y.2)

variable {S : Threads Op Res σ T E A} {H : History Op Res σ T E A γ}

section
variable {t : T} {x y : σ × γ}

theorem withHistory_act {op : Op} {r : Res op} (h : (S.withHistory H).act t op x r = some y) :
    S.act t op x.1 r = some y.1 ∧ y.2 = H.call t op r x.1 x.2 := by
  obtain ⟨s, hs, rfl⟩ := Option.map_eq_some_iff.mp h
  exact ⟨hs, rfl⟩

theorem withHistory_env {e : E} (h : (S.withHistory H).env e x = some y) :
    S.env e x.1 = some y.1 ∧ y.2 = H.env e x.1 x.2 := by
  obtain ⟨s, hs, rfl⟩ := Option.map_eq_some_iff.mp h
  exact ⟨hs, rfl⟩

theorem withHistory_start {a : A} {p : Prog Op Res Unit}
    (h : (S.withHistory H).start t a x = some (y, p)) :
    S.start t a x.1 = some (y.1, p) ∧ y.2 = H.start t a x.1 x.2 := by
  obtain ⟨⟨s, q⟩, hs, heq⟩ := Option.map_eq_some_iff.mp h
  cases heq
  exact ⟨hs, rfl⟩

end

variable [DecidableEq T] [DecidableEq Op]

theorem step_forget {c c' : Config Op Res (σ × γ) T} {l : Label Op Res T E A}
    (h : (S.withHistory H).step c l = some c') : S.step c.forget l = some c'.forget := by
  cases l with
  | call t op r =>
    obtain ⟨k, y, hk, hact, rfl⟩ := step_call_eq h
    have hact := (withHistory_act hact).1
    simp [step, Config.forget, hk, hact]
  | env e =>
    obtain ⟨y, hact, rfl⟩ := step_env_eq h
    have hact := (withHistory_env hact).1
    simp [step, Config.forget, hact]
  | start t a =>
    obtain ⟨y, p, hk, hact, rfl⟩ := step_start_eq h
    have hact := (withHistory_start hact).1
    simp [step, Config.forget, hk, hact]

/-- A run with a history is a run without it. -/
theorem Reach.forget {ok : σ → Label Op Res T E A → Prop}
    {ok' : σ × γ → Label Op Res T E A → Prop} {c₀ c : Config Op Res (σ × γ) T}
    (h : (S.withHistory H).Reach ok' c₀ c) (hok : ∀ x l, ok' x l → ok x.1 l) :
    S.Reach ok c₀.forget c.forget := by
  induction h with
  | refl => exact .refl
  | step _ hl hs ih => exact ih.step (hok _ _ hl) (step_forget hs)

/-- What holds of every state that is reached holds before each step. -/
theorem Reach.strengthen {ok : σ → Label Op Res T E A → Prop} {c₀ c : Config Op Res σ T}
    (P : σ → Prop) (hP : ∀ c, S.Reach ok c₀ c → P c.state) (h : S.Reach ok c₀ c) :
    S.Reach (fun s l => ok s l ∧ P s) c₀ c := by
  induction h with
  | refl => exact .refl
  | step hr hl hs ih => exact ih.step ⟨hl, hP _ hr⟩ hs

end Threads

end Xadma
