import Mathlib.Data.List.Nodup
import Mathlib.Logic.Function.Basic
import Mathlib.Logic.Function.Conjugate
import Xadma.Theory.Machine

/-!
# Jobs that are worked on at the same time

A job is taken up, worked on piece by piece, and finished. Where the pieces of a job commute with
those of the other jobs under way, the memory is as if every job had been done at one go, in the
order in which the jobs are finished, and behind them what was done for those under way.
-/

namespace Xadma

variable {J X γ : Type}

/-- The effect of pieces one after the other. -/
def runAll (run : X → γ → γ) (xs : List X) (m : γ) : γ := xs.foldl (fun m x => run x m) m

structure Jobs (J X γ : Type) where
  memory : γ
  underWay : List J
  /-- In the order in which they were finished. -/
  finished : List J
  /-- What was done for each job. -/
  pieces : J → List X

inductive JobStep (J X : Type)
  | takeUp (j : J)
  | work (j : J) (xs : List X)
  | finish (j : J)

namespace Jobs

def initial (m : γ) : Jobs J X γ := ⟨m, [], [], fun _ => []⟩

section
variable (run : X → γ → γ)

def machine [DecidableEq J] : Machine (Jobs J X γ) (JobStep J X) where
  step
    | .takeUp j, s =>
      if j ∈ s.finished ++ s.underWay then none
      else some { s with underWay := s.underWay ++ [j], pieces := Function.update s.pieces j [] }
    | .work j xs, s =>
      if j ∈ s.underWay then
        some { s with
          memory := runAll run xs s.memory
          pieces := Function.update s.pieces j (s.pieces j ++ xs) }
      else none
    | .finish j, s =>
      if j ∈ s.underWay then
        some { s with underWay := s.underWay.erase j, finished := s.finished ++ [j] }
      else none

/-- The pieces commute with those that were done for the other jobs under way. -/
def Undisturbed (s : Jobs J X γ) : JobStep J X → Prop
  | .work j xs => ∀ k ∈ s.underWay, j ≠ k → ∀ x ∈ xs, ∀ y ∈ s.pieces k,
      Function.Commute (run x) (run y)
  | _ => True

structure Serialized (m : γ) (s : Jobs J X γ) : Prop where
  nodup : (s.finished ++ s.underWay).Nodup
  commute : ∀ j ∈ s.underWay, ∀ k ∈ s.underWay, j ≠ k → ∀ x ∈ s.pieces j, ∀ y ∈ s.pieces k,
    Function.Commute (run x) (run y)
  memory : s.memory = runAll run ((s.finished ++ s.underWay).flatMap s.pieces) m

end

variable {run : X → γ → γ} {xs ys : List X} {m : γ} {s s' : Jobs J X γ} {j : J}

/-! ## Pieces one after the other -/

theorem runAll_append : runAll run (xs ++ ys) m = runAll run ys (runAll run xs m) :=
  List.foldl_append

theorem runAll_commute (h : ∀ x ∈ xs, ∀ y ∈ ys, Function.Commute (run x) (run y)) :
    Function.Commute (runAll run xs) (runAll run ys) := by
  have hone : ∀ x, (∀ y ∈ ys, Function.Commute (run x) (run y)) →
      Function.Commute (run x) (runAll run ys) := by
    intro x hx
    induction ys with
    | nil => exact fun m => rfl
    | cons y ys ih =>
      obtain ⟨hy, hys⟩ := List.forall_mem_cons.mp hx
      have hrest := ih (fun x hx y hy => h x hx y (List.mem_cons_of_mem _ hy)) hys
      exact hrest.comp_right hy
  induction xs with
  | nil => exact fun m => rfl
  | cons x xs ih =>
    obtain ⟨hx, hxs⟩ := List.forall_mem_cons.mp h
    have hrest : Function.Commute (runAll run xs) (runAll run ys) := ih hxs
    exact hrest.comp_left (hone x hx)

/-- Pieces that commute with the ones made last can be made before them. -/
theorem runAll_swap {zs : List X} (h : ∀ x ∈ xs, ∀ y ∈ ys, Function.Commute (run x) (run y)) :
    runAll run (zs ++ ys ++ xs) m = runAll run (zs ++ xs ++ ys) m := by
  rw [runAll_append, runAll_append, runAll_append, runAll_append]
  exact runAll_commute h _

theorem flatMap_update [DecidableEq J] {js : List J} {pieces : J → List X} (hj : j ∉ js) :
    js.flatMap (Function.update pieces j xs) = js.flatMap pieces :=
  List.flatMap_congr fun _ hk => Function.update_of_ne (ne_of_mem_of_not_mem hk hj) ..

theorem commute_flatMap {js : List J} {pieces : J → List X} (hj : j ∉ js)
    (h : ∀ k ∈ js, j ≠ k → ∀ x ∈ xs, ∀ y ∈ pieces k, Function.Commute (run x) (run y)) :
    ∀ x ∈ xs, ∀ y ∈ js.flatMap pieces, Function.Commute (run x) (run y) := by
  intro x hx y hy
  obtain ⟨k, hk, hy⟩ := List.mem_flatMap.mp hy
  exact h k hk (ne_of_mem_of_not_mem hk hj).symm x hx y hy

/-! ## Every run -/

theorem serialized_initial : Serialized run m (initial m : Jobs J X γ) :=
  ⟨List.nodup_nil, fun _ hj => absurd hj List.not_mem_nil, rfl⟩

/-- The jobs before and behind one that is under way. -/
theorem Serialized.split (h : Serialized run m s) (hj : j ∈ s.underWay) :
    ∃ before behind, s.underWay = before ++ j :: behind ∧ j ∉ s.finished ++ before ∧
      j ∉ behind := by
  obtain ⟨before, behind, hsplit⟩ := List.append_of_mem hj
  have hnodup := h.nodup
  rw [hsplit, ← List.append_assoc, List.nodup_middle, List.nodup_cons] at hnodup
  exact ⟨before, behind, hsplit, fun hin => hnodup.1 (List.mem_append_left _ hin),
    fun hin => hnodup.1 (List.mem_append_right _ hin)⟩

variable [DecidableEq J]

theorem Serialized.takeUp (h : Serialized run m s) (hj : j ∉ s.finished ++ s.underWay) :
    Serialized run m
      { s with underWay := s.underWay ++ [j], pieces := Function.update s.pieces j [] } := by
  refine ⟨?_, ?_, ?_⟩
  · rw [← List.append_assoc]
    exact h.nodup.append (List.nodup_singleton j) fun k hk hkj =>
      hj (List.mem_singleton.mp hkj ▸ hk)
  · intro k hk l hl hne x hx y hy
    dsimp only at hx hy
    simp only [List.mem_append, List.mem_singleton] at hk hl
    rcases hk with hk | rfl
    · rcases hl with hl | rfl
      · have hkj := ne_of_mem_of_not_mem (List.mem_append_right _ hk) hj
        have hlj := ne_of_mem_of_not_mem (List.mem_append_right _ hl) hj
        rw [Function.update_of_ne hkj] at hx
        rw [Function.update_of_ne hlj] at hy
        exact h.commute k hk l hl hne x hx y hy
      · rw [Function.update_self] at hy
        cases hy
    · rw [Function.update_self] at hx
      cases hx
  · dsimp only
    rw [← List.append_assoc, List.flatMap_append, flatMap_update hj, List.flatMap_singleton,
      Function.update_self, List.append_nil]
    exact h.memory

theorem Serialized.work (h : Serialized run m s) (hj : j ∈ s.underWay)
    (hok : Undisturbed run s (.work j xs)) :
    Serialized run m
      { s with
        memory := runAll run xs s.memory
        pieces := Function.update s.pieces j (s.pieces j ++ xs) } := by
  refine ⟨h.nodup, ?_, ?_⟩
  · have hnew : ∀ k ∈ s.underWay, j ≠ k → ∀ x ∈ s.pieces j ++ xs, ∀ y ∈ s.pieces k,
        Function.Commute (run x) (run y) := by
      intro k hk hne x hx y hy
      rcases List.mem_append.mp hx with hx | hx
      · exact h.commute j hj k hk hne x hx y hy
      · exact hok k hk hne x hx y hy
    intro k hk l hl hne x hx y hy
    dsimp only at hx hy
    by_cases hkj : k = j
    · subst hkj
      rw [Function.update_self] at hx
      rw [Function.update_of_ne hne.symm] at hy
      exact hnew l hl hne x hx y hy
    · rw [Function.update_of_ne hkj] at hx
      by_cases hlj : l = j
      · subst hlj
        rw [Function.update_self] at hy
        exact (hnew k hk (Ne.symm hkj) y hy x hx).symm
      · rw [Function.update_of_ne hlj] at hy
        exact h.commute k hk l hl hne x hx y hy
  · obtain ⟨before, behind, hsplit, hfirst, hlast⟩ := h.split hj
    have hcommute : ∀ x ∈ xs, ∀ y ∈ behind.flatMap s.pieces, Function.Commute (run x) (run y) := by
      refine commute_flatMap hlast fun k hk => hok k ?_
      rw [hsplit]
      exact List.mem_append_right _ (List.mem_cons_of_mem _ hk)
    -- the new pieces go past those of the jobs behind
    have hmemory := h.memory
    rw [hsplit, ← List.append_assoc, List.flatMap_append, List.flatMap_cons,
      ← List.append_assoc] at hmemory
    dsimp only
    rw [hsplit, ← List.append_assoc, List.flatMap_append, List.flatMap_cons,
      flatMap_update hfirst, flatMap_update hlast, Function.update_self, hmemory, ← runAll_append,
      runAll_swap hcommute]
    simp only [List.append_assoc]

theorem Serialized.finish (h : Serialized run m s) (hj : j ∈ s.underWay) :
    Serialized run m
      { s with underWay := s.underWay.erase j, finished := s.finished ++ [j] } := by
  obtain ⟨before, behind, hsplit, hnot, -⟩ := h.split hj
  have hfirst : j ∉ before := fun hin => hnot (List.mem_append_right _ hin)
  have herase : s.underWay.erase j = before ++ behind := by
    rw [hsplit, List.erase_append_right _ hfirst, List.erase_cons_head]
  refine ⟨?_, ?_, ?_⟩
  · have hnodup := h.nodup
    rw [hsplit] at hnodup
    rw [herase]
    refine (List.Perm.nodup_iff ?_).mp hnodup
    rw [List.append_assoc]
    exact List.Perm.append_left _ List.perm_middle
  · exact fun k hk l hl => h.commute k (List.mem_of_mem_erase hk) l (List.mem_of_mem_erase hl)
  · have hcommute : ∀ x ∈ s.pieces j, ∀ y ∈ before.flatMap s.pieces,
        Function.Commute (run x) (run y) := by
      refine commute_flatMap hfirst fun k hk => h.commute j hj k ?_
      rw [hsplit]
      exact List.mem_append_left _ hk
    -- the pieces of the job go before those of the jobs that were taken up earlier
    have hmemory := h.memory
    rw [hsplit, List.flatMap_append, List.flatMap_append, List.flatMap_cons, ← List.append_assoc,
      ← List.append_assoc, runAll_append, runAll_swap hcommute, ← runAll_append] at hmemory
    dsimp only
    rw [herase]
    simp only [List.flatMap_append, List.flatMap_singleton]
    rw [hmemory]
    simp only [List.append_assoc]

/-- It is as if the jobs were done one after the other. -/
theorem Serialized.of_reach (h : (machine run).Reach (Undisturbed run) (initial m) s) :
    Serialized run m s := by
  refine h.invariant (Serialized run m) serialized_initial fun s l s' hs hl hstep => ?_
  cases l with
  | takeUp j =>
    simp only [machine] at hstep
    split at hstep
    · cases hstep
    · next hj =>
      cases hstep
      exact hs.takeUp hj
  | work j xs =>
    simp only [machine] at hstep
    split at hstep
    · next hj =>
      cases hstep
      exact hs.work hj hl
    · cases hstep
  | finish j =>
    simp only [machine] at hstep
    split at hstep
    · next hj =>
      cases hstep
      exact hs.finish hj
    · cases hstep

end Jobs

end Xadma
