import Mathlib.Data.List.Basic

/-!
# Ledgers of what is acquired and released

A trace of acquisitions, releases and uses is followed from the list of what is held. It has no
continuation where something is released that is not held, or nothing that is held fits a use.
-/

namespace Xadma

variable {α : Type}

inductive LedgerEvent (α : Type)
  | acquire (a : α)
  | release (a : α)
  /-- Something that fits is used. -/
  | use (fits : α → Bool)

namespace Ledger

variable [DecidableEq α] {held held' : List α} {es es' : List (LedgerEvent α)}

def step (held : List α) : LedgerEvent α → Option (List α)
  | .acquire a => some (held ++ [a])
  | .release a => if a ∈ held then some (held.erase a) else none
  | .use fits => if held.any fits then some held else none

/-- What is held after a trace. -/
def run (held : List α) : List (LedgerEvent α) → Option (List α)
  | [] => some held
  | e :: es => (step held e).bind fun held => run held es

theorem run_append : run held (es ++ es') = (run held es).bind fun held => run held es' := by
  induction es generalizing held with
  | nil => rfl
  | cons e es ih =>
    cases hstep : step held e with
    | none => simp [run, hstep]
    | some held' => simp [run, hstep, ih]

/-- Two traces one after the other. -/
theorem run_trans {held'' : List α} (h : run held es = some held')
    (h' : run held' es' = some held'') : run held (es ++ es') = some held'' := by
  rw [run_append, h]
  exact h'

theorem run_acquires (as : List α) :
    run held (as.map LedgerEvent.acquire) = some (held ++ as) := by
  induction as generalizing held with
  | nil => simp [run]
  | cons a as ih =>
    rw [List.map_cons, run, step, Option.bind_some, ih, List.append_assoc]
    rfl

/-- Everything is released in the order in which it is held. -/
theorem run_releases (as : List α) : run as (as.map LedgerEvent.release) = some [] := by
  induction as with
  | nil => rfl
  | cons a as ih =>
    rw [List.map_cons, run, step, if_pos List.mem_cons_self, List.erase_cons_head]
    exact ih

/-- What is released one by one has to be what is held; the rest stays. -/
theorem run_releases_of_perm {rest as : List α} (h : held.Perm (rest ++ as)) :
    ∃ held', run held (as.map LedgerEvent.release) = some held' ∧ held'.Perm rest := by
  induction as generalizing held with
  | nil => exact ⟨held, rfl, by rwa [List.append_nil] at h⟩
  | cons a as ih =>
    have hmem : a ∈ held := h.mem_iff.mpr (List.mem_append_right rest List.mem_cons_self)
    have herase : (held.erase a).Perm (rest ++ as) :=
      (List.perm_cons_erase hmem).symm.trans (h.trans List.perm_middle) |>.cons_inv
    obtain ⟨held', hrun, hrest⟩ := ih herase
    refine ⟨held', ?_, hrest⟩
    rw [List.map_cons, run, step, if_pos hmem]
    exact hrun

theorem run_uses {fits : List (α → Bool)} (h : ∀ f ∈ fits, held.any f = true) :
    run held (fits.map LedgerEvent.use) = some held := by
  induction fits with
  | nil => rfl
  | cons f fits ih =>
    rw [List.map_cons, run, step, if_pos (h f List.mem_cons_self)]
    exact ih fun g hg => h g (List.mem_cons_of_mem f hg)

end Ledger

end Xadma
