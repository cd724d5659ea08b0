import Mathlib.Data.List.GetD
import Mathlib.Algebra.BigOperators.Group.List.Basic
import Mathlib.Algebra.Ring.Nat
import Mathlib.Order.Monotone.Basic
import Mathlib.Logic.Function.Basic

/-!
# Jobs that are done in order

There is a row of jobs, each of a number of units, and the units are done one after the other: a job
is begun when the one before it is finished. How much of each job is done then follows from how many
units are done in all.
-/

namespace Xadma

namespace InOrder

variable (sizes : List Nat)

/-- The units of the jobs before job `i`. -/
def before (i : Nat) : Nat := (sizes.take i).sum

/-- The units of job `i` that are done when `total` units are. -/
def done (total i : Nat) : Nat := min (sizes.getD i 0) (total - before sizes i)

variable {sizes} {total n i j : Nat}

theorem before_succ (sizes : List Nat) (i : Nat) :
    before sizes (i + 1) = before sizes i + sizes.getD i 0 := by
  unfold before
  rw [List.take_add_one, List.sum_append, List.getD_eq_getElem?_getD]
  cases sizes[i]? <;> simp

theorem before_mono (sizes : List Nat) : Monotone (before sizes) := by
  apply monotone_nat_of_le_succ
  intro i
  rw [before_succ]
  exact Nat.le_add_right ..

theorem before_length (sizes : List Nat) : before sizes sizes.length = sizes.sum := by
  rw [before, List.take_length]

theorem done_of_before_succ_le (h : before sizes (i + 1) ≤ total) :
    done sizes total i = sizes.getD i 0 := by
  rw [before_succ] at h
  unfold done
  omega

theorem done_of_le_before (h : total ≤ before sizes i) : done sizes total i = 0 := by
  unfold done
  omega

theorem done_lt_iff (h : before sizes i ≤ total) :
    done sizes total i < sizes.getD i 0 ↔ total < before sizes (i + 1) := by
  rw [before_succ]
  unfold done
  omega

/-- Units of one job are done, as far as it goes. -/
theorem done_add (hbefore : before sizes i ≤ total) (hend : total + n ≤ before sizes (i + 1)) :
    done sizes (total + n) =
      Function.update (done sizes total) i (done sizes total i + n) := by
  funext j
  rcases Nat.lt_trichotomy j i with hlt | rfl | hgt
  · have hj : before sizes (j + 1) ≤ total := (before_mono sizes hlt).trans hbefore
    rw [Function.update_of_ne hlt.ne, done_of_before_succ_le hj,
      done_of_before_succ_le (hj.trans (Nat.le_add_right ..))]
  · rw [Function.update_self]
    rw [before_succ] at hend
    unfold done
    omega
  · have hj : total + n ≤ before sizes j := hend.trans (before_mono sizes hgt)
    rw [Function.update_of_ne hgt.ne', done_of_le_before hj,
      done_of_le_before ((Nat.le_add_right ..).trans hj)]

/-! ## One more job -/

theorem before_concat (h : i ≤ sizes.length) : before (sizes ++ [n]) i = before sizes i := by
  rw [before, List.take_append_of_le_length h, before]

/-- It is not begun. -/
theorem done_concat (h : total ≤ sizes.sum) : done (sizes ++ [n]) total = done sizes total := by
  funext i
  rcases Nat.lt_or_ge i sizes.length with hlt | hge
  · unfold done
    rw [before_concat hlt.le, List.getD_append _ _ _ _ hlt]
  · have hbefore : sizes.sum ≤ before sizes i := by
      rw [← before_length]
      exact before_mono sizes hge
    have hbefore' : sizes.sum ≤ before (sizes ++ [n]) i := by
      rw [← before_length sizes, ← before_concat (n := n) le_rfl]
      exact before_mono _ hge
    rw [done_of_le_before (h.trans hbefore'), done_of_le_before (h.trans hbefore)]

/-! ## Chunks of work -/

/-- The chunks, each of some units of one job, follow on the first `total` units and lead to the
first `final`. -/
def Follow (sizes : List Nat) : (total : Nat) → List (Nat × Nat) → (final : Nat) → Prop
  | total, [], final => total = final
  | total, (i, n) :: rest, final =>
    i < sizes.length ∧ before sizes i ≤ total ∧ total + n ≤ before sizes (i + 1) ∧
      Follow sizes (total + n) rest final

/-- Do the units of a chunk. -/
def doChunk (d : Nat → Nat) (chunk : Nat × Nat) : Nat → Nat :=
  Function.update d chunk.1 (d chunk.1 + chunk.2)

variable {chunks : List (Nat × Nat)} {final : Nat}

theorem Follow.sum_eq (h : Follow sizes total chunks final) :
    total + (chunks.map Prod.snd).sum = final := by
  induction chunks generalizing total with
  | nil => exact h
  | cons chunk rest ih =>
    rw [List.map_cons, List.sum_cons, ← Nat.add_assoc]
    exact ih h.2.2.2

theorem Follow.foldl_doChunk (h : Follow sizes total chunks final) :
    chunks.foldl doChunk (done sizes total) = done sizes final := by
  induction chunks generalizing total with
  | nil =>
    cases h
    rfl
  | cons chunk rest ih =>
    obtain ⟨_, hbefore, hend, hrest⟩ := h
    rw [List.foldl_cons, doChunk, ← done_add hbefore hend]
    exact ih hrest

theorem Follow.concat (h : Follow sizes total chunks final) (hi : i < sizes.length)
    (hbefore : before sizes i ≤ final) (hend : final + n ≤ before sizes (i + 1)) :
    Follow sizes total (chunks ++ [(i, n)]) (final + n) := by
  induction chunks generalizing total with
  | nil =>
    cases h
    exact ⟨hi, hbefore, hend, rfl⟩
  | cons chunk rest ih => exact ⟨h.1, h.2.1, h.2.2.1, ih h.2.2.2⟩

theorem Follow.concat_size (h : Follow sizes total chunks final) (n : Nat) :
    Follow (sizes ++ [n]) total chunks final := by
  induction chunks generalizing total with
  | nil => exact h
  | cons chunk rest ih =>
    obtain ⟨hi, hbefore, hend, hrest⟩ := h
    refine ⟨?_, ?_, ?_, ih hrest⟩
    · rw [List.length_append]
      exact Nat.lt_add_right _ hi
    · rw [before_concat hi.le]
      exact hbefore
    · rw [before_concat hi]
      exact hend

end InOrder

end Xadma
