import Mathlib.Data.Nat.Find
import Mathlib.Data.Nat.ModEq
import Mathlib.Logic.Function.Basic

/-!
# Positions on a ring

A ring of `n` slots that is used in order: the `i`-th use is of slot `i % n`. Uses from a window of
at most `n` are in different slots, and the distance of two positions is the number of uses between
them.
-/

namespace Xadma

/-- How far it is from slot `a` to slot `b` on a ring of `n` slots. -/
def ringDist (n a b : Nat) : Nat := (b + (n - a)) % n

variable {n a b i j k : Nat}

theorem eq_of_mod_eq (h : i % n = j % n) (hij : i ≤ j) (hlt : j < i + n) : i = j := by
  have hzero : (j - i) % n = 0 := Nat.sub_mod_eq_zero_of_mod_eq h.symm
  rw [Nat.mod_eq_of_lt (by omega)] at hzero
  omega

/-- Two uses from one window are of one slot only if they are the same. -/
theorem eq_of_mod_eq_of_window (h : i % n = j % n) (hi : a ≤ i) (hj : a ≤ j) (hin : i < a + n)
    (hjn : j < a + n) : i = j := by
  rcases Nat.le_total i j with hij | hji
  · exact eq_of_mod_eq h hij (by omega)
  · exact (eq_of_mod_eq h.symm hji (by omega)).symm

theorem ringDist_mod (hn : 0 < n) (hab : a ≤ b) (hlt : b < a + n) :
    ringDist n (a % n) (b % n) = b - a := by
  have hle := (Nat.mod_lt a hn).le
  have hsum : (b % n + (n - a % n)) ≡ b - a [MOD n] := by
    refine Nat.ModEq.add_right_cancel' (a % n) ?_
    calc
      b % n + (n - a % n) + a % n = b % n + n := by omega
      _ ≡ b [MOD n] := by simp [Nat.ModEq]
      _ = b - a + a := by omega
      _ ≡ b - a + a % n [MOD n] := (Nat.mod_modEq a n).symm.add_left _
  exact Nat.mod_eq_of_modEq hsum (by omega)

/-- Every slot is used once in a window of `n`, at its distance from the start. -/
theorem add_ringDist_mod (hn : 0 < n) (hk : k < n) : (a + ringDist n (a % n) k) % n = k := by
  have hle := (Nat.mod_lt a hn).le
  have hsum : a + ringDist n (a % n) k ≡ k [MOD n] := by
    calc
      a + ringDist n (a % n) k ≡ a % n + (k + (n - a % n)) [MOD n] :=
        (Nat.mod_modEq a n).symm.add (Nat.mod_modEq _ n)
      _ = k + n := by omega
      _ ≡ k [MOD n] := by simp [Nat.ModEq]
  exact Nat.mod_eq_of_modEq hsum hk

/-- The slots of the uses from `a` to `b`. -/
theorem exists_use_iff (hn : 0 < n) (hk : k < n) (hab : a ≤ b) (hlt : b ≤ a + n) :
    (∃ i, a ≤ i ∧ i < b ∧ k = i % n) ↔ ringDist n (a % n) k < b - a := by
  constructor
  · rintro ⟨i, hai, hib, rfl⟩
    rw [ringDist_mod hn hai (by omega)]
    omega
  · intro h
    exact ⟨a + ringDist n (a % n) k, by omega, by omega, (add_ringDist_mod hn hk).symm⟩

/-- The next slot. -/
theorem next_mod (hn : 0 < n) : (if i % n = n - 1 then 0 else i % n + 1) = (i + 1) % n := by
  have hlt := Nat.mod_lt i hn
  rw [Nat.add_mod]
  split
  · next hlast =>
    rcases Nat.lt_or_ge 1 n with h1 | h1
    · rw [hlast, Nat.mod_eq_of_lt h1, Nat.sub_add_cancel hn, Nat.mod_self]
    · rw [show n = 1 by omega, Nat.mod_one]
  · next hlast =>
    rw [Nat.mod_eq_of_lt (show 1 < n by omega)]
    exact (Nat.mod_eq_of_lt (by omega)).symm

/-! ## Tables over the slots -/

section
variable {β : Type} {f : Nat → β} {v : β} {xs : List β}

/-- The table is not 0 exactly in the slots of the uses from `a` to `b`. -/
structure Window [Zero β] (n : Nat) (f : Nat → β) (a b : Nat) : Prop where
  used : ∀ i, a ≤ i → i < b → f (i % n) ≠ 0
  unused : ∀ k, f k ≠ 0 → ∃ i, a ≤ i ∧ i < b ∧ k = i % n

namespace Window

variable [Zero β]

theorem ne_iff (h : Window n f a b) (hn : 0 < n) (hk : k < n) (hab : a ≤ b) (hlt : b ≤ a + n) :
    f k ≠ 0 ↔ ringDist n (a % n) k < b - a := by
  rw [← exists_use_iff hn hk hab hlt]
  constructor
  · exact h.unused k
  · rintro ⟨i, hai, hib, rfl⟩
    exact h.used i hai hib

/-- A slot in the window of the uses holds 0 if its use is not from `a` to `b`. -/
theorem eq_zero (h : Window n f a b) (hai : b ≤ i) (hi : i < a + n) (hab : a ≤ b) :
    f (i % n) = 0 := by
  by_contra hne
  obtain ⟨j, haj, hjb, hmod⟩ := h.unused _ hne
  have := eq_of_mod_eq_of_window hmod (hab.trans hai) haj hi (by omega)
  omega

theorem push (h : Window n f a b) (hab : a ≤ b) (hlt : b < a + n) (hv : v ≠ 0) :
    Window n (Function.update f (b % n) v) a (b + 1) := by
  constructor
  · intro i hai hib
    rcases Nat.lt_succ_iff_lt_or_eq.mp hib with hib | rfl
    · have hne : i % n ≠ b % n := by
        intro hmod
        have := eq_of_mod_eq_of_window hmod hai hab (by omega) hlt
        omega
      rw [Function.update_of_ne hne]
      exact h.used i hai hib
    · rwa [Function.update_self]
  · intro k hk
    by_cases hslot : k = b % n
    · exact ⟨b, hab, Nat.lt_succ_self b, hslot⟩
    · rw [Function.update_of_ne hslot] at hk
      obtain ⟨i, hai, hib, hki⟩ := h.unused k hk
      exact ⟨i, hai, hib.trans (Nat.lt_succ_self b), hki⟩

theorem pop (h : Window n f a b) (hlt : b ≤ a + n) :
    Window n (Function.update f (a % n) 0) (a + 1) b := by
  constructor
  · intro i hai hib
    have hne : i % n ≠ a % n := by
      intro hmod
      have := eq_of_mod_eq_of_window hmod (Nat.le_of_succ_le hai) le_rfl (by omega) (by omega)
      omega
    rw [Function.update_of_ne hne]
    exact h.used i (Nat.le_of_succ_le hai) hib
  · intro k hk
    have hslot : k ≠ a % n := by
      rintro rfl
      exact hk (Function.update_self ..)
    rw [Function.update_of_ne hslot] at hk
    obtain ⟨i, hai, hib, hki⟩ := h.unused k hk
    refine ⟨i, Nat.lt_of_le_of_ne hai ?_, hib, hki⟩
    rintro rfl
    exact hslot hki

/-- Only the slot of the first use can be cleared for the window to move on. -/
theorem slot_eq (h : Window n f a b) (h' : Window n (Function.update f k 0) (a + 1) b)
    (hab : a + 1 ≤ b) (hlt : b ≤ a + n) : k = a % n := by
  by_contra hne
  have hzero : Function.update f k 0 ((a + n) % n) = 0 := h'.eq_zero hlt (by omega) hab
  rw [Nat.add_mod_right, Function.update_of_ne (Ne.symm hne)] at hzero
  exact h.used a le_rfl hab hzero

end Window

/-- From use `a` on the table holds the members of the list. -/
def Stored (n : Nat) (xs : List β) (f : Nat → β) (a : Nat) : Prop :=
  ∀ i, a ≤ i → i < xs.length → xs[i]? = some (f (i % n))

theorem Stored.push (h : Stored n xs f a) (ha : a ≤ xs.length) (hlt : xs.length < a + n) :
    Stored n (xs ++ [v]) (Function.update f (xs.length % n) v) a := by
  intro i hai hi
  rw [List.length_append, List.length_singleton] at hi
  rcases Nat.lt_succ_iff_lt_or_eq.mp hi with hi | rfl
  · have hne : i % n ≠ xs.length % n := by
      intro hmod
      have := eq_of_mod_eq_of_window hmod hai ha (by omega) hlt
      omega
    rw [List.getElem?_append_left hi, Function.update_of_ne hne]
    exact h i hai hi
  · rw [List.getElem?_append_right le_rfl, Function.update_self]
    simp

/-- The slot of use `a` may be cleared once that use is over. -/
theorem Stored.pop (h : Stored n xs f a) (hlt : xs.length ≤ a + n) :
    Stored n xs (Function.update f (a % n) v) (a + 1) := by
  intro i hai hi
  have hne : i % n ≠ a % n := by
    intro hmod
    have := eq_of_mod_eq_of_window hmod (Nat.le_of_succ_le hai) le_rfl (by omega) (by omega)
    omega
  rw [Function.update_of_ne hne]
  exact h i (Nat.le_of_succ_le hai) hi

theorem Stored.mono (h : Stored n xs f a) (hab : a ≤ b) : Stored n xs f b :=
  fun i hbi hi => h i (hab.trans hbi) hi

end

/-! ## Runs of a table -/

section
variable {β : Type} [Zero β] {f : Nat → β} {len len' : Nat}

/-- The `len` slots from use `a` on do not hold 0, and the next one does, unless these are all. -/
structure MaximalRun (n : Nat) (f : Nat → β) (a len : Nat) : Prop where
  le : len ≤ n
  used : ∀ j < len, f ((a + j) % n) ≠ 0
  ends : len < n → f ((a + len) % n) = 0

/-- The table with the `len` slots from use `a` on cleared, one after the other. -/
def clearRun (n : Nat) (f : Nat → β) (a : Nat) : (len : Nat) → Nat → β
  | 0 => f
  | len + 1 => clearRun n (Function.update f (a % n) 0) (a + 1) len

theorem exists_maximalRun (n : Nat) (f : Nat → β) (a : Nat) : ∃ len, MaximalRun n f a len := by
  by_cases hall : ∀ j < n, f ((a + j) % n) ≠ 0
  · exact ⟨n, le_rfl, hall, fun hlt => absurd hlt (Nat.lt_irrefl n)⟩
  · classical
    have hzero : ∃ j, j < n ∧ f ((a + j) % n) = 0 := by
      by_contra hno
      exact hall fun j hj hf => hno ⟨j, hj, hf⟩
    obtain ⟨hlt, hends⟩ := Nat.find_spec hzero
    refine ⟨Nat.find hzero, hlt.le, fun j hj hf => ?_, fun _ => hends⟩
    exact Nat.find_min hzero hj ⟨hj.trans hlt, hf⟩

theorem MaximalRun.unique (h : MaximalRun n f a len) (h' : MaximalRun n f a len') :
    len = len' := by
  rcases Nat.lt_trichotomy len len' with hlt | heq | hgt
  · exact absurd (h.ends (hlt.trans_le h'.le)) (h'.used len hlt)
  · exact heq
  · exact absurd (h'.ends (hgt.trans_le h.le)) (h.used len' hgt)

theorem MaximalRun.mod (h : MaximalRun n f a len) : MaximalRun n f (a % n) len := by
  refine ⟨h.le, fun j hj => ?_, fun hlt => ?_⟩
  · rw [Nat.mod_add_mod]
    exact h.used j hj
  · rw [Nat.mod_add_mod]
    exact h.ends hlt

/-- The run that is left when its first slot is cleared. A run all around the ring then ends at that
slot. -/
theorem MaximalRun.clear (h : MaximalRun n f a (len + 1)) :
    MaximalRun n (Function.update f (a % n) 0) (a + 1) len := by
  have hle := h.le
  refine ⟨by omega, fun j hj => ?_, fun _ => ?_⟩
  · have hne : (a + 1 + j) % n ≠ a % n := by
      intro hmod
      have := eq_of_mod_eq_of_window hmod (by omega) le_rfl (by omega) (by omega)
      omega
    rw [Function.update_of_ne hne, Nat.add_assoc, Nat.add_comm 1 j]
    exact h.used (j + 1) (Nat.succ_lt_succ hj)
  · rcases Nat.eq_or_lt_of_le hle with hfull | hlt
    · rw [show a + 1 + len = a + n by omega, Nat.add_mod_right, Function.update_self]
    · rw [Function.update_apply]
      split
      · rfl
      · rw [Nat.add_assoc, Nat.add_comm 1 len]
        exact h.ends hlt

/-- A slot that is 0 stays 0. -/
theorem clearRun_of_eq_zero (h : f k = 0) (a len : Nat) : clearRun n f a len k = 0 := by
  induction len generalizing f a with
  | zero => exact h
  | succ len ih =>
    apply ih
    rw [Function.update_apply]
    split
    · rfl
    · exact h

theorem clearRun_eq_zero (f : Nat → β) (hj : j < len) : clearRun n f a len ((a + j) % n) = 0 := by
  induction len generalizing f a j with
  | zero => cases hj
  | succ len ih =>
    rw [clearRun]
    cases j with
    | zero =>
      apply clearRun_of_eq_zero
      rw [Nat.add_zero, Function.update_self]
    | succ j =>
      rw [Nat.add_comm j 1, ← Nat.add_assoc]
      exact ih _ (Nat.lt_of_succ_lt_succ hj)

theorem clearRun_of_ne (h : ∀ j < len, k ≠ (a + j) % n) : clearRun n f a len k = f k := by
  induction len generalizing f a with
  | zero => rfl
  | succ len ih =>
    rw [clearRun, ih]
    · exact Function.update_of_ne (h 0 (Nat.succ_pos len)) ..
    intro j hj
    rw [Nat.add_assoc, Nat.add_comm 1 j]
    exact h (j + 1) (Nat.succ_lt_succ hj)

/-- Behind a run that is cleared there is none. -/
theorem MaximalRun.cleared (h : MaximalRun n f a len) :
    MaximalRun n (clearRun n f a len) (a + len) 0 := by
  induction len generalizing f a with
  | zero => exact h
  | succ len ih =>
    rw [clearRun, Nat.add_comm len 1, ← Nat.add_assoc]
    exact ih h.clear

end

end Xadma
