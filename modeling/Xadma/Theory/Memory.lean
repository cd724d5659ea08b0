import Mathlib.Algebra.BigOperators.Group.List.Basic
import Mathlib.Algebra.Ring.Nat
import Mathlib.Logic.Function.Basic
import Mathlib.Data.List.Basic

/-!
# Memory that is stored to and loaded from in blocks

A memory has something at each address of `w` bits, and a block goes on at address 0 behind the last
one. A list of blocks is filled block by block (`scatter`) and read back in the same order
(`gather`). A store into a block is a splice of what is loaded from it.
-/

namespace Xadma

abbrev Memory (w : Nat) (β : Type) := BitVec w → β

/-- The address is one of the `n` addresses from `start` on. -/
def InBlock {w : Nat} (start : BitVec w) (n : Nat) (a : BitVec w) : Prop := (a - start).toNat < n

instance {w : Nat} (start : BitVec w) (n : Nat) (a : BitVec w) : Decidable (InBlock start n a) :=
  inferInstanceAs (Decidable ((a - start).toNat < n))

/-- Adjacent addresses of a memory. -/
structure Block (w : Nat) where
  start : BitVec w
  length : Nat
  deriving DecidableEq, Repr

/-- The blocks have no address in common. -/
def Block.Disjoint {w : Nat} (b c : Block w) : Prop :=
  ∀ a, InBlock b.start b.length a → ¬ InBlock c.start c.length a

theorem Block.Disjoint.symm {w : Nat} {b c : Block w} (h : b.Disjoint c) : c.Disjoint b :=
  fun a hc hb => h a hb hc

/-- `ys` takes the place of what is behind the first `k` entries. -/
def splice {β : Type} (xs : List β) (k : Nat) (ys : List β) : List β :=
  xs.take k ++ ys ++ xs.drop (k + ys.length)

section
variable {β : Type} {xs ys : List β} {k : Nat}

theorem length_splice (h : k + ys.length ≤ xs.length) : (splice xs k ys).length = xs.length := by
  simp only [splice, List.length_append, List.length_take, List.length_drop]
  omega

theorem take_splice (h : k ≤ xs.length) :
    (splice xs k ys).take (k + ys.length) = xs.take k ++ ys := by
  rw [splice, List.take_left']
  rw [List.length_append, List.length_take, Nat.min_eq_left h]

end

/-- The addresses of all blocks together. -/
def Block.total {w : Nat} (bs : List (Block w)) : Nat := (bs.map Block.length).sum

namespace Memory

variable {w : Nat} {β : Type}

def load (m : Memory w β) (start : BitVec w) : Nat → List β
  | 0 => []
  | n + 1 => m start :: m.load (start + 1#w) n

def store (m : Memory w β) (start : BitVec w) : List β → Memory w β
  | [] => m
  | x :: xs => store (Function.update m start x) (start + 1#w) xs

def gather (m : Memory w β) (bs : List (Block w)) : List β :=
  bs.flatMap fun b => m.load b.start b.length

def scatter (m : Memory w β) : List (Block w) → List β → Memory w β
  | [], _ => m
  | b :: bs, xs => scatter (m.store b.start (xs.take b.length)) bs (xs.drop b.length)

variable {m m' : Memory w β} {start a : BitVec w} {n k : Nat} {xs ys : List β} {x : β}
  {b c : Block w} {bs : List (Block w)}

/-! ## Addresses -/

theorem toNat_sub_one {d : BitVec w} (hd : d ≠ 0#w) : d.toNat = (d - 1#w).toNat + 1 := by
  have hpos : d.toNat ≠ 0 := fun h => hd (BitVec.eq_of_toNat_eq (by simpa using h))
  have hlt := d.isLt
  have hone : 1 % 2 ^ w = 1 := Nat.mod_eq_of_lt (by omega)
  rw [BitVec.toNat_sub, BitVec.toNat_ofNat, hone,
    show 2 ^ w - 1 + d.toNat = d.toNat - 1 + 2 ^ w by omega, Nat.add_mod_right,
    Nat.mod_eq_of_lt (by omega)]
  omega

theorem inBlock_succ : InBlock start (n + 1) a ↔ a = start ∨ InBlock (start + 1#w) n a := by
  unfold InBlock
  by_cases h : a = start
  · subst h
    simp
  · have hne : a - start ≠ 0#w := fun h0 => h (by
      rw [← BitVec.sub_add_cancel a start, h0, BitVec.zero_add])
    rw [toNat_sub_one hne, BitVec.sub_sub]
    simp [h]

/-- The block behind the first address does not come around to it. -/
theorem not_inBlock_start (h : n < 2 ^ w) : ¬ InBlock (start + 1#w) n start := by
  unfold InBlock
  rw [← BitVec.sub_sub, BitVec.sub_self, BitVec.toNat_sub, BitVec.toNat_zero]
  rcases Nat.eq_zero_or_pos w with rfl | hw
  · simp at h
    omega
  · have hone : (1#w).toNat = 1 := by
      rw [BitVec.toNat_ofNat, Nat.mod_eq_of_lt (Nat.one_lt_two_pow (by omega))]
    have := Nat.one_lt_two_pow (n := w) (by omega)
    rw [hone, Nat.add_zero, Nat.mod_eq_of_lt (by omega)]
    omega

/-- Two blocks have an address in common exactly if one of them begins in the other. -/
theorem disjoint_iff : b.Disjoint c ↔ b.length = 0 ∨ c.length = 0 ∨
    ¬ InBlock b.start b.length c.start ∧ ¬ InBlock c.start c.length b.start := by
  have hfirst : ∀ d : Block w, d.length ≠ 0 → InBlock d.start d.length d.start := by
    intro d hd
    unfold InBlock
    rw [BitVec.sub_self]
    exact Nat.pos_of_ne_zero hd
  constructor
  · intro h
    by_cases hb : b.length = 0
    · exact .inl hb
    · by_cases hc : c.length = 0
      · exact .inr (.inl hc)
      · exact .inr (.inr ⟨fun hin => h _ hin (hfirst c hc), h _ (hfirst b hb)⟩)
  · rintro (hb | hc | ⟨hcb, hbc⟩) a ha ha'
    · rw [hb] at ha
      exact absurd ha (Nat.not_lt_zero _)
    · rw [hc] at ha'
      exact absurd ha' (Nat.not_lt_zero _)
    · -- the block that begins nearer to `a` begins in the other one
      unfold InBlock at ha ha' hcb hbc
      have hb : (c.start - b.start) = (a - b.start) - (a - c.start) := by grind
      have hc : (b.start - c.start) = (a - c.start) - (a - b.start) := by grind
      rcases Nat.le_total (a - c.start).toNat (a - b.start).toNat with hle | hle
      · rw [hb, BitVec.toNat_sub_of_le (BitVec.le_def.mpr hle)] at hcb
        omega
      · rw [hc, BitVec.toNat_sub_of_le (BitVec.le_def.mpr hle)] at hbc
        omega

instance (b c : Block w) : Decidable (b.Disjoint c) := decidable_of_iff' _ disjoint_iff

/-- A block that ends before another one begins, where neither comes around. -/
theorem disjoint_of_le (hle : b.start.toNat + b.length ≤ c.start.toNat)
    (hc : c.start.toNat + c.length ≤ 2 ^ w) : b.Disjoint c := by
  intro a hb hc'
  have ha := a.isLt
  have hbs := b.start.isLt
  have hcs := c.start.isLt
  unfold InBlock at hb hc'
  rw [BitVec.toNat_sub] at hb hc'
  have hmod : ∀ x y : Nat, x < 2 ^ w → y < 2 ^ w →
      (2 ^ w - y + x) % 2 ^ w = if y ≤ x then x - y else 2 ^ w - y + x := by
    intro x y hx hy
    split
    · rw [show 2 ^ w - y + x = x - y + 2 ^ w by omega, Nat.add_mod_right,
        Nat.mod_eq_of_lt (by omega)]
    · exact Nat.mod_eq_of_lt (by omega)
  rw [hmod _ _ ha hbs] at hb
  rw [hmod _ _ ha hcs] at hc'
  split at hb <;> split at hc' <;> omega

/-! ## One block -/

@[simp] theorem length_load : (m.load start n).length = n := by
  induction n generalizing start with
  | zero => rfl
  | succ n ih => rw [load, List.length_cons, ih]

theorem load_congr (h : ∀ a, InBlock start n a → m' a = m a) :
    m'.load start n = m.load start n := by
  induction n generalizing start with
  | zero => rfl
  | succ n ih =>
    rw [load, load, h start (inBlock_succ.mpr (.inl rfl)),
      ih fun a ha => h a (inBlock_succ.mpr (.inr ha))]

theorem load_add :
    m.load start (n + k) = m.load start n ++ m.load (start + BitVec.ofNat w n) k := by
  induction n generalizing start with
  | zero => simp [load]
  | succ n ih =>
    rw [Nat.add_right_comm, load, load, ih, List.cons_append, BitVec.add_assoc, ← BitVec.ofNat_add,
      Nat.add_comm 1 n]

/-- What is loaded from a block tells what is at each of its addresses. -/
theorem eq_of_load_eq (h : m'.load start n = m.load start n) (ha : InBlock start n a) :
    m' a = m a := by
  induction n generalizing start with
  | zero => exact absurd ha (Nat.not_lt_zero _)
  | succ n ih =>
    obtain ⟨hfirst, hrest⟩ := List.cons.inj h
    rcases inBlock_succ.mp ha with rfl | ha
    · exact hfirst
    · exact ih hrest ha

theorem store_append : m.store start (xs ++ ys) =
    (m.store start xs).store (start + BitVec.ofNat w xs.length) ys := by
  induction xs generalizing m start with
  | nil => simp [store]
  | cons x xs ih =>
    rw [List.cons_append, store, store, ih, List.length_cons, BitVec.add_assoc, ← BitVec.ofNat_add,
      Nat.add_comm 1]

theorem store_of_not_inBlock (h : ¬ InBlock start xs.length a) : m.store start xs a = m a := by
  induction xs generalizing m start with
  | nil => rfl
  | cons x xs ih =>
    rw [List.length_cons, inBlock_succ, not_or] at h
    rw [store, ih h.2, Function.update_of_ne h.1]

/-- A block that does not overlap itself is read back as it was stored. -/
theorem load_store (hlen : xs.length = n) (h : n ≤ 2 ^ w) :
    (m.store start xs).load start n = xs := by
  subst hlen
  induction xs generalizing m start with
  | nil => rfl
  | cons x xs ih =>
    rw [List.length_cons] at h
    rw [List.length_cons, load, store, ih (by omega),
      store_of_not_inBlock (not_inBlock_start (by omega)), Function.update_self]

/-- What is in a block behind a store does not depend on what was there. -/
theorem store_congr (h : xs.length ≤ 2 ^ w) (ha : InBlock start xs.length a) :
    m'.store start xs a = m.store start xs a :=
  eq_of_load_eq ((load_store rfl h).trans (load_store rfl h).symm) ha

/-- What was stored is read back from its beginning on. -/
theorem load_store_take (hk : k ≤ xs.length) (h : xs.length ≤ 2 ^ w) :
    (m.store start xs).load start k = xs.take k := by
  have hall : (m.store start xs).load start xs.length = xs := load_store rfl h
  rw [show xs.length = k + (xs.length - k) by omega, load_add] at hall
  rw [← hall, List.take_left' length_load, hall]

/-! ## A block in a larger one -/

/-- The addresses behind the first `k` of a block. -/
theorem inBlock_add (h : k + n ≤ 2 ^ w) : InBlock (start + BitVec.ofNat w k) n a ↔
    k ≤ (a - start).toNat ∧ (a - start).toNat < k + n := by
  unfold InBlock
  have hd := (a - start).isLt
  rw [← BitVec.sub_sub, BitVec.toNat_sub, BitVec.toNat_ofNat]
  rcases Nat.eq_zero_or_pos n with rfl | hn
  · omega
  · rw [Nat.mod_eq_of_lt (show k < 2 ^ w by omega)]
    by_cases hk : k ≤ (a - start).toNat
    · rw [show 2 ^ w - k + (a - start).toNat = (a - start).toNat - k + 2 ^ w by omega,
        Nat.add_mod_right, Nat.mod_eq_of_lt (by omega)]
      omega
    · rw [Nat.mod_eq_of_lt (by omega)]
      omega

theorem load_drop : m.load (start + BitVec.ofNat w k) n = (m.load start (k + n)).drop k := by
  rw [load_add, List.drop_left' length_load]

theorem take_load (h : k ≤ n) : (m.load start n).take k = m.load start k := by
  obtain ⟨r, rfl⟩ := Nat.exists_eq_add_of_le h
  rw [load_add, List.take_left' length_load]

theorem load_store_within (h : k + xs.length ≤ n) (hn : n ≤ 2 ^ w) :
    (m.store (start + BitVec.ofNat w k) xs).load start n = splice (m.load start n) k xs := by
  obtain ⟨r, rfl⟩ := Nat.exists_eq_add_of_le h
  have hfirst : (m.store (start + BitVec.ofNat w k) xs).load start k = m.load start k := by
    refine load_congr fun a ha => store_of_not_inBlock fun hin => ?_
    have hpast := (inBlock_add (by omega)).mp hin
    exact absurd ha (Nat.not_lt.mpr hpast.1)
  have hlast : (m.store (start + BitVec.ofNat w k) xs).load
      (start + BitVec.ofNat w (k + xs.length)) r =
        m.load (start + BitVec.ofNat w (k + xs.length)) r := by
    refine load_congr fun a ha => store_of_not_inBlock fun hin => ?_
    have hbefore := (inBlock_add (by omega)).mp hin
    have hpast := (inBlock_add (by omega)).mp ha
    omega
  have hown : (m.store (start + BitVec.ofNat w k) xs).load (start + BitVec.ofNat w k) xs.length =
      xs := load_store rfl (by omega)
  rw [load_add, load_add, hfirst, hown, hlast, load_drop, splice, take_load (by omega)]

/-! ## Lists of blocks -/

@[simp] theorem gather_cons : m.gather (b :: bs) = m.load b.start b.length ++ m.gather bs := by
  simp [gather]

@[simp] theorem length_gather : (m.gather bs).length = Block.total bs := by
  induction bs with
  | nil => rfl
  | cons b bs ih =>
    rw [gather_cons, List.length_append, length_load, ih]
    rfl

theorem scatter_of_not_inBlock (h : ∀ b ∈ bs, ¬ InBlock b.start b.length a) :
    m.scatter bs xs a = m a := by
  induction bs generalizing m xs with
  | nil => rfl
  | cons b bs ih =>
    rw [List.forall_mem_cons] at h
    rw [scatter, ih h.2]
    apply store_of_not_inBlock
    intro hin
    exact h.1 (Nat.lt_of_lt_of_le hin (List.length_take_le _ _))

/-- What is scattered over blocks that do not overlap is gathered from them again. -/
theorem gather_scatter (hdisjoint : bs.Pairwise Block.Disjoint) (hwrap : ∀ b ∈ bs, b.length ≤ 2 ^ w)
    (hlen : xs.length = Block.total bs) : (m.scatter bs xs).gather bs = xs := by
  induction bs generalizing m xs with
  | nil => exact (List.length_eq_zero_iff.mp hlen).symm
  | cons b bs ih =>
    rw [List.pairwise_cons] at hdisjoint
    rw [List.forall_mem_cons] at hwrap
    have hle : b.length ≤ xs.length := by
      rw [hlen, Block.total, List.map_cons, List.sum_cons]
      omega
    have htake : (xs.take b.length).length = b.length := List.length_take_of_le hle
    have hfirst : (m.scatter (b :: bs) xs).load b.start b.length = xs.take b.length := by
      have hkeep : (m.scatter (b :: bs) xs).load b.start b.length =
          (m.store b.start (xs.take b.length)).load b.start b.length :=
        load_congr fun a ha => scatter_of_not_inBlock fun c hc => hdisjoint.1 c hc a ha
      rw [hkeep, load_store htake hwrap.1]
    rw [gather_cons, hfirst, scatter, ih hdisjoint.2 hwrap.2, List.take_append_drop]
    rw [List.length_drop, hlen, Block.total, List.map_cons, List.sum_cons, Block.total]
    omega

end Memory

end Xadma
