import Mathlib.Data.BitVec

/-!
# Halves and fields of machine words

A 64-bit word handed over as two 32-bit halves, and a word of flags into which a small number is
or-ed above some bits of it.
-/

namespace Xadma

/-- The low 32 bits of a 64-bit word. -/
def lowPart (x : BitVec 64) : BitVec 32 := x.setWidth 32

/-- The high 32 bits of a 64-bit word. -/
def highPart (x : BitVec 64) : BitVec 32 := x.extractLsb' 32 32

@[simp] theorem highPart_append_lowPart (x : BitVec 64) : highPart x ++ lowPart x = x := by
  apply BitVec.eq_of_getLsbD_eq
  intro i hi
  rw [BitVec.getLsbD_append]
  unfold highPart lowPart
  split
  · simp; omega
  · rw [BitVec.getLsbD_extractLsb', show 32 + (i - 32) = i by omega]
    simp; omega

theorem lowPart_append (hi lo : BitVec 32) : lowPart (hi ++ lo) = lo := by
  apply BitVec.eq_of_getLsbD_eq
  intro i hi
  rw [lowPart, BitVec.getLsbD_setWidth, BitVec.getLsbD_append, if_pos hi]
  simp; omega

theorem highPart_append (hi lo : BitVec 32) : highPart (hi ++ lo) = hi := by
  apply BitVec.eq_of_getLsbD_eq
  intro i h
  rw [highPart, BitVec.getLsbD_extractLsb', BitVec.getLsbD_append, if_neg (by omega),
    Nat.add_sub_cancel_left]
  simp [h]

/-- A 64-bit word is given by its halves. -/
theorem append_eq_iff (hi lo : BitVec 32) (x : BitVec 64) :
    hi ++ lo = x ↔ hi = highPart x ∧ lo = lowPart x := by
  constructor
  · rintro rfl
    exact ⟨(highPart_append hi lo).symm, (lowPart_append hi lo).symm⟩
  · rintro ⟨rfl, rfl⟩
    exact highPart_append_lowPart x

theorem zero_append (lo : BitVec 32) : 0#32 ++ lo = lo.setWidth 64 := by
  rw [append_eq_iff]
  constructor
  · apply BitVec.eq_of_getLsbD_eq
    intro i hi
    rw [highPart, BitVec.getLsbD_extractLsb', BitVec.getLsbD_setWidth,
      BitVec.getLsbD_of_ge lo (32 + i) (by omega)]
    simp
  · rw [lowPart, BitVec.setWidth_setWidth_of_le lo (by decide), BitVec.setWidth_eq]

@[simp] theorem lowPart_toNat (x : BitVec 64) : (lowPart x).toNat = x.toNat % 2 ^ 32 := by
  simp [lowPart]

/-- The high half of a signed shift by 32 is the high half of the word: the copies of the sign bit
are cut off. -/
theorem lowPart_sshiftRight (x : BitVec 64) : lowPart (x.sshiftRight 32) = highPart x := by
  apply BitVec.eq_of_getLsbD_eq
  intro i hi
  unfold highPart lowPart
  rw [BitVec.getLsbD_setWidth, BitVec.getLsbD_sshiftRight, BitVec.getLsbD_extractLsb']
  simp [hi, show 32 + i < 64 by omega]
  omega

theorem lowPart_and_mask (x : BitVec 64) : lowPart (x &&& 0xFFFFFFFF#64) = lowPart x := by
  unfold lowPart
  rw [BitVec.setWidth_and]
  exact BitVec.and_allOnes

/-! ## Halves as numbers -/

theorem toNat_append_half (hi lo : BitVec 32) :
    (hi ++ lo).toNat = hi.toNat * 2 ^ 32 + lo.toNat := by
  rw [BitVec.toNat_append, ← Nat.shiftLeft_add_eq_or_of_lt lo.isLt, Nat.shiftLeft_eq]

theorem toNat_eq_halves (x : BitVec 64) :
    x.toNat = (highPart x).toNat * 2 ^ 32 + (lowPart x).toNat := by
  rw [← toNat_append_half, highPart_append_lowPart]

/-- Words are ordered by their high halves first. -/
theorem le_append_iff (x : BitVec 64) (hi lo : BitVec 32) :
    x ≤ hi ++ lo ↔ highPart x ≤ hi ∧ (highPart x = hi → lowPart x ≤ lo) := by
  have hx := toNat_eq_halves x
  have hlo := (lowPart x).isLt
  have hlt := lo.isLt
  rw [BitVec.le_def, BitVec.le_def, BitVec.le_def, toNat_append_half, ← BitVec.toNat_inj]
  omega

theorem append_le_iff (x : BitVec 64) (hi lo : BitVec 32) :
    hi ++ lo ≤ x ↔ hi ≤ highPart x ∧ (hi = highPart x → lo ≤ lowPart x) := by
  have hx := toNat_eq_halves x
  have hlo := (lowPart x).isLt
  have hlt := lo.isLt
  rw [BitVec.le_def, BitVec.le_def, BitVec.le_def, toNat_append_half, ← BitVec.toNat_inj]
  omega

/-- The halves put together by a shift and a sum. -/
theorem shiftLeft_add_eq_append (hi lo : BitVec 32) :
    (hi.setWidth 64 <<< 32) + lo.setWidth 64 = hi ++ lo := by
  apply BitVec.eq_of_toNat_eq
  have hhi := hi.isLt
  have hlo := lo.isLt
  rw [toNat_append_half, BitVec.toNat_add, BitVec.toNat_shiftLeft, Nat.shiftLeft_eq,
    BitVec.toNat_setWidth, BitVec.toNat_setWidth]
  omega

/-! ## A number below `2 ^ n`, shifted above the low `k` bits -/

section
variable {w : Nat} {x : BitVec w} {n k i : Nat}

theorem getLsbD_eq_false_of_lt (h : x.toNat < 2 ^ n) (hi : n ≤ i) : x.getLsbD i = false := by
  rw [BitVec.getLsbD]
  exact Nat.testBit_lt_two_pow (h.trans_le (Nat.pow_le_pow_right (by decide) hi))

/-- Bits outside `k .. k + n` are not touched by or-ing a number below `2 ^ n` in at bit `k`. -/
theorem getLsbD_or_shiftLeft {c : BitVec w} (h : x.toNat < 2 ^ n) (hi : i < k ∨ k + n ≤ i) :
    (c ||| x <<< k).getLsbD i = c.getLsbD i := by
  rw [BitVec.getLsbD_or, BitVec.getLsbD_shiftLeft]
  rcases hi with hi | hi
  · simp [hi]
  · rw [getLsbD_eq_false_of_lt h (by omega)]; simp

/-- Masks that avoid the bits `k .. k + n` read the same before and after. -/
theorem or_shiftLeft_and {c m : BitVec w} (h : x.toNat < 2 ^ n)
    (hm : ∀ i, k ≤ i → i < k + n → m.getLsbD i = false) :
    (c ||| x <<< k) &&& m = c &&& m := by
  apply BitVec.eq_of_getLsbD_eq
  intro i _
  rw [BitVec.getLsbD_and, BitVec.getLsbD_and]
  by_cases hi : k ≤ i ∧ i < k + n
  · simp [hm i hi.1 hi.2]
  · rw [getLsbD_or_shiftLeft h (by omega)]

/-- The number is read back from a word whose bits `k .. k + n` were clear. -/
theorem or_shiftLeft_field {c : BitVec w} (h : x.toNat < 2 ^ n)
    (hc : ∀ i, k ≤ i → i < k + n → c.getLsbD i = false) (hk : k + n ≤ w) :
    ((c ||| x <<< k) >>> k) &&& BitVec.ofNat w (2 ^ n - 1) = x := by
  apply BitVec.eq_of_getLsbD_eq
  intro i hi
  rw [BitVec.getLsbD_and, BitVec.getLsbD_ushiftRight, BitVec.getLsbD_or, BitVec.getLsbD_shiftLeft,
    BitVec.getLsbD_ofNat, Nat.testBit_two_pow_sub_one]
  by_cases hin : i < n
  · rw [hc (k + i) (by omega) (by omega)]
    simp [hin, hi, show k + i < w by omega]
  · simp [hin, getLsbD_eq_false_of_lt h (by omega : n ≤ i)]

end

/-! ## The bits under a mask and the others -/

section
variable {w : Nat} (x y m : BitVec w)

theorem or_and_mask : (x ||| m) &&& m = m := by
  ext i hi
  rw [BitVec.getElem_and, BitVec.getElem_or]
  cases m[i] <;> simp

theorem or_and_not_mask : (x ||| m) &&& ~~~ m = x &&& ~~~ m := by
  ext i hi
  simp only [BitVec.getElem_and, BitVec.getElem_or, BitVec.getElem_not]
  cases m[i] <;> simp

theorem select_and_mask : (x &&& m ||| y &&& ~~~ m) &&& m = x &&& m := by
  ext i hi
  simp only [BitVec.getElem_and, BitVec.getElem_or, BitVec.getElem_not]
  cases m[i] <;> simp

theorem select_and_not_mask : (x &&& m ||| y &&& ~~~ m) &&& ~~~ m = y &&& ~~~ m := by
  ext i hi
  simp only [BitVec.getElem_and, BitVec.getElem_or, BitVec.getElem_not]
  cases m[i] <;> simp

end

end Xadma
