import Xadma.Libxdma.EngineRegs
import Xadma.Verify.Chain

/-!
# Alignment requirements

`EngineGetAlignments` takes its defaults only where the whole register is 0, and
`DescriptorIsAligned` divides by two of the three fields, each of which may be 0 by itself.
-/

namespace Xadma

/-- Every value is a multiple of it. -/
def NoRequirement (modulus : BitVec 32) : Prop :=
  modulus ≠ 0 ∧ ∀ x : BitVec 32, x % modulus = 0

/-- What a value of the alignments register must come to: no check in incremental mode divides by
zero, and a field that is 0 asks for nothing. -/
structure AlignmentsServed (alignments : BitVec 32) : Prop where
  checks : ∀ (engine : XdmaEngine) (desc : DmaDescriptor), engine.addressMode ≠ .fixed →
    (descriptorIsAligned (engine.getAlignments alignments) desc).isSome = true
  address : alignBytes alignments = 0 → NoRequirement (engineGetAlignments alignments).alignAddr
  granularity : granularityBytes alignments = 0 →
    NoRequirement (engineGetAlignments alignments).alignLength

/-- The default is used, or nothing has to be defaulted. -/
def AlignmentsWhole (alignments : BitVec 32) : Prop :=
  alignments = 0 ∨ alignBytes alignments ≠ 0 ∧ granularityBytes alignments ≠ 0

instance (alignments : BitVec 32) : Decidable (AlignmentsWhole alignments) :=
  inferInstanceAs (Decidable (_ ∨ _))

theorem NoRequirement.one : NoRequirement 1 := ⟨by decide, fun x => by simp⟩

variable {alignments : BitVec 32} {engine : XdmaEngine}

theorem engineGetAlignments_zero : engineGetAlignments 0 = ⟨1, 1, 64⟩ := rfl

theorem engineGetAlignments_of_ne (h : alignments ≠ 0) : engineGetAlignments alignments =
    ⟨alignBytes alignments, granularityBytes alignments, addressBits alignments⟩ :=
  if_pos h

/-- The moduli are not 0 exactly where no single field misses its default. -/
theorem getAlignments_divides_iff (hmode : engine.addressMode ≠ .fixed) :
    (engine.getAlignments alignments).Divides ↔ AlignmentsWhole alignments := by
  have hdiv : (engine.getAlignments alignments).Divides ↔
      (engineGetAlignments alignments).alignAddr ≠ 0 ∧
        (engineGetAlignments alignments).alignLength ≠ 0 := by
    unfold XdmaEngine.Divides
    exact or_iff_right hmode
  rw [hdiv, AlignmentsWhole]
  by_cases hzero : alignments = 0
  · subst hzero
    rw [engineGetAlignments_zero]
    exact iff_of_true ⟨by decide, by decide⟩ (Or.inl rfl)
  · rw [engineGetAlignments_of_ne hzero]
    exact (or_iff_right hzero).symm

/-- What that means for the fragments programmed on the engine. -/
theorem programChain_getAlignments_isSome (hmode : engine.addressMode ≠ .fixed)
    (direction : WdfDmaDirection) (offset : BitVec 64) (sgList : ScatterGatherList) :
    (programChain (engine.getAlignments alignments) direction offset sgList).isSome = true ↔
      AlignmentsWhole alignments := by
  rw [programChain_isSome, getAlignments_divides_iff hmode]

theorem AlignmentsWhole.served (h : AlignmentsWhole alignments) : AlignmentsServed alignments where
  checks engine desc hmode := by
    rw [descriptorIsAligned_isSome]
    exact (getAlignments_divides_iff hmode).mpr h
  address hbyte := by
    obtain rfl | ⟨haddr, -⟩ := h
    · exact .one
    · exact absurd hbyte haddr
  granularity hbyte := by
    obtain rfl | ⟨-, hlength⟩ := h
    · exact .one
    · exact absurd hbyte hlength

/-- A field that is 0 beside one that is not is kept as 0. -/
theorem alignmentsServed_iff (alignments : BitVec 32) :
    AlignmentsServed alignments ↔ AlignmentsWhole alignments := by
  constructor
  · intro h
    by_cases hzero : alignments = 0
    · exact Or.inl hzero
    have hdata := engineGetAlignments_of_ne hzero
    refine Or.inr ⟨fun hbyte => ?_, fun hbyte => ?_⟩
    · have hreq := (h.address hbyte).1
      rw [hdata] at hreq
      exact hreq hbyte
    · have hreq := (h.granularity hbyte).1
      rw [hdata] at hreq
      exact hreq hbyte
  · exact AlignmentsWhole.served

/-- 64 address bits and a granularity of one byte, with the alignment byte left at 0. -/
theorem alignments_divide_by_zero :
    descriptorIsAligned (XdmaEngine.getAlignments
        ⟨0, by decide, 0, 1, 1, .mm, .contiguous, ⟨0x1000, by decide⟩⟩ 0x00000140) .zero = none ∧
      ¬ AlignmentsServed 0x00000140 :=
  ⟨by decide, fun h => absurd (h.address (by decide)).1 (by decide)⟩

end Xadma
