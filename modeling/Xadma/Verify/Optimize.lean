import Xadma.Device.Descriptors

/-!
# What `OptimizeDescriptors` writes

The counter `nextAdjMax` runs down once for each descriptor, whether or not a block ends there. What
keeps the plan sound is only that it never exceeds `adjMax`: every adjacency is then below the read
request size, below the number of descriptors left, and inside the 4 KB page of the next address.
-/

namespace Xadma

theorem XdmaEngine.adjMax_toNat (engine : XdmaEngine) :
    engine.adjMax.toNat = 2 ^ (engine.pcieMRRS.toNat + 2) - 1 := by
  have key : ∀ m ≤ 5, ((1#32 <<< (BitVec.ofNat 32 m + 7#32)) / 32#32 - 1#32).toNat =
      2 ^ (m + 2) - 1 := by decide
  simpa [XdmaEngine.adjMax] using key engine.pcieMRRS.toNat engine.pcieMRRS_le

/-- The adjacency fits its field. -/
theorem XdmaEngine.adjMax_lt (engine : XdmaEngine) : engine.adjMax.toNat < 2 ^ 7 := by
  have hpow : 2 ^ (engine.pcieMRRS.toNat + 2) ≤ 2 ^ 7 :=
    Nat.pow_le_pow_right (by decide) (by have := engine.pcieMRRS_le; omega)
  rw [engine.adjMax_toNat]
  omega

theorem XdmaEngine.adjMax_pos (engine : XdmaEngine) : 3 ≤ engine.adjMax.toNat := by
  have hpow : 2 ^ 2 ≤ 2 ^ (engine.pcieMRRS.toNat + 2) :=
    Nat.pow_le_pow_right (by decide) (by omega)
  rw [engine.adjMax_toNat]
  omega

/-- The bounds on the adjacency of descriptor `i` of `n`, whose next address has the low half
`nextLo`. -/
structure AdjBound (adjMax : BitVec 32) (n i : Nat) (nextLo adj : BitVec 32) : Prop where
  le_max : adj.toNat ≤ adjMax.toNat
  le_left : adj.toNat ≤ n - (i + 2)
  le_4k : adj.toNat ≤ (adjTo4k nextLo).toNat

variable {adjMax nextAdjMax : BitVec 32} {n i j k : Nat} {desc : DmaDescriptor}
  {descs : List DmaDescriptor}

theorem nextAdjOf_bound (hmax : nextAdjMax.toNat ≤ adjMax.toNat) (hi : i < n) (hn : n < 2 ^ 32) :
    AdjBound adjMax n i desc.nextLo
      (nextAdjOf (BitVec.ofNat 32 n - 1#32) (BitVec.ofNat 32 i) nextAdjMax desc) := by
  -- the number of descriptors behind the next one
  have hleft : (if BitVec.ofNat 32 i ≠ BitVec.ofNat 32 n - 1#32 then
      BitVec.ofNat 32 n - 1#32 - (BitVec.ofNat 32 i + 1#32) else 0#32).toNat ≤ n - (i + 2) := by
    split
    · next hne =>
      have : i + 1 ≠ n := by
        intro h
        subst h
        exact hne (by simp [BitVec.ofNat_add])
      simp only [BitVec.toNat_sub, BitVec.toNat_add, BitVec.toNat_ofNat]
      omega
    · simp
  unfold nextAdjOf
  simp only [gt_iff_lt, BitVec.lt_def]
  generalize (if BitVec.ofNat 32 i ≠ BitVec.ofNat 32 n - 1#32 then
      BitVec.ofNat 32 n - 1#32 - (BitVec.ofNat 32 i + 1#32) else 0#32) = nextAdjTotal at hleft ⊢
  constructor <;> split <;> split_ifs at * <;> omega

theorem optimizeLoop_length {adjTotal x : BitVec 32} :
    (optimizeLoop adjMax adjTotal x nextAdjMax descs).length = descs.length := by
  induction descs generalizing x nextAdjMax with
  | nil => rfl
  | cons desc rest ih => simp [optimizeLoop, ih]

/-- The loop from descriptor `j` on: it ors a bounded adjacency into each control word. -/
theorem optimizeLoop_getElem? (hmax : nextAdjMax.toNat ≤ adjMax.toNat) (hj : j + descs.length = n)
    (hn : n < 2 ^ 32) (hk : k < descs.length) :
    ∃ adj, AdjBound adjMax n (j + k) descs[k].nextLo adj ∧
      (optimizeLoop adjMax (BitVec.ofNat 32 n - 1#32) (BitVec.ofNat 32 j) nextAdjMax descs)[k]? =
        some (descs[k].orAdj adj) := by
  induction descs generalizing j k nextAdjMax with
  | nil => simp at hk
  | cons desc rest ih =>
    simp only [List.length_cons] at hj hk
    cases k with
    | zero =>
      exact ⟨_, nextAdjOf_bound hmax (by omega) hn, rfl⟩
    | succ k =>
      have hmax' : (if nextAdjMax ≠ 0 then nextAdjMax - 1#32 else adjMax).toNat ≤ adjMax.toNat := by
        split
        · next h0 =>
          have : nextAdjMax.toNat ≠ 0 := fun h => h0 (BitVec.eq_of_toNat_eq h)
          simp only [BitVec.toNat_sub, BitVec.toNat_ofNat]
          omega
        · exact le_rfl
      obtain ⟨adj, hadj, heq⟩ := ih (j := j + 1) (k := k) hmax' (by omega) (by omega)
      refine ⟨adj, by simpa [show j + 1 + k = j + (k + 1) by omega] using hadj, ?_⟩
      simpa [optimizeLoop, BitVec.ofNat_add] using heq

theorem optimizeDescriptors_length (engine : XdmaEngine) :
    (optimizeDescriptors engine descs).length = descs.length := optimizeLoop_length

theorem optimizeDescriptors_getElem? (engine : XdmaEngine) (hn : descs.length < 2 ^ 32)
    (hi : i < descs.length) :
    ∃ adj, AdjBound engine.adjMax descs.length i descs[i].nextLo adj ∧
      (optimizeDescriptors engine descs)[i]? =
        some (descs[i].orAdj adj) := by
  have hmax : (engine.adjMax - 1#32).toNat ≤ engine.adjMax.toNat := by
    have := engine.adjMax_pos
    simp only [BitVec.toNat_sub, BitVec.toNat_ofNat]
    omega
  obtain ⟨adj, hadj, heq⟩ :=
    optimizeLoop_getElem? (j := 0) (n := descs.length) hmax (Nat.zero_add _) hn hi
  exact ⟨adj, by simpa using hadj, heq⟩

/-! ## Or-ing the adjacency in -/

section
variable {adj control : BitVec 32}

/-- The bits of a control word that are not part of the adjacency field. -/
def controlMask : BitVec 32 := 0xFFFF00FF#32

/-- No bit outside the field changes. -/
theorem or_adj_and (hadj : adj.toNat < 2 ^ 8) {m : BitVec 32} (hm : m &&& controlMask = m) :
    (control ||| (adj <<< 8)) &&& m = control &&& m := by
  refine or_shiftLeft_and hadj fun i hlo hhi => ?_
  have hbit : controlMask.getLsbD i = false := by
    have : ∀ i < 16, 8 ≤ i → controlMask.getLsbD i = false := by decide
    exact this i hhi hlo
  rw [← hm, BitVec.getLsbD_and, hbit, Bool.and_false]

/-- The device reads back what was or-ed in. -/
theorem nextAdj_or_adj (hadj : adj.toNat < 2 ^ 8) (hc : control &&& 0xFF00#32 = 0#32) :
    ((control ||| (adj <<< 8)) >>> 8) &&& 0xFF#32 = adj := by
  refine or_shiftLeft_field hadj (fun i hlo hhi => ?_) (by decide)
  have hbit : (0xFF00#32).getLsbD i = true := by
    have : ∀ i < 16, 8 ≤ i → (0xFF00#32).getLsbD i = true := by decide
    exact this i hhi hlo
  have := congrArg (fun c => c.getLsbD i) hc
  simpa [BitVec.getLsbD_and, hbit] using this

end

end Xadma
