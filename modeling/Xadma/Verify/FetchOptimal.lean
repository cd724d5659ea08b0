import Mathlib.Algebra.Group.Action.Defs
import Mathlib.Algebra.Order.BigOperators.Group.List
import Mathlib.Algebra.Order.Ring.Nat
import Xadma.Theory.Cyclic
import Xadma.Verify.FetchPlan

/-!
# The fetch plan is the greedy one

`OptimizeDescriptors` does not look where a block begins: its counter runs down by one for each
descriptor and starts again. The counter is in phase with the blocks when the buffer begins with a
page, and then every block is as large as it can be.
-/

namespace Xadma

variable {engine : XdmaEngine} {descs : List DmaDescriptor} {n i k fuel : Nat}

/-- The descriptors of a read request of the largest size. -/
def XdmaEngine.blockMax (engine : XdmaEngine) : Nat := 128 * 2 ^ engine.pcieMRRS.toNat / 32

/-- The largest block from descriptor `i` of `n` on: one read request, in one page, and no more than
there are. -/
def greedyCount (engine : XdmaEngine) (n i : Nat) : Nat :=
  let to4k := (4096 - (descAddr engine.descBuffer.logical i).toNat % 4096) / 32
  min engine.blockMax (min to4k (n - i))

/-- The largest block at every step. -/
def greedyPlan (engine : XdmaEngine) (n : Nat) : (fuel i : Nat) → List FetchBlock
  | 0, _ => []
  | fuel + 1, i =>
    let count := greedyCount engine n i
    let block : FetchBlock := ⟨descAddr engine.descBuffer.logical i, count⟩
    if i + count = n then [block] else block :: greedyPlan engine n fuel (i + count)

theorem XdmaEngine.blockMax_eq (engine : XdmaEngine) :
    engine.blockMax = 2 ^ (engine.pcieMRRS.toNat + 2) := by
  rw [blockMax, Nat.pow_add]
  omega

theorem XdmaEngine.adjMax_succ (engine : XdmaEngine) :
    engine.adjMax.toNat + 1 = engine.blockMax := by
  rw [engine.adjMax_toNat, engine.blockMax_eq, Nat.sub_add_cancel Nat.one_le_two_pow]

/-- A page holds a whole number of the largest blocks. -/
theorem XdmaEngine.blockMax_dvd (engine : XdmaEngine) : engine.blockMax ∣ 128 := by
  rw [engine.blockMax_eq]
  exact Nat.pow_dvd_pow 2 (show engine.pcieMRRS.toNat + 2 ≤ 7 by
    have := engine.pcieMRRS_le
    omega)

/-! ## The counter -/

/-- `nextAdjMax` at descriptor `i`. -/
def counterAt (adjMax : BitVec 32) (i : Nat) : BitVec 32 :=
  adjMax - BitVec.ofNat 32 ((i + 1) % (adjMax.toNat + 1))

variable {adjMax : BitVec 32}

theorem counterAt_toNat (adjMax : BitVec 32) (i : Nat) :
    (counterAt adjMax i).toNat = adjMax.toNat - (i + 1) % (adjMax.toNat + 1) := by
  have hlt := adjMax.isLt
  have hmod : (i + 1) % (adjMax.toNat + 1) < adjMax.toNat + 1 := Nat.mod_lt _ (by omega)
  rw [counterAt, BitVec.toNat_sub, BitVec.toNat_ofNat]
  omega

theorem counterAt_zero (hpos : 0 < adjMax.toNat) : counterAt adjMax 0 = adjMax - 1#32 := by
  rw [counterAt, Nat.zero_add, Nat.mod_eq_of_lt (by omega)]

/-- The update at the end of the loop body. -/
theorem counterAt_succ (adjMax : BitVec 32) (i : Nat) :
    (if counterAt adjMax i ≠ 0 then counterAt adjMax i - 1#32 else adjMax) =
      counterAt adjMax (i + 1) := by
  have hi := counterAt_toNat adjMax i
  have hsucc := counterAt_toNat adjMax (i + 1)
  have hmod : (i + 1) % (adjMax.toNat + 1) < adjMax.toNat + 1 := Nat.mod_lt _ (by omega)
  have hnext := next_mod (i := i + 1) (n := adjMax.toNat + 1) (by omega)
  have hlt := adjMax.isLt
  apply BitVec.eq_of_toNat_eq
  rw [hsucc, ← hnext]
  by_cases hzero : counterAt adjMax i = 0
  · have hval : (counterAt adjMax i).toNat = 0 := congrArg BitVec.toNat hzero
    rw [if_neg (not_not.mpr hzero), if_pos (by omega)]
    rfl
  · have hval : (counterAt adjMax i).toNat ≠ 0 := fun h => hzero (BitVec.eq_of_toNat_eq h)
    rw [if_pos hzero, if_neg (by omega), BitVec.toNat_sub, hi]
    simp only [BitVec.toNat_ofNat]
    omega

/-- The adjacency that the loop ors in, with the counter in phase. -/
theorem optimizeLoop_eq {j : Nat} (adjMax adjTotal : BitVec 32) (hk : k < descs.length) :
    (optimizeLoop adjMax adjTotal (BitVec.ofNat 32 j) (counterAt adjMax j) descs)[k]? =
      some (descs[k].orAdj
        (nextAdjOf adjTotal (BitVec.ofNat 32 (j + k)) (counterAt adjMax (j + k)) descs[k])) := by
  induction descs generalizing j k with
  | nil => simp at hk
  | cons desc rest ih =>
    rw [optimizeLoop, counterAt_succ]
    cases k with
    | zero => rfl
    | succ k =>
      have hrest := ih (j := j + 1) (k := k) (by simpa using hk)
      rw [List.getElem?_cons_succ, List.getElem_cons_succ, ← BitVec.ofNat_add, hrest,
        show j + 1 + k = j + (k + 1) by omega]

/-- Exactly the least of the three limits. -/
theorem nextAdjOf_toNat (nextAdjMax : BitVec 32) (desc : DmaDescriptor) (hi : i < n)
    (hn : n < 2 ^ 32) :
    (nextAdjOf (BitVec.ofNat 32 n - 1#32) (BitVec.ofNat 32 i) nextAdjMax desc).toNat =
      min (min (n - (i + 2)) nextAdjMax.toNat) (adjTo4k desc.nextLo).toNat := by
  have hleft : (if BitVec.ofNat 32 i ≠ BitVec.ofNat 32 n - 1#32 then
      BitVec.ofNat 32 n - 1#32 - (BitVec.ofNat 32 i + 1#32) else 0#32).toNat = n - (i + 2) := by
    split
    · next hne =>
      have hlast : i + 1 ≠ n := by
        intro h
        subst h
        exact hne (by simp [BitVec.ofNat_add])
      simp only [BitVec.toNat_sub, BitVec.toNat_add, BitVec.toNat_ofNat]
      omega
    · next heq =>
      have hval := congrArg BitVec.toNat (not_not.mp heq)
      simp only [BitVec.toNat_sub, BitVec.toNat_ofNat] at hval ⊢
      omega
  unfold nextAdjOf
  simp only [gt_iff_lt, BitVec.lt_def]
  generalize (if BitVec.ofNat 32 i ≠ BitVec.ofNat 32 n - 1#32 then
      BitVec.ofNat 32 n - 1#32 - (BitVec.ofNat 32 i + 1#32) else 0#32) = nextAdjTotal at hleft ⊢
  split_ifs at * <;> omega

/-! ## Blocks in phase -/

section
variable (hpage : 4096 ∣ engine.descBuffer.logical.toNat)
  (hrange : engine.descBuffer.logical.toNat + 32 * n ≤ 2 ^ 64)
include hpage hrange

/-- A block that begins where the counter starts again ends in its page. -/
theorem blockMax_le_to4k (hdvd : engine.blockMax ∣ i) (hi : i < n) : engine.blockMax ≤
    (4096 - (descAddr engine.descBuffer.logical i).toNat % 4096) / 32 := by
  obtain ⟨page, hpage⟩ := hpage
  have hoffset : (descAddr engine.descBuffer.logical i).toNat % 4096 = 32 * (i % 128) := by
    rw [descAddr_toNat hrange hi, hpage]
    omega
  have hslot : engine.blockMax ∣ 128 - i % 128 :=
    Nat.dvd_sub engine.blockMax_dvd ((Nat.dvd_mod_iff engine.blockMax_dvd).mpr hdvd)
  have hlt : i % 128 < 128 := Nat.mod_lt _ (by decide)
  have hle := Nat.le_of_dvd (by omega) hslot
  rw [hoffset]
  omega

theorem greedyCount_eq (hdvd : engine.blockMax ∣ i) (hi : i < n) :
    greedyCount engine n i = min engine.blockMax (n - i) := by
  have hle := blockMax_le_to4k hpage hrange hdvd hi
  unfold greedyCount
  simp only
  omega

theorem firstDescAdj_greedy (hpos : 0 < n) (hn : n < 2 ^ 32) :
    (firstDescAdj engine (BitVec.ofNat 32 n)).toNat + 1 = greedyCount engine n 0 := by
  have hle := blockMax_le_to4k hpage hrange (Nat.dvd_zero _) hpos
  have hmax := engine.adjMax_succ
  have htotal : (BitVec.ofNat 32 n - 1#32).toNat = n - 1 := by
    simp only [BitVec.toNat_sub, BitVec.toNat_ofNat]
    omega
  have h4k : (adjTo4k engine.firstDescLo).toNat =
      (4096 - engine.descBuffer.logical.toNat % 4096) / 32 - 1 :=
    adjTo4k_toNat (by omega)
  rw [greedyCount_eq hpage hrange (Nat.dvd_zero _) hpos]
  rw [descAddr_zero] at hle
  unfold firstDescAdj
  simp only [BitVec.lt_def]
  split_ifs <;> omega

end

section
variable {lastNext : BitVec 64} (hlinked : Linked engine.descBuffer.logical lastNext descs)
  (hn : descs.length < 2 ^ 32) (hpage : 4096 ∣ engine.descBuffer.logical.toNat)
  (hrange : engine.descBuffer.logical.toNat + 32 * descs.length ≤ 2 ^ 64)
include hlinked hn hpage hrange

/-- In front of a block the counter is at its start, and the descriptor asks for all of it. -/
theorem Linked.optimized_greedy (hdvd : engine.blockMax ∣ i + 1) (hi : i + 1 < descs.length) :
    ∃ desc, (optimizeDescriptors engine descs)[i]? = some desc ∧
      desc.nextAddr = descAddr engine.descBuffer.logical (i + 1) ∧
      desc.nextAdj.toNat + 1 = greedyCount engine descs.length (i + 1) := by
  have hmax := engine.adjMax_succ
  have hpos := engine.adjMax_pos
  have heq := optimizeLoop_eq (j := 0) engine.adjMax
    (BitVec.ofNat 32 descs.length - 1#32) (show i < descs.length by omega)
  rw [counterAt_zero (by omega), Nat.zero_add] at heq
  have hadj := nextAdjOf_toNat (counterAt engine.adjMax i) descs[i]
    (show i < descs.length by omega) hn
  have hcounter : (counterAt engine.adjMax i).toNat = engine.adjMax.toNat := by
    rw [counterAt_toNat, hmax, Nat.mod_eq_zero_of_dvd hdvd, Nat.sub_zero]
  have hnext := hlinked.next i _ (List.getElem?_eq_getElem (by omega))
  rw [if_neg (by omega)] at hnext
  have haddr := descAddr_toNat hrange hi
  have h4k : (adjTo4k descs[i].nextLo).toNat =
      (4096 - (descAddr engine.descBuffer.logical (i + 1)).toNat % 4096) / 32 - 1 := by
    rw [← lowPart_nextAddr, hnext]
    exact adjTo4k_toNat (by omega)
  have hle := blockMax_le_to4k hpage hrange hdvd hi
  have hlt := engine.adjMax_lt
  refine ⟨_, heq, hnext, ?_⟩
  rw [greedyCount_eq hpage hrange hdvd hi]
  have hread : (descs[i].orAdj (nextAdjOf (BitVec.ofNat 32 descs.length - 1#32)
      (BitVec.ofNat 32 i) (counterAt engine.adjMax i) descs[i])).nextAdj = _ :=
    nextAdj_or_adj (by omega) (hlinked.clear _ (List.getElem_mem (by omega)))
  rw [hread, hadj]
  omega

/-- From a block on the device fetches the greedy plan. -/
theorem Linked.pass_greedy {adj : BitVec 32} (fuel : Nat) (hdvd : engine.blockMax ∣ i)
    (hi : i < descs.length) (hadj : adj.toNat + 1 = greedyCount engine descs.length i)
    (hfuel : descs.length - i ≤ fuel) :
    fetchPass engine.descBuffer.logical (optimizeDescriptors engine descs) fuel
        ⟨descAddr engine.descBuffer.logical i, adj⟩ =
      some (greedyPlan engine descs.length fuel i, ⟨lastNext, 0⟩) := by
  induction fuel generalizing i adj with
  | zero => omega
  | succ fuel ih =>
    have hcount := greedyCount_eq hpage hrange hdvd hi
    have hin : i + adj.toNat < descs.length := by omega
    have hindex : descIndex engine.descBuffer.logical (optimizeDescriptors engine descs)
        (descAddr (descAddr engine.descBuffer.logical i) adj.toNat) = some (i + adj.toNat) := by
      rw [descAddr_descAddr]
      exact descIndex_descAddr (by rwa [optimizeDescriptors_length])
        (by rwa [optimizeDescriptors_length])
    by_cases hend : i + greedyCount engine descs.length i = descs.length
    · obtain ⟨desc, hdesc, -, hlast⟩ := hlinked.optimized hn hin
      obtain ⟨hnext, hzero⟩ := hlast (by omega)
      simp only [fetchPass, hindex, hdesc, Option.bind_eq_bind, Option.bind_some,
        optimizeDescriptors_length, Option.pure_def, greedyPlan]
      rw [if_pos (by omega), if_pos hend, hnext, hzero, hadj]
    · have hfull : adj.toNat + 1 = engine.blockMax := by omega
      have hdvd' : engine.blockMax ∣ i + adj.toNat + 1 := by
        rw [Nat.add_assoc, hfull]
        exact (Nat.dvd_add_right hdvd).mpr (Nat.dvd_refl _)
      obtain ⟨desc, hdesc, hnext, hgreedy⟩ :=
        hlinked.optimized_greedy hn hpage hrange hdvd' (by omega)
      have hrest := ih hdvd' (by omega) hgreedy (by omega)
      simp only [fetchPass, hindex, hdesc, Option.bind_eq_bind, Option.bind_some,
        optimizeDescriptors_length, Option.pure_def, greedyPlan]
      rw [if_neg (by omega), if_neg hend, hnext, hrest, ← hadj, ← Nat.add_assoc]
      rfl

end

/-- As many blocks as are needed at least. -/
theorem greedyPlan_length (hpage : 4096 ∣ engine.descBuffer.logical.toNat)
    (hrange : engine.descBuffer.logical.toNat + 32 * n ≤ 2 ^ 64) (fuel : Nat)
    (hdvd : engine.blockMax ∣ i) (hi : i < n) (hfuel : n - i ≤ fuel) :
    (greedyPlan engine n fuel i).length = (n - i + engine.blockMax - 1) / engine.blockMax := by
  have hmax := engine.adjMax_succ
  induction fuel generalizing i with
  | zero => omega
  | succ fuel ih =>
    have hcount := greedyCount_eq hpage hrange hdvd hi
    rw [greedyPlan]
    by_cases hend : i + greedyCount engine n i = n
    · simp only [if_pos hend, List.length_singleton]
      symm
      rw [Nat.div_eq_iff (by omega)]
      omega
    · have hfull : greedyCount engine n i = engine.blockMax := by omega
      have hdvd' : engine.blockMax ∣ i + engine.blockMax :=
        (Nat.dvd_add_right hdvd).mpr (Nat.dvd_refl _)
      have hrest := ih hdvd' (by omega) (by omega)
      simp only [if_neg hend, List.length_cons]
      rw [hfull, hrest, ← Nat.add_div_right _ (by omega)]
      congr 1
      omega

/-! ## The plan -/

/-- The pass over a list that ends fetches the blocks of the greedy plan, which are as many as the
read request size asks for. -/
theorem optimizeDescriptors_fetch_greedy (engine : XdmaEngine) (descs : List DmaDescriptor)
    (hbuilt : Built engine .linear descs) (hpos : 1 ≤ descs.length) (hn : descs.length < 2 ^ 32)
    (hpage : 4096 ∣ engine.descBuffer.logical.toNat)
    (hrange : engine.descBuffer.logical.toNat + 32 * descs.length ≤ 2 ^ 64) :
    ∃ blocks s', fetchPass engine.descBuffer.logical (optimizeDescriptors engine descs)
        descs.length ⟨engine.descBuffer.logical,
          firstDescAdj engine (BitVec.ofNat 32 descs.length)⟩ = some (blocks, s') ∧
      blocks = greedyPlan engine descs.length descs.length 0 ∧
      blocks.length = (descs.length + engine.blockMax - 1) / engine.blockMax := by
  have hadj := firstDescAdj_greedy hpage hrange hpos hn
  have hpass := hbuilt.linked.pass_greedy hn hpage hrange descs.length (Nat.dvd_zero _) hpos hadj
    (by omega)
  rw [descAddr_zero] at hpass
  exact ⟨_, _, hpass, rfl, greedyPlan_length hpage hrange _ (Nat.dvd_zero _) hpos (by omega)⟩

/-- Seventeen descriptors need a second request of 512 bytes. -/
theorem optimizeDescriptors_fetch_greedy_seventeen :
    ∃ descs, Built (.sample .mm .contiguous) .linear descs ∧ descs.length = 17 ∧
      ∃ blocks s', fetchPass 0x1000 (optimizeDescriptors (.sample .mm .contiguous) descs)
          descs.length ⟨0x1000, firstDescAdj (.sample .mm .contiguous)
            (BitVec.ofNat 32 descs.length)⟩ = some (blocks, s') ∧ blocks.length = 2 := by
  have hsome : (programLoop (.sample .mm .contiguous) .writeToDevice 0 0x1000
      (List.replicate 17 ⟨0x10000, 0x1000⟩)).isSome = true :=
    (programLoop_isSome ..).mpr (Or.inr (Or.inr ⟨by decide, by decide⟩))
  obtain ⟨descs, hdescs⟩ := Option.isSome_iff_exists.mp hsome
  have hlength : descs.length = 17 := by
    rw [(programLoop_getElem? hdescs).1, List.length_replicate]
  obtain ⟨blocks, s', hpass, -, hblocks⟩ := optimizeDescriptors_fetch_greedy
    (.sample .mm .contiguous) descs (.linear hdescs) (by omega) (by omega) (by decide)
    (by rw [hlength]; decide)
  refine ⟨descs, .linear hdescs, hlength, blocks, s', hpass, ?_⟩
  rw [hblocks, hlength]
  decide

/-- No sound plan has fewer blocks. -/
theorem PassSound.le_length {blocks : List FetchBlock} (h : PassSound engine n blocks) :
    (n + engine.blockMax - 1) / engine.blockMax ≤ blocks.length := by
  have hmax := engine.adjMax_succ
  have hcount : ∀ block ∈ blocks, block.count ≤ engine.blockMax := by
    intro block hblock
    have hsize := (h.sound block hblock).size
    unfold XdmaEngine.blockMax
    omega
  have htotal : n = (blocks.map FetchBlock.count).sum := by
    have hlength := congrArg List.length h.tiles
    rw [List.length_flatMap, List.length_map, List.length_range] at hlength
    rw [← hlength]
    congr 1
    exact List.map_congr_left fun block _ => by
      rw [FetchBlock.addrs, List.length_map, List.length_range]
  have hsum := List.sum_le_card_nsmul (blocks.map FetchBlock.count) engine.blockMax fun c hc => by
    obtain ⟨block, hblock, rfl⟩ := List.mem_map.mp hc
    exact hcount block hblock
  rw [← htotal, List.length_map, smul_eq_mul] at hsum
  rw [Nat.div_le_iff_le_mul (by omega)]
  omega

end Xadma
