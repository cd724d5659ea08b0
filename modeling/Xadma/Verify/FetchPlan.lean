import Xadma.Verify.Chain

/-!
# The fetch plan of a descriptor list

The device fetches a block of adjacent descriptors at a time: the first block as `firstDescAdj`
says, every other one as the last descriptor of the block before it says. A plan is sound when each
pass over the list fetches every descriptor once and in order, in blocks that the bus allows.
-/

namespace Xadma

/-- The two kinds of lists: a chain that ends, and the ring of the streaming engine. -/
inductive ListShape
  | linear
  | ring
  deriving DecidableEq, Repr

/-- The descriptor lists that the driver hands to `OptimizeDescriptors`, with any number of
descriptors. -/
inductive Built (engine : XdmaEngine) : ListShape → List DmaDescriptor → Prop
  | linear {direction : WdfDmaDirection} {deviceOffset : BitVec 64} {es : List SgElement}
      {descs : List DmaDescriptor}
      (h : programLoop engine direction deviceOffset engine.descBuffer.logical es = some descs) :
      Built engine .linear descs
  | ring {results : BitVec 64} {blocks : List (BitVec 64)} {descs : List DmaDescriptor}
      (h : ringLoop engine none results engine.descBuffer.logical blocks = some descs) :
      Built engine .ring (closeRing engine.descBuffer.logical descs)

/-- The bus takes the block in one read request, and in one page. -/
structure BlockSound (engine : XdmaEngine) (block : FetchBlock) : Prop where
  size : 32 * block.count ≤ 128 * 2 ^ engine.pcieMRRS.toNat
  page : block.addr.toNat / 4096 = (block.addr.toNat + 32 * block.count - 1) / 4096

/-- The blocks fetch the `n` descriptors of the buffer, each once and in order. -/
structure PassSound (engine : XdmaEngine) (n : Nat) (blocks : List FetchBlock) : Prop where
  tiles : blocks.flatMap FetchBlock.addrs =
    (List.range n).map (descAddr engine.descBuffer.logical)
  sound : ∀ block ∈ blocks, BlockSound engine block

/-- Every descriptor leads to the one behind it and the last one to `lastNext`, and the adjacency
field is still clear. -/
structure Linked (base lastNext : BitVec 64) (descs : List DmaDescriptor) : Prop where
  next : ∀ i desc, descs[i]? = some desc →
    desc.nextAddr = if i + 1 = descs.length then lastNext else descAddr base (i + 1)
  clear : ∀ desc ∈ descs, desc.control &&& 0xFF00#32 = 0#32

variable {engine : XdmaEngine} {base la results addr : BitVec 64}
  {descs : List DmaDescriptor} {blocks : List (BitVec 64)} {first : Option DmaDescriptor}
  {shape : ListShape} {adj : BitVec 32} {i k n fuel : Nat}

/-! ## The lists of the driver -/

theorem ringLoop_getElem? (h : ringLoop engine first results la blocks = some descs) :
    descs.length = blocks.length ∧ ∀ k desc, descs[k]? = some desc →
      desc.nextAddr = descAddr la (k + 1) ∧ desc.control &&& 0xFF00#32 = 0#32 := by
  induction blocks generalizing first results la descs with
  | nil =>
    cases h
    exact ⟨rfl, fun k desc hk => by simp at hk⟩
  | cons dst rest ih =>
    simp only [ringLoop, Option.bind_eq_bind, Option.pure_def] at h
    obtain ⟨b, -, h⟩ := Option.bind_eq_some_iff.mp h
    obtain ⟨ds, hds, h⟩ := Option.bind_eq_some_iff.mp h
    cases h
    obtain ⟨hlen, hget⟩ := ih hds
    refine ⟨by simp [hlen], fun k desc hk => ?_⟩
    cases k with
    | zero =>
      cases hk
      rw [descAddr_succ, descAddr_zero]
      refine ⟨by simp [ringDesc, DmaDescriptor.nextAddr], ?_⟩
      simp only [ringDesc]
      decide
    | succ k =>
      obtain ⟨hnext, hclear⟩ := hget k desc (by simpa using hk)
      refine ⟨?_, hclear⟩
      rw [hnext, ← descAddr_zero la, ← descAddr_succ, descAddr_descAddr, descAddr_zero]
      congr 1
      omega

theorem closeRing_linked (h : ringLoop engine none results base blocks = some descs) :
    Linked base base (closeRing base descs) := by
  obtain ⟨hlen, hget⟩ := ringLoop_getElem? h
  have hsome : ∀ i desc, (closeRing base descs)[i]? = some desc → ∃ desc₀,
      descs[i]? = some desc₀ ∧ desc.control = desc₀.control ∧
        desc.nextAddr = if i + 1 = descs.length then base else desc₀.nextAddr := by
    intro i desc hdesc
    rw [closeRing, List.getElem?_modify] at hdesc
    obtain ⟨desc₀, hdesc₀, rfl⟩ := Option.map_eq_some_iff.mp hdesc
    have hi := (List.getElem?_eq_some_iff.mp hdesc₀).1
    refine ⟨desc₀, hdesc₀, ?_⟩
    by_cases hlast : i + 1 = descs.length
    · rw [if_pos hlast, if_pos (by omega)]
      exact ⟨rfl, by simp [DmaDescriptor.nextAddr]⟩
    · rw [if_neg hlast, if_neg (by omega)]
      exact ⟨rfl, rfl⟩
  constructor
  · intro i desc hdesc
    obtain ⟨desc₀, hdesc₀, -, hnext⟩ := hsome i desc hdesc
    rw [hnext, (hget i desc₀ hdesc₀).1, closeRing, List.length_modify]
  · intro desc hmem
    obtain ⟨i, hi⟩ := List.mem_iff_getElem?.mp hmem
    obtain ⟨desc₀, hdesc₀, hcontrol, -⟩ := hsome i desc hi
    rw [hcontrol]
    exact (hget i desc₀ hdesc₀).2

theorem programLoop_linked {direction : WdfDmaDirection} {deviceOffset : BitVec 64}
    {es : List SgElement} (h : programLoop engine direction deviceOffset base es = some descs) :
    Linked base 0 descs := by
  obtain ⟨hlen, hget⟩ := programLoop_getElem? h
  constructor
  · intro i desc hdesc
    have hi : i < es.length := hlen ▸ (List.getElem?_eq_some_iff.mp hdesc).1
    cases hdesc.symm.trans (hget i hi)
    simp [programDesc_nextAddr, hlen]
  · intro desc hmem
    obtain ⟨i, hdesc⟩ := List.mem_iff_getElem?.mp hmem
    have hi : i < es.length := hlen ▸ (List.getElem?_eq_some_iff.mp hdesc).1
    cases hdesc.symm.trans (hget i hi)
    exact descControl_adj_clear

def ListShape.lastNext (base : BitVec 64) : ListShape → BitVec 64
  | .linear => 0
  | .ring => base

theorem Built.linked (h : Built engine shape descs) :
    Linked engine.descBuffer.logical (shape.lastNext engine.descBuffer.logical) descs := by
  cases h with
  | linear h => exact programLoop_linked h
  | ring h => exact closeRing_linked h

/-! ## Blocks -/

/-- Where a block starts and how many descriptors follow the first, in the bounds of the plan. -/
structure FetchBound (engine : XdmaEngine) (n i : Nat) (adj : BitVec 32) : Prop where
  le_max : adj.toNat ≤ engine.adjMax.toNat
  inside : i + adj.toNat < n
  le_4k : adj.toNat ≤ (adjTo4k (lowPart (descAddr engine.descBuffer.logical i))).toNat

theorem adjTo4k_toNat (haddr : 32 ∣ addr.toNat) :
    (adjTo4k (lowPart addr)).toNat = (4096 - addr.toNat % 4096) / 32 - 1 := by
  have hmask : (lowPart addr &&& 0xFFF#32).toNat = addr.toNat % 4096 := by
    rw [BitVec.toNat_and, lowPart_toNat, show (0xFFF#32).toNat = 2 ^ 12 - 1 from rfl,
      Nat.and_two_pow_sub_one_eq_mod]
    omega
  have hsub : (0x1000#32 - (lowPart addr &&& 0xFFF#32)).toNat = 4096 - addr.toNat % 4096 := by
    simp only [BitVec.toNat_sub, hmask, BitVec.toNat_ofNat]
    omega
  have hdiv : ((0x1000#32 - (lowPart addr &&& 0xFFF#32)) / 32#32).toNat =
      (4096 - addr.toNat % 4096) / 32 := by
    rw [BitVec.toNat_udiv, hsub]
    rfl
  rw [adjTo4k, BitVec.toNat_sub, hdiv, show (1#32).toNat = 1 from rfl]
  omega

theorem FetchBound.blockSound (h : FetchBound engine n i adj)
    (haligned : 32 ∣ engine.descBuffer.logical.toNat)
    (hrange : engine.descBuffer.logical.toNat + 32 * n ≤ 2 ^ 64) :
    BlockSound engine ⟨descAddr engine.descBuffer.logical i, adj.toNat + 1⟩ := by
  have hmax := h.le_max
  have hin := h.inside
  have h4k := h.le_4k
  have haddr := descAddr_toNat hrange (show i < n by omega)
  rw [adjTo4k_toNat (by omega)] at h4k
  constructor
  · rw [engine.adjMax_toNat, Nat.pow_add] at hmax
    have := Nat.one_le_two_pow (n := engine.pcieMRRS.toNat)
    simp only
    omega
  · simp only
    omega

theorem firstDescAdj_bound (engine : XdmaEngine) (hpos : 0 < n) (hn : n < 2 ^ 32) :
    FetchBound engine n 0 (firstDescAdj engine (BitVec.ofNat 32 n)) := by
  have htotal : (BitVec.ofNat 32 n - 1#32).toNat = n - 1 := by
    simp only [BitVec.toNat_sub, BitVec.toNat_ofNat]
    omega
  have hbase : adjTo4k (lowPart (descAddr engine.descBuffer.logical 0)) =
      adjTo4k engine.firstDescLo := by
    rw [descAddr_zero]
    rfl
  unfold firstDescAdj
  simp only [BitVec.lt_def]
  constructor <;> (try rw [hbase]) <;> split_ifs <;> omega

theorem lowPart_nextAddr (desc : DmaDescriptor) : lowPart desc.nextAddr = desc.nextLo := by
  apply BitVec.eq_of_getLsbD_eq
  intro i hi
  rw [lowPart, DmaDescriptor.nextAddr, BitVec.getLsbD_setWidth, BitVec.getLsbD_append, if_pos hi]
  simp; omega

section
variable {lastNext : BitVec 64} (hlinked : Linked engine.descBuffer.logical lastNext descs)
  (hn : descs.length < 2 ^ 32)
include hlinked hn

/-- The last descriptor of a block sends the device to the next one, in the bounds again. -/
theorem Linked.optimized (hi : i < descs.length) :
    ∃ desc, (optimizeDescriptors engine descs)[i]? = some desc ∧
      (i + 1 < descs.length → desc.nextAddr = descAddr engine.descBuffer.logical (i + 1) ∧
        FetchBound engine descs.length (i + 1) desc.nextAdj) ∧
      (i + 1 = descs.length → desc.nextAddr = lastNext ∧ desc.nextAdj = 0) := by
  obtain ⟨adj, hadj, heq⟩ := optimizeDescriptors_getElem? engine hn hi
  have hnext := hlinked.next i _ (List.getElem?_eq_getElem hi)
  have hread : (descs[i].orAdj adj).nextAdj = adj :=
    nextAdj_or_adj hadj.lt_field (hlinked.clear _ (List.getElem_mem hi))
  refine ⟨_, heq, fun hlt => ?_, fun hlast => ?_⟩
  · rw [if_neg (by omega)] at hnext
    have hleft := hadj.le_left
    have h4k := hadj.le_4k
    rw [← lowPart_nextAddr, hnext] at h4k
    rw [DmaDescriptor.orAdj_nextAddr, hread]
    exact ⟨hnext, hadj.le_max, by omega, h4k⟩
  · rw [if_pos hlast] at hnext
    have hleft := hadj.le_left
    rw [DmaDescriptor.orAdj_nextAddr, hread]
    exact ⟨hnext, BitVec.eq_of_toNat_eq (show adj.toNat = 0 by omega)⟩

/-- A pass from descriptor `i` on. -/
theorem Linked.pass_from (fuel : Nat) (haligned : 32 ∣ engine.descBuffer.logical.toNat)
    (hrange : engine.descBuffer.logical.toNat + 32 * descs.length ≤ 2 ^ 64)
    (hadj : FetchBound engine descs.length i adj) (hfuel : descs.length - i ≤ fuel) :
    ∃ blocks, fetchPass engine.descBuffer.logical (optimizeDescriptors engine descs) fuel
        ⟨descAddr engine.descBuffer.logical i, adj⟩ = some (blocks, ⟨lastNext, 0⟩) ∧
      blocks.flatMap FetchBlock.addrs =
        (List.range' i (descs.length - i)).map (descAddr engine.descBuffer.logical) ∧
      ∀ block ∈ blocks, BlockSound engine block := by
  induction fuel generalizing i adj with
  | zero =>
    have := hadj.inside
    omega
  | succ fuel ih =>
    have hin := hadj.inside
    obtain ⟨desc, hdesc, hmid, hlast⟩ := hlinked.optimized hn hin
    have hindex : descIndex engine.descBuffer.logical (optimizeDescriptors engine descs)
        (descAddr (descAddr engine.descBuffer.logical i) adj.toNat) = some (i + adj.toNat) := by
      rw [descAddr_descAddr]
      exact descIndex_descAddr (by rwa [optimizeDescriptors_length])
        (by rwa [optimizeDescriptors_length])
    have hblock := hadj.blockSound haligned hrange
    -- the addresses of this block
    have haddrs : FetchBlock.addrs ⟨descAddr engine.descBuffer.logical i, adj.toNat + 1⟩ =
        (List.range' i (adj.toNat + 1)).map (descAddr engine.descBuffer.logical) := by
      rw [FetchBlock.addrs, List.range'_eq_map_range, List.map_map]
      exact List.map_congr_left fun j _ => descAddr_descAddr _ _ _
    simp only [fetchPass, hindex, hdesc, Option.bind_eq_bind, Option.bind_some,
      optimizeDescriptors_length, Option.pure_def]
    by_cases hend : i + adj.toNat + 1 = descs.length
    · obtain ⟨hnext, hzero⟩ := hlast hend
      rw [if_pos hend, hnext, hzero]
      refine ⟨_, rfl, ?_, by simpa using hblock⟩
      rw [List.flatMap_singleton, haddrs, show descs.length - i = adj.toNat + 1 by omega]
    · obtain ⟨hnext, hbound⟩ := hmid (by omega)
      obtain ⟨blocks, hpass, htiles, hsound⟩ := ih hbound (by omega)
      rw [if_neg hend, hnext, hpass]
      refine ⟨_, rfl, ?_, List.forall_mem_cons.mpr ⟨hblock, hsound⟩⟩
      rw [List.flatMap_cons, haddrs, htiles, ← List.map_append,
        show i + adj.toNat + 1 = i + 1 * (adj.toNat + 1) by omega, List.range'_append,
        show adj.toNat + 1 + (descs.length - (i + 1 * (adj.toNat + 1))) = descs.length - i by
          omega]

/-- A pass from the base on fetches everything. -/
theorem Linked.pass_base (haligned : 32 ∣ engine.descBuffer.logical.toNat)
    (hrange : engine.descBuffer.logical.toNat + 32 * descs.length ≤ 2 ^ 64)
    (hadj : FetchBound engine descs.length 0 adj) :
    ∃ blocks, fetchPass engine.descBuffer.logical (optimizeDescriptors engine descs)
        (optimizeDescriptors engine descs).length ⟨engine.descBuffer.logical, adj⟩ =
          some (blocks, ⟨lastNext, 0⟩) ∧
      PassSound engine descs.length blocks := by
  obtain ⟨blocks, hpass, htiles, hsound⟩ := hlinked.pass_from hn descs.length haligned
    hrange hadj (by omega)
  rw [descAddr_zero] at hpass
  rw [optimizeDescriptors_length]
  exact ⟨blocks, hpass, by rw [htiles, Nat.sub_zero, List.range_eq_range'], hsound⟩

end

/-- Round after round the ring is fetched from its base, the first descriptor on its own. -/
theorem Linked.passes (hlinked : Linked engine.descBuffer.logical
      engine.descBuffer.logical descs) (hn : descs.length < 2 ^ 32)
    (haligned : 32 ∣ engine.descBuffer.logical.toNat)
    (hrange : engine.descBuffer.logical.toNat + 32 * descs.length ≤ 2 ^ 64)
    (hadj : FetchBound engine descs.length 0 adj) :
    ∃ passes, fetchPasses engine.descBuffer.logical (optimizeDescriptors engine descs) k
        ⟨engine.descBuffer.logical, adj⟩ = some passes ∧
      passes.length = k ∧ ∀ blocks ∈ passes, PassSound engine descs.length blocks := by
  induction k generalizing adj with
  | zero => exact ⟨[], rfl, rfl, by simp⟩
  | succ k ih =>
    obtain ⟨blocks, hpass, hsound⟩ := hlinked.pass_base hn haligned hrange hadj
    have hzero : FetchBound engine descs.length 0 0 :=
      ⟨Nat.zero_le _, Nat.lt_of_le_of_lt (Nat.zero_le _) hadj.inside, Nat.zero_le _⟩
    obtain ⟨passes, hpasses, hlen, hall⟩ := ih hzero
    refine ⟨blocks :: passes, ?_, by simp [hlen], List.forall_mem_cons.mpr ⟨hsound, hall⟩⟩
    simp only [fetchPasses, hpass, hpasses, Option.bind_eq_bind, Option.bind_some,
      Option.pure_def]

/-! ## The plan -/

/-- The plan that `OptimizeDescriptors` makes for a list of the driver is sound in every pass: one
pass over a list that ends, any number of them over the ring. -/
theorem optimizeDescriptors_fetchPlan (engine : XdmaEngine) (shape : ListShape)
    (descs : List DmaDescriptor) (k : Nat) (hbuilt : Built engine shape descs)
    (hpos : 1 ≤ descs.length) (hn : descs.length < 2 ^ 32)
    (haligned : 32 ∣ engine.descBuffer.logical.toNat)
    (hrange : engine.descBuffer.logical.toNat + 32 * descs.length ≤ 2 ^ 64)
    (hk : shape = .linear → k ≤ 1) :
    (∃ passes, fetchPasses engine.descBuffer.logical (optimizeDescriptors engine descs) k
        ⟨engine.descBuffer.logical,
          firstDescAdj engine (BitVec.ofNat 32 descs.length)⟩ = some passes ∧
      passes.length = k ∧ ∀ blocks ∈ passes, PassSound engine descs.length blocks) ∧
    ∀ (i : Nat) (desc : DmaDescriptor), descs[i]? = some desc →
      ∃ desc', (optimizeDescriptors engine descs)[i]? = some desc' ∧
        desc'.control &&& controlMask = desc.control &&& controlMask := by
  have hadj := firstDescAdj_bound engine hpos hn
  constructor
  · have hlinked := hbuilt.linked
    cases shape with
    | ring => exact hlinked.passes hn haligned hrange hadj
    | linear =>
      obtain ⟨blocks, hpass, hsound⟩ := hlinked.pass_base hn haligned hrange hadj
      obtain rfl | rfl : k = 0 ∨ k = 1 := by
        have := hk rfl
        omega
      · exact ⟨[], rfl, rfl, by simp⟩
      · refine ⟨[blocks], ?_, rfl, by simpa using hsound⟩
        simp only [fetchPasses, hpass, Option.bind_eq_bind, Option.bind_some, Option.pure_def]
  · intro i desc hdesc
    obtain ⟨hi, rfl⟩ := List.getElem?_eq_some_iff.mp hdesc
    obtain ⟨adj, hbound, heq⟩ := optimizeDescriptors_getElem? engine hn hi
    exact ⟨_, heq, or_adj_and hbound.lt_field (by decide)⟩

/-- Five rounds over a ring of three blocks. -/
theorem optimizeDescriptors_fetchPlan_ring :
    ∃ descs, Built (.sample .st .contiguous) .ring descs ∧
      ∃ passes, fetchPasses 0x1000 (optimizeDescriptors (.sample .st .contiguous) descs) 5
          ⟨0x1000, firstDescAdj (.sample .st .contiguous) 3#32⟩ = some passes ∧
        passes.length = 5 ∧ ∀ blocks ∈ passes, PassSound (.sample .st .contiguous) 3 blocks := by
  have hring : ringLoop (.sample .st .contiguous) none 0x20000 0x1000
      [0x30000, 0x31000, 0x32000] = some
        [ringDesc 0x20000 0x1020 0x30000, ringDesc 0x20020 0x1040 0x31000,
          ringDesc 0x20040 0x1060 0x32000] := by decide
  exact ⟨_, .ring hring, (optimizeDescriptors_fetchPlan (.sample .st .contiguous) .ring _ 5
    (.ring hring) (by decide) (by decide) (by decide) (by decide) (by decide)).1⟩

end Xadma
