import Xadma.Verify.Optimize

/-!
# The chain of one fragment

What `XDMA_EngineProgramDma` leaves in the descriptor buffer, seen from the device: which
descriptors it visits, what their control words say, and which transfers it makes.
-/

namespace Xadma

/-- The device address that belongs to element `i` of a list that starts at `offset`. -/
def deviceAddrAt (mode : AddressMode) (offset : BitVec 64) (es : List SgElement) (i : Nat) :
    BitVec 64 :=
  match mode with
  | .contiguous => offset + BitVec.ofNat 64 (totalLength (es.take i))
  | .fixed | .other _ => offset

/-- The transfers between the elements and the device from `offset` on. -/
def plannedTransfers (mode : AddressMode) (offset : BitVec 64) (es : List SgElement) :
    List Transfer :=
  es.mapIdx fun i e => ⟨e.address, deviceAddrAt mode offset es i, e.length⟩

/-- The descriptor buffer holds the chain of the elements `es`, at the device address `offset`. -/
structure ChainCorrect (engine : XdmaEngine) (direction : WdfDmaDirection) (offset : BitVec 64)
    (es : List SgElement) (descs : List DmaDescriptor) : Prop where
  visits : followChain engine.descBuffer.logical descs descs.length engine.descBuffer.logical =
    some (List.range es.length)
  magic : ∀ desc ∈ descs, desc.control &&& 0xFFFF0000#32 = xdmaDescMagic
  stop : ∀ i desc, descs[i]? = some desc →
    (desc.control &&& xdmaDescStopBit ≠ 0 ↔ i + 1 = es.length)
  completed : ∀ i desc, descs[i]? = some desc →
    (desc.control &&& xdmaDescCompletedBit ≠ 0 ↔ i + 1 = es.length)
  eop : ∀ i desc, descs[i]? = some desc →
    (desc.control &&& xdmaDescEopBit ≠ 0 ↔ i + 1 = es.length ∧ engine.type = .st)
  moves : executeChain direction engine.descBuffer.logical descs =
    some (plannedTransfers engine.addressMode offset es)

variable {engine : XdmaEngine} {direction : WdfDmaDirection} {es rest : List SgElement}
  {e : SgElement} {descs : List DmaDescriptor} {base offset la : BitVec 64} {last : Bool}
  {i k n fuel : Nat}

/-! ## The descriptor of one iteration -/

theorem programDesc_transfer :
    (programDesc engine direction offset la last e).transfer direction =
      ⟨e.address, offset, e.length⟩ := by
  cases direction <;>
    simp [programDesc, DmaDescriptor.transfer, DmaDescriptor.srcAddr, DmaDescriptor.dstAddr,
      lowPart_sshiftRight]

theorem programDesc_nextAddr (la : BitVec 64) (last : Bool) (e : SgElement) :
    (programDesc engine direction offset la last e).nextAddr = if last then 0 else la := by
  cases last <;> simp [programDesc, DmaDescriptor.nextAddr]

theorem descControl_adj_clear : descControl engine last &&& 0xFF00#32 = 0#32 := by
  unfold descControl
  cases last <;> cases engine.type <;> decide

theorem descControl_magic : descControl engine last &&& 0xFFFF0000#32 = xdmaDescMagic := by
  unfold descControl
  cases last <;> cases engine.type <;> decide

theorem descControl_stop : descControl engine last &&& xdmaDescStopBit ≠ 0 ↔ last = true := by
  unfold descControl
  cases last <;> cases engine.type <;> decide

theorem descControl_completed :
    descControl engine last &&& xdmaDescCompletedBit ≠ 0 ↔ last = true := by
  unfold descControl
  cases last <;> cases engine.type <;> decide

theorem descControl_eop :
    descControl engine last &&& xdmaDescEopBit ≠ 0 ↔ last = true ∧ engine.type = .st := by
  unfold descControl
  cases last <;> cases engine.type <;> decide

/-! ## The loop -/

/-- The running offset carries the bytes of the elements that are done. -/
theorem deviceAddrAt_cons :
    deviceAddrAt engine.addressMode offset (e :: rest) (k + 1) =
      deviceAddrAt engine.addressMode (nextOffset engine offset e) rest k := by
  unfold deviceAddrAt nextOffset
  cases hm : engine.addressMode with
  | contiguous =>
    simp only [List.take_succ_cons, totalLength, List.map_cons, List.sum_cons, if_true,
      BitVec.ofNat_add, BitVec.add_assoc]
    congr 2
    exact BitVec.eq_of_toNat_eq (by simp)
  | fixed => simp
  | other raw => simp

theorem programLoop_isSome (direction : WdfDmaDirection) (offset la : BitVec 64) :
    (programLoop engine direction offset la es).isSome = true ↔ es = [] ∨ engine.Divides := by
  induction es generalizing offset la with
  | nil => simp [programLoop]
  | cons e rest ih =>
    rw [← descriptorIsAligned_isSome engine (programDesc engine direction offset
      (la + BitVec.ofNat 64 sizeofDmaDescriptor) rest.isEmpty e)]
    simp only [programLoop, Option.bind_eq_bind, Option.pure_def]
    constructor
    · intro h
      obtain ⟨descs, hd⟩ := Option.isSome_iff_exists.mp h
      obtain ⟨b, hb, -⟩ := Option.bind_eq_some_iff.mp hd
      exact Or.inr (by simp [hb])
    · rintro (h | h)
      · cases h
      · have hdiv := (descriptorIsAligned_isSome engine _).mp h
        obtain ⟨b, hb⟩ := Option.isSome_iff_exists.mp h
        obtain ⟨ds, hds⟩ := Option.isSome_iff_exists.mp
          ((ih (nextOffset engine offset e) (la + BitVec.ofNat 64 sizeofDmaDescriptor)).mpr
            (Or.inr hdiv))
        simp [hb, hds]

/-- The descriptors of the loop, one for each element. -/
theorem programLoop_getElem? (h : programLoop engine direction offset la es = some descs) :
    descs.length = es.length ∧ ∀ k (hk : k < es.length), descs[k]? =
      some (programDesc engine direction (deviceAddrAt engine.addressMode offset es k)
        (descAddr la (k + 1)) (decide (k + 1 = es.length)) es[k]) := by
  induction es generalizing offset la descs with
  | nil =>
    cases h
    exact ⟨rfl, fun k hk => absurd hk (Nat.not_lt_zero k)⟩
  | cons e rest ih =>
    simp only [programLoop, Option.bind_eq_bind, Option.pure_def] at h
    obtain ⟨b, -, h⟩ := Option.bind_eq_some_iff.mp h
    obtain ⟨ds, hds, h⟩ := Option.bind_eq_some_iff.mp h
    cases h
    obtain ⟨hlen, hget⟩ := ih hds
    refine ⟨by simp [hlen], fun k hk => ?_⟩
    cases k with
    | zero =>
      have hoff : deviceAddrAt engine.addressMode offset (e :: rest) 0 = offset := by
        cases hm : engine.addressMode <;> simp [deviceAddrAt, totalLength]
      rw [hoff, descAddr_succ, descAddr_zero]
      cases rest <;> simp
    | succ k =>
      have hk' : k < rest.length := by simpa using hk
      rw [deviceAddrAt_cons, List.getElem?_cons_succ, hget k hk']
      have hla : descAddr (la + BitVec.ofNat 64 sizeofDmaDescriptor) (k + 1) =
          descAddr la (k + 1 + 1) := by
        rw [← descAddr_zero la, ← descAddr_succ, descAddr_descAddr, descAddr_zero]
        congr 1
        omega
      simp [hla]

/-! ## The walk of the device -/

/-- A buffer whose next pointers lead from each descriptor to the one behind it, and from the last
one to 0, is visited in order. -/
theorem followChain_linear (fuel : Nat) (hbase : base.toNat + 32 * descs.length ≤ 2 ^ 64)
    (hnext : ∀ i desc, descs[i]? = some desc →
      desc.nextAddr = if i + 1 = descs.length then 0 else descAddr base (i + 1))
    (hi : i < descs.length) (hfuel : descs.length - i ≤ fuel) :
    followChain base descs fuel (descAddr base i) =
      some (List.range' i (descs.length - i)) := by
  induction fuel generalizing i with
  | zero => omega
  | succ fuel ih =>
    have hget : descs[i]? = some descs[i] := List.getElem?_eq_getElem hi
    simp only [followChain, descIndex_descAddr hbase hi, hget, Option.bind_eq_bind,
      Option.bind_some, Option.pure_def]
    by_cases hlast : i + 1 = descs.length
    · rw [if_pos (by rw [hnext i _ hget, if_pos hlast])]
      simp [show descs.length - i = 1 by omega]
    · have hnx : descs[i].nextAddr = descAddr base (i + 1) := by
        rw [hnext i _ hget, if_neg hlast]
      rw [hnx, if_neg (descAddr_ne_zero hbase (by omega)), ih (by omega) (by omega)]
      rw [show descs.length - i = (descs.length - (i + 1)) + 1 by omega, List.range'_succ]
      simp

theorem mapM_transfer_range' {m : Nat} (hk : k + m = descs.length) :
    ((List.range' k m).mapM fun i => descs[i]?.map (DmaDescriptor.transfer direction)) =
      some ((descs.drop k).map (DmaDescriptor.transfer direction)) := by
  induction m generalizing k with
  | zero => simp [show k = descs.length by omega]
  | succ m ih =>
    have hlt : k < descs.length := by omega
    rw [List.range'_succ, List.mapM_cons, List.getElem?_eq_getElem hlt, ih (by omega),
      List.drop_eq_getElem_cons hlt]
    rfl

theorem executeChain_of_visits
    (hvisit : followChain base descs descs.length base = some (List.range descs.length)) :
    executeChain direction base descs =
      some (descs.map (DmaDescriptor.transfer direction)) := by
  rw [executeChain, hvisit, List.range_eq_range']
  exact mapM_transfer_range' (Nat.zero_add _)

/-! ## The chain after `XDMA_EngineProgramDma` -/

variable {sgList : ScatterGatherList}

theorem ScatterGatherList.length_pos (sgList : ScatterGatherList) : 0 < sgList.elements.length :=
  List.length_pos_iff.mpr sgList.nonempty

theorem ScatterGatherList.inBuffer (sgList : ScatterGatherList) :
    engine.descBuffer.logical.toNat + 32 * sgList.elements.length ≤ 2 ^ 64 := by
  have hle := sgList.admitted
  have hbuf := engine.descBuffer.inRange
  have hsize : 32 * sgMaxElements ≤ descBufferSize := by decide
  omega

theorem programChain_isSome :
    (programChain engine direction offset sgList).isSome = true ↔ engine.Divides := by
  rw [← or_iff_right (a := sgList.elements = []) (b := engine.Divides) sgList.nonempty,
    ← programLoop_isSome direction offset engine.descBuffer.logical]
  cases h : programLoop engine direction offset engine.descBuffer.logical sgList.elements <;>
    simp [programChain, h]

theorem XdmaEngine.Divides.programChain (hdiv : engine.Divides) (direction : WdfDmaDirection)
    (offset : BitVec 64) (sgList : ScatterGatherList) :
    ∃ descs, programChain engine direction offset sgList = some descs :=
  Option.isSome_iff_exists.mp (programChain_isSome.mpr hdiv)

/-- Descriptor `i` is the one that the loop wrote, with an adjacency or-ed into its control word. -/
theorem programChain_getElem? (h : programChain engine direction offset sgList = some descs) :
    descs.length = sgList.elements.length ∧
      ∀ i (hi : i < sgList.elements.length), ∃ adj : BitVec 32, ∃ desc,
        AdjBound engine.adjMax sgList.elements.length i desc.nextLo adj ∧
        desc = programDesc engine direction
          (deviceAddrAt engine.addressMode offset sgList.elements i)
          (descAddr engine.descBuffer.logical (i + 1))
          (decide (i + 1 = sgList.elements.length)) sgList.elements[i] ∧
        descs[i]? = some (desc.orAdj adj) := by
  simp only [programChain, Option.bind_eq_bind, Option.pure_def] at h
  obtain ⟨ds, hds, h⟩ := Option.bind_eq_some_iff.mp h
  cases h
  obtain ⟨hlen, hget⟩ := programLoop_getElem? hds
  refine ⟨by rw [optimizeDescriptors_length, hlen], fun i hi => ?_⟩
  have hn : ds.length < 2 ^ 32 := by
    have := sgList.admitted
    have : sgMaxElements < 2 ^ 32 := by decide
    omega
  obtain ⟨adj, hadj, heq⟩ := optimizeDescriptors_getElem? engine hn (hlen ▸ hi)
  refine ⟨adj, ds[i], ⟨hadj.le_max, hlen ▸ hadj.le_left, hadj.le_4k⟩, ?_, heq⟩
  exact Option.some.inj ((List.getElem?_eq_getElem (hlen ▸ hi)).symm.trans (hget i hi))

theorem AdjBound.lt_field {adj nextLo : BitVec 32} (h : AdjBound engine.adjMax n i nextLo adj) :
    adj.toNat < 2 ^ 8 := by
  have := h.le_max
  have := engine.adjMax_lt
  omega

/-- The bits of a control word outside the adjacency field are those that the loop wrote. -/
theorem programChain_control (h : programChain engine direction offset sgList = some descs)
    {desc : DmaDescriptor} (hdesc : descs[i]? = some desc) {m : BitVec 32}
    (hm : m &&& controlMask = m) :
    desc.control &&& m = descControl engine (decide (i + 1 = sgList.elements.length)) &&& m := by
  obtain ⟨hlen, hget⟩ := programChain_getElem? h
  have hi : i < sgList.elements.length := hlen ▸ (List.getElem?_eq_some_iff.mp hdesc).1
  obtain ⟨adj, desc₀, hadj, rfl, heq⟩ := hget i hi
  cases hdesc.symm.trans heq
  exact or_adj_and hadj.lt_field hm

theorem programChain_nextAddr (h : programChain engine direction offset sgList = some descs)
    {desc : DmaDescriptor} (hdesc : descs[i]? = some desc) :
    desc.nextAddr =
      if i + 1 = descs.length then 0 else descAddr engine.descBuffer.logical (i + 1) := by
  obtain ⟨hlen, hget⟩ := programChain_getElem? h
  have hi : i < sgList.elements.length := hlen ▸ (List.getElem?_eq_some_iff.mp hdesc).1
  obtain ⟨adj, desc₀, -, rfl, heq⟩ := hget i hi
  cases hdesc.symm.trans heq
  rw [DmaDescriptor.orAdj_nextAddr, programDesc_nextAddr, hlen]
  simp

theorem programChain_visits (h : programChain engine direction offset sgList = some descs) :
    followChain engine.descBuffer.logical descs descs.length engine.descBuffer.logical =
      some (List.range sgList.elements.length) := by
  have hlen := (programChain_getElem? h).1
  have hwalk := followChain_linear (i := 0) descs.length (hlen ▸ sgList.inBuffer)
    (fun _ _ hdesc => programChain_nextAddr h hdesc) (hlen ▸ sgList.length_pos) (by omega)
  rw [descAddr_zero, Nat.sub_zero, hlen] at hwalk
  rw [hlen, hwalk, List.range_eq_range']

theorem programChain_moves (h : programChain engine direction offset sgList = some descs) :
    executeChain direction engine.descBuffer.logical descs =
      some (plannedTransfers engine.addressMode offset sgList.elements) := by
  obtain ⟨hlen, hget⟩ := programChain_getElem? h
  rw [executeChain_of_visits (hlen ▸ programChain_visits h)]
  refine congrArg some (List.ext_getElem? fun i => ?_)
  rw [List.getElem?_map, plannedTransfers, List.getElem?_mapIdx]
  rcases Nat.lt_or_ge i sgList.elements.length with hi | hi
  · obtain ⟨adj, desc₀, -, rfl, heq⟩ := hget i hi
    rw [heq, List.getElem?_eq_getElem hi, Option.map_some, Option.map_some,
      DmaDescriptor.orAdj_transfer, programDesc_transfer]
  · rw [List.getElem?_eq_none hi, List.getElem?_eq_none (hlen ▸ hi)]
    rfl

theorem chainCorrect_of_programChain
    (h : programChain engine direction offset sgList = some descs) :
    ChainCorrect engine direction offset sgList.elements descs where
  visits := programChain_visits h
  magic := by
    intro desc hmem
    obtain ⟨i, hi⟩ := List.mem_iff_getElem?.mp hmem
    rw [programChain_control h hi (by decide), descControl_magic]
  stop := by
    intro i desc hdesc
    rw [programChain_control h hdesc (by decide), descControl_stop, decide_eq_true_iff]
  completed := by
    intro i desc hdesc
    rw [programChain_control h hdesc (by decide), descControl_completed, decide_eq_true_iff]
  eop := by
    intro i desc hdesc
    rw [programChain_control h hdesc (by decide), descControl_eop, decide_eq_true_iff]
  moves := programChain_moves h

/-! ## The starting offset -/

theorem ChainCorrect.offset_unique {offset' : BitVec 64} (hes : es ≠ [])
    (h : ChainCorrect engine direction offset es descs)
    (h' : ChainCorrect engine direction offset' es descs) : offset = offset' := by
  obtain ⟨e, rest, rfl⟩ := List.exists_cons_of_ne_nil hes
  have hplan := Option.some.inj (h.moves.symm.trans h'.moves)
  have hhead := congrArg (fun ts => ts.head?.map Transfer.deviceAddr) hplan
  cases hm : engine.addressMode <;>
    simpa [plannedTransfers, deviceAddrAt, totalLength, hm] using hhead

theorem sizeT_eq_iff {w : PointerWidth} {x : BitVec 64} :
    sizeT w x = x ↔ w = .w64 ∨ x.toNat < 2 ^ 32 := by
  cases w with
  | w32 =>
    rw [← BitVec.toNat_inj]
    simp only [sizeT, BitVec.toNat_setWidth, lowPart_toNat, reduceCtorEq, false_or]
    omega
  | w64 => simp [sizeT]

/-- The chain of a fragment is right unless a 32-bit build cuts the offset of the request, or the
alignment check divides by a register that is 0. -/
theorem xdmaEngineProgramDma_chainCorrect_iff (w : PointerWidth) (engine : XdmaEngine)
    (direction : WdfDmaDirection) (deviceOffset : BitVec 64) (bytesTransferred : Nat)
    (sgList : ScatterGatherList) :
    (∃ descs,
      programChain engine direction (startOffset w deviceOffset bytesTransferred) sgList =
        some descs ∧
      ChainCorrect engine direction (deviceOffset + BitVec.ofNat 64 bytesTransferred)
        sgList.elements descs) ↔
    engine.Divides ∧ (w = .w64 ∨ deviceOffset.toNat < 2 ^ 32) := by
  rw [← sizeT_eq_iff]
  constructor
  · rintro ⟨descs, hprog, hchain⟩
    have hoff := (chainCorrect_of_programChain hprog).offset_unique sgList.nonempty hchain
    exact ⟨programChain_isSome.mp (Option.isSome_iff_exists.mpr ⟨descs, hprog⟩),
      (BitVec.add_left_inj _).mp hoff⟩
  · rintro ⟨hdiv, hoff⟩
    obtain ⟨descs, hprog⟩ := hdiv.programChain direction
      (startOffset w deviceOffset bytesTransferred) sgList
    refine ⟨descs, hprog, ?_⟩
    have hchain := chainCorrect_of_programChain hprog
    rwa [startOffset, hoff] at hchain

/-- An engine with 512 byte read requests, no alignment restriction and its descriptors at 4 KB. -/
def XdmaEngine.sample (type : EngineType) (addressMode : AddressMode) : XdmaEngine where
  pcieMRRS := 2
  pcieMRRS_le := by decide
  pcieWidth := 0
  alignAddr := 1
  alignLength := 1
  type := type
  addressMode := addressMode
  descBuffer := ⟨0x1000, by decide⟩

/-- A 32-bit build writes to device address 0 when the request asks for 4 GB. -/
theorem xdmaEngineProgramDma_cuts_offset :
    ∃ descs,
      programChain (.sample .mm .contiguous) .writeToDevice (startOffset .w32 0x100000000 0)
        ⟨[⟨0x2000, 0x40⟩], by decide, by decide⟩ = some descs ∧
      executeChain .writeToDevice 0x1000 descs = some [⟨0x2000, 0, 0x40⟩] ∧
      ¬ ChainCorrect (.sample .mm .contiguous) .writeToDevice 0x100000000 [⟨0x2000, 0x40⟩]
        descs := by
  refine ⟨_, rfl, by decide, fun h => ?_⟩
  exact absurd h.moves (by decide)

end Xadma
