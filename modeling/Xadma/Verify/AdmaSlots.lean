import Xadma.Libadma.DescriptorTable
import Xadma.Verify.CaptureDescriptors

/-!
# The slots of the Arria 10 table

A fragment of `ADMA_MAX_TRANSFER_SIZE` bytes that does not begin with a page touches 129 pages, one
more than there are slots. The number of a slot stands in its control word above 18 bits of length,
and neither is cut to its field.
-/

namespace Xadma

def AdmaDescriptor.number (descriptor : AdmaDescriptor) : BitVec 32 := descriptor.control >>> 18

/-- The slots are taken one after the other behind the last pointer, each once and in the table, and
say which they are; the last one is handed over. -/
structure SlotDiscipline (lastPtr : BitVec 32) (writes : List SlotWrite) (s' : AdmaRegs) :
    Prop where
  distinct : (writes.map SlotWrite.slot).Nodup
  consecutive : ∀ i (hi : i < writes.length),
    writes[i].slot.toNat = (lastPtr.toNat + 1 + i) % admaMaxDescriptorNum.toNat
  inside : ∀ w ∈ writes, admaDescriptorOffset + (w.slot.toNat + 1) * sizeofAdmaDescriptor ≤
    admaDescBufferSize
  numbered : ∀ w ∈ writes, (s'.table w.slot).number = w.slot
  last : (writes.map SlotWrite.slot).getLast? = some s'.dmaLastPtr

/-- The bits of the length above the 18 are set in the number of the slot anyway. -/
def SlotKept (p : BitVec 32 × SgElement) : Prop := p.1 ||| p.2.length >>> 18 = p.1

instance (p : BitVec 32 × SgElement) : Decidable (SlotKept p) :=
  inferInstanceAs (Decidable (_ = _))

variable {direction : WdfDmaDirection} {id lastPtr a2pMask : BitVec 32} {offset : BitVec 64}
  {es : List SgElement} {s : AdmaRegs}

/-! ## How many elements a fragment has -/

namespace AdmaFragment

variable {i : Nat}

theorem totalLength_take_succ (hi : i < es.length) :
    totalLength (es.take (i + 1)) = totalLength (es.take i) + es[i].length.toNat := by
  unfold totalLength
  rw [List.take_add_one, List.getElem?_eq_getElem hi, List.map_append, List.sum_append]
  simp

theorem totalLength_take_lt (fragment : AdmaFragment) (hi : i < fragment.elements.length) :
    totalLength (fragment.elements.take i) < totalLength (fragment.elements.take (i + 1)) := by
  have hne := fragment.lengths _ (List.getElem_mem hi)
  have hpos : 0 < fragment.elements[i].length.toNat := BitVec.toNat_pos_of_ne_zero hne
  rw [totalLength_take_succ hi]
  omega

/-- Every element but the first begins at least a page behind the one before. -/
theorem le_totalLength_take (fragment : AdmaFragment)
    (hi : i + 1 < fragment.elements.length) :
    pageSize * (i + 1) ≤ fragment.byteOffset + totalLength (fragment.elements.take (i + 1)) := by
  induction i with
  | zero =>
    have hlt := totalLength_take_lt fragment (i := 0) (by omega)
    have hcut := fragment.cuts (0 + 1) (by omega) hi
    unfold pageSize at *
    omega
  | succ i ih =>
    have hprev := ih (by omega)
    have hlt := totalLength_take_lt fragment (i := i + 1) (by omega)
    have hbefore := fragment.cuts (i + 1) (by omega) (by omega)
    have hcut := fragment.cuts (i + 1 + 1) (by omega) hi
    unfold pageSize at *
    omega

/-- There is one element too many at most, and only in a fragment that does not begin with a
page. -/
theorem length_le (fragment : AdmaFragment) : fragment.elements.length ≤ 129 ∧
    (128 < fragment.elements.length → fragment.byteOffset ≠ 0) := by
  have hoffset := fragment.byteOffset_lt
  have hadmitted := fragment.admitted
  have hmax : admaMaxTransferSize = 128 * 4096 := by decide
  by_cases hone : fragment.elements.length ≤ 1
  · omega
  obtain ⟨n, hn⟩ : ∃ n, fragment.elements.length = n + 1 + 1 :=
    ⟨fragment.elements.length - 2, by omega⟩
  have hle := le_totalLength_take fragment (i := n) (by omega)
  have hlt := totalLength_take_lt fragment (i := n + 1) (by omega)
  rw [← hn, List.take_length] at hlt
  unfold pageSize at *
  omega

end AdmaFragment

/-! ## What is written -/

/-- The writes of the loop. -/
def loopWrites (direction : WdfDmaDirection) (deviceOffset : BitVec 64) (id : BitVec 32)
    (es : List SgElement) : List SlotWrite :=
  ((slots id es.length).zip es).map fun p =>
    ⟨p.1, arria10Descriptor direction p.1 deviceOffset p.2⟩

theorem trace_arria10Loop (s : AdmaRegs) :
    (Prog.trace AdmaRegs.act (AdmaRegs.answer lastPtr)
        (arria10Loop direction offset id es) s).filterMap AdmaOp.slotWrite? =
      loopWrites direction offset id es := by
  induction es generalizing id s with
  | nil => rfl
  | cons e rest ih =>
    rw [arria10Loop, AdmaOp.perform, Prog.trace_perform_bind rfl rfl]
    exact congrArg (List.cons _) (ih _)

theorem slotWrites_eq (call : ProgramCall) (s : AdmaRegs) :
    call.slotWrites a2pMask lastPtr s =
      loopWrites call.direction call.deviceOffset lastPtr call.sgList.elements := by
  unfold ProgramCall.slotWrites admaEngineProgramDma
  simp only [AdmaOp.perform]
  rw [Prog.trace_perform_bind rfl rfl, Prog.trace_perform_bind rfl rfl,
    Prog.trace_perform_bind rfl rfl, Prog.trace_bind (exec_arria10Loop _)]
  -- the calls around the loop write no slot
  have haround : ∀ loop : List AdmaOp, ∀ id addrLo addrHi,
      (AdmaOp.writeA2pAddrLo0 addrLo :: AdmaOp.writeA2pAddrHi0 addrHi :: AdmaOp.readDmaLastPtr ::
        (loop ++ [AdmaOp.engineStart, AdmaOp.writeDmaLastPtr id])).filterMap AdmaOp.slotWrite? =
        loop.filterMap AdmaOp.slotWrite? := by
    intro loop id addrLo addrHi
    show (loop ++ _).filterMap _ = _
    rw [List.filterMap_append]
    exact List.append_nil _
  exact (haround _ _ _ _).trans (trace_arria10Loop _)

theorem map_slot_loopWrites (direction : WdfDmaDirection) (offset : BitVec 64) :
    (loopWrites direction offset id es).map SlotWrite.slot = slots id es.length := by
  rw [loopWrites, List.map_map]
  exact List.map_fst_zip (by rw [slots_length])

/-- The table holds what was written, if no slot is taken twice. -/
theorem arria10Table_of_mem {table : BitVec 32 → AdmaDescriptor} {w : SlotWrite}
    (hnodup : (slots id es.length).Nodup) (hw : w ∈ loopWrites direction offset id es) :
    arria10Table direction offset id es table w.slot = w.descriptor := by
  induction es generalizing id table with
  | nil => cases hw
  | cons e rest ih =>
    rw [List.length_cons, slots, List.nodup_cons] at hnodup
    rw [loopWrites, List.length_cons, slots, List.zip_cons_cons, List.map_cons,
      List.mem_cons] at hw
    rw [arria10Table]
    obtain rfl | hw := hw
    · rw [arria10Table_of_not_mem hnodup.1, Function.update_self]
    · exact ih hnodup.2 hw

/-! ## The fields of the control word -/

theorem nextId_lt (id : BitVec 32) : (nextId id).toNat < 128 := by
  rw [nextId_toNat]
  exact Nat.mod_lt _ (by decide)

/-- The number is or-ed with what the length has above its field. -/
theorem control_ushiftRight (hid : id.toNat < 128) (length : BitVec 32) :
    (id <<< 18 ||| length) >>> 18 = id ||| length >>> 18 := by
  have hback : id <<< 18 >>> 18 = id := by
    apply BitVec.eq_of_toNat_eq
    rw [BitVec.toNat_ushiftRight, BitVec.toNat_shiftLeft, Nat.shiftLeft_eq,
      Nat.shiftRight_eq_div_pow]
    omega
  rw [BitVec.ushiftRight_or_distrib, hback]

/-- The word reads back as this number above the 18 bits and this length in them. -/
def Decodes (control id length : BitVec 32) : Prop :=
  control >>> 18 = id ∧ control &&& admaLengthMask = length

theorem decodes_iff (hid : id.toNat < 128) (length : BitVec 32) :
    Decodes (id <<< 18 ||| length) id length ↔ length.toNat < 2 ^ 18 := by
  rw [Decodes, control_ushiftRight hid, control_and_lengthMask, and_lengthMask_eq_iff]
  refine and_iff_right_of_imp fun hlt => ?_
  have hzero : length >>> 18 = 0 := by
    apply BitVec.eq_of_toNat_eq
    rw [BitVec.toNat_ushiftRight, Nat.shiftRight_eq_div_pow]
    exact Nat.div_eq_of_lt hlt
  rw [hzero]
  exact BitVec.or_zero

/-! ## The discipline -/

theorem arria10Last_eq (es : List SgElement) :
    arria10Last id es = Capture.lastSlot id es.length := by
  induction es generalizing id with
  | nil => rfl
  | cons e rest ih => exact ih

theorem slots_getElem? {i : Nat} {slot : BitVec 32} {n : Nat} (h : (slots id n)[i]? = some slot) :
    slot.toNat = (id.toNat + 1 + i) % 128 := by
  rw [slots_eq, List.getElem?_map] at h
  obtain ⟨j, hj, hslot⟩ := Option.map_eq_some_iff.mp h
  obtain ⟨_, hij⟩ := List.getElem?_eq_some_iff.mp hj
  rw [List.getElem_range] at hij
  rw [← hslot, ← hij, BitVec.toNat_ofNat]
  omega

theorem numbered_iff (direction : WdfDmaDirection) (offset : BitVec 64) :
    (∀ w ∈ loopWrites direction offset id es, w.descriptor.number = w.slot) ↔
      ∀ p ∈ (slots id es.length).zip es, SlotKept p := by
  rw [loopWrites, List.forall_mem_map]
  refine forall₂_congr fun p hp => ?_
  have hslot : p.1.toNat < 128 := by
    obtain ⟨i, hi⟩ := List.mem_iff_getElem?.mp (List.of_mem_zip hp).1
    rw [slots_getElem? hi]
    exact Nat.mod_lt _ (by decide)
  exact Eq.congr_left (control_ushiftRight hslot p.2.length)

theorem loopWrites_getElem {i : Nat} (hi : i < (loopWrites direction offset id es).length) :
    (loopWrites direction offset id es)[i].slot.toNat = (id.toNat + 1 + i) % 128 := by
  apply slots_getElem? (n := es.length)
  rw [← map_slot_loopWrites direction offset, List.getElem?_map,
    List.getElem?_eq_getElem hi]
  rfl

/-- Every slot is in the table, which is in the buffer. -/
theorem slot_inside {w : SlotWrite} (hw : w ∈ loopWrites direction offset id es) :
    admaDescriptorOffset + (w.slot.toNat + 1) * sizeofAdmaDescriptor ≤ admaDescBufferSize := by
  obtain ⟨i, hi, rfl⟩ := List.getElem_of_mem hw
  rw [loopWrites_getElem hi]
  have hlt : (id.toNat + 1 + i) % 128 < 128 := Nat.mod_lt _ (by decide)
  have hsize : admaDescBufferSize = 0x200 + 128 * 32 := by decide
  rw [hsize, admaDescriptorOffset, sizeofAdmaDescriptor]
  omega

/-- The slots are always consecutive and in the table, and the last one is handed over. -/
theorem slotDiscipline_iff {table : BitVec 32 → AdmaDescriptor} {s' : AdmaRegs} (hes : es ≠ [])
    (htable : s'.table = arria10Table direction offset lastPtr es table)
    (hlast : s'.dmaLastPtr = arria10Last lastPtr es) :
    SlotDiscipline lastPtr (loopWrites direction offset lastPtr es) s' ↔
      es.length ≤ 128 ∧ ∀ p ∈ (slots lastPtr es.length).zip es, SlotKept p := by
  rw [← slots_nodup_iff lastPtr, ← numbered_iff direction offset]
  constructor
  · intro h
    have hdistinct := h.distinct
    rw [map_slot_loopWrites] at hdistinct
    refine ⟨hdistinct, fun w hw => ?_⟩
    have hnumber := h.numbered w hw
    rwa [htable, arria10Table_of_mem hdistinct hw] at hnumber
  · rintro ⟨hdistinct, hnumber⟩
    refine ⟨?_, fun i hi => loopWrites_getElem hi, fun w hw => slot_inside hw,
      fun w hw => ?_, ?_⟩
    · rwa [map_slot_loopWrites]
    · rw [htable, arria10Table_of_mem hdistinct hw]
      exact hnumber w hw
    · obtain ⟨e, rest, rfl⟩ := List.exists_cons_of_ne_nil hes
      rw [map_slot_loopWrites, hlast, arria10Last_eq]
      exact Capture.slots_getLast? lastPtr rest.length

/-- What a call needs: a slot for each element, and lengths that do not change the numbers. -/
theorem ProgramCall.slotDiscipline_iff (call : ProgramCall) (a2pMask lastPtr : BitVec 32)
    (s : AdmaRegs) :
    ∃ s', AdmaRegs.program .arria10 a2pMask lastPtr call s = some s' ∧
      (SlotDiscipline lastPtr (call.slotWrites a2pMask lastPtr s) s' ↔
        call.sgList.elements.length ≤ 128 ∧
          ∀ p ∈ (call.slots lastPtr).zip call.sgList.elements, SlotKept p) := by
  refine ⟨_, program_arria10 .., ?_⟩
  rw [slotWrites_eq]
  exact Xadma.slotDiscipline_iff call.sgList.nonempty rfl rfl

theorem arria10_slotDiscipline_iff (fragment : AdmaFragment) (direction : WdfDmaDirection)
    (deviceOffset : BitVec 64) (a2pMask lastPtr : BitVec 32) (s : AdmaRegs) :
    let call : ProgramCall := ⟨direction, deviceOffset, fragment.toSgList⟩
    ∃ s', AdmaRegs.program .arria10 a2pMask lastPtr call s = some s' ∧
      (SlotDiscipline lastPtr (call.slotWrites a2pMask lastPtr s) s' ↔
        fragment.elements.length ≤ 128 ∧
          ∀ p ∈ (call.slots lastPtr).zip fragment.elements, SlotKept p) :=
  ProgramCall.slotDiscipline_iff _ a2pMask lastPtr s

/-- The whole limit from the middle of a page on, with no two pages next to each other in host
memory. -/
def scatteredElements : List SgElement :=
  ⟨0x10800, 0x800⟩ ::
    ((List.range 127).map fun i => ⟨BitVec.ofNat 64 (0x20000 + 0x2000 * i), 0x1000⟩) ++
      [⟨0x200000, 0x800⟩]

def scatteredFragment : AdmaFragment where
  elements := scatteredElements
  nonempty := by simp [scatteredElements]
  byteOffset := 0x800
  byteOffset_lt := by decide
  admitted := by decide +kernel
  lengths := by decide +kernel
  addresses := by decide +kernel
  cuts := by
    have hall : ∀ i, i < scatteredElements.length → 0 < i →
        (0x800 + totalLength (scatteredElements.take i)) % pageSize = 0 := by decide +kernel
    exact fun i hpos hi => hall i hi hpos

/-- The last element takes the slot of the first. -/
theorem scatteredFragment_not_disciplined :
    let call : ProgramCall := ⟨.writeToDevice, 0, scatteredFragment.toSgList⟩
    ∃ s', AdmaRegs.program .arria10 0 0xFF call resetRegs = some s' ∧
      ¬ SlotDiscipline 0xFF (call.slotWrites 0 0xFF resetRegs) s' := by
  intro call
  obtain ⟨s', hprogram, hiff⟩ := call.slotDiscipline_iff 0 0xFF resetRegs
  have hlength : ¬ call.sgList.elements.length ≤ 128 := by decide +kernel
  exact ⟨s', hprogram, fun h => hlength (hiff.mp h).1⟩

/-! ## The control words -/

/-- A control word written for `length` says so exactly if the length is below its number. -/
def SlotWrite.DecodesBelow (w : SlotWrite) (length : BitVec 32) : Prop :=
  Decodes w.descriptor.control w.slot length ↔ length.toNat < 2 ^ 18

theorem loopWrites_decodesBelow : List.Forall₂ (fun w e => SlotWrite.DecodesBelow w e.length)
    (loopWrites direction offset id es) es := by
  induction es generalizing id with
  | nil => exact .nil
  | cons e rest ih => exact .cons (decodes_iff (nextId_lt id) e.length) ih

namespace Capture

variable {deviceOffset : BitVec 32} {ms : List KsMapping}

def SgdmaOp.slotWrite? : SgdmaOp → Option SlotWrite
  | .writeDescriptor id descriptor => some ⟨id, descriptor⟩
  | _ => none

/-- The slots that a pass over the queue fills, in order, and with what. -/
def HardwareSimulation.slotWrites (s : HardwareSimulation) (mappings : Nat → Nat → KsMapping)
    (d : Sgdma) : List SlotWrite :=
  (Prog.trace Sgdma.act Sgdma.answer (s.fillScatterGatherBuffers mappings) d).filterMap
    SgdmaOp.slotWrite?

theorem writeMappings_decodesBelow (d : Sgdma) :
    List.Forall₂ (fun w m => SlotWrite.DecodesBelow w m.byteCount)
      ((Prog.trace Sgdma.act Sgdma.answer (writeMappings id deviceOffset ms) d).filterMap
        SgdmaOp.slotWrite?) ms := by
  induction ms generalizing id deviceOffset d with
  | nil => exact .nil
  | cons mapping rest ih =>
    rw [writeMappings, SgdmaOp.perform, Prog.trace_perform_bind rfl rfl]
    exact .cons (decodes_iff (nextId_lt id) mapping.byteCount) (ih _)

theorem programEntry_decodesBelow (d : Sgdma) :
    List.Forall₂ (fun w m => SlotWrite.DecodesBelow w m.byteCount)
      ((Prog.trace Sgdma.act Sgdma.answer (programEntry ms) d).filterMap SgdmaOp.slotWrite?)
      ms := by
  simp only [programEntry, SgdmaOp.perform]
  rw [Prog.trace_perform_bind rfl rfl, Prog.trace_perform_bind rfl rfl,
    Prog.trace_bind (Sgdma.exec_writeMappings _)]
  show List.Forall₂ _ ((_ ++ [SgdmaOp.writeDmaLastPtr _]).filterMap SgdmaOp.slotWrite?) ms
  rw [List.filterMap_append]
  exact (List.append_nil _).symm ▸ writeMappings_decodesBelow _

theorem fillLoop_decodesBelow (mappings : Nat → Nat → KsMapping) (left : Nat)
    (s : HardwareSimulation) (d : Sgdma) :
    List.Forall₂ (fun w m => SlotWrite.DecodesBelow w m.byteCount)
      ((Prog.trace Sgdma.act Sgdma.answer (HardwareSimulation.fillLoop mappings left s) d).filterMap
        SgdmaOp.slotWrite?)
      ((s.scatterGatherMappings.take left).flatMap (SgEntry.ksMapping mappings)) := by
  induction left generalizing s d with
  | zero => exact .nil
  | succ left ih =>
    rw [HardwareSimulation.fillLoop]
    cases hlist : s.scatterGatherMappings with
    | nil => exact .nil
    | cons entry rest =>
      simp only
      rw [Prog.trace_bind (Sgdma.exec_programEntry _), List.filterMap_append, List.take_succ_cons,
        List.flatMap_cons]
      exact List.rel_append (programEntry_decodesBelow d) (ih _ _)

end Capture

/-- In both drivers every control word reads back as its slot and its length exactly if the length
is below `2 ^ 18`. -/
theorem controlWords_decode_iff (fragment : AdmaFragment) (direction : WdfDmaDirection)
    (deviceOffset : BitVec 64) (a2pMask lastPtr : BitVec 32) (regs : AdmaRegs)
    (s : Capture.HardwareSimulation) (mappings : Nat → Nat → Capture.KsMapping)
    (d : Capture.Sgdma) :
    List.Forall₂ (fun w e => Decodes w.descriptor.control w.slot e.length ↔
        e.length.toNat < 2 ^ 18)
      ((ProgramCall.mk direction deviceOffset fragment.toSgList).slotWrites a2pMask lastPtr regs)
      fragment.elements ∧
    List.Forall₂ (fun w m => Decodes w.descriptor.control w.slot m.byteCount ↔
        m.byteCount.toNat < 2 ^ 18)
      (s.slotWrites mappings d)
      ((s.scatterGatherMappings.take s.scatterGatherMappingsQueued.toNat).flatMap
        (Capture.SgEntry.ksMapping mappings)) := by
  constructor
  · rw [slotWrites_eq]
    exact loopWrites_decodesBelow
  · have htrace : Prog.trace Capture.Sgdma.act Capture.Sgdma.answer
        (s.fillScatterGatherBuffers mappings) d =
          Prog.trace Capture.Sgdma.act Capture.Sgdma.answer
            (Capture.HardwareSimulation.fillLoop mappings s.scatterGatherMappingsQueued.toNat s)
              d :=
      Prog.trace_bind_ret _ _ _
    unfold Capture.HardwareSimulation.slotWrites
    rw [htrace]
    exact Capture.fillLoop_decodesBelow mappings s.scatterGatherMappingsQueued.toNat s d

/-- Half of the limit in pages that are next to each other in host memory. -/
def contiguousFragment : AdmaFragment where
  elements := [⟨0x100000, 0x40000⟩]
  nonempty := by simp
  byteOffset := 0
  byteOffset_lt := by decide
  admitted := by decide
  lengths := by decide
  addresses := by decide
  cuts := fun i hpos hi => absurd hi (Nat.not_lt.mpr hpos)

/-- The descriptor of slot 0 reads as one of no bytes with the number 1. -/
theorem contiguousFragment_not_decoded :
    let writes := (ProgramCall.mk .writeToDevice 0 contiguousFragment.toSgList).slotWrites 0 0xFF
      resetRegs
    writes = [⟨0, 0x100000, 0, 0, 0, 0x40000⟩] ∧ Decodes 0x40000 1 0 ∧
      ¬ List.Forall₂ (fun w e => Decodes w.descriptor.control w.slot e.length) writes
        contiguousFragment.elements := by
  intro writes
  have hwrites : writes = [⟨0, 0x100000, 0, 0, 0, 0x40000⟩] := by
    simp only [writes, slotWrites_eq]
    decide
  refine ⟨hwrites, by unfold Decodes; decide, fun h => ?_⟩
  rw [hwrites] at h
  cases h with
  | cons hdecodes _ => exact absurd hdecodes.1 (by decide)

end Xadma
