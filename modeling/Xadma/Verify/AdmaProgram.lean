import Xadma.Device.Altera
import Xadma.Verify.Split

/-!
# What the Altera engines are programmed with

Both branches of `ADMA_EngineProgramDma` run over the elements, but only the Cyclone branch moves
the device offset on. The Cyclone branch has one translation entry for all elements, taken from the
first.
-/

namespace Xadma

variable {direction : WdfDmaDirection} {id k : BitVec 32} {offset : BitVec 64} {e : SgElement}
  {es : List SgElement} {a2pMask lastPtr : BitVec 32} {s s' : AdmaRegs}

/-! ## The slots of the table -/

theorem nextId_toNat (id : BitVec 32) : (nextId id).toNat = (id.toNat + 1) % 128 := by
  unfold nextId admaMaxDescriptorNum
  rw [BitVec.toNat_umod, BitVec.toNat_add]
  change (id.toNat + 1) % 2 ^ 32 % 128 = _
  omega

theorem slots_eq (id : BitVec 32) (n : Nat) :
    slots id n = (List.range n).map fun i => BitVec.ofNat 32 ((id.toNat + i + 1) % 128) := by
  induction n generalizing id with
  | zero => rfl
  | succ n ih =>
    have hhead : nextId id = BitVec.ofNat 32 ((id.toNat + 0 + 1) % 128) := by
      apply BitVec.eq_of_toNat_eq
      rw [nextId_toNat, BitVec.toNat_ofNat]
      omega
    rw [slots, ih, List.range_succ_eq_map, List.map_cons, List.map_map, ← hhead]
    congr 1
    apply List.map_congr_left
    intro i _
    apply BitVec.eq_of_toNat_eq
    rw [Function.comp_apply, nextId_toNat, BitVec.toNat_ofNat, BitVec.toNat_ofNat]
    omega

@[simp] theorem slots_length (id : BitVec 32) (n : Nat) : (slots id n).length = n := by
  rw [slots_eq, List.length_map, List.length_range]

/-- The table has room for 128 descriptors. -/
theorem slots_nodup_iff (id : BitVec 32) (n : Nat) : (slots id n).Nodup ↔ n ≤ 128 := by
  rw [slots_eq, List.nodup_map_iff_inj_on List.nodup_range]
  constructor
  · intro hinj
    by_contra hn
    have hsame := hinj 0 (List.mem_range.mpr (by omega)) 128 (List.mem_range.mpr (by omega)) (by
      congr 1
      omega)
    cases hsame
  · intro hn i hi j hj hij
    have hi := List.mem_range.mp hi
    have hj := List.mem_range.mp hj
    have hval := congrArg BitVec.toNat hij
    rw [BitVec.toNat_ofNat, BitVec.toNat_ofNat] at hval
    omega

/-! ## The Arria 10 branch -/

/-- The table after the loop. -/
def arria10Table (direction : WdfDmaDirection) (deviceOffset : BitVec 64) :
    BitVec 32 → List SgElement → (BitVec 32 → AdmaDescriptor) → BitVec 32 → AdmaDescriptor
  | _, [], table => table
  | id, e :: rest, table =>
    arria10Table direction deviceOffset (nextId id) rest
      (Function.update table (nextId id) (arria10Descriptor direction (nextId id) deviceOffset e))

/-- The slot of the last element. -/
def arria10Last : BitVec 32 → List SgElement → BitVec 32
  | id, [] => id
  | id, _ :: rest => arria10Last (nextId id) rest

theorem exec_arria10Loop (s : AdmaRegs) :
    Prog.exec AdmaRegs.act (AdmaRegs.answer lastPtr) (arria10Loop direction offset id es) s =
      some (arria10Last id es,
        { s with table := arria10Table direction offset id es s.table }) := by
  induction es generalizing id s with
  | nil => rfl
  | cons e rest ih =>
    rw [arria10Loop, AdmaOp.perform, Prog.exec_perform_bind rfl rfl, ih]
    rfl

/-- The slots that are not taken keep their descriptors. -/
theorem arria10Table_of_not_mem {table : BitVec 32 → AdmaDescriptor}
    (hk : k ∉ slots id es.length) : arria10Table direction offset id es table k = table k := by
  induction es generalizing id table with
  | nil => rfl
  | cons e rest ih =>
    rw [List.length_cons, slots, List.mem_cons, not_or] at hk
    rw [arria10Table, ih hk.2, Function.update_of_ne hk.1]

/-- The number of the descriptor is above its length. -/
theorem control_and_lengthMask (id length : BitVec 32) :
    (id <<< 18 ||| length) &&& admaLengthMask = length &&& admaLengthMask := by
  rw [BitVec.or_comm]
  apply or_shiftLeft_and id.isLt
  intro i hlow _
  rw [admaLengthMask, BitVec.getLsbD_ofNat, Nat.testBit_two_pow_sub_one]
  simp [show ¬ i < 18 by omega]

theorem and_lengthMask_eq_iff (length : BitVec 32) :
    length &&& admaLengthMask = length ↔ length.toNat < 2 ^ 18 := by
  rw [← BitVec.toNat_inj, BitVec.toNat_and, admaLengthMask, BitVec.toNat_ofNat,
    Nat.mod_eq_of_lt (by decide), Nat.and_two_pow_sub_one_eq_mod]
  exact Nat.mod_eq_iff_lt (by decide)

theorem arria10Descriptor_transfer :
    (arria10Descriptor direction id offset e).transfer direction =
      ⟨e.address, offset, e.length &&& admaLengthMask⟩ := by
  cases direction with
  | writeToDevice =>
    simp [arria10Descriptor, AdmaDescriptor.transfer, AdmaDescriptor.length,
      control_and_lengthMask, lowPart_sshiftRight]
  | readFromDevice =>
    simp [arria10Descriptor, AdmaDescriptor.transfer, AdmaDescriptor.length,
      control_and_lengthMask, lowPart_sshiftRight]

/-- Read back at the slots, the table says the same about each element but for the offset. -/
theorem arria10Table_slots {table : BitVec 32 → AdmaDescriptor}
    (hnodup : (slots id es.length).Nodup) :
    (slots id es.length).map
        (fun k => (arria10Table direction offset id es table k).transfer direction) =
      es.map fun e => ⟨e.address, offset, e.length &&& admaLengthMask⟩ := by
  induction es generalizing id table with
  | nil => rfl
  | cons e rest ih =>
    rw [List.length_cons, slots, List.nodup_cons] at hnodup
    rw [List.length_cons, slots, List.map_cons, List.map_cons, arria10Table, ih hnodup.2,
      arria10Table_of_not_mem hnodup.1, Function.update_self, arria10Descriptor_transfer]

/-- A length does not wrap around the offset. -/
theorem offset_add_length_eq_iff (offset : BitVec 64) (length : BitVec 32) :
    offset + BitVec.ofNat 64 length.toNat = offset ↔ length = 0 := by
  rw [BitVec.add_right_eq_self, ← BitVec.toNat_inj, ← BitVec.toNat_inj, BitVec.toNat_ofNat,
    Nat.mod_eq_of_lt (length.isLt.trans (by decide))]
  exact Iff.rfl

/-- With one offset for all elements only the last one may have a length. -/
theorem fixedOffset_eq_planned_iff :
    (es.map fun e => (⟨e.address, offset, e.length &&& admaLengthMask⟩ : Transfer)) =
        plannedTransfers .contiguous offset es ↔
      (∀ e ∈ es, e.length.toNat < 2 ^ 18) ∧ ∀ e ∈ es.dropLast, e.length = 0 := by
  induction es with
  | nil => simp [plannedTransfers]
  | cons e rest ih =>
    rw [plannedTransfers_cons_contiguous, List.map_cons, List.cons.injEq]
    have hhead : (⟨e.address, offset, e.length &&& admaLengthMask⟩ : Transfer) =
        ⟨e.address, offset, e.length⟩ ↔ e.length.toNat < 2 ^ 18 := by
      rw [← and_lengthMask_eq_iff]
      simp
    rw [hhead, List.forall_mem_cons, and_assoc]
    apply and_congr_right
    intro _
    cases rest with
    | nil => simp [plannedTransfers]
    | cons e' rest =>
      have hdrop : (∀ x ∈ (e :: e' :: rest).dropLast, x.length = 0) ↔
          e.length = 0 ∧ ∀ x ∈ (e' :: rest).dropLast, x.length = 0 := by
        rw [List.dropLast_cons_cons]
        exact List.forall_mem_cons
      rw [hdrop]
      by_cases hzero : e.length = 0
      · rw [(offset_add_length_eq_iff ..).mpr hzero, ih, and_iff_right hzero]
      · -- the second element is already at the wrong device address
        constructor
        · intro htail
          rw [plannedTransfers_cons_contiguous, List.map_cons, List.cons.injEq] at htail
          have hoffset : offset = offset + BitVec.ofNat 64 e.length.toNat :=
            congrArg Transfer.deviceAddr htail.1
          exact absurd ((offset_add_length_eq_iff ..).mp hoffset.symm) hzero
        · exact fun h => absurd h.2.1 hzero

/-! ## The Cyclone branch -/

/-- What the loop commits. -/
def cyclone4Descriptors (a2pMask : BitVec 32) (direction : WdfDmaDirection) :
    BitVec 64 → List SgElement → List ModularSgdmaDescriptor
  | _, [] => []
  | deviceOffset, e :: rest =>
    cyclone4Descriptor a2pMask direction deviceOffset e ::
      cyclone4Descriptors a2pMask direction (deviceOffset + e.length.setWidth 64) rest

/-- A descriptor with the GO bit is committed as it was written. -/
theorem exec_writePort {descriptor : ModularSgdmaDescriptor}
    (hgo : ¬ descriptor.control &&& descriptorControlGoMask = 0) (s : AdmaRegs) :
    Prog.exec AdmaRegs.act (AdmaRegs.answer lastPtr) (writePort descriptor) s =
      some ((), { s with port := descriptor, committed := s.committed ++ [descriptor] }) := by
  simp only [writePort, AdmaOp.perform]
  rw [Prog.exec_perform_bind rfl rfl, Prog.exec_perform_bind rfl rfl,
    Prog.exec_perform_bind rfl rfl, Prog.perform, Prog.exec_call]
  simp only [AdmaRegs.act, AdmaRegs.commit, if_neg hgo]
  rfl

theorem cyclone4Descriptor_go :
    ¬ (cyclone4Descriptor a2pMask direction offset e).control &&& descriptorControlGoMask = 0 := by
  change ¬ (descriptorControlTransferCompleteIrqMask ||| descriptorControlGoMask) &&&
    descriptorControlGoMask = 0
  decide

/-- The port holds the last descriptor in the end. -/
theorem exec_cyclone4Loop (s : AdmaRegs) :
    Prog.exec AdmaRegs.act (AdmaRegs.answer lastPtr)
        (cyclone4Loop a2pMask direction offset es) s =
      some ((), { s with
        port := (cyclone4Descriptors a2pMask direction offset es).getLastD s.port
        committed := s.committed ++ cyclone4Descriptors a2pMask direction offset es }) := by
  induction es generalizing offset s with
  | nil =>
    rw [cyclone4Descriptors, List.append_nil]
    rfl
  | cons e rest ih =>
    rw [cyclone4Loop, Prog.exec_bind, exec_writePort cyclone4Descriptor_go, Option.bind_some, ih,
      cyclone4Descriptors, List.getLastD_cons, List.append_assoc]
    rfl

/-! ## The whole call -/

/-- The call of the Arria 10 build writes the table. -/
theorem program_arria10 (a2pMask lastPtr : BitVec 32) (call : ProgramCall) (s : AdmaRegs) :
    AdmaRegs.program .arria10 a2pMask lastPtr call s = some { s with
      a2pAddrLo0 := call.sgList.a2pAddrLo0 a2pMask
      a2pAddrHi0 := call.sgList.a2pAddrHi0
      dmaLastPtr := arria10Last lastPtr call.sgList.elements
      table := arria10Table call.direction call.deviceOffset lastPtr call.sgList.elements
        s.table } := by
  unfold AdmaRegs.program admaEngineProgramDma
  simp only [AdmaOp.perform]
  rw [Prog.exec_perform_bind rfl rfl, Prog.exec_perform_bind rfl rfl,
    Prog.exec_perform_bind rfl rfl, Prog.exec_bind]
  simp only [AdmaRegs.answer]
  rw [exec_arria10Loop, Option.bind_some, Prog.exec_perform_bind rfl rfl]
  rfl

/-- The call of the Cyclone build programs the translation entry and commits the descriptors. -/
theorem program_cyclone4 (a2pMask lastPtr : BitVec 32) (call : ProgramCall) (s : AdmaRegs) :
    AdmaRegs.program .cyclone4 a2pMask lastPtr call s = some { s with
      a2pAddrLo0 := call.sgList.a2pAddrLo0 a2pMask
      a2pAddrHi0 := call.sgList.a2pAddrHi0
      status := 0
      port := (cyclone4Descriptors a2pMask call.direction call.deviceOffset
        call.sgList.elements).getLastD s.port
      committed := s.committed ++
        cyclone4Descriptors a2pMask call.direction call.deviceOffset call.sgList.elements } := by
  unfold AdmaRegs.program admaEngineProgramDma
  simp only [AdmaOp.perform]
  rw [Prog.exec_perform_bind rfl rfl, Prog.exec_perform_bind rfl rfl,
    Prog.exec_perform_bind rfl rfl, Prog.exec_bind, exec_cyclone4Loop, Option.bind_some]
  rfl

/-! ## Coverage of the request -/

/-- The device address that the fragment begins at. -/
def AdmaRequestFragment.start (f : AdmaRequestFragment) : BitVec 64 :=
  f.deviceOffset + BitVec.ofNat 64 f.bytesTransferred

/-- The slots that a list takes. -/
def SgList.slots (sgList : SgList) (lastPtr : BitVec 32) : List (BitVec 32) :=
  Xadma.slots lastPtr sgList.elements.length

def ProgramCall.slots (call : ProgramCall) (lastPtr : BitVec 32) : List (BitVec 32) :=
  call.sgList.slots lastPtr

/-- Every element has a descriptor of its own, and executed in slot order these move the elements
to or from the device memory from the start of the fragment on. -/
structure Covers (lastPtr : BitVec 32) (f : AdmaRequestFragment) (s' : AdmaRegs) : Prop where
  own : (f.sgList.slots lastPtr).Nodup
  moves : (f.sgList.slots lastPtr).map (fun id => (s'.table id).transfer f.direction) =
    plannedTransfers .contiguous f.start f.sgList.elements

/-- The device addresses, cut to 32 bits, and the lengths are those that the Cyclone branch commits
in `t'`. -/
def SameDeviceSide (lastPtr : BitVec 32) (f : AdmaRequestFragment) (s s' t' : AdmaRegs) : Prop :=
  (f.sgList.slots lastPtr).map (fun id =>
      let transfer := (s'.table id).transfer f.direction
      (lowPart transfer.deviceAddr, transfer.length)) =
    (t'.committed.drop s.committed.length).map fun descriptor =>
      (descriptor.deviceAddress f.direction, descriptor.transferLength)

/-- The list fits into the table, its lengths into the control words, and only the last element has
a length. -/
def OneLength (es : List SgElement) : Prop :=
  es.length ≤ 128 ∧ (∀ e ∈ es, e.length.toNat < 2 ^ 18) ∧ ∀ e ∈ es.dropLast, e.length = 0

/-- The first element is programmed at `offset`. -/
theorem fixedOffset_eq_planned {offset' : BitVec 64} (hes : es ≠ [])
    (h : (es.map fun e => (⟨e.address, offset, e.length &&& admaLengthMask⟩ : Transfer)) =
      plannedTransfers .contiguous offset' es) : offset = offset' := by
  obtain ⟨e, rest, rfl⟩ := List.exists_cons_of_ne_nil hes
  rw [plannedTransfers_cons_contiguous, List.map_cons, List.cons.injEq] at h
  exact congrArg Transfer.deviceAddr h.1

variable {w : PointerWidth} {f : AdmaRequestFragment}

theorem startOffset_eq_iff :
    (f.call w).deviceOffset = f.start ↔ w = .w64 ∨ f.deviceOffset.toNat < 2 ^ 32 :=
  (BitVec.add_left_inj _).trans sizeT_eq_iff

theorem covers_iff (hprogram : AdmaRegs.program .arria10 a2pMask lastPtr (f.call w) s = some s') :
    Covers lastPtr f s' ↔
      (w = .w64 ∨ f.deviceOffset.toNat < 2 ^ 32) ∧ OneLength f.sgList.elements := by
  rw [program_arria10] at hprogram
  cases hprogram
  have hnodup := slots_nodup_iff lastPtr f.sgList.elements.length
  rw [← startOffset_eq_iff]
  constructor
  · intro h
    have hmoves : _ = plannedTransfers .contiguous f.start f.sgList.elements :=
      (arria10Table_slots h.own).symm.trans h.moves
    have hstart := fixedOffset_eq_planned f.sgList.nonempty hmoves
    rw [← hstart] at hmoves
    exact ⟨hstart, hnodup.mp h.own, fixedOffset_eq_planned_iff.mp hmoves⟩
  · rintro ⟨hstart, h⟩
    have hown := hnodup.mpr h.1
    refine ⟨hown, (arria10Table_slots hown).trans ?_⟩
    rw [← hstart]
    exact fixedOffset_eq_planned_iff.mpr h.2

theorem cyclone4Descriptors_deviceSide :
    (cyclone4Descriptors a2pMask direction offset es).map
        (fun d => (d.deviceAddress direction, d.transferLength)) =
      (plannedTransfers .contiguous offset es).map fun t => (lowPart t.deviceAddr, t.length) := by
  induction es generalizing offset with
  | nil => rfl
  | cons e rest ih =>
    have hdevice : (cyclone4Descriptor a2pMask direction offset e).deviceAddress direction =
        lowPart offset := by
      cases direction with
      | writeToDevice | readFromDevice =>
        simp [cyclone4Descriptor, ModularSgdmaDescriptor.deviceAddress]
    rw [plannedTransfers_cons_contiguous, cyclone4Descriptors, List.map_cons, List.map_cons,
      hdevice, ih, BitVec.ofNat_toNat]
    rfl

/-- The branches agree on the device side of what covers the request. -/
theorem Covers.sameDeviceSide {t' : AdmaRegs} (h : Covers lastPtr f s')
    (hstart : (f.call w).deviceOffset = f.start)
    (hcyclone : AdmaRegs.program .cyclone4 a2pMask lastPtr (f.call w) s = some t') :
    SameDeviceSide lastPtr f s s' t' := by
  rw [program_cyclone4] at hcyclone
  cases hcyclone
  have hcommitted : (cyclone4Descriptors a2pMask f.direction f.start f.sgList.elements).map
      (fun d => (d.deviceAddress f.direction, d.transferLength)) =
    (plannedTransfers .contiguous f.start f.sgList.elements).map
      fun t => (lowPart t.deviceAddr, t.length) := cyclone4Descriptors_deviceSide
  rw [← h.moves, List.map_map] at hcommitted
  unfold SameDeviceSide
  rw [List.drop_left, hstart]
  exact hcommitted.symm

theorem arria10_covers_iff (w : PointerWidth) (a2pMask lastPtr : BitVec 32)
    (f : AdmaRequestFragment) (s : AdmaRegs) :
    ∃ s' t', AdmaRegs.program .arria10 a2pMask lastPtr (f.call w) s = some s' ∧
      AdmaRegs.program .cyclone4 a2pMask lastPtr (f.call w) s = some t' ∧
      (Covers lastPtr f s' ∧ SameDeviceSide lastPtr f s s' t' ↔
        (w = .w64 ∨ f.deviceOffset.toNat < 2 ^ 32) ∧ OneLength f.sgList.elements) := by
  refine ⟨_, _, program_arria10 .., program_cyclone4 .., ?_⟩
  have hcovers := covers_iff (f := f) (program_arria10 a2pMask lastPtr (f.call w) s)
  rw [← hcovers]
  refine ⟨And.left, fun h => ⟨h, ?_⟩⟩
  exact h.sameDeviceSide (startOffset_eq_iff.mpr (hcovers.mp h).1) (program_cyclone4 ..)

/-- A request of two pages that are not next to each other in host memory. -/
def twoPages : AdmaRequestFragment :=
  ⟨.writeToDevice, 0, 0, ⟨[⟨0x10000, 0x1000⟩, ⟨0x30000, 0x1000⟩], by simp⟩⟩

/-- The registers and the table before the first call. -/
def resetRegs : AdmaRegs := ⟨0, 0, 0xFF, fun _ => ⟨0, 0, 0, 0, 0⟩, 0, ⟨0, 0, 0, 0⟩, []⟩

/-- Both elements are programmed at the offset of the first. -/
theorem twoPages_not_covers :
    ∃ s' t', AdmaRegs.program .arria10 0 0xFF (twoPages.call .w64) resetRegs = some s' ∧
      AdmaRegs.program .cyclone4 0 0xFF (twoPages.call .w64) resetRegs = some t' ∧
      ¬ (Covers 0xFF twoPages s' ∧ SameDeviceSide 0xFF twoPages resetRegs s' t') := by
  refine ⟨_, _, program_arria10 .., program_cyclone4 .., fun h => ?_⟩
  obtain ⟨-, -, -, hzero⟩ := (covers_iff (program_arria10 ..)).mp h.1
  exact absurd (hzero _ (List.mem_cons_self ..)) (by decide)

/-! ## The translation entry -/

variable {mask : A2pMask}

/-- The host side of a descriptor stands for its element, all of which is in the window. -/
structure Translates (mask : A2pMask) (direction : WdfDmaDirection) (s' : AdmaRegs)
    (descriptor : ModularSgdmaDescriptor) (e : SgElement) : Prop where
  address : s'.translate mask (descriptor.hostAddress direction) = e.address
  window : mask.InWindow (descriptor.hostAddress direction) e.length

/-- The element is in the window of `first`. -/
structure SameWindow (mask : A2pMask) (first e : SgElement) : Prop where
  high : highPart e.address = highPart first.address
  low : lowPart e.address &&& mask.word = lowPart first.address &&& mask.word
  window : mask.InWindow (lowPart e.address) e.length

/-- The bit that enables the entry is below the mask. -/
theorem a2pAddrLo0_and_mask (sgList : SgList) :
    sgList.a2pAddrLo0 mask.word &&& mask.word = lowPart sgList.first.address &&& mask.word := by
  have hbit : 0x1#32 &&& mask.word = 0 := by
    apply BitVec.eq_of_getLsbD_eq
    intro i _
    have htwo := mask.two_le_bit
    rw [BitVec.getLsbD_and, A2pMask.word, BitVec.getLsbD_shiftLeft, BitVec.getLsbD_one]
    by_cases hi : i = 0
    · simp [hi, show 0 < mask.bit by omega]
    · simp [hi]
  rw [SgList.a2pAddrLo0, BitVec.and_or_distrib_right, BitVec.and_assoc, BitVec.and_self]
  exact (congrArg _ hbit).trans BitVec.or_zero

/-- Only the bits below the mask are taken from the descriptor, and both directions leave them as
they are in the element. -/
theorem hostAddress_and_not_mask :
    (cyclone4Descriptor mask.word direction offset e).hostAddress direction &&& ~~~ mask.word =
      lowPart e.address &&& ~~~ mask.word := by
  cases direction with
  | writeToDevice => rfl
  | readFromDevice =>
    show (lowPart e.address &&& ~~~ mask.word) &&& ~~~ mask.word = _
    rw [BitVec.and_assoc, BitVec.and_self]

/-- A word whose part below the mask is replaced is the same if and only if the part above is. -/
theorem or_not_mask_eq_iff (x y m : BitVec 32) :
    x &&& m ||| y &&& ~~~ m = y ↔ x &&& m = y &&& m := by
  have hsplit : y &&& m ||| y &&& ~~~ m = y := by
    rw [← BitVec.and_or_distrib_left, BitVec.or_not_self]
    exact BitVec.and_allOnes
  constructor
  · intro h
    have hclear : y &&& ~~~ m &&& m = 0 := by
      rw [BitVec.and_assoc, BitVec.and_comm (~~~ m), BitVec.and_not_self]
      exact BitVec.and_zero
    have hmasked := congrArg (· &&& m) h
    simp only [BitVec.and_or_distrib_right, hclear, BitVec.and_assoc, BitVec.and_self] at hmasked
    exact BitVec.or_zero.symm.trans hmasked
  · intro h
    rw [h, hsplit]

theorem translates_iff {sgList : SgList} (hlo : s'.a2pAddrLo0 = sgList.a2pAddrLo0 mask.word)
    (hhi : s'.a2pAddrHi0 = sgList.a2pAddrHi0) :
    Translates mask direction s' (cyclone4Descriptor mask.word direction offset e) e ↔
      SameWindow mask sgList.first e := by
  have haddress : s'.translate mask
        ((cyclone4Descriptor mask.word direction offset e).hostAddress direction) = e.address ↔
      highPart e.address = highPart sgList.first.address ∧
        lowPart e.address &&& mask.word = lowPart sgList.first.address &&& mask.word := by
    rw [AdmaRegs.translate, hlo, hhi, a2pAddrLo0_and_mask, hostAddress_and_not_mask, append_eq_iff,
      or_not_mask_eq_iff]
    exact and_congr eq_comm eq_comm
  have hwindow : mask.InWindow
        ((cyclone4Descriptor mask.word direction offset e).hostAddress direction) e.length ↔
      mask.InWindow (lowPart e.address) e.length := by
    rw [A2pMask.InWindow, A2pMask.InWindow, hostAddress_and_not_mask]
  constructor
  · intro h
    obtain ⟨hhigh, hlow⟩ := haddress.mp h.address
    exact ⟨hhigh, hlow, hwindow.mp h.window⟩
  · intro h
    exact ⟨haddress.mpr ⟨h.high, h.low⟩, hwindow.mpr h.window⟩

/-- What the descriptors of a list have to do with its elements, element by element. -/
theorem forall₂_cyclone4Descriptors {R : ModularSgdmaDescriptor → SgElement → Prop}
    {P : SgElement → Prop}
    (h : ∀ offset e, R (cyclone4Descriptor a2pMask direction offset e) e ↔ P e) :
    List.Forall₂ R (cyclone4Descriptors a2pMask direction offset es) es ↔ ∀ e ∈ es, P e := by
  induction es generalizing offset with
  | nil => simp [cyclone4Descriptors]
  | cons e rest ih => rw [cyclone4Descriptors, List.forall₂_cons, h, ih, List.forall_mem_cons]

theorem cyclone4_translates_iff (mask : A2pMask) (lastPtr : BitVec 32) (call : ProgramCall)
    (s : AdmaRegs) :
    ∃ s', AdmaRegs.program .cyclone4 mask.word lastPtr call s = some s' ∧
      (List.Forall₂ (Translates mask call.direction s') (s'.committed.drop s.committed.length)
          call.sgList.elements ↔
        ∀ e ∈ call.sgList.elements, SameWindow mask call.sgList.first e) := by
  refine ⟨_, program_cyclone4 .., ?_⟩
  rw [List.drop_left]
  exact forall₂_cyclone4Descriptors fun offset e => translates_iff rfl rfl

/-- A device with windows of 1 MB. -/
def megabyteMask : A2pMask := ⟨20, by decide, by decide⟩

/-- A request of two pages in different windows. -/
def twoWindows : ProgramCall :=
  ⟨.writeToDevice, 0, ⟨[⟨0x10000, 0x1000⟩, ⟨0x200000, 0x1000⟩], by simp⟩⟩

/-- The second page is looked for in the window of the first. -/
theorem twoWindows_not_translates :
    ∃ s', AdmaRegs.program .cyclone4 megabyteMask.word 0 twoWindows resetRegs = some s' ∧
      ¬ List.Forall₂ (Translates megabyteMask .writeToDevice s') s'.committed
        twoWindows.sgList.elements := by
  refine ⟨_, program_cyclone4 .., fun h => ?_⟩
  have hsame := (forall₂_cyclone4Descriptors fun offset e => translates_iff rfl rfl).mp h
  exact absurd (hsame ⟨0x200000, 0x1000⟩ (by decide)).low (by decide)

end Xadma
