import Xadma.Avsadma.HardwareSimulation
import Xadma.Verify.AdmaProgram

/-!
# The descriptors of a pass over the queued clones

The slots of a clone begin behind the last pointer as the device gives it, so those of a pass follow
on each other only where the device gives back what the pass wrote. The device address begins anew
with each clone.
-/

namespace Xadma

namespace Capture

variable {id offset : BitVec 32} {ms : List KsMapping} {mss : List (List KsMapping)} {k n : Nat}
  {counts : List Nat} {lastPtr : Nat → BitVec 32} {d : Sgdma}

/-! ## Slots -/

/-- The slot of the last of `n` descriptors behind `id`. -/
def lastSlot : BitVec 32 → Nat → BitVec 32
  | id, 0 => id
  | id, n + 1 => lastSlot (nextId id) n

theorem slots_append (id : BitVec 32) (m n : Nat) :
    slots id (m + n) = slots id m ++ slots (lastSlot id m) n := by
  induction m generalizing id with
  | zero => simp [slots, lastSlot]
  | succ m ih =>
    rw [Nat.succ_add, slots, ih]
    rfl

theorem lastSlot_add (id : BitVec 32) (m n : Nat) :
    lastSlot id (m + n) = lastSlot (lastSlot id m) n := by
  induction m generalizing id with
  | zero => simp [lastSlot]
  | succ m ih =>
    rw [Nat.succ_add, lastSlot, ih]
    rfl

theorem slots_getLast? (id : BitVec 32) (n : Nat) :
    (slots id (n + 1)).getLast? = some (lastSlot id (n + 1)) := by
  induction n generalizing id with
  | zero => rfl
  | succ n ih =>
    rw [slots, slots, List.getLast?_cons_cons, ← slots, ih]
    rfl

/-- Two last pointers that stand for the same slot. -/
theorem slots_append_eq_iff {id' : BitVec 32} {is is' : List (BitVec 32)} :
    slots id (n + 1) ++ is = slots id' (n + 1) ++ is' ↔ nextId id = nextId id' ∧ is = is' := by
  constructor
  · intro h
    obtain ⟨hslots, his⟩ := List.append_inj h (by rw [slots_length, slots_length])
    rw [slots, slots, List.cons.injEq] at hslots
    exact ⟨hslots.1, his⟩
  · rintro ⟨hid, rfl⟩
    rw [slots, slots, hid]

/-- The slots of a pass, from the `k`-th clone on. -/
def passSlots (lastPtr : Nat → BitVec 32) : Nat → List Nat → List (BitVec 32)
  | _, [] => []
  | k, n :: counts => slots (lastPtr k) n ++ passSlots lastPtr (k + 1) counts

/-- What the last pointer is written with in the end. -/
def finalPtr (lastPtr : Nat → BitVec 32) : BitVec 32 → Nat → List Nat → BitVec 32
  | ptr, _, [] => ptr
  | _, k, n :: counts => finalPtr lastPtr (lastSlot (lastPtr k) n) (k + 1) counts

/-- The device gives back the slot `id` that was used last, at least up to the number of slots where
descriptors follow. -/
def ReadsBack (lastPtr : Nat → BitVec 32) : BitVec 32 → Nat → List Nat → Prop
  | _, _, [] => True
  | id, k, 0 :: counts =>
    if counts = [] then lastPtr k = id else ReadsBack lastPtr id (k + 1) counts
  | id, k, (n + 1) :: counts =>
    nextId (lastPtr k) = nextId id ∧ ReadsBack lastPtr (lastSlot id (n + 1)) (k + 1) counts

/-- So it does behind the first clone with mappings. -/
def ReadsBackFrom (lastPtr : Nat → BitVec 32) : Nat → List Nat → Prop
  | _, [] => True
  | k, 0 :: counts => ReadsBackFrom lastPtr (k + 1) counts
  | k, (n + 1) :: counts => ReadsBack lastPtr (lastSlot (lastPtr k) (n + 1)) (k + 1) counts

@[simp] theorem passSlots_length (lastPtr : Nat → BitVec 32) (k : Nat) (counts : List Nat) :
    (passSlots lastPtr k counts).length = counts.sum := by
  induction counts generalizing k with
  | nil => rfl
  | cons n counts ih => rw [passSlots, List.length_append, slots_length, ih, List.sum_cons]

theorem finalPtr_of_ne_nil (h : counts ≠ []) (ptr ptr' : BitVec 32) :
    finalPtr lastPtr ptr k counts = finalPtr lastPtr ptr' k counts := by
  cases counts with
  | nil => exact absurd rfl h
  | cons n counts => rfl

theorem lastSlot_congr {id' : BitVec 32} (h : nextId id = nextId id') (n : Nat) :
    lastSlot id (n + 1) = lastSlot id' (n + 1) := by
  rw [lastSlot, lastSlot, h]

theorem readsBack_iff : ReadsBack lastPtr id k counts ↔
    passSlots lastPtr k counts = slots id counts.sum ∧
      finalPtr lastPtr id k counts = lastSlot id counts.sum := by
  induction counts generalizing id k with
  | nil => simp [ReadsBack, passSlots, finalPtr, slots, lastSlot]
  | cons n counts ih =>
    cases n with
    | zero =>
      rw [ReadsBack]
      split
      · next hnil =>
        subst hnil
        simp [passSlots, finalPtr, slots, lastSlot]
      · next hne =>
        rw [ih, List.sum_cons, Nat.zero_add, finalPtr, passSlots,
          finalPtr_of_ne_nil hne _ (lastSlot (lastPtr k) 0)]
        rfl
    | succ n =>
      rw [ReadsBack, ih, List.sum_cons, passSlots, slots_append id (n + 1),
        lastSlot_add id (n + 1), finalPtr, slots_append_eq_iff, and_assoc]
      apply and_congr_right
      intro hid
      rw [lastSlot_congr hid]

/-- The slots follow on each other, and the last pointer names the last of them. -/
theorem readsBackFrom_iff (ptr : BitVec 32) : ReadsBackFrom lastPtr k counts ↔
    (∃ id, passSlots lastPtr k counts = slots id counts.sum) ∧
      ∀ id ∈ (passSlots lastPtr k counts).getLast?, finalPtr lastPtr ptr k counts = id := by
  induction counts generalizing k ptr with
  | nil => simp [ReadsBackFrom, passSlots, slots]
  | cons n counts ih =>
    cases n with
    | zero =>
      rw [ReadsBackFrom, ih (lastSlot (lastPtr k) 0), List.sum_cons, Nat.zero_add]
      rfl
    | succ n =>
      have hlast (id : BitVec 32) (m : Nat) :
          (slots id (n + 1 + m)).getLast? = some (lastSlot id (n + 1 + m)) := by
        rw [Nat.add_right_comm]
        exact slots_getLast? id (n + m)
      rw [ReadsBackFrom, readsBack_iff, List.sum_cons, passSlots, finalPtr]
      constructor
      · rintro ⟨hslots, hfinal⟩
        rw [hslots, hfinal, ← slots_append, ← lastSlot_add]
        refine ⟨⟨_, rfl⟩, fun id hid => ?_⟩
        rw [hlast] at hid
        exact Option.some.inj hid
      · rintro ⟨⟨id, hslots⟩, hfinal⟩
        rw [slots_append id (n + 1)] at hslots
        obtain ⟨hid, hrest⟩ := slots_append_eq_iff.mp hslots
        rw [← lastSlot_congr hid] at hrest
        rw [hrest, ← slots_append] at hfinal
        rw [← lastSlot_add]
        exact ⟨hrest, hfinal _ (hlast ..)⟩

/-! ## The table -/

/-- The table behind the descriptors of a clone. -/
def captureTable : (id offset : BitVec 32) → List KsMapping → (BitVec 32 → AdmaDescriptor) →
    BitVec 32 → AdmaDescriptor
  | _, _, [], table => table
  | id, offset, mapping :: rest, table =>
    captureTable (nextId id) (offset + mapping.byteCount) rest
      (Function.update table (nextId id) (captureDescriptor (nextId id) offset mapping))

/-- What these stand for. -/
def captured : (offset : BitVec 32) → List KsMapping → List Transfer
  | _, [] => []
  | offset, mapping :: rest =>
    ⟨lowPart mapping.physicalAddress ++ lowPart mapping.physicalAddress, 0#32 ++ offset,
      mapping.byteCount &&& admaLengthMask⟩ :: captured (offset + mapping.byteCount) rest

theorem captureTable_of_not_mem {table : BitVec 32 → AdmaDescriptor} {slot : BitVec 32}
    (h : slot ∉ slots id ms.length) : captureTable id offset ms table slot = table slot := by
  induction ms generalizing id offset table with
  | nil => rfl
  | cons mapping rest ih =>
    rw [List.length_cons, slots, List.mem_cons, not_or] at h
    rw [captureTable, ih h.2, Function.update_of_ne h.1]

theorem captureTable_slots (offset : BitVec 32) (table : BitVec 32 → AdmaDescriptor)
    (hnodup : (slots id ms.length).Nodup) :
    (slots id ms.length).map
        (fun slot => (captureTable id offset ms table slot).transfer .readFromDevice) =
      captured offset ms := by
  induction ms generalizing id offset table with
  | nil => rfl
  | cons mapping rest ih =>
    have htransfer (id : BitVec 32) :
        (captureDescriptor id offset mapping).transfer .readFromDevice =
          ⟨lowPart mapping.physicalAddress ++ lowPart mapping.physicalAddress, 0#32 ++ offset,
            mapping.byteCount &&& admaLengthMask⟩ := by
      simp [captureDescriptor, AdmaDescriptor.transfer, AdmaDescriptor.length,
        control_and_lengthMask]
    rw [List.length_cons, slots, List.nodup_cons] at hnodup
    rw [List.length_cons, slots, List.map_cons, captureTable, ih _ _ hnodup.2,
      captureTable_of_not_mem hnodup.1, Function.update_self, htransfer, captured]

/-! ## The pass -/

namespace Sgdma

/-- A clone is programmed. -/
def program (d : Sgdma) (ms : List KsMapping) : Sgdma :=
  { d with
    reads := d.reads + 1
    descriptor := captureTable (d.lastPtr d.reads) d.frameStartAddr ms d.descriptor
    written := d.written ++ slots (d.lastPtr d.reads) ms.length
    dmaLastPtr := lastSlot (d.lastPtr d.reads) ms.length }

theorem exec_writeMappings (d : Sgdma) :
    Prog.exec act answer (writeMappings id offset ms) d =
      some (lastSlot id ms.length,
        { d with
          descriptor := captureTable id offset ms d.descriptor
          written := d.written ++ slots id ms.length }) := by
  induction ms generalizing id offset d with
  | nil => simp [writeMappings, captureTable, slots, lastSlot]
  | cons mapping rest ih =>
    rw [writeMappings, SgdmaOp.perform, Prog.exec_perform_bind rfl rfl, ih, List.length_cons,
      slots, List.append_cons]
    rfl

theorem exec_programEntry (d : Sgdma) :
    Prog.exec act answer (programEntry ms) d = some ((), d.program ms) := by
  simp only [programEntry, SgdmaOp.perform]
  rw [Prog.exec_perform_bind rfl rfl, Prog.exec_perform_bind rfl rfl, Prog.exec_bind,
    exec_writeMappings]
  rfl

/-- All the clones of a queue are programmed. -/
def programAll (d : Sgdma) (mss : List (List KsMapping)) : Sgdma := mss.foldl program d

theorem programAll_eq (d : Sgdma) (mss : List (List KsMapping)) :
    (d.programAll mss).written =
        d.written ++ passSlots d.lastPtr d.reads (mss.map List.length) ∧
      (d.programAll mss).dmaLastPtr =
        finalPtr d.lastPtr d.dmaLastPtr d.reads (mss.map List.length) := by
  induction mss generalizing d with
  | nil => simp [programAll, passSlots, finalPtr]
  | cons ms mss ih =>
    obtain ⟨hwritten, hptr⟩ := ih (d.program ms)
    rw [programAll, List.foldl_cons, ← programAll, hwritten, hptr]
    simp [program, passSlots, finalPtr]

theorem programAll_of_not_mem {slot : BitVec 32}
    (h : slot ∉ passSlots d.lastPtr d.reads (mss.map List.length)) :
    (d.programAll mss).descriptor slot = d.descriptor slot := by
  induction mss generalizing d with
  | nil => rfl
  | cons ms mss ih =>
    rw [List.map_cons, passSlots, List.mem_append, not_or] at h
    rw [programAll, List.foldl_cons, ← programAll, ih h.2]
    exact captureTable_of_not_mem h.1

theorem programAll_slots (d : Sgdma) (mss : List (List KsMapping))
    (hnodup : (passSlots d.lastPtr d.reads (mss.map List.length)).Nodup) :
    (passSlots d.lastPtr d.reads (mss.map List.length)).map
        (fun slot => ((d.programAll mss).descriptor slot).transfer .readFromDevice) =
      mss.flatMap (captured d.frameStartAddr) := by
  induction mss generalizing d with
  | nil => rfl
  | cons ms mss ih =>
    rw [List.map_cons, passSlots, List.nodup_append'] at hnodup
    obtain ⟨hms, hrest, hdisjoint⟩ := hnodup
    rw [List.map_cons, passSlots, List.map_append, List.flatMap_cons, programAll,
      List.foldl_cons, ← programAll]
    congr 1
    · rw [← captureTable_slots d.frameStartAddr d.descriptor hms]
      apply List.map_congr_left
      intro slot hslot
      rw [programAll_of_not_mem (hdisjoint hslot)]
      rfl
    · exact ih (d.program ms) hrest

end Sgdma

/-- What a pass leaves of the object when all the queued entries are on the list. -/
def HardwareSimulation.filled (s : HardwareSimulation) : HardwareSimulation :=
  { s with
    scatterGatherMappings := []
    scatterGatherMappingsQueued := 0
    numMappingsCompleted :=
      s.numMappingsCompleted + BitVec.ofNat 32 s.scatterGatherMappings.length
    scatterGatherBytesQueued :=
      s.scatterGatherBytesQueued - (s.scatterGatherMappings.map SgEntry.byteCount).sum
    lookaside :=
      s.lookaside ++ s.scatterGatherMappings.map fun e => .block (.release e.block) }

variable {s : HardwareSimulation} {mappings : Nat → Nat → KsMapping}

/-- The counter goes up with the list. -/
theorem queued_program (h : s.scatterGatherMappingsQueued.toNat = s.scatterGatherMappings.length)
    {block : Nat} (hallocated : s.mayAllocate (some block) = true) (clone : Nat)
    (buffer : BitVec 64) (mappings : Nat → KsMapping) (mappingsCount : BitVec 32) :
    let s' := (s.programScatterGatherMappings (some block) clone buffer mappings mappingsCount).1
    s'.scatterGatherMappingsQueued.toNat = s'.scatterGatherMappings.length := by
  have hroom : s.scatterGatherMappings.length + 1 < 2 ^ 32 := by
    simpa [HardwareSimulation.mayAllocate] using hallocated
  have hnext : (s.scatterGatherMappingsQueued + 1).toNat = s.scatterGatherMappings.length + 1 := by
    rw [BitVec.toNat_add_of_lt, h]
    · rfl
    · rw [h]
      exact hroom
  simp only [HardwareSimulation.programScatterGatherMappings, List.length_append,
    List.length_singleton]
  exact hnext

/-- The counter behind the removal of an entry. -/
theorem toNat_left {queued : BitVec 32} {left : Nat} (h : queued.toNat = left + 1) :
    (BitVec.ofNat 32 left).toNat = left := by
  have hlt := queued.isLt
  rw [BitVec.toNat_ofNat, Nat.mod_eq_of_lt (by omega)]

theorem exec_fillLoop (d : Sgdma)
    (h : s.scatterGatherMappingsQueued.toNat = s.scatterGatherMappings.length) :
    Prog.exec Sgdma.act Sgdma.answer
        (HardwareSimulation.fillLoop mappings s.scatterGatherMappingsQueued.toNat s) d =
      some (s.filled, d.programAll (s.scatterGatherMappings.map (SgEntry.ksMapping mappings))) := by
  obtain ⟨entries, hentries⟩ : ∃ entries, s.scatterGatherMappings = entries := ⟨_, rfl⟩
  induction entries generalizing s d with
  | nil =>
    rw [hentries, List.length_nil] at h
    have hqueued : s.scatterGatherMappingsQueued = 0 := BitVec.eq_of_toNat_eq h
    cases s
    cases hentries
    cases hqueued
    simp [HardwareSimulation.fillLoop, HardwareSimulation.filled, Sgdma.programAll]
  | cons entry rest ih =>
    rw [hentries, List.length_cons] at h
    have hleft := toNat_left h
    rw [h, HardwareSimulation.fillLoop, hentries]
    simp only
    rw [Prog.exec_bind, Sgdma.exec_programEntry, Option.bind_some]
    let s' : HardwareSimulation := { s with
      scatterGatherMappings := rest
      scatterGatherMappingsQueued := BitVec.ofNat 32 rest.length }
    have hrest := ih (s := s'.completeEntry entry) (d.program (entry.ksMapping mappings)) hleft rfl
    rw [show (s'.completeEntry entry).scatterGatherMappingsQueued.toNat = rest.length from hleft]
      at hrest
    refine hrest.trans ?_
    simp [s', HardwareSimulation.filled, HardwareSimulation.completeEntry,
      HardwareSimulation.freeEntry, hentries, Sgdma.programAll]
    constructor
    · bv_omega
    · rw [BitVec.add_assoc, BitVec.add_comm 1#32, ← BitVec.ofNat_add]

/-- The status depends on the size of the image alone. -/
def HardwareSimulation.fillStatus (s : HardwareSimulation) : NtStatus :=
  if s.imageSize ≠ 0 then statusInsufficientResources else statusSuccess

theorem exec_fillScatterGatherBuffers (d : Sgdma)
    (h : s.scatterGatherMappingsQueued.toNat = s.scatterGatherMappings.length) :
    Prog.exec Sgdma.act Sgdma.answer (s.fillScatterGatherBuffers mappings) d =
      some ((s.filled, s.fillStatus),
        d.programAll (s.scatterGatherMappings.map (SgEntry.ksMapping mappings))) := by
  rw [HardwareSimulation.fillScatterGatherBuffers, Prog.exec_bind, exec_fillLoop d h]
  rfl

/-! ## What the clones need -/

def KsMapping.element (mapping : KsMapping) : SgElement :=
  ⟨mapping.physicalAddress, mapping.byteCount⟩

/-- The transfers of a clone: its mappings in order, at device addresses from the frame start on. -/
def planned (frameStartAddr : BitVec 32) (ms : List KsMapping) : List Transfer :=
  plannedTransfers .contiguous (frameStartAddr.setWidth 64) (ms.map KsMapping.element)

/-- What the descriptors can say about the mappings of a clone. -/
structure Fits (frameStartAddr : BitVec 32) (ms : List KsMapping) : Prop where
  address : ∀ m ∈ ms, highPart m.physicalAddress = lowPart m.physicalAddress
  byteCount : ∀ m ∈ ms, m.byteCount.toNat < 2 ^ 18
  device : frameStartAddr.toNat + (ms.dropLast.map fun m => m.byteCount.toNat).sum < 2 ^ 32

theorem setWidth_add_eq_iff (offset length : BitVec 32) :
    (offset + length).setWidth 64 = offset.setWidth 64 + BitVec.ofNat 64 length.toNat ↔
      offset.toNat + length.toNat < 2 ^ 32 := by
  bv_omega

theorem captured_head_eq_iff (m : KsMapping) :
    (⟨lowPart m.physicalAddress ++ lowPart m.physicalAddress, 0#32 ++ offset,
        m.byteCount &&& admaLengthMask⟩ : Transfer) =
      ⟨m.physicalAddress, offset.setWidth 64, m.byteCount⟩ ↔
    highPart m.physicalAddress = lowPart m.physicalAddress ∧ m.byteCount.toNat < 2 ^ 18 := by
  rw [Transfer.mk.injEq, append_eq_iff, and_lengthMask_eq_iff, and_iff_left rfl,
    and_iff_right (zero_append offset), eq_comm]

theorem fits_cons_iff {m m' : KsMapping} {rest : List KsMapping}
    (h : offset.toNat + m.byteCount.toNat < 2 ^ 32) :
    Fits offset (m :: m' :: rest) ↔
      (highPart m.physicalAddress = lowPart m.physicalAddress ∧ m.byteCount.toNat < 2 ^ 18) ∧
        Fits (offset + m.byteCount) (m' :: rest) := by
  have hadd : (offset + m.byteCount).toNat = offset.toNat + m.byteCount.toNat := by bv_omega
  constructor
  · rintro ⟨haddress, hcount, hdevice⟩
    refine ⟨⟨haddress m List.mem_cons_self, hcount m List.mem_cons_self⟩, ?_, ?_, ?_⟩
    · exact fun x hx => haddress x (List.mem_cons_of_mem m hx)
    · exact fun x hx => hcount x (List.mem_cons_of_mem m hx)
    · rw [List.dropLast_cons_cons, List.map_cons, List.sum_cons] at hdevice
      rwa [hadd, Nat.add_assoc]
  · rintro ⟨⟨haddress, hcount⟩, hrest⟩
    refine ⟨List.forall_mem_cons.mpr ⟨haddress, hrest.address⟩,
      List.forall_mem_cons.mpr ⟨hcount, hrest.byteCount⟩, ?_⟩
    have hdevice := hrest.device
    rwa [hadd, Nat.add_assoc] at hdevice

theorem captured_eq_planned_iff : captured offset ms = planned offset ms ↔ Fits offset ms := by
  induction ms generalizing offset with
  | nil => exact ⟨fun _ => ⟨by simp, by simp, offset.isLt⟩, fun _ => rfl⟩
  | cons m rest ih =>
    rw [captured, planned, List.map_cons, plannedTransfers_cons_contiguous, List.cons.injEq,
      KsMapping.element, captured_head_eq_iff]
    cases rest with
    | nil =>
      have hdevice := offset.isLt
      constructor
      · exact fun h => ⟨by simpa using h.1.1, by simpa using h.1.2, hdevice⟩
      · exact fun h => ⟨⟨h.address m List.mem_cons_self, h.byteCount m List.mem_cons_self⟩, rfl⟩
    | cons m' rest =>
      by_cases hoffset : offset.toNat + m.byteCount.toNat < 2 ^ 32
      · rw [← (setWidth_add_eq_iff ..).mpr hoffset, fits_cons_iff hoffset, ← ih]
        rfl
      · -- the second device address is already cut off
        constructor
        · rintro ⟨-, htail⟩
          rw [captured, List.map_cons, plannedTransfers_cons_contiguous, List.cons.injEq] at htail
          have haddr := congrArg Transfer.deviceAddr htail.1
          simp only at haddr
          rw [zero_append, setWidth_add_eq_iff] at haddr
          exact absurd haddr hoffset
        · intro h
          have hdevice := h.device
          rw [List.dropLast_cons_cons, List.map_cons, List.sum_cons] at hdevice
          omega

@[simp] theorem captured_length (offset : BitVec 32) (ms : List KsMapping) :
    (captured offset ms).length = ms.length := by
  induction ms generalizing offset with
  | nil => rfl
  | cons m rest ih => rw [captured, List.length_cons, ih, List.length_cons]

@[simp] theorem planned_length (offset : BitVec 32) (ms : List KsMapping) :
    (planned offset ms).length = ms.length := by
  simp [planned, plannedTransfers]

theorem flatMap_captured_eq_iff :
    mss.flatMap (captured offset) = mss.flatMap (planned offset) ↔ ∀ ms ∈ mss, Fits offset ms := by
  induction mss with
  | nil => simp
  | cons ms mss ih =>
    rw [List.flatMap_cons, List.flatMap_cons, List.forall_mem_cons, ← captured_eq_planned_iff, ← ih]
    constructor
    · exact fun h => List.append_inj h (by rw [captured_length, planned_length])
    · rintro ⟨hms, hmss⟩
      rw [hms, hmss]

/-! ## A pass over the queue -/

/-- What a pass leaves in `d` is right for the mappings of its clones. -/
structure TableRight (frameStartAddr : BitVec 32) (mss : List (List KsMapping)) (d : Sgdma) :
    Prop where
  transfers : d.written.map (fun slot => (d.descriptor slot).transfer .readFromDevice) =
    mss.flatMap (planned frameStartAddr)
  consecutive : ∃ id, d.written = slots id d.written.length
  once : d.written.Nodup
  last : ∀ slot ∈ d.written.getLast?, d.dmaLastPtr = slot

/-- No slot is written yet. -/
def Sgdma.beforePass (d : Sgdma) : Sgdma := { d with reads := 0, written := [] }

theorem tableRight_iff (d : Sgdma) (mss : List (List KsMapping)) :
    TableRight d.frameStartAddr mss (d.beforePass.programAll mss) ↔
      (∀ ms ∈ mss, Fits d.frameStartAddr ms) ∧ (mss.map List.length).sum ≤ 128 ∧
        ReadsBackFrom d.lastPtr 0 (mss.map List.length) := by
  obtain ⟨hwritten, hptr⟩ := d.beforePass.programAll_eq mss
  have hslots := d.beforePass.programAll_slots mss
  simp only [Sgdma.beforePass, List.nil_append] at hwritten hptr hslots
  have hlength := passSlots_length d.lastPtr 0 (mss.map List.length)
  rw [readsBackFrom_iff d.dmaLastPtr, ← flatMap_captured_eq_iff]
  constructor
  · rintro ⟨htransfers, ⟨id, hid⟩, honce, hlast⟩
    simp only [Sgdma.beforePass, hwritten, hlength] at htransfers hid honce hlast
    rw [hslots honce] at htransfers
    refine ⟨htransfers, ?_, ⟨id, hid⟩, fun slot hslot => ?_⟩
    · rwa [hid, slots_nodup_iff] at honce
    · rw [← hptr]
      exact hlast slot hslot
  · rintro ⟨htransfers, hroom, ⟨id, hid⟩, hlast⟩
    have honce : (passSlots d.lastPtr 0 (mss.map List.length)).Nodup := by
      rwa [hid, slots_nodup_iff]
    refine ⟨?_, ⟨id, ?_⟩, ?_, fun slot hslot => ?_⟩
    all_goals simp only [Sgdma.beforePass, hwritten, hlength] at *
    · rw [hslots honce, htransfers]
    · exact hid
    · exact honce
    · rw [hptr]
      exact hlast slot hslot

/-- The mappings of the queued clones. -/
def HardwareSimulation.queuedMappings (mappings : Nat → Nat → KsMapping)
    (s : HardwareSimulation) : List (List KsMapping) :=
  s.scatterGatherMappings.map (SgEntry.ksMapping mappings)

theorem capture_descriptors_right_iff (mappings : Nat → Nat → KsMapping) (s : HardwareSimulation)
    (d : Sgdma) (h : s.scatterGatherMappingsQueued.toNat = s.scatterGatherMappings.length) :
    ∃ s' status d',
      Prog.exec Sgdma.act Sgdma.answer (s.fillScatterGatherBuffers mappings) d.beforePass =
        some ((s', status), d') ∧
      (TableRight d.frameStartAddr (s.queuedMappings mappings) d' ↔
        (∀ ms ∈ s.queuedMappings mappings, Fits d.frameStartAddr ms) ∧
          ((s.queuedMappings mappings).map List.length).sum ≤ 128 ∧
          ReadsBackFrom d.lastPtr 0 ((s.queuedMappings mappings).map List.length)) :=
  ⟨_, _, _, exec_fillScatterGatherBuffers d.beforePass h, tableRight_iff d _⟩

/-- A clone is queued. -/
def oneQueued (mappingsCount : BitVec 32) : HardwareSimulation :=
  (HardwareSimulation.created.programScatterGatherMappings (some 0) 0 0 (fun _ => default)
    mappingsCount).1

/-- Pages in the memory that a device with 32-bit addresses is given. -/
def page (physicalAddress : BitVec 64) : KsMapping := ⟨physicalAddress, 0x1000⟩

def twoMappings : Nat → KsMapping
  | 0 => page 0x2000
  | _ => page 0x3000

/-- The device is idle. -/
def idleSgdma : Sgdma := ⟨0x10000000, fun _ => 0xFF, 0, fun _ => ⟨0, 0, 0, 0, 0⟩, [], 0xFF⟩

/-- The first page is programmed as it is, since its address has equal halves; others are not. -/
theorem capture_descriptors_right_first_page :
    (∃ s' status d',
      Prog.exec Sgdma.act Sgdma.answer ((oneQueued 1).fillScatterGatherBuffers fun _ _ => page 0)
        idleSgdma.beforePass = some ((s', status), d') ∧
      TableRight 0x10000000 [[page 0]] d') ∧
    ∃ s' status d',
      Prog.exec Sgdma.act Sgdma.answer
        ((oneQueued 2).fillScatterGatherBuffers fun _ => twoMappings) idleSgdma.beforePass =
          some ((s', status), d') ∧
      ¬ TableRight 0x10000000 [[page 0x2000, page 0x3000]] d' := by
  obtain ⟨s, status, d, hexec, hright⟩ :=
    capture_descriptors_right_iff (fun _ _ => page 0) (oneQueued 1) idleSgdma rfl
  obtain ⟨s', status', d', hexec', hright'⟩ :=
    capture_descriptors_right_iff (fun _ => twoMappings) (oneQueued 2) idleSgdma rfl
  refine ⟨⟨s, status, d, hexec, hright.mpr ⟨?_, by decide, trivial⟩⟩,
    s', status', d', hexec', fun h => ?_⟩
  · intro ms hms
    obtain rfl := List.mem_singleton.mp hms
    exact ⟨by decide, by decide, by decide⟩
  · have hfits := (hright'.mp h).1 _ (List.mem_singleton_self _)
    exact absurd (hfits.address (page 0x2000) List.mem_cons_self) (by decide)

/-- The low half of an address is written to the high one too. -/
theorem capture_descriptors_wrong :
    ∃ s' status d',
      Prog.exec Sgdma.act Sgdma.answer
          ((oneQueued 2).fillScatterGatherBuffers fun _ => twoMappings) idleSgdma.beforePass =
        some ((s', status), d') ∧
      d'.written.map (fun slot => ((d'.descriptor slot).transfer .readFromDevice).hostAddr) =
        [0x200000002000, 0x300000003000] ∧
      ¬ TableRight 0x10000000 [[page 0x2000, page 0x3000]] d' := by
  refine ⟨_, _, _, exec_fillScatterGatherBuffers idleSgdma.beforePass rfl, by decide, fun h => ?_⟩
  have hfits := (tableRight_iff idleSgdma _).mp h
  exact absurd ((hfits.1 _ (List.mem_singleton_self _)).address _ List.mem_cons_self) (by decide)

end Capture

end Xadma
