import Xadma.Theory.Ledger
import Xadma.Libadma.Engine
import Xadma.Avsadma.CaptureDevice

/-!
# The simulated hardware (`avsadma/hwsim.cpp`)

`ProgramScatterGatherMappings` queues an entry for a clone. `FakeHardware` has
`FillScatterGatherBuffers` take the queue to the descriptor table of the device, here in the
Arria 10 build, and sets the event that `Pause` and `Stop` wait for. The times and what is drawn are
left out.
-/

namespace Xadma

namespace Capture

/-- `KSMAPPING`. -/
structure KsMapping where
  physicalAddress : BitVec 64
  byteCount : BitVec 32
  deriving DecidableEq, Repr, Inhabited

/-! ## The device -/

/-- The accesses to the registers and to the descriptor table. -/
inductive SgdmaOp
  | readDmaLastPtr
  | readFrameStartAddr
  | writeDescriptor (id : BitVec 32) (descriptor : AdmaDescriptor)
  | writeDmaLastPtr (id : BitVec 32)
  deriving DecidableEq

abbrev SgdmaOp.Res : SgdmaOp → Type
  | .readDmaLastPtr | .readFrameStartAddr => BitVec 32
  | _ => Unit

abbrev SgdmaProg := Prog SgdmaOp SgdmaOp.Res

def SgdmaOp.perform (o : SgdmaOp) : SgdmaProg o.Res := Prog.perform o

/-- The table and the last pointer as they were written, and what the device gives for its last
pointer, read after read. -/
structure Sgdma where
  frameStartAddr : BitVec 32
  lastPtr : Nat → BitVec 32
  reads : Nat
  descriptor : BitVec 32 → AdmaDescriptor
  /-- The slots in the order in which they were written. -/
  written : List (BitVec 32)
  dmaLastPtr : BitVec 32

namespace Sgdma

def write (d : Sgdma) (id : BitVec 32) (descriptor : AdmaDescriptor) : Sgdma :=
  { d with
    descriptor := Function.update d.descriptor id descriptor
    written := d.written ++ [id] }

def act : (o : SgdmaOp) → Sgdma → o.Res → Option Sgdma
  | .readDmaLastPtr, d, _ => some { d with reads := d.reads + 1 }
  | .readFrameStartAddr, d, _ => some d
  | .writeDescriptor id descriptor, d, _ => some (d.write id descriptor)
  | .writeDmaLastPtr id, d, _ => some { d with dmaLastPtr := id }

def answer : (o : SgdmaOp) → Sgdma → o.Res
  | .readDmaLastPtr, d => d.lastPtr d.reads
  | .readFrameStartAddr, d => d.frameStartAddr
  | .writeDescriptor .., _ | .writeDmaLastPtr _, _ => ()

end Sgdma

/-- What is written to the table for a mapping. Both halves of the destination are the low part. -/
def captureDescriptor (id deviceOffset : BitVec 32) (mapping : KsMapping) : AdmaDescriptor :=
  { control := id <<< 18 ||| mapping.byteCount
    srcAddrLo := deviceOffset
    srcAddrHi := 0
    dstAddrLo := lowPart mapping.physicalAddress
    dstAddrHi := lowPart mapping.physicalAddress }

/-- The loop over the mappings of a clone. -/
def writeMappings : (id deviceOffset : BitVec 32) → List KsMapping → SgdmaProg (BitVec 32)
  | id, _, [] => .ret id
  | id, deviceOffset, mapping :: rest => do
    let id := nextId id
    (SgdmaOp.writeDescriptor id (captureDescriptor id deviceOffset mapping)).perform
    writeMappings id (deviceOffset + mapping.byteCount) rest

/-- The table is written behind the last pointer, and the last pointer after it. -/
def programEntry (mappings : List KsMapping) : SgdmaProg Unit := do
  let id : BitVec 32 ← SgdmaOp.readDmaLastPtr.perform
  let deviceOffset : BitVec 32 ← SgdmaOp.readFrameStartAddr.perform
  let id ← writeMappings id deviceOffset mappings
  (SgdmaOp.writeDmaLastPtr id).perform

/-! ## The object -/

/-- `SCATTER_GATHER_ENTRY`. `ByteCount` is the number of the mappings. -/
structure SgEntry where
  block : Nat
  cloneEntry : Nat
  virtual : BitVec 64
  byteCount : BitVec 32
  deriving DecidableEq, Repr

/-- The mappings of the clone as the pass reads them. `mappings` is where `OffsetOut.Mappings` of
each clone points to. -/
def SgEntry.ksMapping (mappings : Nat → Nat → KsMapping) (entry : SgEntry) : List KsMapping :=
  (List.range entry.byteCount.toNat).map (mappings entry.cloneEntry)

/-- What is done with the lookaside list. -/
inductive LookasideEvent
  | init
  /-- A block is taken or returned. -/
  | block (e : LedgerEvent Nat)
  | delete

structure HardwareSimulation where
  hardwareState : HardwareState
  stopHardware : Bool
  /-- `m_HardwareEvent` is set. -/
  hardwareEvent : Bool
  /-- `m_IsrTimer` is set. -/
  isrTimer : Bool
  imageSize : BitVec 32
  synthesisBuffer : Bool
  scatterGatherMappings : List SgEntry
  scatterGatherMappingsQueued : BitVec 32
  scatterGatherBytesQueued : BitVec 32
  numMappingsCompleted : BitVec 32
  numFramesSkipped : BitVec 32
  /-- What was done with the lookaside list so far. -/
  lookaside : List LookasideEvent
  /-- The head was removed from an empty list. -/
  corrupted : Bool

namespace HardwareSimulation

/-- The object as it is created, in zeroed memory. -/
def created : HardwareSimulation where
  hardwareState := .stopped
  stopHardware := false
  hardwareEvent := false
  isrTimer := false
  imageSize := 0
  synthesisBuffer := false
  scatterGatherMappings := []
  scatterGatherMappingsQueued := 0
  scatterGatherBytesQueued := 0
  numMappingsCompleted := 0
  numFramesSkipped := 0
  lookaside := []
  corrupted := false

/-- `scratch` tells whether the scratch buffer is allocated. -/
def start (imageSize : BitVec 32) (scratch : Bool) (s : HardwareSimulation) :
    HardwareSimulation × NtStatus :=
  let s := { s with
    imageSize := imageSize
    scatterGatherMappings := []
    numMappingsCompleted := 0
    scatterGatherMappingsQueued := 0
    numFramesSkipped := 0
    synthesisBuffer := scratch }
  if scratch then
    ({ s with
        lookaside := s.lookaside ++ [.init]
        hardwareState := .running
        isrTimer := true }, statusSuccess)
  else (s, statusInsufficientResources)

/-- `Pause (FALSE)`. -/
def unpause (s : HardwareSimulation) : HardwareSimulation :=
  if s.hardwareState = .paused then { s with hardwareState := .running, isrTimer := true } else s

/-! ### The list of mappings -/

/-- The buffer pointer behind the mappings of an array. -/
def bufferBehind (mappings : Nat → KsMapping) (mappingsCount : BitVec 32) (buffer : BitVec 64) :
    BitVec 64 :=
  (List.range mappingsCount.toNat).foldl
    (fun buffer i => buffer + (mappings i).byteCount.setWidth 64) buffer

/-- Whether an entry may be allocated. As many entries as the counter cannot count do not fit into
the nonpaged pool. -/
def mayAllocate (allocated : Option Nat) (s : HardwareSimulation) : Bool :=
  allocated.isNone || s.scatterGatherMappings.length + 1 < 2 ^ 32

/-- The number of mappings that are inserted and the buffer pointer go back to the caller. No block
is allocated for `none`. -/
def programScatterGatherMappings (allocated : Option Nat) (clone : Nat) (buffer : BitVec 64)
    (mappings : Nat → KsMapping) (mappingsCount : BitVec 32) (s : HardwareSimulation) :
    HardwareSimulation × BitVec 32 × BitVec 64 :=
  match allocated with
  | none => (s, 0, buffer)
  | some block =>
    ({ s with
        lookaside := s.lookaside ++ [.block (.acquire block)]
        scatterGatherMappings :=
          s.scatterGatherMappings ++ [⟨block, clone, buffer, mappingsCount⟩]
        scatterGatherMappingsQueued := s.scatterGatherMappingsQueued + 1
        scatterGatherBytesQueued := s.scatterGatherBytesQueued + mappingsCount },
      mappingsCount, bufferBehind mappings mappingsCount buffer)

def freeEntry (entry : SgEntry) (s : HardwareSimulation) : HardwareSimulation :=
  { s with lookaside := s.lookaside ++ [.block (.release entry.block)] }

/-- The counters and the entry, behind the descriptors of a clone. -/
def completeEntry (entry : SgEntry) (s : HardwareSimulation) : HardwareSimulation :=
  { s with
    numMappingsCompleted := s.numMappingsCompleted + 1
    scatterGatherBytesQueued := s.scatterGatherBytesQueued - entry.byteCount }.freeEntry entry

/-- The loop over the `left` entries that are queued. -/
def fillLoop (mappings : Nat → Nat → KsMapping) :
    (left : Nat) → HardwareSimulation → SgdmaProg HardwareSimulation
  | 0, s => .ret s
  | left + 1, s =>
    match s.scatterGatherMappings with
    | [] => .ret { s with corrupted := true }
    | entry :: rest => do
      programEntry (entry.ksMapping mappings)
      fillLoop mappings left ({ s with
        scatterGatherMappings := rest
        scatterGatherMappingsQueued := BitVec.ofNat 32 left }.completeEntry entry)

/-- `BufferRemaining` stays what it was. -/
def fillScatterGatherBuffers (mappings : Nat → Nat → KsMapping) (s : HardwareSimulation) :
    SgdmaProg (HardwareSimulation × NtStatus) := do
  let bufferRemaining := s.imageSize
  let s ← fillLoop mappings s.scatterGatherMappingsQueued.toNat s
  return (s, if bufferRemaining ≠ 0 then statusInsufficientResources else statusSuccess)

/-- Raise the event if someone waits for the hardware to stop. -/
def signalStop (s : HardwareSimulation) : HardwareSimulation :=
  if s.stopHardware then { s with stopHardware := false, hardwareEvent := true } else s

def countSkipped (status : NtStatus) (s : HardwareSimulation) : HardwareSimulation :=
  if ntSuccess status then s else { s with numFramesSkipped := s.numFramesSkipped + 1 }

def fakeHardware (mappings : Nat → Nat → KsMapping) (s : HardwareSimulation) :
    SgdmaProg HardwareSimulation :=
  if s.hardwareState = .running then do
    let (s, status) ← s.fillScatterGatherBuffers mappings
    return (s.countSkipped status).signalStop
  else return s.signalStop

/-- The loop of `Stop` over the `left` entries that are queued. -/
def freeLoop : (left : Nat) → HardwareSimulation → HardwareSimulation
  | 0, s => s
  | left + 1, s =>
    match s.scatterGatherMappings with
    | [] => { s with corrupted := true }
    | entry :: rest =>
      freeLoop left ({ s with
        scatterGatherMappings := rest
        scatterGatherMappingsQueued := BitVec.ofNat 32 left }.freeEntry entry)

/-- `Stop` behind the wait. -/
def finishStop (s : HardwareSimulation) : HardwareSimulation :=
  let s := { s with hardwareState := .stopped, synthesisBuffer := false }
  let s := freeLoop s.scatterGatherMappingsQueued.toNat s
  { s with
    numMappingsCompleted := 0
    scatterGatherBytesQueued := 0
    lookaside := s.lookaside ++ [.delete] }

end HardwareSimulation

end Capture

end Xadma
