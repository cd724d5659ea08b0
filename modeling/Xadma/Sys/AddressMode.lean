import Mathlib.Data.Finset.Insert
import Xadma.Sys.EntryQueue

/-!
# The address mode of an engine (`sys/file_io.c`, `libxdma/dma_engine.c`)

The mode is a bit of the control register and a field of the engine. `IOCTL_XDMA_ADDRMODE_SET`
writes both from the entry queue, which serves its requests in parallel, while the queue of the
engine programs the fragments of a DMA request: `XDMA_EngineProgramDma` and `DescriptorIsAligned`
read the field for every descriptor.
-/

namespace Xadma

def addressModeContiguous : BitVec 32 := 0
def addressModeFixed : BitVec 32 := 1

/-- What the field means to a comparison with one of the two modes. -/
def AddressMode.ofWord (raw : BitVec 32) : AddressMode :=
  if raw = addressModeContiguous then .contiguous
  else if raw = addressModeFixed then .fixed
  else .other raw

def XdmaEngine.withMode (engine : XdmaEngine) (raw : BitVec 32) : XdmaEngine :=
  { engine with addressMode := .ofWord raw }

namespace AddrMode

variable {w : PointerWidth}

/-! ## The queue of the engine -/

inductive DmaOp
  | enterProgramDma
  /-- `XDMA_EngineProgramDma` reads `engine->addressMode`. -/
  | readOffsetMode
  /-- `DescriptorIsAligned` reads `engine->addressMode`. -/
  | readAlignMode
  /-- What the check came to; after a division by zero nothing does. -/
  | traceAligned (aligned : Option Bool)
  /-- The chain is in the descriptor buffer and the engine is started. -/
  | engineStart (descriptors : List DmaDescriptor)
  | leaveProgramDma
  /-- The request is completed. -/
  | completeDma
  deriving DecidableEq

abbrev DmaOp.Res : DmaOp → Type
  | .readOffsetMode | .readAlignMode => BitVec 32
  | _ => Unit

/-- The calls of the two queues. -/
inductive Op (w : PointerWidth)
  | entry (o : Entry.EntryOp w)
  | dma (o : DmaOp)
  deriving DecidableEq

abbrev Op.Res : Op w → Type
  | .entry o => o.Res
  | .dma o => o.Res

abbrev ModeProg (w : PointerWidth) := Prog (Op w) Op.Res

def DmaOp.perform (o : DmaOp) : ModeProg w o.Res := Prog.perform (Op.dma o)

/-- The loop of `XDMA_EngineProgramDma`, as in `programLoop`. -/
def programDmaLoop (engine : XdmaEngine) (direction : WdfDmaDirection) :
    BitVec 64 → BitVec 64 → List SgElement → ModeProg w (List DmaDescriptor)
  | _, _, [] => .ret []
  | deviceOffset, descBufferLA, e :: rest => do
    let descBufferLA := descBufferLA + BitVec.ofNat 64 sizeofDmaDescriptor
    let desc := programDesc engine direction deviceOffset descBufferLA rest.isEmpty e
    let offsetMode : BitVec 32 ← DmaOp.readOffsetMode.perform
    let alignMode : BitVec 32 ← DmaOp.readAlignMode.perform
    (DmaOp.traceAligned (descriptorIsAligned (engine.withMode alignMode) desc)).perform
    let descs ← programDmaLoop engine direction
      (nextOffset (engine.withMode offsetMode) deviceOffset e) descBufferLA rest
    return desc :: descs

/-- One fragment of a DMA request. -/
structure Fragment where
  direction : WdfDmaDirection
  deviceOffset : BitVec 64
  sgList : ScatterGatherList
  deriving DecidableEq

def xdmaEngineProgramDma (engine : XdmaEngine) (fragment : Fragment) : ModeProg w Unit := do
  DmaOp.enterProgramDma.perform
  let descriptors ← programDmaLoop engine fragment.direction fragment.deviceOffset
    engine.descBuffer.logical fragment.sgList.elements
  (DmaOp.engineStart (optimizeDescriptors engine descriptors)).perform
  DmaOp.leaveProgramDma.perform

/-- A request of the queue, from `EvtIoReadDma` or `EvtIoWriteDma` to its completion. -/
def dmaRequest (engine : XdmaEngine) (fragments : List Fragment) : ModeProg w Unit := do
  Prog.forEach fragments (xdmaEngineProgramDma engine)
  DmaOp.completeDma.perform

def entryProg {α : Type} (p : Entry.EntryProg w α) : ModeProg w α := p.mapOp .entry fun _ r => r

/-- A request of the entry queue. -/
def entryRequest (file : Entry.File w) (request : Entry.EntryRequest w) : ModeProg w Unit :=
  entryProg (request.routine file)

/-- The requests of the entry queue run in parallel, those of the engine one after the other. -/
inductive Thread
  | entry (n : Nat)
  | dma
  deriving DecidableEq, Repr

/-! ## The mode -/

/-- A decision about a descriptor, with the field it was made on. -/
inductive ModeUse
  | offset (raw : BitVec 32)
  | align (raw : BitVec 32)
  deriving DecidableEq, Repr

/-- The register and the field; below these, what is only recorded for the proofs. -/
structure World where
  control : BitVec 32
  addressMode : BitVec 32
  /-- A DMA request is under way. -/
  underWay : Bool
  /-- A fragment of it is being programmed. -/
  programming : Bool
  /-- The decisions about the descriptors of the request. -/
  uses : List ModeUse
  /-- Its fragments, and the chains that the engine was started with for them. -/
  fragments : List Fragment
  chains : List (List DmaDescriptor)
  /-- The `IOCTL_XDMA_ADDRMODE_SET` requests that are under way, those of them that have not got
  their payload yet, and whether one was completed with success without it. -/
  setting : Finset Thread
  waiting : Finset Thread
  missed : Bool
  /-- The mode that was asked for last, and the request that asked for another one than before,
  until it is completed. -/
  requested : BitVec 32
  changing : Option Thread
  deriving DecidableEq

namespace World

/-- The `NON_INCR_ADDR` bit. -/
def nonIncrAddr (s : World) : Bool := s.control &&& Entry.xdmaCtrlNonIncrAddr != 0

/-- A SET comes to the thread. -/
def beginSet (t : Thread) (s : World) : World :=
  { s with setting := insert t s.setting, waiting := insert t s.waiting }

/-- The request of the thread is completed. -/
def complete (t : Thread) (status : NtStatus) (s : World) : World :=
  { s with
    setting := s.setting.erase t
    waiting := s.waiting.erase t
    missed := s.missed || ntSuccess status && decide (t ∈ s.waiting)
    changing := if s.changing = some t then none else s.changing }

/-- What the calls of the entry queue do to the mode. -/
def entryAct (t : Thread) : (o : Entry.EntryOp w) → World → o.Res → Option World
  | .getQueueContext none, _, _ => none
  | .readControl, s, r => if r = s.control then some s else none
  | .writeControlW1S bits, s, _ => some { s with control := s.control ||| bits }
  | .writeControlW1C bits, s, _ => some { s with control := s.control &&& ~~~ bits }
  | .assignAddressMode addrMode, s, _ => some { s with addressMode := addrMode }
  -- the payload of `IOCTL_XDMA_ADDRMODE_SET`
  | .copyToBuffer, s, r =>
    if ntSuccess r.1 then
      some { s with
        waiting := s.waiting.erase t
        requested := r.2
        changing := if r.2 = s.requested then s.changing else some t }
    else some s
  | .complete status _, s, _ => some (s.complete t status)
  | _, s, _ => some s

def dmaAct : (o : DmaOp) → World → o.Res → Option World
  | .enterProgramDma, s, _ => some { s with programming := true }
  | .readOffsetMode, s, r =>
    if r = s.addressMode then some { s with uses := s.uses ++ [.offset r] } else none
  | .readAlignMode, s, r =>
    if r = s.addressMode then some { s with uses := s.uses ++ [.align r] } else none
  | .traceAligned none, _, _ => none
  | .traceAligned (some _), s, _ => some s
  | .engineStart descriptors, s, _ => some { s with chains := s.chains ++ [descriptors] }
  | .leaveProgramDma, s, _ => some { s with programming := false }
  | .completeDma, s, _ => some { s with underWay := false, programming := false }

def act (t : Thread) : (o : Op w) → World → o.Res → Option World
  | .entry o => entryAct t o
  | .dma o => dmaAct o

end World

inductive Start (w : PointerWidth)
  | entry (request : Entry.EntryRequest w)
  | dma (fragments : List Fragment)
  deriving DecidableEq

def setsMode (request : Entry.EntryRequest w) : Bool :=
  request = .deviceControl Entry.ioctlXdmaAddrmodeSet

/-- An engine and the file of its node. -/
def modeThreads (engine : XdmaEngine) (file : Entry.File w) :
    Threads (Op w) Op.Res World Thread Empty (Start w) where
  act := World.act
  env := fun e _ => e.elim
  start
    | .entry n, .entry request, s =>
      some (if setsMode request then s.beginSet (.entry n) else s, entryRequest file request)
    | .dma, .dma fragments, s =>
      some ({ s with underWay := true, uses := [], fragments := fragments, chains := [] },
        dmaRequest engine fragments)
    | _, _, _ => none

/-- `EngineConfigure` has taken the field from the register. -/
def modeConfig (control : BitVec 32) : Config (Op w) Op.Res World Thread :=
  let addressMode :=
    if control &&& Entry.xdmaCtrlNonIncrAddr != 0 then addressModeFixed else addressModeContiguous
  ⟨⟨control, addressMode, false, false, [], [], [], ∅, ∅, false, addressMode, none⟩,
    fun _ => .ret ()⟩

end AddrMode

end Xadma
