import Xadma.Theory.Prog
import Xadma.Libxdma.DmaEngine

/-!
# The ring of a C2H streaming engine (`libxdma/dma_engine.c`, `sys/file_io.c`)

The hardware fills the blocks of the ring in order, one credit for each, and writes a result for
every block it completes. `EngineProcessRing` takes note of the results in the DPC, or in poll mode
in the read routine, and `EngineRingCopyBytesToMemory` copies the blocks out for a read request and
gives the credits back.
-/

namespace Xadma

/-- The threads that work on the ring. The queue of the engine hands out one read at a time. -/
inductive RingThread
  | dpc
  | reader
  deriving DecidableEq, Repr

/-- The ring of an engine and the device side of it; below `outputMem`, what is only recorded for
the proofs. Uses of the ring are counted: the `i`-th is of slot `i % xdmaRingNumBlocks`. -/
structure RingWorld where
  poll : Bool
  head : Nat
  tail : Nat
  status : Nat → BitVec 32
  length : Nat → BitVec 32
  block : Nat → List UInt8
  completionSignal : Bool
  completedDescCount : BitVec 32
  descCredits : Nat
  running : Bool
  /-- The memory of the read request that is being served. -/
  outputMem : List UInt8
  /-- The uses that the hardware has started and completed. -/
  started : Nat
  completed : Nat
  /-- Those whose status `EngineProcessRing` has cleared, and those behind `tail`. -/
  scanned : Nat
  published : Nat
  /-- Those copied out, those whose length is cleared, and those behind `head`. -/
  delivered : Nat
  copied : Nat
  released : Nat
  /-- `EngineProcessRing` is between reading the indices and storing the tail. -/
  scanning : Bool
  /-- A read is between reading the indices and storing the head. -/
  copying : Bool
  /-- The bytes of the completed blocks, and those the read requests were completed with. -/
  received : List (List UInt8)
  returned : List UInt8
  /-- A block was copied out in part. -/
  cut : Bool
  /-- A block was copied out after one was cut. -/
  cutFollowed : Bool
  /-- How many blocks each slot holds that are completed but not yet copied out. -/
  uncopied : Nat → Nat
  /-- The hardware was let into a slot that still holds such a block. -/
  overwritten : Bool
  /-- A read was completed with more bytes than were copied into its memory. -/
  overstated : Bool

/-- Who reads the indices, to scan the results or to copy blocks. -/
inductive RingPhase
  | scan
  | copy
  deriving DecidableEq, Repr

inductive RingOp
  | poll
  | engineStatus
  /-- Both indices, under the lock. -/
  | indices (phase : RingPhase)
  | status (k : Nat)
  | clearStatus (k : Nat)
  /-- The new tail, under the lock. -/
  | storeTail (tail : Nat)
  | setSignal
  | clearSignal
  | waitSignal
  | completedDescCount
  | clearWriteback
  | length (k : Nat)
  | clearLength (k : Nat)
  | copyFromBuffer (offset k numBytes : Nat)
  /-- The new head and the credits for the hardware, under the lock. -/
  | storeHead (head credits : Nat)
  | retrieveOutputMemory
  | complete (status : NtStatus) (numBytes : Nat)
  deriving DecidableEq, Repr

abbrev RingOp.Res : RingOp → Type
  | .poll => Bool
  | .indices _ => Nat × Nat
  | .engineStatus | .status _ | .length _ | .completedDescCount => BitVec 32
  | .waitSignal | .copyFromBuffer .. | .retrieveOutputMemory => NtStatus
  | _ => Unit

abbrev RingProg := Prog RingOp RingOp.Res

def RingOp.perform (o : RingOp) : RingProg o.Res := Prog.perform o

/-! ## `EngineProcessRing` -/

def engineRingAdvance (index : Nat) : Nat :=
  if index = xdmaRingNumBlocks - 1 then 0 else index + 1

/-- The loop over the results. It finds less than `xdmaRingNumBlocks` of them, so that this bound is
never met. -/
def scanResults : (bound tail eopCount : Nat) → RingProg (Nat × Nat)
  | 0, tail, eopCount => pure (tail, eopCount)
  | bound + 1, tail, eopCount => do
    let status : BitVec 32 ← (RingOp.status tail).perform
    if status = 0 then return (tail, eopCount)
    else
      let status : BitVec 32 ← (RingOp.status tail).perform
      (RingOp.clearStatus tail).perform
      scanResults bound (engineRingAdvance tail)
        (if status &&& xdmaResultEopBit ≠ 0 then eopCount + 1 else eopCount)

/-- The engine status is only traced. -/
def engineProcessRing : RingProg Nat := do
  let _ ← RingOp.engineStatus.perform
  let indices : Nat × Nat ← (RingOp.indices .scan).perform
  let scan ← scanResults xdmaRingNumBlocks indices.2 0
  (RingOp.storeTail scan.1).perform
  Prog.when (scan.2 > 0) RingOp.setSignal.perform
  let poll : Bool ← RingOp.poll.perform
  Prog.when (poll = true) RingOp.clearWriteback.perform
  return scan.2

/-- The loop with no more than `bound` tests of its condition: `none` if it is not over by then. -/
def scanLoop : (bound tail eopCount : Nat) → RingProg (Option (Nat × Nat))
  | 0, _, _ => pure none
  | bound + 1, tail, eopCount => do
    let status : BitVec 32 ← (RingOp.status tail).perform
    if status = 0 then return some (tail, eopCount)
    else
      let status : BitVec 32 ← (RingOp.status tail).perform
      (RingOp.clearStatus tail).perform
      scanLoop bound (engineRingAdvance tail)
        (if status &&& xdmaResultEopBit ≠ 0 then eopCount + 1 else eopCount)

/-! ## The error message of `EngineProcessRing` -/

/-- The calls of the routine, and its message about an engine error. -/
inductive ReportedOp
  | ring (o : RingOp)
  | traceError (engineStatus : BitVec 32)
  deriving DecidableEq, Repr

abbrev ReportedOp.Res : ReportedOp → Type
  | .ring o => o.Res
  | .traceError _ => Unit

abbrev ReportedProg := Prog ReportedOp ReportedOp.Res

def ReportedOp.perform (o : ReportedOp) : ReportedProg o.Res := Prog.perform o

/-- The masks are combined by `&`. -/
def ringEngineError (engineStatus : BitVec 32) : Bool :=
  engineStatus &&& xdmaAlignMismatchBit &&& xdmaMagicStoppedBit &&& xdmaFetchStoppedBit &&&
    xdmaStatReadError &&& xdmaStatDescriptorError != 0

/-- `EngineProcessRing` behind the test of the engine status. -/
def processResults : RingProg Nat := do
  let indices : Nat × Nat ← (RingOp.indices .scan).perform
  let scan ← scanResults xdmaRingNumBlocks indices.2 0
  (RingOp.storeTail scan.1).perform
  Prog.when (scan.2 > 0) RingOp.setSignal.perform
  let poll : Bool ← RingOp.poll.perform
  Prog.when (poll = true) RingOp.clearWriteback.perform
  return scan.2

/-- `EngineProcessRing` with its message. -/
def engineProcessRingReported : ReportedProg Nat := do
  let engineStatus : BitVec 32 ← (ReportedOp.ring .engineStatus).perform
  Prog.when (ringEngineError engineStatus = true) (ReportedOp.traceError engineStatus).perform
  processResults.mapOp .ring fun _ r => r

/-! ## Reading from the ring -/

/-- The loop of `EnginePollRing`, with the tries that are left. -/
def enginePollRing : (tries : Nat) → RingProg NtStatus
  | 0 => pure statusSuccess
  | tries + 1 => do
    let completed : BitVec 32 ← RingOp.completedDescCount.perform
    if completed &&& xdmaWbErrMask ≠ 0 then return statusInternalError
    else
      let eopCount : Nat ← (if completed ≠ 0 then engineProcessRing else .ret 0)
      if eopCount = 0 then enginePollRing tries else return statusSuccess

def ringPollTries : Nat := 100000

/-- Poll for blocks or wait for the DPC: the status to go on with, or to give up with. -/
def awaitBlocks : RingProg (Except NtStatus NtStatus) := do
  let poll : Bool ← RingOp.poll.perform
  if poll then
    let status ← enginePollRing ringPollTries
    return if ntSuccess status then .ok status else .error status
  else
    let status : NtStatus ← RingOp.waitSignal.perform
    return if status = statusTimeout then .error status else .ok status

/-- The locals of `EngineRingCopyBytesToMemory`. -/
structure RingCopy where
  status : NtStatus
  head : Nat
  numDescProcessed : Nat
  offset : Nat
  numBytesRemaining : Nat
  deriving DecidableEq, Repr

/-- Copy `numBytesReceived` bytes of the block at the head, and go on to the next one. -/
def copyBlock (c : RingCopy) (numBytesReceived : Nat) : RingProg (Except NtStatus RingCopy) := do
  let status : NtStatus ← (RingOp.copyFromBuffer c.offset c.head numBytesReceived).perform
  if ntSuccess status then
    (RingOp.clearLength c.head).perform
    return .ok {
      status := status
      head := engineRingAdvance c.head
      numDescProcessed := c.numDescProcessed + 1
      offset := c.offset + numBytesReceived
      numBytesRemaining := c.numBytesRemaining - numBytesReceived }
  else return .error status

/-- The copy loop. Every block that is copied has at least one byte, so that the bytes of the
request bound it. -/
def copyBlocks (tail : Nat) : (bound : Nat) → RingCopy → RingProg (Except NtStatus RingCopy)
  | 0, c => pure (.ok c)
  | bound + 1, c =>
    if c.head ≠ tail ∧ c.numBytesRemaining ≠ 0 then do
      let length : BitVec 32 ← (RingOp.length c.head).perform
      if length.toNat ≤ c.numBytesRemaining ∧ length.toNat = 0 then
        RingOp.clearSignal.perform
        return .ok c
      else
        match ← copyBlock c (min length.toNat c.numBytesRemaining) with
        | .error status => return .error status
        | .ok c => copyBlocks tail bound c
    else pure (.ok c)

/-- The status of the read and its number of bytes. -/
def engineRingCopyBytesToMemory (length : Nat) : RingProg (NtStatus × Nat) := do
  match ← awaitBlocks with
  | .error status => return (status, 0)
  | .ok status =>
    let indices : Nat × Nat ← (RingOp.indices .copy).perform
    match ← copyBlocks indices.2 length ⟨status, indices.1, 0, 0, length⟩ with
    | .error status => return (status, 0)
    | .ok c =>
      let rest : BitVec 32 ← (RingOp.length c.head).perform
      Prog.when (rest = 0) RingOp.clearSignal.perform
      (RingOp.storeHead c.head c.numDescProcessed).perform
      return (c.status, length - c.numBytesRemaining)

def evtIoReadEngineRing (length : Nat) : RingProg Unit := do
  let status : NtStatus ← RingOp.retrieveOutputMemory.perform
  if ntSuccess status then
    let read ← engineRingCopyBytesToMemory length
    (RingOp.complete read.1 read.2).perform
  else (RingOp.complete status 0).perform

/-! ## The calls -/

namespace RingWorld

def act : (o : RingOp) → RingWorld → o.Res → Option RingWorld
  | .poll, s, r => if r = s.poll then some s else none
  | .engineStatus, s, _ => some s
  | .indices phase, s, r =>
    if r = (s.head, s.tail) then
      match phase with
      | .scan => some { s with scanning := true }
      | .copy => some { s with copying := true }
    else none
  | .status k, s, r => if r = s.status k then some s else none
  | .clearStatus k, s, _ =>
    some { s with status := Function.update s.status k 0, scanned := s.scanned + 1 }
  | .storeTail tail, s, _ =>
    some { s with tail := tail, published := s.scanned, scanning := false }
  | .setSignal, s, _ => some { s with completionSignal := true }
  | .clearSignal, s, _ => some { s with completionSignal := false }
  | .waitSignal, s, r =>
    if r = statusTimeout ∨ r = statusSuccess ∧ s.completionSignal = true then some s else none
  | .completedDescCount, s, r => if r = s.completedDescCount then some s else none
  | .clearWriteback, s, _ => some { s with completedDescCount := 0 }
  | .length k, s, r => if r = s.length k then some s else none
  | .clearLength k, s, _ =>
    some { s with length := Function.update s.length k 0, copied := s.copied + 1 }
  | .copyFromBuffer offset k numBytes, s, r =>
    if ntSuccess r then
      some { s with
        outputMem := s.outputMem.take offset ++ (s.block k).take numBytes ++
          s.outputMem.drop (offset + numBytes)
        delivered := s.delivered + 1
        uncopied := Function.update s.uncopied k 0
        cut := s.cut || decide (numBytes < (s.length k).toNat)
        cutFollowed := s.cutFollowed || s.cut }
    else some s
  | .storeHead head credits, s, _ =>
    some { s with
      head := head
      descCredits := s.descCredits + credits
      released := s.copied
      copying := false }
  | .retrieveOutputMemory, s, r =>
    if ntSuccess r then some { s with outputMem := [] } else some s
  | .complete _ numBytes, s, _ =>
    some { s with
      returned := s.returned ++ s.outputMem.take numBytes
      overstated := s.overstated || decide (s.outputMem.length < numBytes)
      outputMem := [] }

end RingWorld

def ReportedOp.act : (o : ReportedOp) → RingWorld → o.Res → Option RingWorld
  | .ring o, s, r => RingWorld.act o s r
  | .traceError _, s, _ => some s

/-! ## The hardware -/

inductive RingEvent
  /-- The hardware takes a credit and begins with the next slot. -/
  | start
  /-- It completes the first slot it has begun with: a status that is not 0, and the bytes. -/
  | complete (status : BitVec 32) (bytes : List UInt8)
  /-- In poll mode it writes the number of completed descriptors. -/
  | writeback (value : BitVec 32)
  deriving DecidableEq, Repr

namespace RingWorld

def env : RingEvent → RingWorld → Option RingWorld
  | .start, s =>
    if s.running = true ∧ 0 < s.descCredits then
      some { s with
        descCredits := s.descCredits - 1
        started := s.started + 1
        overwritten := s.overwritten || s.uncopied (s.started % xdmaRingNumBlocks) != 0 }
    else none
  | .complete status bytes, s =>
    let slot := s.completed % xdmaRingNumBlocks
    if s.completed < s.started ∧ status ≠ 0 ∧ 1 ≤ bytes.length ∧
        bytes.length ≤ xdmaRingBlockSize then
      some { s with
        status := Function.update s.status slot status
        length := Function.update s.length slot (BitVec.ofNat 32 bytes.length)
        block := Function.update s.block slot bytes
        completed := s.completed + 1
        received := s.received ++ [bytes]
        uncopied := Function.update s.uncopied slot (s.uncopied slot + 1)
        overwritten := s.overwritten || s.uncopied slot != 0 }
    else none
  | .writeback value, s => some { s with completedDescCount := value }

end RingWorld

/-- What a thread of the ring can be called for. -/
inductive RingCall
  | processRing
  | read (length : Nat)
  deriving DecidableEq, Repr

/-- With interrupts the DPC processes the ring, one run of it at a time; in poll mode they are
disabled. -/
def ringThreads : Threads RingOp RingOp.Res RingWorld RingThread RingEvent RingCall where
  act := fun _ o s r => RingWorld.act o s r
  env := RingWorld.env
  start := fun t a s =>
    match t, a with
    | .dpc, .processRing =>
      if s.poll then none else some (s, engineProcessRing >>= fun _ => pure ())
    | .reader, .read length => some (s, evtIoReadEngineRing length)
    | _, _ => none

/-- The device as a session finds it: the results are cleared and the hardware has no credits. -/
def RingWorld.cleared (poll : Bool) (head tail : Nat) (block : Nat → List UInt8) : RingWorld where
  poll := poll
  head := head
  tail := tail
  status := fun _ => 0
  length := fun _ => 0
  block := block
  completionSignal := false
  completedDescCount := 0
  descCredits := 0
  running := false
  outputMem := []
  started := 0
  completed := 0
  scanned := 0
  published := 0
  delivered := 0
  copied := 0
  released := 0
  scanning := false
  copying := false
  received := []
  returned := []
  cut := false
  cutFollowed := false
  uncopied := fun _ => 0
  overwritten := false
  overstated := false

/-- `EngineRingSetup`; what it writes to the descriptors is `ringChain`. A write to `descCredits`
adds to the credits. -/
def engineRingSetup (s : RingWorld) : RingWorld :=
  { s with
    head := 0
    tail := 0
    completionSignal := false
    descCredits := s.descCredits + (xdmaRingNumBlocks - 1)
    running := true }

def ringConfig (poll : Bool) (head tail : Nat) (block : Nat → List UInt8) :
    Config RingOp RingOp.Res RingWorld RingThread :=
  ⟨engineRingSetup (.cleared poll head tail block), fun _ => .ret ()⟩

end Xadma
