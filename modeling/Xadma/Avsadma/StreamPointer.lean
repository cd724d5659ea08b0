import Xadma.Theory.Machine
import Xadma.Avsadma.HardwareSimulation
import Xadma.Avsadma.PinState
import Xadma.Avsadma.VideoFormat

/-!
# The stream pointers of a capture pin (`avsadma/capture.cpp`)

`Process` clones the leading edge of the queue and has its mappings programmed, `CompleteMappings`
advances and deletes the clones, and `CleanupReferences` deletes them all. The time stamps and the
frame information are left out.
-/

namespace Xadma

namespace Capture

def statusDeviceNotReady : NtStatus := 0xC00000A3

/-- Whether `_X86_` is defined. -/
inductive PointerBuild
  | x86
  | other
  deriving DecidableEq, Repr

/-- The buffer of a frame and how AVStream maps it. -/
structure Frame where
  /-- `NULL` is 0. -/
  data : BitVec 64
  mappings : List KsMapping
  remaining_lt : mappings.length < 2 ^ 32

/-- A clone of the leading edge. -/
structure Clone where
  id : Nat
  frame : Nat
  /-- `OffsetOut.Mappings`; there are `OffsetOut.Remaining` of them. -/
  mappings : List KsMapping
  deriving DecidableEq, Repr

/-- `DataUsed` in the stream headers of the frames. -/
abbrev DataUsed := Nat → BitVec 32

def mappingBytes (mappings : List KsMapping) : BitVec 32 := (mappings.map KsMapping.byteCount).sum

/-! ## `CompleteMappings` -/

namespace Clone

/-- `KsStreamPointerAdvanceOffsets` within the frame. -/
def advanceOffsets (c : Clone) (used : Nat) : Clone := { c with mappings := c.mappings.drop used }

/-- The bytes are counted on x86 only, as far as the mappings go. -/
def countBytes (build : PointerBuild) (mappingsRemaining : Nat) (c : Clone) (dataUsed : DataUsed) :
    DataUsed :=
  match build with
  | .x86 =>
    let mappingsToCount :=
      if mappingsRemaining > c.mappings.length then c.mappings.length else mappingsRemaining
    Function.update dataUsed c.frame
      (dataUsed c.frame + mappingBytes (c.mappings.take mappingsToCount))
  | .other => dataUsed

/-- Whether the clone is deleted. Outside x86 bytes are compared with mappings. -/
def isCompleted (build : PointerBuild) (mappingsRemaining : Nat) (dataUsed : BitVec 32)
    (c : Clone) : Bool :=
  match build with
  | .x86 => mappingsRemaining ≥ c.mappings.length
  | .other => dataUsed.toNat ≥ c.mappings.length

/-- What is left of the count behind a clone that is deleted. -/
def leaves (build : PointerBuild) (mappingsRemaining : Nat) (c : Clone) : Nat :=
  match build with
  | .x86 => mappingsRemaining - c.mappings.length
  | .other => mappingsRemaining - 1

/-- How far a clone that is kept is advanced. -/
def advance (build : PointerBuild) (mappingsRemaining : Nat) (dataUsed : BitVec 32) (c : Clone) :
    Clone :=
  match build with
  | .x86 => c.advanceOffsets mappingsRemaining
  | .other => c.advanceOffsets dataUsed.toNat

end Clone

/-- A clone that was deleted, and `DataUsed` of its frame then. -/
structure Release where
  clone : Nat
  dataUsed : BitVec 32
  deriving DecidableEq, Repr

structure Completion where
  clones : List Clone
  dataUsed : DataUsed
  /-- In the order of the deletions. -/
  released : List Release

def Completion.behind (c : Completion) (r : Release) : Completion :=
  { c with released := r :: c.released }

/-- The walk through the clones while there are mappings to complete. -/
def completeMappings (build : PointerBuild) :
    (mappingsRemaining : Nat) → List Clone → DataUsed → Completion
  | 0, clones, dataUsed => ⟨clones, dataUsed, []⟩
  | _ + 1, [], dataUsed => ⟨[], dataUsed, []⟩
  | n + 1, clone :: rest, dataUsed =>
    let dataUsed := clone.countBytes build (n + 1) dataUsed
    if clone.isCompleted build (n + 1) (dataUsed clone.frame) then
      (completeMappings build (clone.leaves build (n + 1)) rest dataUsed).behind
        ⟨clone.id, dataUsed clone.frame⟩
    else ⟨clone.advance build (n + 1) (dataUsed clone.frame) :: rest, dataUsed, []⟩

/-! ## From the clones to the interrupts -/

/-- A frame with data has mappings. -/
structure MappedFrame extends Frame where
  mapped : mappings ≠ []

/-- The pin, the simulated hardware and the device. A clone has the number of its frame. -/
structure FrameWorld where
  sim : HardwareSimulation
  sgdma : Sgdma
  lastMappingsCompleted : BitVec 32
  clones : List Clone
  dataUsed : DataUsed
  bufferVirtual : BitVec 64
  /-- What is not yet programmed of the frame that was cloned last. -/
  leading : List KsMapping
  /-- The frames that were cloned and the clones that were deleted so far. -/
  frames : List MappedFrame
  released : List Release
  /-- The mappings of each clone that the passes completed, and those that they had completed at the
  last interrupt. -/
  completed : Nat → Nat
  reported : Nat → Nat
  /-- The entries that were completed since. -/
  unreported : List SgEntry

namespace FrameWorld

/-- The hardware is started. -/
def started (imageSize : BitVec 32) (sgdma : Sgdma) : FrameWorld where
  sim := (HardwareSimulation.created.start imageSize true).1
  sgdma := sgdma
  lastMappingsCompleted := 0
  clones := []
  dataUsed := fun _ => 0
  bufferVirtual := 0
  leading := []
  frames := []
  released := []
  completed := fun _ => 0
  reported := fun _ => 0
  unreported := []

/-- The next frame is cloned when the one before is programmed. -/
def clone (frame : MappedFrame) (w : FrameWorld) : Option FrameWorld :=
  if w.leading = [] then
    let id := w.frames.length
    some { w with
      clones := w.clones ++ [⟨id, id, frame.mappings⟩]
      dataUsed := Function.update w.dataUsed id 0
      bufferVirtual := frame.data
      leading := frame.mappings
      frames := w.frames ++ [frame] }
  else none

/-- Some of the mappings that are left are programmed for the clone that was made last. -/
def program (allocated : Option Nat) (mappingsCount : BitVec 32) (w : FrameWorld) :
    Option FrameWorld :=
  if w.leading ≠ [] ∧ mappingsCount.toNat ≤ w.leading.length ∧
      w.sim.mayAllocate allocated = true then
    let (sim, mappingsUsed, bufferVirtual) :=
      w.sim.programScatterGatherMappings allocated (w.frames.length - 1) w.bufferVirtual
        (fun i => w.leading.getD i default) mappingsCount
    some { w with
      sim := sim
      bufferVirtual := bufferVirtual
      leading := w.leading.drop mappingsUsed.toNat }
  else none

/-- What the stream pointers of the clones point to. -/
def mappings (w : FrameWorld) (id i : Nat) : KsMapping :=
  match w.clones.find? fun c => c.id = id with
  | some c => c.mappings.getD i default
  | none => default

/-- What an entry completes. -/
def completeEntries (entries : List SgEntry) (completed : Nat → Nat) : Nat → Nat :=
  entries.foldl (fun completed entry =>
    Function.update completed entry.cloneEntry
      (completed entry.cloneEntry + entry.byteCount.toNat)) completed

def pass (w : FrameWorld) : Option FrameWorld :=
  (Prog.exec Sgdma.act Sgdma.answer (w.sim.fillScatterGatherBuffers w.mappings) w.sgdma).map
    fun x => { w with
      sim := x.1.1
      sgdma := x.2
      completed := completeEntries w.sim.scatterGatherMappings w.completed
      unreported := w.unreported ++ w.sim.scatterGatherMappings }

/-- What `Interrupt` passes to `CompleteMappings`. -/
def increase (w : FrameWorld) : BitVec 32 := w.sim.numMappingsCompleted - w.lastMappingsCompleted

def interrupt (build : PointerBuild) (w : FrameWorld) : FrameWorld :=
  let c := completeMappings build w.increase.toNat w.clones w.dataUsed
  { w with
    lastMappingsCompleted := w.sim.numMappingsCompleted
    clones := c.clones
    dataUsed := c.dataUsed
    released := w.released ++ c.released
    reported := w.completed
    unreported := [] }

end FrameWorld

inductive FrameEvent
  | clone (frame : MappedFrame)
  | program (allocated : Option Nat) (mappingsCount : BitVec 32)
  | pass
  | interrupt

def frameMachine (build : PointerBuild) : Machine FrameWorld FrameEvent where
  step
    | .clone frame, w => w.clone frame
    | .program allocated mappingsCount, w => w.program allocated mappingsCount
    | .pass, w => w.pass
    | .interrupt, w => some (w.interrupt build)

/-! ## The pin -/

structure QueuedFrame extends Frame where
  id : Nat

/-- A pin with its queue, from the leading edge on. -/
structure PinStream where
  ksState : KsState
  members : PinMembers
  sim : HardwareSimulation
  queue : List QueuedFrame
  clones : List Clone
  dataUsed : DataUsed
  /-- `BufferVirtual` in the context of each clone. -/
  bufferVirtual : Nat → BitVec 64
  previousStreamPointer : Option Nat
  pendIo : Bool
  /-- The frames that were queued and the clones that were made so far. -/
  frames : Nat
  cloned : Nat
  /-- A clone was used that had been deleted. -/
  faulted : Bool
  /-- The mappings that were programmed, by the frame and their place in it. -/
  programmed : List (Nat × Nat)

/-- The answers to the calls for one frame. -/
structure ProcessAnswers where
  /-- `KsStreamPointerClone`. -/
  clone : NtStatus
  /-- The block for the entry. -/
  allocated : Option Nat
  /-- Locking the next frame, if there is one. -/
  advance : NtStatus

namespace PinStream

def created : PinStream where
  ksState := .stop
  members := .created
  sim := .created
  queue := []
  clones := []
  dataUsed := fun _ => 0
  bufferVirtual := fun _ => 0
  previousStreamPointer := none
  pendIo := false
  frames := 0
  cloned := 0
  faulted := false
  programmed := []

/-- A frame comes to the end of the queue. -/
def enqueue (frame : Frame) (w : PinStream) : PinStream :=
  { w with queue := w.queue ++ [⟨frame, w.frames⟩], frames := w.frames + 1 }

def cloneIds (w : PinStream) : List Nat := w.clones.map Clone.id

/-- The clone for the leading edge is a new one or the one that is left from before. `none` if there
can be no new one. -/
def clonePointer (answers : ProcessAnswers) (leading : QueuedFrame) (w : PinStream) :
    Option (Nat × PinStream) :=
  match w.previousStreamPointer with
  | none =>
    if ntSuccess answers.clone then
      let id := w.cloned
      some (id, { w with
        clones := w.clones ++ [⟨id, leading.id, leading.mappings⟩]
        dataUsed := Function.update w.dataUsed leading.id 0
        bufferVirtual := Function.update w.bufferVirtual id leading.data
        cloned := w.cloned + 1 })
    else none
  | some id => some (id, { w with faulted := w.faulted || decide (id ∉ w.cloneIds) })

/-- Program the leading edge for the clone. The number of the mappings that were used goes with
it. -/
def programLeading (answers : ProcessAnswers) (leading : QueuedFrame) (id : Nat) (w : PinStream) :
    BitVec 32 × PinStream :=
  let remaining := BitVec.ofNat 32 leading.mappings.length
  let (sim, mappingsUsed, bufferVirtual) :=
    w.sim.programScatterGatherMappings answers.allocated id (w.bufferVirtual id)
      (fun i => leading.mappings.getD i default) remaining
  (mappingsUsed, { w with
    sim := sim
    bufferVirtual := Function.update w.bufferVirtual id bufferVirtual
    previousStreamPointer := if mappingsUsed = remaining then none else some id
    programmed := w.programmed ++
      (List.range mappingsUsed.toNat).map fun i => (leading.id, i) })

/-- The status when the leading edge moves on to what is left of the queue. -/
def advanceStatus (answers : ProcessAnswers) (rest : List QueuedFrame) : NtStatus :=
  if rest = [] then statusDeviceNotReady else answers.advance

/-- The loop of `Process` from the leading edge on, while the status is a success. The status is
that at its end. The hardware takes all mappings of a frame or none, so the leading edge leaves the
frame when any are used. -/
def processLoop (answers : Nat → ProcessAnswers) :
    List QueuedFrame → PinStream → NtStatus × PinStream
  | [], w => (statusDeviceNotReady, { w with queue := [] })
  | leading :: rest, w =>
    let now := answers leading.id
    if leading.data = 0 then
      let status := advanceStatus now rest
      if ntSuccess status then processLoop answers rest w else (status, { w with queue := rest })
    else
      match w.clonePointer now leading with
      | none => (now.clone, { w with queue := leading :: rest })
      | some (id, w) =>
        let (mappingsUsed, w) := w.programLeading now leading id
        if mappingsUsed ≠ 0 then
          let status := advanceStatus now rest
          if ntSuccess status then processLoop answers rest w
          else (status, { w with queue := rest })
        else (statusPending, { w with queue := leading :: rest })

/-- `locked` tells whether the leading edge could be locked. -/
def process (locked : Bool) (answers : Nat → ProcessAnswers) (w : PinStream) :
    NtStatus × PinStream :=
  if locked = true ∧ w.queue ≠ [] then
    let (status, w) := processLoop answers w.queue w
    let status := if status = statusDeviceNotReady then statusSuccess else status
    (status, { w with pendIo := w.pendIo || !ntSuccess status || status = statusPending })
  else (statusPending, { w with pendIo := true })

/-- All clones are deleted. -/
def cleanupReferences (w : PinStream) : PinStream :=
  { w with
    clones := []
    dataUsed := w.clones.foldl (fun dataUsed c => Function.update dataUsed c.frame 0) w.dataUsed }

def complete (build : PointerBuild) (numMappings : BitVec 32) (w : PinStream) : PinStream :=
  let c := completeMappings build numMappings.toNat w.clones w.dataUsed
  { w with clones := c.clones, dataUsed := c.dataUsed }

/-! ### Transitions -/

def act : (o : SetStateCall) → PinStream → o.Res → Option PinStream
  | .cleanupReferences, w, _ => some w.cleanupReferences
  | _, w, _ => some w

def answer (answers : SetStateCall → NtStatus) : (o : SetStateCall) → PinStream → o.Res
  | .cleanupReferences, _ => (statusSuccess : NtStatus)
  | .releaseHardwareResources, _ | .releaseClock, _ => ()
  | .acquireHardwareResources, _ => answers .acquireHardwareResources
  | .start, _ => answers .start
  | .pause pausing, _ => answers (.pause pausing)
  | .stop, _ => answers .stop
  | .getReferenceClock, _ => answers .getReferenceClock

/-- The device answers as it likes. -/
def setState (toState : KsState) (answers : SetStateCall → NtStatus) (w : PinStream) :
    Option PinStream :=
  if w.ksState.adjacent toState then
    (Prog.exec act (answer answers) (w.members.setState pinCalls toState w.ksState) w).map
      fun x => { x.2 with ksState := w.ksState.after toState x.1.1, members := x.1.2 }
  else none

end PinStream

inductive PinEvent
  | enqueue (frame : Frame)
  | process (locked : Bool) (answers : Nat → ProcessAnswers)
  | completeMappings (numMappings : BitVec 32)
  | setState (toState : KsState) (answers : SetStateCall → NtStatus)

/-- The pin processes in `KSSTATE_RUN` only. -/
def pinMachine (build : PointerBuild) : Machine PinStream PinEvent where
  step
    | .enqueue frame, w => some (w.enqueue frame)
    | .process locked answers, w =>
      if w.ksState = .run then some (w.process locked answers).2 else none
    | .completeMappings numMappings, w => some (w.complete build numMappings)
    | .setState toState answers, w => w.setState toState answers

end Capture

end Xadma
