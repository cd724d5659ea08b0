import Xadma.Avsadma.HardwareSimulation
import Xadma.Avsadma.PinState

/-!
# The capture pin and the simulated hardware (`avsadma/capture.cpp`, `avsadma/hwsim.cpp`)

The pin takes its transitions and, in `KSSTATE_RUN`, programs mappings. `Pause` and `Stop` wait for
the event while the hardware runs. The hardware either takes passes at any time
(`simulationThreads`) or is driven by what the code schedules (`scheduledThreads`): the timer
queues `SimulatedInterrupt`, whose body is compiled out, and the service routine queues no DPC.
-/

namespace Xadma

namespace Capture

/-! ## Calls -/

inductive SimOp
  | acquireHardwareResources
  | releaseHardwareResources
  | getReferenceClock
  | releaseClock
  | cleanupReferences
  | start (imageSize : BitVec 32)
  | readHardwareState
  | setStopHardware
  | waitHardwareEvent
  | setPaused
  | unpause
  /-- What `Stop` does behind the wait. -/
  | finishStop
  | programScatterGatherMappings (clone : Nat) (buffer : BitVec 64) (mappings : List KsMapping)
    (mappingsCount : BitVec 32)
  /-- The end of `SetState`. -/
  | storeState (ksState : KsState) (members : PinMembers)
  deriving DecidableEq

/-- The block of an entry is allocated or not. -/
abbrev SimOp.Res : SimOp → Type
  | .acquireHardwareResources | .getReferenceClock | .start _ => NtStatus
  | .readHardwareState => HardwareState
  | .programScatterGatherMappings .. => Option Nat
  | _ => Unit

abbrev SimProg := Prog SimOp SimOp.Res

def SimOp.perform (o : SimOp) : SimProg o.Res := Prog.perform o

/-- `if (m_HardwareState == HardwareRunning)` with the wait; whether the hardware was running. -/
def waitStopped : SimProg Bool := do
  let hardwareState : HardwareState ← SimOp.readHardwareState.perform
  if hardwareState = .running then do
    SimOp.setStopHardware.perform
    SimOp.waitHardwareEvent.perform
    return true
  else return false

def simulationPause (pausing : Bool) : SimProg NtStatus :=
  if pausing then do
    let waited ← waitStopped
    Prog.when (waited = true) SimOp.setPaused.perform
    return statusSuccess
  else do
    SimOp.unpause.perform
    return statusSuccess

def simulationStop : SimProg NtStatus := do
  let _ ← waitStopped
  SimOp.finishStop.perform
  return statusSuccess

/-- The device passes the calls on to the simulation. -/
def simulationCalls (imageSize : BitVec 32) : PinCalls SimOp SimOp.Res where
  acquireHardwareResources := SimOp.acquireHardwareResources.perform
  releaseHardwareResources := SimOp.releaseHardwareResources.perform
  start := (SimOp.start imageSize).perform
  pause := simulationPause
  stop := simulationStop
  cleanupReferences := do
    SimOp.cleanupReferences.perform
    return statusSuccess
  getReferenceClock := SimOp.getReferenceClock.perform
  releaseClock := SimOp.releaseClock.perform

/-- A transition of the pin. -/
def changeKsState (imageSize : BitVec 32) (toState fromState : KsState) (members : PinMembers) :
    SimProg Unit := do
  let (status, members) ← members.setState (simulationCalls imageSize) toState fromState
  (SimOp.storeState (fromState.after toState status) members).perform

/-- A call of `ProgramScatterGatherMappings`. -/
structure ProgramMappings where
  clone : Nat
  buffer : BitVec 64
  mappings : List KsMapping
  mappingsCount : BitVec 32

def ProgramMappings.perform (call : ProgramMappings) : SimProg Unit := do
  let _ : Option Nat ← (SimOp.programScatterGatherMappings call.clone call.buffer call.mappings
    call.mappingsCount).perform
  return ()

/-! ## The world -/

structure SimWorld where
  sim : HardwareSimulation
  sgdma : Sgdma
  members : PinMembers
  ksState : KsState
  /-- `m_IsrFakeDpc`, `m_VideoDpc` and the DPC of the device are queued. -/
  isrFakeDpc : Bool
  videoDpc : Bool
  admaDpc : Bool

def SimWorld.created (sgdma : Sgdma) : SimWorld :=
  ⟨.created, sgdma, .created, .stop, false, false, false⟩

namespace SimOp

/-- The answers that a call may get. A start fails only without the scratch buffer, a wait is over
when the event is set, and the pool gives a block only where there may be one more. -/
def possible : (o : SimOp) → o.Res → SimWorld → Bool
  | .start imageSize, status, w => status = (w.sim.start imageSize (ntSuccess status)).2
  | .readHardwareState, hardwareState, w => hardwareState = w.sim.hardwareState
  | .waitHardwareEvent, _, w => w.sim.hardwareEvent
  | .programScatterGatherMappings .., allocated, w => w.sim.mayAllocate allocated
  | _, _, _ => true

/-- What a call does to the object. The wait resets the event. -/
def simAfter : (o : SimOp) → o.Res → HardwareSimulation → HardwareSimulation
  | .start imageSize, status, s => (s.start imageSize (ntSuccess status)).1
  | .setStopHardware, _, s => { s with stopHardware := true }
  | .waitHardwareEvent, _, s => { s with hardwareEvent := false }
  | .setPaused, _, s => { s with hardwareState := .paused }
  | .unpause, _, s => s.unpause
  | .finishStop, _, s => s.finishStop
  | .programScatterGatherMappings clone buffer mappings mappingsCount, allocated, s =>
    (s.programScatterGatherMappings allocated clone buffer (fun i => mappings.getD i default)
      mappingsCount).1
  | .acquireHardwareResources, _, s | .releaseHardwareResources, _, s | .getReferenceClock, _, s
  | .releaseClock, _, s | .cleanupReferences, _, s | .readHardwareState, _, s
  | .storeState .., _, s => s

def ksStateAfter (ksState : KsState) : SimOp → KsState
  | .storeState ksState _ => ksState
  | _ => ksState

def membersAfter (members : PinMembers) : SimOp → PinMembers
  | .storeState _ members => members
  | _ => members

def effect (o : SimOp) (r : o.Res) (w : SimWorld) : SimWorld :=
  { w with
    sim := o.simAfter r w.sim
    ksState := o.ksStateAfter w.ksState
    members := o.membersAfter w.members }

end SimOp

namespace SimWorld

def act (o : SimOp) (w : SimWorld) (r : o.Res) : Option SimWorld :=
  if o.possible r w then some (o.effect r w) else none

/-- What `FakeHardware` does to the object and to the device. -/
def fakeHardware (mappings : Nat → Nat → KsMapping) (w : SimWorld) : Option SimWorld :=
  (Prog.exec Sgdma.act Sgdma.answer (w.sim.fakeHardware mappings) w.sgdma).map fun x =>
    { w with sim := x.1, sgdma := x.2 }

end SimWorld

/-! ## Threads -/

inductive SimThread
  | pin
  deriving DecidableEq

inductive SimAction
  | setState (toState : KsState) (imageSize : BitVec 32)
  | process (calls : List ProgramMappings)

/-- The pin processes in `KSSTATE_RUN` only. -/
def SimThread.start : SimThread → SimAction → SimWorld → Option (SimWorld × SimProg Unit)
  | .pin, .setState toState imageSize, w =>
    if w.ksState.adjacent toState then
      some (w, changeKsState imageSize toState w.ksState w.members)
    else none
  | .pin, .process calls, w =>
    if w.ksState = .run then some (w, Prog.forEach calls ProgramMappings.perform) else none

/-- `mappings` is what the stream pointers of the clones point to. -/
inductive PassEvent
  | fakeHardware (mappings : Nat → Nat → KsMapping)

def simulationThreads : Threads SimOp SimOp.Res SimWorld SimThread PassEvent SimAction where
  act := fun _ => SimWorld.act
  env := fun e w => match e with
    | .fakeHardware mappings => w.fakeHardware mappings
  start := SimThread.start

/-! ## What the code schedules -/

/-- The body of `SimulatedInterrupt` is compiled out. -/
def simulatedInterrupt (w : SimWorld) : SimWorld := w

/-- The service routine acknowledges the interrupt and has the pin process; the requests of the
DPCs are compiled out. -/
def admaInterruptMessageService (w : SimWorld) : SimWorld := w

inductive ScheduledEvent
  | timer
  | isrFakeDpc
  | interrupt
  | videoDpc (mappings : Nat → Nat → KsMapping)
  /-- `CompleteMappings` is all that `AdmaDpcForIsr` comes to. -/
  | admaDpc

def ScheduledEvent.step : ScheduledEvent → SimWorld → Option SimWorld
  | .timer, w =>
    if w.sim.isrTimer then
      some { w with sim := { w.sim with isrTimer := false }, isrFakeDpc := true }
    else none
  | .isrFakeDpc, w =>
    if w.isrFakeDpc then some (simulatedInterrupt { w with isrFakeDpc := false }) else none
  | .interrupt, w => some (admaInterruptMessageService w)
  | .videoDpc mappings, w =>
    if w.videoDpc then { w with videoDpc := false }.fakeHardware mappings else none
  | .admaDpc, w => if w.admaDpc then some { w with admaDpc := false } else none

def scheduledThreads : Threads SimOp SimOp.Res SimWorld SimThread ScheduledEvent SimAction where
  act := fun _ => SimWorld.act
  env := ScheduledEvent.step
  start := SimThread.start

abbrev SimConfig := Config SimOp SimOp.Res SimWorld SimThread

def simConfig (sgdma : Sgdma) : SimConfig := ⟨.created sgdma, fun _ => .ret ()⟩

end Capture

end Xadma
