import Xadma.Avsadma.CaptureDevice

/-!
# The capture pins and the threads (`avsadma/capture.cpp`, `avsadma/device.cpp`)

`CCapturePin::SetState` acquires the hardware for a pin, starts and stops it and releases it, here
in the Cyclone build. Plug and play, the pins and the service routine run at the same time. The
world also records where `PnpStart` and `PnpStop` are, which service routines are under way, and
whether one went through a pointer to nothing.
-/

namespace Xadma

namespace Capture

/-! ## The hardware -/

def controlGoMask : BitVec 32 := bitN 0
def clockVideoStatusOverflowMask : BitVec 32 := bitN 9
def csrResetMask : BitVec 32 := bitN 1

/-- The control word of the one descriptor, which is parked and raises interrupts. -/
def parkedDescriptorControl : BitVec 32 :=
  bitN 11 ||| bitN 13 ||| bitN 14 ||| 0xFF#32 <<< 16 ||| bitN 31

/-- Read a register and write it back. -/
def modifyReg (r : CaptureReg) (offset : Nat) (f : BitVec 32 → BitVec 32) : CaptureProg Unit := do
  let reg : BitVec 32 ← (CaptureOp.readReg r offset).perform
  (CaptureOp.writeReg r offset (f reg)).perform

def start : CaptureProg NtStatus := do
  (CaptureOp.writeReg .extendDescriptor 0x0 0).perform
  let pa : BitVec 64 ← (CaptureOp.readBufferPa .video).perform
  (CaptureOp.writeReg .extendDescriptor 0x4 (lowPart pa)).perform
  let size : BitVec 32 ← (CaptureOp.readBufferSize .video).perform
  (CaptureOp.writeReg .extendDescriptor 0x8 size).perform
  (CaptureOp.writeReg .extendDescriptor 0xC 0x80800000).perform
  (CaptureOp.writeReg .extendDescriptor 0x10 0x00010001).perform
  (CaptureOp.writeReg .extendDescriptor 0x1C parkedDescriptorControl).perform
  modifyReg .csr 0x4 fun reg => reg ||| bitN 4
  modifyReg .frameBuffer 0x0 fun reg => reg ||| controlGoMask
  modifyReg .clockVideo 0x4 fun reg => reg &&& ~~~ clockVideoStatusOverflowMask
  modifyReg .clockVideo 0x0 fun reg => reg ||| controlGoMask
  return statusSuccess

def stop : CaptureProg NtStatus := do
  modifyReg .clockVideo 0x0 fun reg => reg &&& ~~~ controlGoMask
  modifyReg .frameBuffer 0x0 fun reg => reg &&& ~~~ controlGoMask
  modifyReg .csr 0x4 fun reg => reg ||| csrResetMask
  return statusSuccess

def pause (pausing : Bool) : CaptureProg NtStatus := do
  let _ : NtStatus ← if pausing then stop else start
  return statusSuccess

def releaseHardwareResources : CaptureProg Unit := do
  CaptureOp.clearCaptureSink.perform
  CaptureOp.exchangePins.perform

def acquireHardwareResources (pin : Nat) : CaptureProg NtStatus := do
  let old : Nat ← CaptureOp.compareExchangePins.perform
  if old = 0 then do
    let status : NtStatus ← CaptureOp.createImageSynth.perform
    if ntSuccess status then do
      (CaptureOp.setCaptureSink pin).perform
      return status
    else do
      releaseHardwareResources
      return status
  else return statusSharingViolation

/-! ## `SetState` -/

/-- Stop the hardware if the pin did anything to it. -/
def stopHardware (pin : Nat) : CaptureProg Unit := do
  let p : CapturePin ← (CaptureOp.readPin pin).perform
  Prog.when (p.hardwareState ≠ .stopped) (do
    let _ : NtStatus ← stop
    (CaptureOp.setHardwareState pin .stopped).perform)

/-- Start the hardware, or unpause it. -/
def startHardwareFrom : HardwareState → CaptureProg NtStatus
  | .paused => pause false
  | .stopped | .running => start

/-- The stream pointers that it cleans up and the clock that it gets are left out. -/
def setState (pin : Nat) (toState fromState : KsState) : CaptureProg NtStatus :=
  match toState with
  | .stop => do
    stopHardware pin
    let p : CapturePin ← (CaptureOp.readPin pin).perform
    Prog.when (p.acquiredResources = true) (do
      releaseHardwareResources
      (CaptureOp.setAcquiredResources pin false).perform)
    return statusSuccess
  | .acquire =>
    if fromState = .stop then do
      let status : NtStatus ← acquireHardwareResources pin
      (CaptureOp.setAcquiredResources pin (ntSuccess status)).perform
      return status
    else do
      stopHardware pin
      return statusSuccess
  | .pause =>
    if fromState = .run then do
      let status : NtStatus ← pause true
      Prog.when (ntSuccess status = true) (CaptureOp.setHardwareState pin .paused).perform
      return status
    else return statusSuccess
  | .run => do
    let p : CapturePin ← (CaptureOp.readPin pin).perform
    let status : NtStatus ← startHardwareFrom p.hardwareState
    Prog.when (ntSuccess status = true) (CaptureOp.setHardwareState pin .running).perform
    return status

/-! ## Routines of the threads -/

/-- AVStream sets its flag behind a start that succeeds. -/
def startDevice (traced : Bool) (resources : List AdmaResource) : CaptureProg Unit := do
  let status ← pnpStart .cyclone4 traced resources
  Prog.when (ntSuccess status = true) (CaptureOp.setStarted true).perform

def stopDevice : CaptureProg Unit := do
  pnpStop .cyclone4
  (CaptureOp.setStarted false).perform

def changeState (pin : Nat) (toState fromState : KsState) : CaptureProg Unit := do
  let _ : NtStatus ← setState pin toState fromState
  return ()

def serviceInterrupt (traced : Bool) : CaptureProg Unit := do
  let _ : Bool ← interruptMessageService traced
  CaptureOp.returnFromIsr.perform

/-! ## The world -/

/-- How far the starting and stopping of the device is. -/
inductive CapturePhase
  /-- No start was begun since the BAR was unmapped or the device stopped. -/
  | down
  | starting
  /-- The register pointers that the service routine reads are assigned. -/
  | up
  deriving DecidableEq, Repr

structure CaptureWorld where
  device : CaptureDevice
  phase : CapturePhase
  /-- The service routines that are under way. -/
  inIsr : List Nat
  /-- Those that saw a completion and did not yet read the capture sink. -/
  completing : List Nat
  /-- One of them went through a pointer to nothing. -/
  faulted : Bool

def CaptureWorld.created : CaptureWorld := ⟨zeroed, .down, [], [], false⟩

/-- Plug and play, the pins and the service routines. There is any number of the latter, because
each message has an interrupt object of its own. -/
inductive CaptureThread
  | pnp
  | pin (pin : Nat)
  | isr (id : Nat)
  deriving DecidableEq

inductive CaptureAction
  | start (resources : List AdmaResource)
  | stop
  | setState (toState fromState : KsState)
  | interrupt

/-- The pointers that the service routine reads. -/
def isrRegs : List CaptureReg := [.csr, .response, .frameBuffer]

/-- Each of them points into a BAR that is mapped. -/
def CaptureDevice.coversIsr (d : CaptureDevice) : Bool := isrRegs.all d.covers

/-- The device does not answer otherwise. -/
def CaptureOp.possible (op : CaptureOp) (d : CaptureDevice) (r : op.Res) : Bool :=
  match op.look d with
  | some r' => r' = r
  | none => true

def CaptureOp.phaseAfter (phase : CapturePhase) : CaptureOp → CapturePhase
  | .createFilterFactory => .starting
  | .assignReg .frameBuffer => .up
  | .unmapIoSpace .dma | .setStarted false => .down
  | _ => phase

def CaptureOp.completingAfter (id : Nat) (completing : List Nat) :
    (op : CaptureOp) → op.Res → List Nat
  | .readReg .csr _, reg => if reg &&& csrIrqSetMask ≠ 0 then id :: completing else completing
  | .readCaptureSink, _ => completing.filter (· ≠ id)
  | _, _ => completing

def CaptureOp.inIsrAfter (id : Nat) (inIsr : List Nat) : CaptureOp → List Nat
  | .returnFromIsr => inIsr.filter (· ≠ id)
  | _ => inIsr

/-- The step of a service routine finds a pointer that it must not go through. -/
def CaptureOp.faults (d : CaptureDevice) (op : CaptureOp) : Bool :=
  !d.coversIsr || op = .pinAttemptProcessing none

/-- What is recorded about a call. -/
def CaptureWorld.record (w : CaptureWorld) (op : CaptureOp) (r : op.Res) :
    CaptureThread → CaptureWorld
  | .pnp => { w with phase := op.phaseAfter w.phase }
  | .pin _ => w
  | .isr id =>
    { w with
      inIsr := op.inIsrAfter id w.inIsr
      completing := op.completingAfter id w.completing r
      faulted := w.faulted || op.faults w.device }

def CaptureWorld.act (t : CaptureThread) (op : CaptureOp) (w : CaptureWorld) (r : op.Res) :
    Option CaptureWorld :=
  if op.possible w.device r then some { w.record op r t with device := op.effect r w.device }
  else none

def CaptureWorld.enterIsr (w : CaptureWorld) (id : Nat) : CaptureWorld :=
  { w with
    inIsr := id :: w.inIsr
    faulted := w.faulted || !w.device.coversIsr }

/-- A service routine is invoked only if it is connected. -/
def CaptureThread.start (traced : Bool) (t : CaptureThread) (a : CaptureAction) (w : CaptureWorld) :
    Option (CaptureWorld × CaptureProg Unit) :=
  match t, a with
  | .pnp, .start resources => some (w, startDevice traced resources)
  | .pnp, .stop => some (w, stopDevice)
  | .pin n, .setState toState fromState => some (w, changeState n toState fromState)
  | .isr id, .interrupt =>
    if w.device.connected then some (w.enterIsr id, serviceInterrupt traced) else none
  | _, _ => none

def captureThreads (traced : Bool) :
    Threads CaptureOp CaptureOp.Res CaptureWorld CaptureThread Empty CaptureAction where
  act := CaptureWorld.act
  env := fun e _ => e.elim
  start := CaptureThread.start traced

abbrev CaptureLabel := Label CaptureOp CaptureOp.Res CaptureThread Empty CaptureAction

/-- A device as created, before the first start. -/
def captureConfig : Config CaptureOp CaptureOp.Res CaptureWorld CaptureThread :=
  ⟨.created, fun _ => .ret ()⟩

end Capture

end Xadma
