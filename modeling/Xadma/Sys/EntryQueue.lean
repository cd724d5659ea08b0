import Xadma.Libxdma.Interrupt
import Xadma.Sys.FileIo
import Xadma.Sys.UserEvent

/-!
# Device files and the entry queue (`sys/file_io.c`, `sys/driver.c`)

`EvtDeviceFileCreate` fills the context of a file from its name. All requests arrive at the entry
queue: `EvtIoRead`, `EvtIoWrite` and `EvtIoDeviceControl` complete them or forward them to the queue
of an engine. Here their calls to the framework and to the engine are atomic, with any answers.
-/

namespace Xadma

namespace Entry

variable {w : PointerWidth}

def statusNotSupported : NtStatus := 0xC00000BB#32

/-! ## Device files -/

/-- The queue of an engine, whose context `EngineCreateQueue` stores the engine in. -/
structure IoQueue where
  engine : Option EngineSlot
  deriving DecidableEq, Repr

/-- What the union of the file context holds; a new context is zeroed. -/
inductive FileTarget (w : PointerWidth)
  | null
  | bar (bar : BitVec w.bits)
  | event (index : Nat)
  | engine (engine : EngineSlot)

def FileTarget.asBar : FileTarget w → BitVec w.bits
  | .bar addr => addr
  | _ => 0

structure File (w : PointerWidth) where
  devType : DevNodeType
  u : FileTarget w
  queue : Option IoQueue

/-- The engine part of `XDMA_DEVICE` that a file reads. -/
structure EngineInfo where
  enabled : Bool
  type : EngineType
  poll : Bool

/-- What `EngineCreateQueue` does when `WdfIoQueueCreate` returns `create`. -/
def engineCreateQueue (create : NtStatus) (engine : EngineSlot) : NtStatus × Option IoQueue :=
  if !ntSuccess create then (create, none) else (create, some ⟨some engine⟩)

/-- The loop of `EvtDevicePrepareHardware` that creates a queue for each enabled engine. -/
def createQueues (engine : EngineSlot → EngineInfo) (create : EngineSlot → NtStatus) :
    List EngineSlot → (EngineSlot → Option IoQueue) → NtStatus × (EngineSlot → Option IoQueue)
  | [], engineQueue => (statusSuccess, engineQueue)
  | e :: es, engineQueue =>
    if (engine e).enabled then
      let (status, queue) := engineCreateQueue (create e) e
      if !ntSuccess status then (status, engineQueue)
      else createQueues engine create es (Function.update engineQueue e queue)
    else createQueues engine create es engineQueue

/-- The device context after `EvtDevicePrepareHardware`. -/
structure DeviceContext (w : PointerWidth) where
  bar : Nat → BitVec w.bits
  configBarIdx : Nat
  userBarIdx : Int
  bypassBarIdx : Int
  engine : EngineSlot → EngineInfo
  engineQueue : EngineSlot → Option IoQueue
  queued : ∀ e ∈ engineSlots, (engine e).enabled = true → engineQueue e = some ⟨some e⟩

def fileNameLut : List (String × DevNodeType × Nat) :=
  [("\\h2c_0", .h2c, 0), ("\\c2h_0", .c2h, 0), ("\\h2c_1", .h2c, 1), ("\\c2h_1", .c2h, 1),
    ("\\h2c_2", .h2c, 2), ("\\c2h_2", .c2h, 2), ("\\h2c_3", .h2c, 3), ("\\c2h_3", .c2h, 3),
    ("\\user", .user, 0), ("\\control", .control, 0), ("\\bypass", .bypass, 0),
    ("\\event_0", .events, 0), ("\\event_1", .events, 1), ("\\event_2", .events, 2),
    ("\\event_3", .events, 3), ("\\event_4", .events, 4), ("\\event_5", .events, 5),
    ("\\event_6", .events, 6), ("\\event_7", .events, 7), ("\\event_8", .events, 8),
    ("\\event_9", .events, 9), ("\\event_10", .events, 10), ("\\event_11", .events, 11),
    ("\\event_12", .events, 12), ("\\event_13", .events, 13), ("\\event_14", .events, 14),
    ("\\event_15", .events, 15)]

/-- The type and the index of a device node. -/
def getDevNodeType (fileName : String) : DevNodeType × Nat :=
  (fileNameLut.lookup fileName).getD (.unknown, 0)

/-- What `EvtDeviceFileCreate` does to the engine of a DMA node. -/
inductive FileEngineCall
  | engineRingSetup
  | engineDisableInterrupt
  | engineEnableInterrupt
  deriving DecidableEq, Repr

/-- The file of a DMA node. -/
def createEngineFile (ctx : DeviceContext w) (devType : DevNodeType) (e : EngineSlot) :
    Except NtStatus (File w × List FileEngineCall) :=
  let engine := ctx.engine e
  if engine.enabled = false then .error statusInvalidParameter
  else
    let setup := if engine.type = .st ∧ e.dir = .c2h then [.engineRingSetup] else []
    let interrupt := if engine.poll then .engineDisableInterrupt else .engineEnableInterrupt
    .ok (⟨devType, .engine e, ctx.engineQueue e⟩, setup ++ [interrupt])

/-- The file that is opened, or the status that the creation fails with. -/
def evtDeviceFileCreate (ctx : DeviceContext w) (fileName : Option String) :
    Except NtStatus (File w × List FileEngineCall) :=
  match fileName with
  | none => .error statusInvalidParameter
  | some fileName =>
    match getDevNodeType fileName with
    | (.control, _) => .ok (⟨.control, .bar (ctx.bar ctx.configBarIdx), none⟩, [])
    | (.user, _) =>
      if ctx.userBarIdx < 0 then .error statusInvalidParameter
      else .ok (⟨.user, .bar (ctx.bar ctx.userBarIdx.toNat), none⟩, [])
    | (.bypass, _) =>
      if ctx.bypassBarIdx < 0 then .error statusInvalidParameter
      else .ok (⟨.bypass, .bar (ctx.bar ctx.bypassBarIdx.toNat), none⟩, [])
    | (.h2c, index) => createEngineFile ctx .h2c ⟨.h2c, index⟩
    | (.c2h, index) => createEngineFile ctx .c2h ⟨.c2h, index⟩
    | (.events, index) => .ok (⟨.events, .event index, none⟩, [])
    | (.ah2c, _) | (.ac2h, _) | (.unknown, _) => .error statusInvalidParameter

/-! ## Calls -/

inductive EntryOp (w : PointerWidth)
  /-- `GetQueueContext` of a handle, which the framework does not survive if it is `NULL`. -/
  | getQueueContext (queue : Option IoQueue)
  | forwardToIoQueue (queue : Option IoQueue)
  /-- With the size of the buffer. -/
  | retrieveOutputMemory
  | retrieveInputMemory
  | copyFromBuffer (size : Nat)
  /-- With the `ULONG` that was copied. -/
  | copyToBuffer
  | clearEvent (index : Nat)
  | waitForEvent (index : Nat)
  | readRegisterBuffer (access : RegisterAccess w)
  | writeRegisterBuffer (access : RegisterAccess w)
  | engineStartPerf
  | engineGetPerf
  | readControl
  | writeControlW1S (bits : BitVec 32)
  | writeControlW1C (bits : BitVec 32)
  | assignAddressMode (addrMode : BitVec 32)
  | complete (status : NtStatus) (information : Nat)
  deriving DecidableEq

abbrev EntryOp.Res : EntryOp w → Type
  | .forwardToIoQueue _ | .retrieveInputMemory | .copyFromBuffer _ | .waitForEvent _ => NtStatus
  | .retrieveOutputMemory => NtStatus × Nat
  | .copyToBuffer => NtStatus × BitVec 32
  | .readControl => BitVec 32
  | _ => Unit

abbrev EntryProg (w : PointerWidth) := Prog (EntryOp w) EntryOp.Res

def EntryOp.perform (o : EntryOp w) : EntryProg w o.Res := Prog.perform o

/-! ## Reads and writes -/

def readBarToRequest (deviceOffset : BitVec 64) (length bar : BitVec w.bits) :
    EntryProg w NtStatus := do
  let offset := deviceOffset.setWidth w.bits
  if length = 0 then return statusInvalidDeviceRequest
  else do
    let readAddr := bar + offset
    let requestMemory : NtStatus × Nat ← EntryOp.retrieveOutputMemory.perform
    if !ntSuccess requestMemory.1 then return requestMemory.1
    else do
      (EntryOp.readRegisterBuffer (barAccess readAddr length)).perform
      return requestMemory.1

def writeBarFromRequest (deviceOffset : BitVec 64) (length bar : BitVec w.bits) :
    EntryProg w NtStatus := do
  let offset := deviceOffset.setWidth w.bits
  if length = 0 then return statusInvalidDeviceRequest
  else do
    let writeAddr := bar + offset
    let status : NtStatus ← EntryOp.retrieveInputMemory.perform
    if !ntSuccess status then return status
    else do
      (EntryOp.writeRegisterBuffer (barAccess writeAddr length)).perform
      return status

def FileTarget.asEvent : FileTarget w → Nat
  | .event i => i
  | _ => 0

def evtReadUserEvent (file : File w) (length : BitVec w.bits) : EntryProg w NtStatus := do
  if length.toNat ≠ sizeofBoolean then return statusInvalidParameter
  else do
    (EntryOp.clearEvent file.u.asEvent).perform
    let _ : NtStatus ← (EntryOp.waitForEvent file.u.asEvent).perform
    let outputMem : NtStatus × Nat ← EntryOp.retrieveOutputMemory.perform
    if !ntSuccess outputMem.1 then return outputMem.1
    else if outputMem.2 ≠ sizeofBoolean then return statusInvalidParameter
    else do
      let status : NtStatus ← (EntryOp.copyFromBuffer outputMem.2).perform
      if !ntSuccess status then return status
      else do
        (EntryOp.complete status outputMem.2).perform
        return status

/-- The request is completed here with the status it failed with. -/
def completeFailed (status : NtStatus) : EntryProg w Unit :=
  Prog.when ((!ntSuccess status) = true) (EntryOp.complete status 0).perform

/-- The request is completed here with what a helper returned, if that succeeded. -/
def completeDone (information : Nat) (status : NtStatus) : EntryProg w Unit :=
  Prog.when (ntSuccess status = true) (EntryOp.complete status information).perform

def evtIoRead (file : File w) (deviceOffset : BitVec 64) (length : BitVec w.bits) :
    EntryProg w Unit := do
  match file.devType with
  | .user | .control | .bypass => do
    let status ← readBarToRequest deviceOffset length file.u.asBar
    completeDone length.toNat status
    completeFailed status
  | .events => do
    let status ← evtReadUserEvent file length
    completeFailed status
  | .c2h => do
    let status : NtStatus ← (EntryOp.forwardToIoQueue file.queue).perform
    completeFailed status
  | .h2c | .ah2c | .ac2h | .unknown => completeFailed statusInvalidDeviceRequest

def evtIoWrite (file : File w) (deviceOffset : BitVec 64) (length : BitVec w.bits) :
    EntryProg w Unit := do
  match file.devType with
  | .user | .control | .bypass => do
    let status ← writeBarFromRequest deviceOffset length file.u.asBar
    completeDone length.toNat status
    completeFailed status
  | .h2c => do
    let status : NtStatus ← (EntryOp.forwardToIoQueue file.queue).perform
    completeFailed status
  | .events | .c2h | .ah2c | .ac2h | .unknown => completeFailed statusInvalidDeviceRequest

/-! ## Device control -/

def fileDeviceUnknown : BitVec 32 := 0x22#32

/-- `CTL_CODE` with buffered transfer and any access. -/
def xdmaIoctl (index : BitVec 32) : BitVec 32 := fileDeviceUnknown <<< 16 ||| index <<< 2

def ioctlXdmaPerfStart : BitVec 32 := xdmaIoctl 0x1
def ioctlXdmaPerfGet : BitVec 32 := xdmaIoctl 0x3
def ioctlXdmaAddrmodeGet : BitVec 32 := xdmaIoctl 0x4
def ioctlXdmaAddrmodeSet : BitVec 32 := xdmaIoctl 0x5

def sizeofXdmaPerfData : Nat := 24
def sizeofUlong : Nat := 4

def xdmaCtrlNonIncrAddr : BitVec 32 := bitN 25

def ioctlGetPerf : EntryProg w NtStatus := do
  EntryOp.engineGetPerf.perform
  let requestMemory : NtStatus × Nat ← EntryOp.retrieveOutputMemory.perform
  if !ntSuccess requestMemory.1 then return requestMemory.1
  else (EntryOp.copyFromBuffer sizeofXdmaPerfData).perform

/-- The mode that is copied is what the control register says: 0 = inc, 1 = non-inc. -/
def ioctlGetAddrMode : EntryProg w NtStatus := do
  let _ : BitVec 32 ← EntryOp.readControl.perform
  let requestMemory : NtStatus × Nat ← EntryOp.retrieveOutputMemory.perform
  if !ntSuccess requestMemory.1 then return requestMemory.1
  else (EntryOp.copyFromBuffer sizeofUlong).perform

/-- The device's copy of the mode. -/
def writeNonIncrAddr (addrMode : BitVec 32) : EntryProg w Unit :=
  if addrMode ≠ 0 then (EntryOp.writeControlW1S xdmaCtrlNonIncrAddr).perform
  else (EntryOp.writeControlW1C xdmaCtrlNonIncrAddr).perform

def ioctlSetAddrMode : EntryProg w NtStatus := do
  let status : NtStatus ← EntryOp.retrieveInputMemory.perform
  if !ntSuccess status then return status
  else do
    let copied : NtStatus × BitVec 32 ← EntryOp.copyToBuffer.perform
    if !ntSuccess copied.1 then return copied.1
    else do
      writeNonIncrAddr copied.2
      (EntryOp.assignAddressMode copied.2).perform
      return copied.1

def evtIoDeviceControl (file : File w) (ioControlCode : BitVec 32) : EntryProg w Unit := do
  (EntryOp.getQueueContext file.queue).perform
  -- `queue->engine`
  if file.queue.bind IoQueue.engine = none then completeFailed statusInvalidParameter
  else if ioControlCode = ioctlXdmaPerfStart then do
    EntryOp.engineStartPerf.perform
    (EntryOp.complete statusSuccess 0).perform
  else if ioControlCode = ioctlXdmaPerfGet then do
    let status ← ioctlGetPerf
    completeDone sizeofXdmaPerfData status
    completeFailed status
  else if ioControlCode = ioctlXdmaAddrmodeGet then do
    let status ← ioctlGetAddrMode
    completeDone sizeofUlong status
    completeFailed status
  else if ioControlCode = ioctlXdmaAddrmodeSet then do
    let status ← ioctlSetAddrMode
    Prog.when (ntSuccess status = true) (EntryOp.complete statusSuccess 0).perform
    completeFailed status
  else completeFailed statusNotSupported

/-! ## Requests -/

inductive EntryRequest (w : PointerWidth)
  | read (deviceOffset : BitVec 64) (length : BitVec w.bits)
  | write (deviceOffset : BitVec 64) (length : BitVec w.bits)
  | deviceControl (ioControlCode : BitVec 32)
  deriving DecidableEq

/-- The routine that the entry queue calls for a request. -/
def EntryRequest.routine (file : File w) : EntryRequest w → EntryProg w Unit
  | .read deviceOffset length => evtIoRead file deviceOffset length
  | .write deviceOffset length => evtIoWrite file deviceOffset length
  | .deviceControl ioControlCode => evtIoDeviceControl file ioControlCode

/-- Every call succeeds, and buffers have the size of a `BOOLEAN`. -/
def succeeds {σ : Type} (o : EntryOp w) (_ : σ) : o.Res :=
  match o with
  | .forwardToIoQueue _ | .retrieveInputMemory | .copyFromBuffer _ | .waitForEvent _ =>
    statusSuccess
  | .retrieveOutputMemory => (statusSuccess, sizeofBoolean)
  | .copyToBuffer => (statusSuccess, 0)
  | .readControl => 0#32
  | .getQueueContext _ | .clearEvent _ | .readRegisterBuffer _ | .writeRegisterBuffer _
  | .engineStartPerf | .engineGetPerf | .writeControlW1S _ | .writeControlW1C _
  | .assignAddressMode _ | .complete .. => ()

/-- What becomes of a request. -/
inductive Answer
  | completed (status : NtStatus) (information : Nat)
  | forwarded (queue : Option IoQueue)
  deriving DecidableEq, Repr

/-- The answers to a request so far, from which the framework does not go on with a `NULL`
handle. -/
def answerAct : (o : EntryOp w) → List Answer → o.Res → Option (List Answer)
  | .getQueueContext none, _, _ => none
  | .forwardToIoQueue queue, answers, status =>
    some (if ntSuccess status then answers ++ [.forwarded queue] else answers)
  | .complete status information, answers, _ => some (answers ++ [.completed status information])
  | _, answers, _ => some answers

end Entry

end Xadma
