import Xadma.Libadma.Device
import Xadma.Sys.EntryQueue

/-!
# The entry points of the Altera driver (`ADMA_Driver/file_io.c`, `libadma/ainterrupt.c`)

What the framework calls for a file, for the queue of an engine and for an interrupt. The helpers
that both drivers have are those of the entry queue; the registers of an engine are reached through
one of its pointers. All calls get any answers.
-/

namespace Xadma

/-- The register pointers of an engine that some routine dereferences. -/
inductive RegPtr
  | regs
  | sgdma
  | modSgdmaCsr
  | modSgdmaStdDes
  deriving DecidableEq, Repr

def AdmaEngine.pointer (engine : AdmaEngine) : RegPtr → Option RegBlock
  | .regs => engine.regs
  | .sgdma => engine.sgdma
  | .modSgdmaCsr => engine.modSgdmaCsr
  | .modSgdmaStdDes => engine.modSgdmaStdDes

namespace Adma

open Entry (EntryOp EntryProg EngineInfo File IoQueue completeDone completeFailed)

variable {w : PointerWidth}

def csrGlobalInterruptMask : BitVec 32 := bitN 4

/-! ## Calls -/

inductive IoOp (w : PointerWidth)
  /-- A call for a request; the engine is the one that the queue of the file serves. -/
  | entry (engine : Option DirToDev) (o : EntryOp w)
  /-- An access of `ADMA_EngineProgramDma`. -/
  | program (engine : DirToDev) (o : AdmaOp)
  | engineInfo (engine : DirToDev)
  | initializeUsingRequest (engine : DirToDev)
  | markCancelableEx
  /-- `WdfDmaTransactionExecute`, up to the call of `ADMA_EngineProgramDma` if there is one. -/
  | beginExecute (engine : DirToDev)
  | endExecute (engine : DirToDev)
  /-- `EnginePollTransfer`, which reads a buffer of the host. -/
  | pollTransfer (engine : DirToDev)
  | unmarkCancelable
  | release (engine : DirToDev)
  | readCsrControl (engine : DirToDev)
  | writeCsrControl (engine : DirToDev) (value : BitVec 32)
  | writeIrqEnable (value : BitVec 32)
  | writeIrqStatus (value : BitVec 32)
  | readIrqRegs
  | queueDpcForIsr
  | acquireLock
  | releaseLock

abbrev IoOp.Res : IoOp w → Type
  | .entry _ o => o.Res
  | .program _ o => o.Res
  | .engineInfo _ => EngineInfo
  | .initializeUsingRequest _ | .markCancelableEx | .endExecute _ | .pollTransfer _
  | .unmarkCancelable | .release _ => NtStatus
  | .beginExecute _ => Option ProgramCall
  | .readCsrControl _ => BitVec 32
  | .queueDpcForIsr => Bool
  | _ => Unit

abbrev IoProg (w : PointerWidth) := Prog (IoOp w) IoOp.Res

def IoOp.perform (o : IoOp w) : IoProg w o.Res := Prog.perform o

/-- The register pointer that a call of the helpers dereferences. -/
def entryPointer : EntryOp w → Option RegPtr
  | .engineGetPerf | .readControl | .writeControlW1S _ | .writeControlW1C _ => some .regs
  | _ => none

/-- The register pointer that an access dereferences. `EngineStart` does no more than trace two
registers. -/
def programPointer (traced : Bool) : AdmaOp → Option RegPtr
  | .readDmaLastPtr | .writeDmaLastPtr _ => some .sgdma
  | .writeStatus _ => some .modSgdmaCsr
  | .writeReadAddress _ | .writeWriteAddress _ | .writeTransferLength _ | .writeControl _ =>
    some .modSgdmaStdDes
  | .engineStart => if traced then some .modSgdmaCsr else none
  | .writeA2pAddrLo0 _ | .writeA2pAddrHi0 _ | .writeDescriptor .. => none

/-- The engine and its register pointer that a call dereferences. The arguments of a trace are
evaluated in every release build, and in a debug build if its level is enabled: `traced`. -/
def IoOp.deref (traced : Bool) : IoOp w → Option (DirToDev × RegPtr)
  | .entry engine o => engine.bind fun engine => (entryPointer o).map fun ptr => (engine, ptr)
  | .program engine o => (programPointer traced o).map fun ptr => (engine, ptr)
  | .readCsrControl engine | .writeCsrControl engine _ => some (engine, .modSgdmaCsr)
  | _ => none

/-! ## The engine -/

/-- The pointer of an interrupt context to its engine may be `NULL`. -/
def engineEnableInterrupt : Option DirToDev → IoProg w Unit
  | none => .ret ()
  | some engine => do
    let reg : BitVec 32 ← (IoOp.readCsrControl engine).perform
    (IoOp.writeCsrControl engine (reg ||| csrGlobalInterruptMask)).perform

def engineDisableInterrupt : Option DirToDev → IoProg w Unit
  | none => .ret ()
  | some engine => do
    let reg : BitVec 32 ← (IoOp.readCsrControl engine).perform
    (IoOp.writeCsrControl engine (reg &&& ~~~ csrGlobalInterruptMask)).perform

def engineProgramDma (build : AdmaBuild) (d : AdmaDevice) (engine : DirToDev) (call : ProgramCall) :
    IoProg w Unit :=
  (admaEngineProgramDma build d.a2pMask call).mapOp (.program engine) fun _ r => r

/-! ## Device files -/

def fileNameLut : List (String × DevNodeType × Nat) :=
  [("\\ah2c_0", .ah2c, 0), ("\\ac2h_0", .ac2h, 0), ("\\user", .user, 0), ("\\control", .control, 0)]

def getDevNodeType (fileName : String) : DevNodeType × Nat :=
  (fileNameLut.lookup fileName).getD (.unknown, 0)

def barAddress (d : AdmaDevice) (k : Nat) : BitVec w.bits :=
  if h : k < admaMaxNumBars then (d.bar ⟨k, h⟩).elim 0 fun mapping => .ofNat _ mapping.address
  else 0

/-- The file of a DMA node; there is one channel. -/
def createEngineFile (d : AdmaDevice) (engineQueue : DirToDev → Option IoQueue)
    (devType : DevNodeType) (engine : DirToDev) : Except NtStatus (File w) :=
  if (d.engine engine).enabled = false then .error statusInvalidParameter
  else .ok ⟨devType, .engine ⟨engine, 0⟩, engineQueue engine⟩

/-- The file of a DMA node of the first driver, and its interrupt. `EngineRingSetup` touches no
register. -/
def createPolledFile (d : AdmaDevice) (engineQueue : DirToDev → Option IoQueue)
    (devType : DevNodeType) (engine : DirToDev) : IoProg w (Except NtStatus (File w)) :=
  match createEngineFile d engineQueue devType engine with
  | .error status => .ret (.error status)
  | .ok file => do
    let info : EngineInfo ← (IoOp.engineInfo engine).perform
    if info.poll then engineDisableInterrupt (some engine)
    else engineEnableInterrupt (some engine)
    return .ok file

/-- The file that is opened, or the status that the creation fails with. -/
def createFile (d : AdmaDevice) (engineQueue : DirToDev → Option IoQueue)
    (fileName : Option String) : IoProg w (Except NtStatus (File w)) :=
  match fileName with
  | none => .ret (.error statusInvalidParameter)
  | some fileName =>
    match getDevNodeType fileName with
    | (.control, _) => .ret (.ok ⟨.control, .bar (barAddress d d.configBarIdx), none⟩)
    | (.user, _) =>
      if d.userBarIdx < 0 then .ret (.error statusInvalidParameter)
      else .ret (.ok ⟨.user, .bar (barAddress d d.userBarIdx.toNat), none⟩)
    | (.bypass, _) =>
      if d.bypassBarIdx < 0 then .ret (.error statusInvalidParameter)
      else .ret (.ok ⟨.bypass, .bar (barAddress d d.bypassBarIdx.toNat), none⟩)
    | (.h2c, _) => createPolledFile d engineQueue .h2c .h2c
    | (.c2h, _) => createPolledFile d engineQueue .c2h .c2h
    | (.ah2c, _) => .ret (createEngineFile d engineQueue .ah2c .h2c)
    | (.ac2h, _) => .ret (createEngineFile d engineQueue .ac2h .c2h)
    | (.events, index) => .ret (.ok ⟨.events, .event index, none⟩)
    | (.unknown, _) => .ret (.error statusInvalidParameter)

def createStatus : Except NtStatus (File w) → NtStatus
  | .error status => status
  | .ok _ => statusSuccess

def evtDeviceFileCreate (d : AdmaDevice) (engineQueue : DirToDev → Option IoQueue)
    (fileName : Option String) : IoProg w Unit := do
  let file ← createFile d engineQueue fileName
  (IoOp.entry none (.complete (createStatus file) 0)).perform

/-- `EngineRingTeardown` touches no register. -/
def evtFileCleanup (file : File w) : IoProg w Unit :=
  match file.devType, file.u with
  | .c2h, .engine e => do
    let _ : EngineInfo ← (IoOp.engineInfo e.dir).perform
    return ()
  | _, _ => .ret ()

/-! ## The entry queue -/

def evtIoRead (file : File w) (deviceOffset : BitVec 64) (length : BitVec w.bits) :
    EntryProg w Unit :=
  match file.devType with
  | .ac2h => do
    let status : NtStatus ← (EntryOp.forwardToIoQueue file.queue).perform
    completeFailed status
  -- as in the first driver
  | _ => Entry.evtIoRead file deviceOffset length

def evtIoWrite (file : File w) (deviceOffset : BitVec 64) (length : BitVec w.bits) :
    EntryProg w Unit :=
  match file.devType with
  | .ah2c => do
    let status : NtStatus ← (EntryOp.forwardToIoQueue file.queue).perform
    completeFailed status
  | _ => Entry.evtIoWrite file deviceOffset length

/-- `CTL_CODE` with buffered transfer and any access; the codes are offset to those of the first
driver. -/
def admaIoctl (index : BitVec 32) : BitVec 32 :=
  Entry.fileDeviceUnknown <<< 16 ||| (index + 0x20) <<< 2

def ioctlAdmaPerfStart : BitVec 32 := admaIoctl 0x1
def ioctlAdmaPerfGet : BitVec 32 := admaIoctl 0x3
def ioctlAdmaAddrmodeGet : BitVec 32 := admaIoctl 0x4
def ioctlAdmaAddrmodeSet : BitVec 32 := admaIoctl 0x5

def evtIoDeviceControl (file : File w) (ioControlCode : BitVec 32) : EntryProg w Unit := do
  (EntryOp.getQueueContext file.queue).perform
  -- `queue->engine`
  if file.queue.bind IoQueue.engine = none then completeFailed statusInvalidParameter
  else if ioControlCode = ioctlAdmaPerfStart then do
    EntryOp.engineStartPerf.perform
    (EntryOp.complete statusSuccess 0).perform
  else if ioControlCode = ioctlAdmaPerfGet then do
    let status ← Entry.ioctlGetPerf
    completeDone Entry.sizeofXdmaPerfData status
    completeFailed status
  else if ioControlCode = ioctlAdmaAddrmodeGet then do
    let status ← Entry.ioctlGetAddrMode
    completeDone Entry.sizeofUlong status
    completeFailed status
  else if ioControlCode = ioctlAdmaAddrmodeSet then do
    let status ← Entry.ioctlSetAddrMode
    Prog.when (ntSuccess status = true) (EntryOp.complete statusSuccess 0).perform
    completeFailed status
  else completeFailed Entry.statusNotSupported

/-- The engine that the queue of a file serves. -/
def queueEngine (file : File w) : Option DirToDev := (file.queue.bind IoQueue.engine).map (·.dir)

/-- A routine of the entry queue. -/
def entryRoutine (file : File w) (p : EntryProg w Unit) : IoProg w Unit :=
  p.mapOp (.entry (queueEngine file)) fun _ r => r

/-! ## The queues of the engines -/

def complete (status : NtStatus) : IoProg w Unit := (IoOp.entry none (.complete status 0)).perform

def errExit (engine : DirToDev) (status : NtStatus) : IoProg w Unit := do
  let _ : NtStatus ← (IoOp.release engine).perform
  complete status

def wdfDmaTransactionExecute (build : AdmaBuild) (d : AdmaDevice) (engine : DirToDev) :
    IoProg w NtStatus := do
  let call : Option ProgramCall ← (IoOp.beginExecute engine).perform
  call.elim (.ret ()) (engineProgramDma build d engine)
  (IoOp.endExecute engine).perform

/-- The part that `EvtIoWriteDma` and `EvtIoReadDma` share. -/
def startDma (build : AdmaBuild) (d : AdmaDevice) (engine : DirToDev) (rest : IoProg w Unit) :
    IoProg w Unit := do
  let status : NtStatus ← (IoOp.initializeUsingRequest engine).perform
  if !ntSuccess status then errExit engine status
  else do
    let status : NtStatus ← IoOp.markCancelableEx.perform
    if !ntSuccess status then errExit engine status
    else do
      let status ← wdfDmaTransactionExecute build d engine
      if !ntSuccess status then errExit engine status else rest

def evtIoWriteDma (build : AdmaBuild) (d : AdmaDevice) (engine : DirToDev) : IoProg w Unit :=
  startDma build d engine do
    let info : EngineInfo ← (IoOp.engineInfo engine).perform
    if info.poll then do
      let _ : NtStatus ← (IoOp.pollTransfer engine).perform
      return ()
    else return ()

/-- It has no poll mode. -/
def evtIoReadDma (build : AdmaBuild) (d : AdmaDevice) (engine : DirToDev) : IoProg w Unit :=
  startDma build d engine (.ret ())

/-- `EngineStop` does nothing. -/
def evtCancelDma (engine : DirToDev) : IoProg w Unit := do
  let _ : NtStatus ← IoOp.unmarkCancelable.perform
  let _ : NtStatus ← (IoOp.release engine).perform
  complete statusCancelled

/-! ## Interrupts -/

def evtInterruptEnable : IoProg w Unit := do
  (IoOp.writeIrqEnable 0xFFFF).perform
  Prog.forEach [.h2c, .c2h] fun engine => engineEnableInterrupt (some engine)

def evtInterruptDisable : IoProg w Unit := do
  (IoOp.writeIrqEnable 0).perform
  Prog.forEach [.h2c, .c2h] fun engine => engineDisableInterrupt (some engine)

def queueDpc : IoProg w Unit := do
  let _ : Bool ← IoOp.queueDpcForIsr.perform
  return ()

def evtInterruptIsr : IoProg w Unit := do
  (IoOp.writeIrqStatus 0).perform
  queueDpc

/-- What is left of it is a trace. -/
def evtInterruptDpc : IoProg w Unit := IoOp.readIrqRegs.perform

/-- The engine is only traced. -/
def evtChannelInterruptEnable (_engine : Option DirToDev) : IoProg w Unit := .ret ()

def evtChannelInterruptDisable (_engine : Option DirToDev) : IoProg w Unit := .ret ()

def evtChannelInterruptIsr (engine : Option DirToDev) : IoProg w Unit := do
  engineDisableInterrupt engine
  queueDpc

def evtChannelInterruptDpc (engine : Option DirToDev) : IoProg w Unit := do
  IoOp.acquireLock.perform
  engineEnableInterrupt engine
  IoOp.releaseLock.perform

def evtUserInterruptIsr : IoProg w Unit := queueDpc

/-- The handler is not called. -/
def evtUserInterruptDpc : IoProg w Unit := do
  IoOp.acquireLock.perform
  IoOp.releaseLock.perform

/-! ## What the framework calls -/

/-- An interrupt comes with the engine of its context. -/
inductive EntryPoint (w : PointerWidth)
  | fileCreate (engineQueue : DirToDev → Option IoQueue) (fileName : Option String)
  | fileClose
  | fileCleanup (file : File w)
  | read (file : File w) (deviceOffset : BitVec 64) (length : BitVec w.bits)
  | write (file : File w) (deviceOffset : BitVec 64) (length : BitVec w.bits)
  | deviceControl (file : File w) (ioControlCode : BitVec 32)
  | writeDma (engine : DirToDev)
  | readDma (engine : DirToDev)
  /-- For a fragment that had to wait. -/
  | programDma (engine : DirToDev) (call : ProgramCall)
  | cancelDma (engine : DirToDev)
  | interruptEnable
  | interruptDisable
  | interruptIsr
  | interruptDpc
  | channelInterruptEnable (engine : Option DirToDev)
  | channelInterruptDisable (engine : Option DirToDev)
  | channelInterruptIsr (engine : Option DirToDev)
  | channelInterruptDpc (engine : Option DirToDev)
  | userInterruptEnable
  | userInterruptDisable
  | userInterruptIsr
  | userInterruptDpc

def EntryPoint.routine (build : AdmaBuild) (d : AdmaDevice) : EntryPoint w → IoProg w Unit
  | .fileCreate engineQueue fileName => evtDeviceFileCreate d engineQueue fileName
  | .fileClose => .ret ()
  | .fileCleanup file => evtFileCleanup file
  | .read file deviceOffset length => entryRoutine file (evtIoRead file deviceOffset length)
  | .write file deviceOffset length => entryRoutine file (evtIoWrite file deviceOffset length)
  | .deviceControl file ioControlCode => entryRoutine file (evtIoDeviceControl file ioControlCode)
  | .writeDma engine => evtIoWriteDma build d engine
  | .readDma engine => evtIoReadDma build d engine
  | .programDma engine call => engineProgramDma build d engine call
  | .cancelDma engine => evtCancelDma engine
  | .interruptEnable => evtInterruptEnable
  | .interruptDisable => evtInterruptDisable
  | .interruptIsr => evtInterruptIsr
  | .interruptDpc => evtInterruptDpc
  | .channelInterruptEnable engine => evtChannelInterruptEnable engine
  | .channelInterruptDisable engine => evtChannelInterruptDisable engine
  | .channelInterruptIsr engine => evtChannelInterruptIsr engine
  | .channelInterruptDpc engine => evtChannelInterruptDpc engine
  | .userInterruptEnable | .userInterruptDisable => .ret ()
  | .userInterruptIsr => evtUserInterruptIsr
  | .userInterruptDpc => evtUserInterruptDpc

end Adma

end Xadma
