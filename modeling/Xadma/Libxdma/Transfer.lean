import Xadma.Theory.Prog
import Xadma.Libxdma.DmaEngine

/-!
# Requests on a memory-mapped or H2C engine (`libxdma/dma_engine.c`, `sys/file_io.c`)

`EvtIoWriteDma` and `EvtIoReadDma` bind a request to the DMA transaction of the engine and execute
it. The framework cuts the request into fragments and has `XDMA_EngineProgramDma` called for each:
for the first by `WdfDmaTransactionExecute`, for the next one by `WdfDmaTransactionDmaCompleted`,
which `EngineProcessTransfer` calls in the DPC or, in poll mode, at the end of `EnginePollTransfer`.
`EvtCancelDma` gives a request up. The engine (`EngineSide`) and the framework (`WdfSide`) each take
their own part in a call.
-/

namespace Xadma

/-- A request, with the lists that the framework will cut it into. Requests are numbered in the
order in which the queue of the engine presents them. -/
structure DmaRequest where
  deviceOffset : BitVec 64
  first : ScatterGatherList
  rest : List ScatterGatherList
  deriving DecidableEq

def DmaRequest.fragments (request : DmaRequest) : List ScatterGatherList :=
  request.first :: request.rest

/-- The bytes of a list of fragments. -/
def fragmentBytes (fragments : List ScatterGatherList) : Nat :=
  (fragments.map fun sgList => totalLength sgList.elements).sum

/-- The routine that presents or works on a request, and the callback for its cancellation. -/
inductive TransferThread
  | dispatch (id : Nat)
  | dpc
  | cancel (id : Nat)
  deriving DecidableEq, Repr

/-! ## The calls -/

/-- Where `WdfDmaTransactionGetRequest` is called. -/
inductive GetRequestIn
  | processTransfer
  | programDma
  deriving DecidableEq, Repr

/-- What `WdfDmaTransactionDmaCompleted` comes to: the transaction is over, or there is a next
fragment to program. -/
inductive DmaCompleted
  | done (status : NtStatus)
  | more (sgList : ScatterGatherList)
  deriving DecidableEq

inductive TransferOp
  | initializeUsingRequest (id : Nat)
  | markCancelableEx (id : Nat)
  | execute
  | getRequest (caller : GetRequestIn)
  | getParameters (request : Option Nat)
  | getBytesTransferred
  | dmaCompleted
  | unmarkCancelable (id : Nat)
  | release
  | complete (id : Nat) (status : NtStatus) (information : Nat)
  | getIoQueue (id : Nat)
  | writeDescriptors (descs : List DmaDescriptor)
  | storeFirstDescAdj (adj : BitVec 32)
  | poll
  | storeNumDescriptors (n : BitVec 32)
  | numDescriptors
  | completedDescCount
  | engineStart
  | engineStop
  /-- The status register, which is cleared by the read. -/
  | engineStatus
  | clearDescriptors
  | clearWriteback
  /-- The routine does not go on: a fault, or a loop that is not over. -/
  | stuck
  deriving DecidableEq

abbrev TransferOp.Res : TransferOp → Type
  | .initializeUsingRequest _ | .markCancelableEx _ | .unmarkCancelable _ | .release => NtStatus
  | .execute => Except NtStatus ScatterGatherList
  | .getRequest _ => Option Nat
  | .getParameters _ => BitVec 64
  | .getBytesTransferred => Nat
  | .dmaCompleted => DmaCompleted
  | .poll => Bool
  | .numDescriptors | .completedDescCount | .engineStatus => BitVec 32
  | _ => Unit

abbrev TransferProg := Prog TransferOp TransferOp.Res

def TransferOp.perform (o : TransferOp) : TransferProg o.Res := Prog.perform o

/-- What the routines find in the engine and in the build. -/
structure TransferEngine where
  engine : XdmaEngine
  width : PointerWidth
  dir : DirToDev
  deriving DecidableEq

def TransferEngine.direction (e : TransferEngine) : WdfDmaDirection :=
  match e.dir with
  | .h2c => .writeToDevice
  | .c2h => .readFromDevice

/-! ## `XDMA_EngineProgramDma` -/

def xdmaEngineProgramDma (e : TransferEngine) (sgList : ScatterGatherList) : TransferProg Unit := do
  let request : Option Nat ← (TransferOp.getRequest .programDma).perform
  let deviceOffset : BitVec 64 ← (TransferOp.getParameters request).perform
  let bytesTransferred : Nat ← TransferOp.getBytesTransferred.perform
  match programChain e.engine e.direction (startOffset e.width deviceOffset bytesTransferred)
    sgList with
  | none => TransferOp.stuck.perform
  | some descs => do
    let numElements := BitVec.ofNat 32 sgList.elements.length
    (TransferOp.writeDescriptors descs).perform
    (TransferOp.storeFirstDescAdj (firstDescAdj e.engine numElements)).perform
    let poll : Bool ← TransferOp.poll.perform
    Prog.when (poll = true) (TransferOp.storeNumDescriptors numElements).perform
    TransferOp.engineStart.perform

/-- `WdfDmaTransactionExecute` has the first fragment programmed. -/
def wdfDmaTransactionExecute (e : TransferEngine) : TransferProg NtStatus := do
  let started : Except NtStatus ScatterGatherList ← TransferOp.execute.perform
  match started with
  | .error status => return status
  | .ok sgList => do
    xdmaEngineProgramDma e sgList
    return statusSuccess

/-- `WdfDmaTransactionDmaCompleted`, which has the next fragment programmed if there is one: whether
the transaction is over. -/
def wdfDmaTransactionDmaCompleted (e : TransferEngine) : TransferProg Bool := do
  let completed : DmaCompleted ← TransferOp.dmaCompleted.perform
  match completed with
  | .done _ => return true
  | .more sgList => do
    xdmaEngineProgramDma e sgList
    return false

/-! ## `EngineProcessTransfer` -/

/-- The two cases of the engine status. -/
def processStatus (e : TransferEngine) (request : Nat) (engineStatus : BitVec 32) :
    TransferProg Unit :=
  if engineStatus &&& xdmaStatExpectedZero = xdmaEngineStoppedOk then do
    let completed ← wdfDmaTransactionDmaCompleted e
    let bytesTransferred : Nat ← TransferOp.getBytesTransferred.perform
    if completed then
      -- the status of the first call is traced and overwritten by the second one
      let _ ← (TransferOp.unmarkCancelable request).perform
      let status : NtStatus ← TransferOp.release.perform
      (TransferOp.complete request status bytesTransferred).perform
  else do
    let _ ← (TransferOp.unmarkCancelable request).perform
    let _ ← TransferOp.release.perform
    (TransferOp.complete request statusInternalError 0).perform

def engineProcessTransfer (e : TransferEngine) : TransferProg Unit := do
  let request : Option Nat ← (TransferOp.getRequest .processTransfer).perform
  match request with
  | none => return ()
  | some request => do
    let engineStatus : BitVec 32 ← TransferOp.engineStatus.perform
    TransferOp.engineStop.perform
    processStatus e request engineStatus
    TransferOp.clearDescriptors.perform
    let poll : Bool ← TransferOp.poll.perform
    Prog.when (poll = true) TransferOp.clearWriteback.perform

/-! ## `EnginePollTransfer` -/

/-- The loop over the writeback buffer. -/
def awaitWriteback (expected : BitVec 32) : (bound : Nat) → TransferProg NtStatus
  | 0 => do
    TransferOp.stuck.perform
    return statusInternalError
  | bound + 1 => do
    let actual : BitVec 32 ← TransferOp.completedDescCount.perform
    if actual &&& xdmaWbErrMask ≠ 0 then return statusInternalError
    else
      let actual := actual &&& xdmaWbCountMask
      let actual := if actual > expected then expected ||| xdmaWbErrMask else actual
      if expected ≠ actual then awaitWriteback expected bound else return statusSuccess

def enginePollTransfer (e : TransferEngine) (bound : Nat) : TransferProg NtStatus := do
  let expected : BitVec 32 ← TransferOp.numDescriptors.perform
  let status ← awaitWriteback expected bound
  if ntSuccess status then do
    engineProcessTransfer e
    return statusSuccess
  else return status

/-! ## The callbacks of the queue -/

/-- The label `ErrExit`. -/
def errExit (id : Nat) (status : NtStatus) : TransferProg Unit := do
  let _ ← TransferOp.release.perform
  (TransferOp.complete id status 0).perform

/-- The body that the two callbacks share. The direction they pass to the framework is that of the
engine. -/
def evtIoDma (e : TransferEngine) (id bound : Nat) : TransferProg Unit := do
  let status : NtStatus ← (TransferOp.initializeUsingRequest id).perform
  if ntSuccess status then do
    let status : NtStatus ← (TransferOp.markCancelableEx id).perform
    if ntSuccess status then do
      let status ← wdfDmaTransactionExecute e
      if ntSuccess status then do
        let poll : Bool ← TransferOp.poll.perform
        -- a failure is only traced
        Prog.when (poll = true) (enginePollTransfer e bound >>= fun _ => pure ())
      else errExit id status
    else errExit id status
  else errExit id status

def evtIoWriteDma (engine : XdmaEngine) (width : PointerWidth) (id bound : Nat) :
    TransferProg Unit :=
  evtIoDma ⟨engine, width, .h2c⟩ id bound

def evtIoReadDma (engine : XdmaEngine) (width : PointerWidth) (id bound : Nat) :
    TransferProg Unit :=
  evtIoDma ⟨engine, width, .c2h⟩ id bound

/-- The callback that `EngineCreateQueue` registers for the requests of the queue. -/
def evtIo (e : TransferEngine) (id bound : Nat) : TransferProg Unit :=
  match e.dir with
  | .h2c => evtIoWriteDma e.engine e.width id bound
  | .c2h => evtIoReadDma e.engine e.width id bound

theorem evtIo_eq (e : TransferEngine) (id bound : Nat) :
    evtIo e id bound = evtIoDma e id bound := by
  unfold evtIo evtIoWriteDma evtIoReadDma
  split <;> next h => rw [← h]

def evtCancelDma (id : Nat) : TransferProg Unit := do
  (TransferOp.getIoQueue id).perform
  TransferOp.engineStop.perform
  let _ ← (TransferOp.unmarkCancelable id).perform
  let _ ← TransferOp.release.perform
  (TransferOp.complete id statusCancelled 0).perform

/-! ## The engine -/

/-- The engine and its buffers; below `firstDescAdj`, what is only recorded for the proofs. -/
structure EngineSide where
  poll : Bool
  run : Bool
  descBuffer : Nat → DmaDescriptor
  numDescriptors : BitVec 32
  firstDescAdj : BitVec 32
  /-- The hardware has reported the fragment it was started for. -/
  reported : Bool
  /-- What `XDMA_EngineProgramDma` wrote last. -/
  latestChain : List DmaDescriptor
  /-- The threads in `XDMA_EngineProgramDma`, up to the start of the engine. -/
  programming : List TransferThread
  /-- `XDMA_EngineProgramDma` has run since the thread last stopped the engine, or ran then. -/
  overlapped : TransferThread → Bool
  /-- The reads of the writeback buffer. -/
  writebackReads : Nat

namespace EngineSide

def act (t : TransferThread) : (o : TransferOp) → EngineSide → o.Res → Option EngineSide
  | .getRequest .programDma, s, _ =>
    some { s with programming := t :: s.programming, overlapped := fun _ => true }
  | .writeDescriptors descs, s, _ =>
    some { s with descBuffer := fun k => descs[k]?.getD (s.descBuffer k), latestChain := descs }
  | .storeFirstDescAdj adj, s, _ => some { s with firstDescAdj := adj }
  | .poll, s, r => if r = s.poll then some s else none
  | .storeNumDescriptors n, s, _ => some { s with numDescriptors := n }
  | .numDescriptors, s, r => if r = s.numDescriptors then some s else none
  -- the hardware writes to the writeback buffer at any time
  | .completedDescCount, s, _ => some { s with writebackReads := s.writebackReads + 1 }
  | .engineStart, s, _ =>
    some { s with run := true, reported := false, programming := s.programming.erase t }
  | .engineStop, s, _ =>
    some { s with
      run := false
      overlapped := Function.update s.overlapped t (!s.programming.isEmpty) }
  | .clearDescriptors, s, _ => some { s with descBuffer := fun _ => .zero }
  | .stuck, _, _ => none
  | _, s, _ => some s

end EngineSide

/-! ## The framework -/

/-- The queue, the transaction of the engine and the requests; below `completions`, what is only
recorded for the proofs. -/
structure WdfSide where
  request : Nat → DmaRequest
  /-- The number of requests that the queue has presented. -/
  presented : Nat
  /-- The request of the transaction, while it is initialized. -/
  bound : Option Nat
  /-- The fragment under way, those to come, and those that were transferred. -/
  current : Option ScatterGatherList
  left : List ScatterGatherList
  transferred : List ScatterGatherList
  cancelable : Nat → Bool
  /-- `EvtCancelDma` was scheduled. -/
  cancelled : Nat → Bool
  /-- Status and information, for each time the request was completed. -/
  completions : Nat → List (NtStatus × Nat)
  /-- The transaction was initialized and not released since. -/
  held : Bool
  overReleased : Bool
  /-- A request was used after it was completed. -/
  lateTouch : Bool
  /-- The thread that presents the request has programmed it: it uses the request no more. -/
  programmed : Nat → Bool
  executeFailed : Nat → Bool
  /-- Every fragment of the request was transferred. -/
  finished : Nat → Bool
  /-- The request that `EngineProcessTransfer` works on. -/
  processing : Option Nat

namespace WdfSide

/-- The request is used. -/
def touch (s : WdfSide) (id : Nat) : WdfSide :=
  { s with lateTouch := s.lateTouch || !(s.completions id).isEmpty }

theorem touch_eq {s : WdfSide} {id : Nat} (h : s.completions id = []) : s.touch id = s := by
  simp [touch, h]

/-- `EngineProcessTransfer` is done with its request. -/
def leave (t : TransferThread) (s : WdfSide) : WdfSide :=
  { s with processing := if t = .dpc then none else s.processing }

def bindRequest (s : WdfSide) (id : Nat) : WdfSide :=
  { s with bound := some id, current := none, left := [], transferred := [], held := true }

/-- A release that fails leaves the transaction as it is. -/
def release (s : WdfSide) (status : NtStatus) : WdfSide :=
  { s with
    bound := if ntSuccess status then none else s.bound
    current := if ntSuccess status then none else s.current
    held := false
    overReleased := s.overReleased || !s.held }

def complete (s : WdfSide) (id : Nat) (result : NtStatus × Nat) : WdfSide :=
  { s with
    completions := Function.update s.completions id (s.completions id ++ [result]) }

def executeAct (t : TransferThread) (s : WdfSide) :
    Except NtStatus ScatterGatherList → Option WdfSide
  | .error status =>
    if ntSuccess status then none
    else match t with
      | .dispatch id => some { s with executeFailed := Function.update s.executeFailed id true }
      | _ => some s
  | .ok sgList =>
    match s.bound, s.current with
    | some id, none =>
      if sgList = (s.request id).first then
        some { s with current := some sgList, left := (s.request id).rest }
      else none
    | _, _ => none

/-- The current fragment is counted. The transaction is over if it was the last one, or if the next
one cannot be set up. -/
def dmaCompletedAct (s : WdfSide) (r : DmaCompleted) : Option WdfSide :=
  match s.current with
  | none =>
    match r with
    | .done _ => some s
    | .more _ => none
  | some sgList =>
    let s := { s with current := none, transferred := s.transferred ++ [sgList] }
    match r, s.left with
    | .done status, [] =>
      if ntSuccess status then
        some { s with finished := fun id => s.finished id || s.bound == some id }
      else none
    | .done status, _ :: _ => if ntSuccess status then none else some s
    | .more next, sgList :: rest =>
      if next = sgList then some { s with current := some sgList, left := rest } else none
    | .more _, [] => none

/-- What `WdfRequestUnmarkCancelable` may answer. -/
def unmarkAnswers (s : WdfSide) (id : Nat) (status : NtStatus) : Bool :=
  if s.cancelled id then status = statusCancelled
  else if s.cancelable id then status = statusSuccess
  else !ntSuccess status

def act (t : TransferThread) : (o : TransferOp) → WdfSide → o.Res → Option WdfSide
  | .initializeUsingRequest id, s, status =>
    if ntSuccess status then
      -- the framework refuses a transaction that is not released
      if s.bound = none then some ((s.touch id).bindRequest id) else none
    else some (s.touch id)
  | .markCancelableEx id, s, status =>
    if ntSuccess status then
      some { s.touch id with cancelable := Function.update s.cancelable id true }
    else some (s.touch id)
  | .execute, s, r => s.executeAct t r
  | .getRequest .processTransfer, s, r =>
    if r = s.bound then some { s with processing := r } else none
  | .getRequest .programDma, s, r => if r = s.bound then some s else none
  | .getParameters none, _, _ => none
  | .getParameters (some id), s, r =>
    if r = (s.request id).deviceOffset then
      some ({ s.touch id with
        programmed := if t = TransferThread.dispatch id then Function.update s.programmed id true
          else s.programmed }.leave t)
    else none
  | .getBytesTransferred, s, r => if r = fragmentBytes s.transferred then some s else none
  | .dmaCompleted, s, r => s.dmaCompletedAct r
  | .unmarkCancelable id, s, status =>
    if s.unmarkAnswers id status then
      some { s.touch id with cancelable := Function.update s.cancelable id false }
    else none
  | .release, s, status => some (s.release status)
  | .complete id status information, s, _ =>
    some (((s.touch id).complete id (status, information)).leave t)
  | .getIoQueue id, s, _ => some (s.touch id)
  | _, s, _ => some s

end WdfSide

/-! ## The threads -/

structure TransferWorld where
  engine : EngineSide
  wdf : WdfSide

def TransferWorld.act (t : TransferThread) (o : TransferOp) (s : TransferWorld) (r : o.Res) :
    Option TransferWorld := do
  let engine ← s.engine.act t o r
  let wdf ← s.wdf.act t o r
  return ⟨engine, wdf⟩

theorem TransferWorld.act_eq_some {t : TransferThread} {o : TransferOp} {r : o.Res}
    {s s' : TransferWorld} : TransferWorld.act t o s r = some s' ↔
      s.engine.act t o r = some s'.engine ∧ s.wdf.act t o r = some s'.wdf := by
  obtain ⟨engine, wdf⟩ := s'
  simp [TransferWorld.act, Option.bind_eq_some_iff]

theorem TransferWorld.act_isSome {t : TransferThread} {o : TransferOp} {r : o.Res}
    {s : TransferWorld} (hengine : (s.engine.act t o r).isSome = true)
    (hwdf : (s.wdf.act t o r).isSome = true) : (TransferWorld.act t o s r).isSome = true := by
  obtain ⟨engine, he⟩ := Option.isSome_iff_exists.mp hengine
  obtain ⟨wdf, hw⟩ := Option.isSome_iff_exists.mp hwdf
  exact Option.isSome_iff_exists.mpr ⟨⟨engine, wdf⟩, TransferWorld.act_eq_some.mpr ⟨he, hw⟩⟩

inductive TransferEvent
  /-- The hardware reports that the fragment it was started for is complete. -/
  | report
  deriving DecidableEq, Repr

inductive TransferCall
  /-- The queue presents a request; `bound` is for the loop of `EnginePollTransfer`. -/
  | present (bound : Nat)
  | interrupt
  | cancel
  deriving DecidableEq, Repr

/-- The queue is sequential: it presents a request when the one before it is completed. In poll mode
there are no interrupts, and in interrupt mode the DPC runs once at a time. -/
def transferThreads (e : TransferEngine) :
    Threads TransferOp TransferOp.Res TransferWorld TransferThread TransferEvent TransferCall where
  act := fun t o s r => TransferWorld.act t o s r
  env := fun _ s =>
    if s.engine.run then some { s with engine := { s.engine with reported := true } } else none
  start := fun t a s =>
    match t, a with
    | .dispatch id, .present bound =>
      if id = s.wdf.presented ∧ ∀ k < id, s.wdf.completions k ≠ [] then
        some ({ s with wdf := { s.wdf with presented := id + 1 } }, evtIo e id bound)
      else none
    | .dpc, .interrupt => if s.engine.poll then none else some (s, engineProcessTransfer e)
    | .cancel id, .cancel =>
      if s.wdf.cancelable id ∧ s.wdf.cancelled id = false ∧ s.wdf.completions id = [] then
        some ({ s with wdf := { s.wdf with
          cancelled := Function.update s.wdf.cancelled id true } }, evtCancelDma id)
      else none
    | _, _ => none

/-- What a thread can be started for. -/
theorem transferThreads_start_cases {e : TransferEngine} {t : TransferThread} {a : TransferCall}
    {s s' : TransferWorld} {p : TransferProg Unit}
    (h : (transferThreads e).start t a s = some (s', p)) :
    (∃ id bound, t = .dispatch id ∧ a = .present bound ∧ id = s.wdf.presented ∧
      (∀ k < id, s.wdf.completions k ≠ []) ∧
      s' = { s with wdf := { s.wdf with presented := id + 1 } } ∧ p = evtIo e id bound) ∨
    (t = .dpc ∧ a = .interrupt ∧ s.engine.poll = false ∧ s' = s ∧ p = engineProcessTransfer e) ∨
    ∃ id, t = .cancel id ∧ a = .cancel ∧ s.wdf.cancelable id = true ∧ s.wdf.cancelled id = false ∧
      s.wdf.completions id = [] ∧
      s' = { s with wdf := { s.wdf with
        cancelled := Function.update s.wdf.cancelled id true } } ∧ p = evtCancelDma id := by
  simp only [transferThreads] at h
  split at h
  · next id bound =>
    split at h
    · next hgo => cases h; exact .inl ⟨id, bound, rfl, rfl, hgo.1, hgo.2, rfl, rfl⟩
    · cases h
  · split at h
    · cases h
    · next hpoll => cases h; exact .inr (.inl ⟨rfl, rfl, by simpa using hpoll, rfl, rfl⟩)
  · next id =>
    split at h
    · next hgo =>
      cases h
      exact .inr (.inr ⟨id, rfl, rfl, hgo.1, hgo.2.1, hgo.2.2, rfl, rfl⟩)
    · cases h
  · cases h

/-- An engine that was set up and has had no request yet. -/
def TransferWorld.idle (poll : Bool) (descBuffer : Nat → DmaDescriptor)
    (request : Nat → DmaRequest) : TransferWorld where
  engine :=
    { poll := poll
      run := false
      descBuffer := descBuffer
      numDescriptors := 0
      firstDescAdj := 0
      reported := false
      latestChain := []
      programming := []
      overlapped := fun _ => true
      writebackReads := 0 }
  wdf :=
    { request := request
      presented := 0
      bound := none
      current := none
      left := []
      transferred := []
      cancelable := fun _ => false
      cancelled := fun _ => false
      completions := fun _ => []
      held := false
      overReleased := false
      lateTouch := false
      programmed := fun _ => false
      executeFailed := fun _ => false
      finished := fun _ => false
      processing := none }

def transferConfig (poll : Bool) (descBuffer : Nat → DmaDescriptor) (request : Nat → DmaRequest) :
    Config TransferOp TransferOp.Res TransferWorld TransferThread :=
  ⟨.idle poll descBuffer request, fun _ => .ret ()⟩

end Xadma
