import Xadma.Verify.Chain
import Xadma.Verify.DescriptorBuffer

/-!
# The status a request is completed with

`EngineProcessTransfer` runs once for each fragment of a request, and at the end of the transaction
it completes the request with what `WdfDmaTransactionRelease` returns. That is the right status as
long as every next fragment could be set up.
-/

namespace Xadma

/-- What one call of `EngineProcessTransfer` finds. -/
structure ProcessInput where
  engineStatus : BitVec 32
  /-- For the set-up of the next fragment. -/
  setupStatus : NtStatus
  deriving DecidableEq

def ProcessInput.stoppedOk (i : ProcessInput) : Bool :=
  i.engineStatus &&& xdmaStatExpectedZero == xdmaEngineStoppedOk

/-- What the calls at the end of a request return. -/
structure ReleaseAnswers where
  unmarkStatus : NtStatus
  releaseStatus : NtStatus

structure ProcessWorld where
  transfer : TransferWorld
  /-- The failure that `WdfDmaTransactionDmaCompleted` has reported. -/
  reported : Option NtStatus

def TransferOp.failure : (o : TransferOp) → o.Res → Option NtStatus
  | .dmaCompleted, .done status => if ntSuccess status then none else some status
  | _, _ => none

def ProcessWorld.act (t : TransferThread) (o : TransferOp) (x : ProcessWorld) (r : o.Res) :
    Option ProcessWorld :=
  (TransferWorld.act t o x.transfer r).map fun transfer =>
    ⟨transfer, (o.failure r).or x.reported⟩

/-- The answers to `EngineProcessTransfer`. -/
def ProcessInput.answer (i : ProcessInput) (a : ReleaseAnswers) :
    (o : TransferOp) → ProcessWorld → o.Res
  | .getRequest _, x => x.transfer.wdf.bound
  | .getParameters (some id), x => (x.transfer.wdf.request id).deviceOffset
  | .getParameters none, _ => 0
  | .getBytesTransferred, x => fragmentBytes x.transfer.wdf.transferred
  | .dmaCompleted, x =>
    match x.transfer.wdf.left with
    | [] => .done statusSuccess
    | sgList :: _ => if ntSuccess i.setupStatus then .more sgList else .done i.setupStatus
  | .unmarkCancelable _, _ => a.unmarkStatus
  | .release, _ => a.releaseStatus
  | .poll, x => x.transfer.engine.poll
  | .numDescriptors, x => x.transfer.engine.numDescriptors
  | .engineStatus, _ => i.engineStatus
  | .completedDescCount, _ => 0
  | .initializeUsingRequest _, _ | .markCancelableEx _, _ => statusInvalidDeviceRequest
  | .execute, _ => .error statusInvalidDeviceRequest
  | .complete .., _ | .getIoQueue _, _ | .writeDescriptors _, _ | .storeFirstDescAdj _, _
  | .storeNumDescriptors _, _ | .engineStart, _ | .engineStop, _ | .clearDescriptors, _
  | .clearWriteback, _ | .stuck, _ => ()

/-- `EngineProcessTransfer` is called by the thread `t` until the request `id` is completed. -/
def processCalls (t : TransferThread) (e : TransferEngine) (id : Nat) (a : ReleaseAnswers) :
    List ProcessInput → ProcessWorld → Option ProcessWorld
  | [], x => some x
  | i :: calls, x =>
    ((engineProcessTransfer e).exec (ProcessWorld.act t) (i.answer a) x).bind fun y =>
      if (y.2.transfer.wdf.completions id).isEmpty then processCalls t e id a calls y.2
      else some y.2

/-- A completion with success comes after all the bytes, and one after a reported failure has the
status that was reported. -/
structure FaithfulStatus (request : DmaRequest) (id : Nat) (x : ProcessWorld) : Prop where
  success : ∀ status information, (status, information) ∈ x.transfer.wdf.completions id →
    ntSuccess status = true →
      fragmentBytes x.transfer.wdf.transferred = fragmentBytes request.fragments
  failure : ∀ status, x.reported = some status →
    ∃ information, x.transfer.wdf.completions id = [(status, information)]

/-- One of the fragments that are left cannot be set up. -/
def SetupFails : List ScatterGatherList → List ProcessInput → Prop
  | _ :: left, i :: calls =>
    i.stoppedOk = true ∧ (ntSuccess i.setupStatus = false ∨ SetupFails left calls)
  | _, _ => False

/-! ## A request under way -/

/-- What the completion of a request depends on. -/
structure RequestView where
  request : Nat → DmaRequest
  bound : Option Nat
  current : Option ScatterGatherList
  left : List ScatterGatherList
  transferred : List ScatterGatherList
  completions : Nat → List (NtStatus × Nat)
  unmarkAnswers : Nat → NtStatus → Bool
  reported : Option NtStatus

def ProcessWorld.view (x : ProcessWorld) : RequestView where
  request := x.transfer.wdf.request
  bound := x.transfer.wdf.bound
  current := x.transfer.wdf.current
  left := x.transfer.wdf.left
  transferred := x.transfer.wdf.transferred
  completions := x.transfer.wdf.completions
  unmarkAnswers := x.transfer.wdf.unmarkAnswers
  reported := x.reported

/-- A fragment of the request was programmed, and the hardware works on it. -/
structure UnderWay (e : TransferEngine) (request : DmaRequest) (id : Nat) (v : RequestView) :
    Prop where
  programmed : ∃ offset sgList, (programChain e.engine e.direction offset sgList).isSome = true
  presents : v.request id = request
  bound : v.bound = some id
  fragments : ∃ sgList, v.current = some sgList ∧
    v.transferred ++ sgList :: v.left = request.fragments
  uncompleted : v.completions id = []
  unreported : v.reported = none

variable {t : TransferThread} {e : TransferEngine} {request : DmaRequest} {id : Nat}
  {i : ProcessInput} {a : ReleaseAnswers} {N : Prop} {x x' : ProcessWorld} {v v' : RequestView}

theorem UnderWay.divides (h : UnderWay e request id v) : e.engine.Divides := by
  obtain ⟨offset, sgList, hsome⟩ := h.programmed
  exact programChain_isSome.mp hsome

abbrev ProcessRuns (t : TransferThread) (i : ProcessInput) (a : ReleaseAnswers) (N : Prop)
    {α : Type} (p : TransferProg α) (Q : α → ProcessWorld → Prop) (x : ProcessWorld) : Prop :=
  Prog.Runs (ProcessWorld.act t) (i.answer a) N p Q x

/-- The calls of `EngineProcessTransfer` that leave the view alone. -/
def TransferOp.KeepsRequest : TransferOp → Prop
  | .getRequest _ | .getParameters (some _) | .getBytesTransferred | .writeDescriptors _
  | .storeFirstDescAdj _ | .poll | .storeNumDescriptors _ | .engineStart | .engineStop
  | .engineStatus | .clearDescriptors | .clearWriteback => True
  | _ => False

theorem ProcessRuns.keep {o : TransferOp} (ho : o.KeepsRequest) :
    ProcessRuns t i a N o.perform (fun r x' => r = i.answer a o x ∧ x'.view = x.view) x := by
  obtain ⟨⟨engine, wdf⟩, reported⟩ := x
  cases o with
  | getRequest caller =>
    apply Prog.Runs.perform
    · cases caller <;> simp [ProcessWorld.act, TransferWorld.act, EngineSide.act, WdfSide.act,
        ProcessInput.answer]
    · intro x' ha
      refine ⟨rfl, ?_⟩
      cases caller
      all_goals
        simp only [ProcessWorld.act, TransferWorld.act, EngineSide.act, WdfSide.act,
          ProcessInput.answer, if_true] at ha
        cases ha
        rfl
  | getParameters request =>
    cases request with
    | none => exact ho.elim
    | some request =>
      apply Prog.Runs.perform
      · simp [ProcessWorld.act, TransferWorld.act, EngineSide.act, WdfSide.act, ProcessInput.answer]
      · intro x' ha
        simp only [ProcessWorld.act, TransferWorld.act, EngineSide.act, WdfSide.act,
          ProcessInput.answer, if_true] at ha
        cases ha
        exact ⟨rfl, rfl⟩
  | getBytesTransferred | poll =>
    apply Prog.Runs.perform
    · simp [ProcessWorld.act, TransferWorld.act, EngineSide.act, WdfSide.act, ProcessInput.answer]
    · intro x' ha
      simp only [ProcessWorld.act, TransferWorld.act, EngineSide.act, WdfSide.act,
        ProcessInput.answer, if_true] at ha
      cases ha
      exact ⟨rfl, rfl⟩
  | writeDescriptors _ | storeFirstDescAdj _ | storeNumDescriptors _ | engineStart | engineStop
  | engineStatus | clearDescriptors | clearWriteback => exact Prog.Runs.performs rfl ⟨rfl, rfl⟩
  | _ => exact ho.elim

theorem xdmaEngineProgramDma_keeps {sgList : ScatterGatherList} (hdiv : e.engine.Divides)
    (hbound : x.view.bound = some id) :
    ProcessRuns t i a N (xdmaEngineProgramDma e sgList) (fun _ x' => x'.view = x.view) x := by
  refine (ProcessRuns.keep (o := .getRequest .programDma) trivial).bind fun request x₁ h₁ => ?_
  obtain ⟨rfl, h₁⟩ := h₁
  have hrequest : i.answer a (.getRequest .programDma) x = some id := hbound
  rw [hrequest]
  refine (ProcessRuns.keep (o := .getParameters (some id)) trivial).bind
    fun deviceOffset x₂ h₂ => ?_
  refine (ProcessRuns.keep (o := .getBytesTransferred) trivial).bind
    fun bytesTransferred x₃ h₃ => ?_
  obtain ⟨descs, hdescs⟩ := hdiv.programChain e.direction
    (startOffset e.width deviceOffset bytesTransferred) sgList
  rw [hdescs]
  refine (ProcessRuns.keep (o := .writeDescriptors descs) trivial).bind fun _ x₄ h₄ => ?_
  refine (ProcessRuns.keep (o := .storeFirstDescAdj _) trivial).bind fun _ x₅ h₅ => ?_
  refine (ProcessRuns.keep (o := .poll) trivial).bind fun poll x₆ h₆ => ?_
  have hview : x₆.view = x.view :=
    h₆.2.trans (h₅.2.trans (h₄.2.trans (h₃.2.trans (h₂.2.trans h₁))))
  refine Prog.Runs.bind (Q := fun _ x' => x'.view = x.view)
    (.when (fun _ => ?_) fun _ => hview) fun _ x₇ h₇ => ?_
  · exact (ProcessRuns.keep (o := .storeNumDescriptors _) trivial).post
      fun _ x' h => h.2.trans hview
  · exact (ProcessRuns.keep (o := .engineStart) trivial).post fun _ x' h => h.2.trans h₇

/-! ## One call -/

/-- The request is at its end, and what is known of it there. -/
structure Ended (id : Nat) (result : NtStatus × Nat) (reported : Option NtStatus)
    (transferred : List ScatterGatherList) (v : RequestView) : Prop where
  completions : v.completions id = [result]
  reported : v.reported = reported
  transferred : v.transferred = transferred

/-- What one call of `EngineProcessTransfer` comes to. -/
inductive ProcessEnd (i : ProcessInput) (a : ReleaseAnswers) (e : TransferEngine)
    (request : DmaRequest) (id : Nat) (v v' : RequestView) : Prop
  | error (hbad : i.stoppedOk = false)
    (hended : Ended id (statusInternalError, 0) none v.transferred v')
  | last (hok : i.stoppedOk = true) (hleft : v.left = [])
    (hended : Ended id (a.releaseStatus, fragmentBytes request.fragments) none request.fragments v')
  | broken (hok : i.stoppedOk = true) (sgList : ScatterGatherList) (left : List ScatterGatherList)
    (hleft : v.left = sgList :: left) (hsetup : ntSuccess i.setupStatus = false)
    (information : Nat) (transferred : List ScatterGatherList)
    (hended : Ended id (a.releaseStatus, information) (some i.setupStatus) transferred v')
  | next (hok : i.stoppedOk = true) (sgList : ScatterGatherList) (left : List ScatterGatherList)
    (hleft : v.left = sgList :: left) (hsetup : ntSuccess i.setupStatus = true)
    (hunder : UnderWay e request id v') (hleft' : v'.left = left)
    (hunmark : v'.unmarkAnswers = v.unmarkAnswers)

/-- The release and the completion, when `WdfRequestUnmarkCancelable` can answer what it does. -/
theorem endRequest_ends {f : NtStatus → NtStatus} {n : Nat}
    (huncompleted : x.view.completions id = []) :
    ProcessRuns t i a (¬ x.view.unmarkAnswers id a.unmarkStatus = true) (do
      let _ ← (TransferOp.unmarkCancelable id).perform
      let released ← TransferOp.release.perform
      (TransferOp.complete id (f released) n).perform)
      (fun _ x' => Ended id (f a.releaseStatus, n) x.view.reported x.view.transferred
        x'.view) x := by
  obtain ⟨⟨engine, wdf⟩, reported⟩ := x
  have hopen : wdf.completions id = [] := huncompleted
  refine Prog.Runs.bind (Q := fun _ x' => x'.view.completions id = [] ∧
    x'.view.reported = reported ∧ x'.view.transferred = wdf.transferred) ?_ fun _ x₁ h₁ => ?_
  · apply Prog.Runs.attempt
    · intro hnone hanswers
      have hanswers : wdf.unmarkAnswers id a.unmarkStatus = true := hanswers
      simp [ProcessWorld.act, TransferWorld.act, EngineSide.act, WdfSide.act, ProcessInput.answer,
        hanswers] at hnone
    · intro x' ha
      simp only [ProcessWorld.act, TransferWorld.act, EngineSide.act, WdfSide.act] at ha
      split at ha
      · cases ha
        exact ⟨huncompleted, rfl, rfl⟩
      · cases ha
  obtain ⟨hopen₁, hreported, htransferred⟩ := h₁
  refine Prog.Runs.bind (Q := fun r x' => r = a.releaseStatus ∧ x'.view.completions id = [] ∧
    x'.view.reported = reported ∧ x'.view.transferred = wdf.transferred) ?_ fun r x₂ h₂ => ?_
  · exact Prog.Runs.performs rfl ⟨rfl, hopen₁, hreported, htransferred⟩
  obtain ⟨rfl, hopen₂, hreported, htransferred⟩ := h₂
  refine Prog.Runs.performs rfl ⟨?_, hreported, htransferred⟩
  have hnone : x₂.transfer.wdf.completions id = [] := hopen₂
  simp [ProcessWorld.view, WdfSide.leave, WdfSide.complete, WdfSide.touch, hnone]

/-- There is no fragment left to program. -/
def DmaCompleted.over : DmaCompleted → Bool
  | .done _ => true
  | .more _ => false

/-- What `WdfDmaTransactionDmaCompleted` does to a request that is under way. -/
inductive FragmentDone (i : ProcessInput) (e : TransferEngine) (request : DmaRequest) (id : Nat)
    (v : RequestView) : DmaCompleted → RequestView → Prop
  | last {v' : RequestView} {status : NtStatus} (hleft : v.left = [])
    (hreported : v'.reported = none) (htransferred : v'.transferred = request.fragments) :
    FragmentDone i e request id v (.done status) v'
  | broken {v' : RequestView} {status : NtStatus} {sgList : ScatterGatherList}
    {left : List ScatterGatherList} (hleft : v.left = sgList :: left)
    (hsetup : ntSuccess i.setupStatus = false) (hreported : v'.reported = some i.setupStatus) :
    FragmentDone i e request id v (.done status) v'
  | next {v' : RequestView} {sgList : ScatterGatherList} {left : List ScatterGatherList}
    (hleft : v.left = sgList :: left) (hsetup : ntSuccess i.setupStatus = true)
    (hunder : UnderWay e request id v') (hleft' : v'.left = left) :
    FragmentDone i e request id v (.more sgList) v'

theorem dmaCompleted_fragmentDone (h : UnderWay e request id x.view) :
    ProcessRuns t i a N TransferOp.dmaCompleted.perform
      (fun answer x' => FragmentDone i e request id x.view answer x'.view ∧
        x'.view.completions id = [] ∧ x'.view.bound = some id ∧
        x'.view.unmarkAnswers = x.view.unmarkAnswers) x := by
  obtain ⟨⟨engine, wdf⟩, reported⟩ := x
  obtain ⟨hprogrammed, hpresents, hbound, ⟨sgList, hcurrent, hall⟩, huncompleted, rfl⟩ := h
  have hcurrent : wdf.current = some sgList := hcurrent
  have hall : wdf.transferred ++ sgList :: wdf.left = request.fragments := hall
  cases hleft : wdf.left with
  | nil =>
    rw [hleft] at hall
    apply Prog.Runs.perform
    · simp [ProcessWorld.act, TransferWorld.act, EngineSide.act, WdfSide.act,
        WdfSide.dmaCompletedAct, ProcessInput.answer, hcurrent, hleft, ntSuccess, statusSuccess]
    · intro x' ha
      simp only [ProcessWorld.act, TransferWorld.act, EngineSide.act, WdfSide.act,
        WdfSide.dmaCompletedAct, ProcessInput.answer, hcurrent, hleft] at ha
      cases ha
      simp only [ProcessInput.answer, hleft]
      exact ⟨.last hleft rfl hall, huncompleted, hbound, rfl⟩
  | cons next left =>
    rw [hleft] at hall
    cases hsetup : ntSuccess i.setupStatus with
    | false =>
      apply Prog.Runs.perform
      · simp [ProcessWorld.act, TransferWorld.act, EngineSide.act, WdfSide.act,
          WdfSide.dmaCompletedAct, ProcessInput.answer, hcurrent, hleft, hsetup]
      · intro x' ha
        simp only [ProcessWorld.act, TransferWorld.act, EngineSide.act, WdfSide.act,
          WdfSide.dmaCompletedAct, ProcessInput.answer, hcurrent, hleft, hsetup,
          Bool.false_eq_true, if_false] at ha
        cases ha
        simp only [ProcessInput.answer, hleft, hsetup, Bool.false_eq_true, if_false]
        refine ⟨.broken hleft hsetup ?_, huncompleted, hbound, rfl⟩
        simp [ProcessWorld.view, TransferOp.failure, hsetup]
    | true =>
      apply Prog.Runs.perform
      · simp [ProcessWorld.act, TransferWorld.act, EngineSide.act, WdfSide.act,
          WdfSide.dmaCompletedAct, ProcessInput.answer, hcurrent, hleft, hsetup]
      · intro x' ha
        simp only [ProcessWorld.act, TransferWorld.act, EngineSide.act, WdfSide.act,
          WdfSide.dmaCompletedAct, ProcessInput.answer, hcurrent, hleft, hsetup, if_true] at ha
        cases ha
        simp only [ProcessInput.answer, hleft, hsetup, if_true]
        refine ⟨.next hleft hsetup ⟨hprogrammed, hpresents, hbound, ⟨next, rfl, ?_⟩, huncompleted,
          rfl⟩ rfl, huncompleted, hbound, rfl⟩
        rw [← hall]
        exact List.append_assoc ..

theorem wdfDmaTransactionDmaCompleted_fragmentDone (h : UnderWay e request id x.view) :
    ProcessRuns t i a N (wdfDmaTransactionDmaCompleted e)
      (fun completed x' => ∃ answer, answer.over = completed ∧
        FragmentDone i e request id x.view answer x'.view ∧
        x'.view.completions id = [] ∧ x'.view.unmarkAnswers = x.view.unmarkAnswers) x := by
  refine (dmaCompleted_fragmentDone h).bind fun answer x₁ h₁ => ?_
  obtain ⟨hdone, huncompleted, hbound, hunmark⟩ := h₁
  cases answer with
  | done status => exact Prog.Runs.ret ⟨_, rfl, hdone, huncompleted, hunmark⟩
  | more sgList =>
    refine (xdmaEngineProgramDma_keeps h.divides hbound).bind fun _ x₂ h₂ => ?_
    apply Prog.Runs.ret
    rw [h₂]
    exact ⟨_, rfl, hdone, huncompleted, hunmark⟩

theorem FragmentDone.ends_next {answer : DmaCompleted}
    (h : FragmentDone i e request id v answer v') (hmore : answer.over = false)
    (hok : i.stoppedOk = true) (hunmark : v'.unmarkAnswers = v.unmarkAnswers) :
    ProcessEnd i a e request id v v' := by
  cases h with
  | last | broken => cases hmore
  | next hleft hsetup hunder hleft' => exact .next hok _ _ hleft hsetup hunder hleft' hunmark

theorem FragmentDone.ends_completed {answer : DmaCompleted} {v₁ : RequestView}
    (h : FragmentDone i e request id v answer v₁) (hover : answer.over = true)
    (hok : i.stoppedOk = true)
    (hended : Ended id (a.releaseStatus, fragmentBytes v₁.transferred) v₁.reported v₁.transferred
      v') : ProcessEnd i a e request id v v' := by
  cases h with
  | last hleft hreported htransferred =>
    rw [hreported, htransferred] at hended
    exact .last hok hleft hended
  | broken hleft hsetup hreported =>
    rw [hreported] at hended
    exact .broken hok _ _ hleft hsetup _ _ hended
  | next => cases hover

theorem processStatus_ends (h : UnderWay e request id x.view) :
    ProcessRuns t i a (¬ x.view.unmarkAnswers id a.unmarkStatus = true)
      (processStatus e id i.engineStatus)
      (fun _ x' => ProcessEnd i a e request id x.view x'.view) x := by
  unfold processStatus
  split
  · next hok =>
    have hok : i.stoppedOk = true := by simpa [ProcessInput.stoppedOk] using hok
    refine (wdfDmaTransactionDmaCompleted_fragmentDone h).bind fun completed x₁ h₁ => ?_
    obtain ⟨answer, hover, hdone, huncompleted, hunmark⟩ := h₁
    refine (ProcessRuns.keep (o := .getBytesTransferred) trivial).bind
      fun bytesTransferred x₂ h₂ => ?_
    obtain ⟨rfl, hview⟩ := h₂
    cases completed with
    | false =>
      apply Prog.Runs.ret
      rw [hview]
      exact hdone.ends_next hover hok hunmark
    | true =>
      have hend := endRequest_ends (t := t) (i := i) (a := a) (f := fun status => status)
        (n := i.answer a .getBytesTransferred x₁) (hview ▸ huncompleted)
      rw [hview, hunmark] at hend
      exact hend.post fun _ x₃ hended => hdone.ends_completed hover hok hended
  · next hbad =>
    have hbad : i.stoppedOk = false := by simpa [ProcessInput.stoppedOk] using hbad
    refine (endRequest_ends (f := fun _ => statusInternalError) h.uncompleted).post
      fun _ x' hended => ?_
    rw [h.unreported] at hended
    exact .error hbad hended

theorem engineProcessTransfer_ends (h : UnderWay e request id x.view) :
    ProcessRuns t i a (¬ x.view.unmarkAnswers id a.unmarkStatus = true) (engineProcessTransfer e)
      (fun _ x' => ProcessEnd i a e request id x.view x'.view) x := by
  refine (ProcessRuns.keep (o := .getRequest .processTransfer) trivial).bind fun r x₁ h₁ => ?_
  obtain ⟨rfl, h₁⟩ := h₁
  have hrequest : i.answer a (.getRequest .processTransfer) x = some id := h.bound
  rw [hrequest]
  refine (ProcessRuns.keep (o := .engineStatus) trivial).bind fun engineStatus x₂ h₂ => ?_
  obtain ⟨rfl, h₂⟩ := h₂
  refine (ProcessRuns.keep (o := .engineStop) trivial).bind fun _ x₃ h₃ => ?_
  have hview : x₃.view = x.view := h₃.2.trans (h₂.trans h₁)
  have hstatus := processStatus_ends (t := t) (i := i) (a := a) (hview ▸ h)
  rw [hview] at hstatus
  refine hstatus.bind fun _ x₄ h₄ => ?_
  refine (ProcessRuns.keep (o := .clearDescriptors) trivial).bind fun _ x₅ h₅ => ?_
  refine (ProcessRuns.keep (o := .poll) trivial).bind fun poll x₆ h₆ => ?_
  have hview₆ : x₆.view = x₄.view := h₆.2.trans h₅.2
  refine Prog.Runs.when (fun _ => ?_) fun _ => ?_
  · refine (ProcessRuns.keep (o := .clearWriteback) trivial).post fun _ x₇ h₇ => ?_
    rw [h₇.2, hview₆]
    exact h₄
  · rw [hview₆]
    exact h₄

/-! ## All the calls for a request -/

theorem Ended.isEmpty {result : NtStatus × Nat} {reported : Option NtStatus}
    {transferred : List ScatterGatherList} (h : Ended id result reported transferred x.view) :
    (x.transfer.wdf.completions id).isEmpty = false := by
  rw [show x.transfer.wdf.completions id = [result] from h.completions]
  rfl

theorem Ended.faithful {information : Nat} {status : NtStatus}
    {transferred : List ScatterGatherList}
    (h : Ended id (status, information) none transferred x.view)
    (hall : ntSuccess status = true → transferred = request.fragments) :
    FaithfulStatus request id x := by
  obtain ⟨hcompletions, hreported, htransferred⟩ := h
  have hone : x.transfer.wdf.completions id = [(status, information)] := hcompletions
  have hnone : x.reported = none := hreported
  constructor
  · intro status' information' hmem hsuccess
    rw [hone, List.mem_singleton] at hmem
    cases hmem
    rw [show x.transfer.wdf.transferred = transferred from htransferred, hall hsuccess]
  · intro status' hsome
    rw [hnone] at hsome
    cases hsome

theorem UnderWay.faithful (h : UnderWay e request id x.view) : FaithfulStatus request id x := by
  have hopen : x.transfer.wdf.completions id = [] := h.uncompleted
  have hnone : x.reported = none := h.unreported
  constructor
  · intro status information hmem
    rw [hopen] at hmem
    cases hmem
  · intro status hsome
    rw [hnone] at hsome
    cases hsome

theorem processCalls_faithful {calls : List ProcessInput} (h : UnderWay e request id x.view)
    (hsetup : ¬ SetupFails x.view.left calls) (hrun : processCalls t e id a calls x = some x') :
    FaithfulStatus request id x' := by
  induction calls generalizing x with
  | nil =>
    cases hrun
    exact h.faithful
  | cons i calls ih =>
    simp only [processCalls, Option.bind_eq_some_iff] at hrun
    obtain ⟨⟨⟨⟩, y⟩, hcall, hrun⟩ := hrun
    cases (engineProcessTransfer_ends (i := i) h).of_some hcall with
    | error hbad hended =>
      rw [hended.isEmpty] at hrun
      cases hrun
      exact hended.faithful fun hsuccess => absurd hsuccess (by decide)
    | last hok hleft hended =>
      rw [hended.isEmpty] at hrun
      cases hrun
      exact hended.faithful fun _ => rfl
    | broken hok sgList left hleft hfails information transferred hended =>
      rw [hleft] at hsetup
      exact absurd ⟨hok, .inl hfails⟩ hsetup
    | next hok sgList left hleft hset hunder hleft' hunmark =>
      have hopen : y.transfer.wdf.completions id = [] := hunder.uncompleted
      simp only [hopen, List.isEmpty_nil, if_true] at hrun
      apply ih hunder _ hrun
      rw [hleft']
      intro hfails
      rw [hleft] at hsetup
      exact hsetup ⟨hok, .inr hfails⟩

/-- A request whose next fragment cannot be set up is completed with what the release returns. -/
theorem processCalls_broken {calls : List ProcessInput} (h : UnderWay e request id x.view)
    (hsetup : SetupFails x.view.left calls)
    (hunmark : x.view.unmarkAnswers id a.unmarkStatus = true) :
    ∃ x' reported information, processCalls t e id a calls x = some x' ∧
      ntSuccess reported = false ∧ x'.reported = some reported ∧
      x'.transfer.wdf.completions id = [(a.releaseStatus, information)] := by
  induction calls generalizing x with
  | nil => cases hleft : x.view.left <;> rw [hleft] at hsetup <;> cases hsetup
  | cons i calls ih =>
    have hends := engineProcessTransfer_ends (t := t) (i := i) (a := a) h
    obtain ⟨⟨⟨⟩, y⟩, hcall⟩ := Option.isSome_iff_exists.mp (hends.isSome fun hno => hno hunmark)
    have hrun : processCalls t e id a (i :: calls) x =
        if (y.transfer.wdf.completions id).isEmpty then processCalls t e id a calls y
        else some y := by
      simp [processCalls, hcall]
    cases hends.of_some hcall with
    | error hbad hended =>
      cases hleft : x.view.left with
      | nil => rw [hleft] at hsetup; cases hsetup
      | cons sgList left =>
        rw [hleft] at hsetup
        rw [hsetup.1] at hbad
        cases hbad
    | last hok hleft hended =>
      rw [hleft] at hsetup
      cases hsetup
    | broken hok sgList left hleft hfails information transferred hended =>
      rw [hended.isEmpty] at hrun
      exact ⟨y, i.setupStatus, information, hrun, hfails, hended.reported, hended.completions⟩
    | next hok sgList left hleft hset hunder hleft' hunmark' =>
      have hopen : y.transfer.wdf.completions id = [] := hunder.uncompleted
      simp only [hopen, List.isEmpty_nil, if_true] at hrun
      rw [hrun]
      rw [hleft] at hsetup
      rcases hsetup.2 with hfails | hfails
      · rw [hset] at hfails
        cases hfails
      · exact ih hunder (hleft' ▸ hfails) (hunmark' ▸ hunmark)

theorem exists_unmarkAnswers (s : WdfSide) (id : Nat) :
    ∃ status, s.unmarkAnswers id status = true := by
  unfold WdfSide.unmarkAnswers
  split
  · exact ⟨statusCancelled, decide_eq_true rfl⟩
  · split
    · exact ⟨statusSuccess, decide_eq_true rfl⟩
    · exact ⟨statusInternalError, by decide⟩

theorem engineProcessTransfer_faithful_iff (t : TransferThread) (e : TransferEngine)
    (request : DmaRequest) (id : Nat) (calls : List ProcessInput) (x : ProcessWorld)
    (h : UnderWay e request id x.view) :
    (∀ a x', processCalls t e id a calls x = some x' → FaithfulStatus request id x') ↔
      ¬ SetupFails x.transfer.wdf.left calls := by
  constructor
  · intro hall hfails
    obtain ⟨unmarkStatus, hunmark⟩ := exists_unmarkAnswers x.transfer.wdf id
    obtain ⟨x', reported, information, hrun, hfailure, hreported, hcompletions⟩ :=
      processCalls_broken (t := t) (a := ⟨unmarkStatus, statusSuccess⟩) h hfails hunmark
    obtain ⟨information', hone⟩ := (hall _ x' hrun).failure reported hreported
    rw [hcompletions] at hone
    cases hone
    exact absurd (show ntSuccess statusSuccess = false from hfailure) (by decide)
  · intro hsetup a x' hrun
    exact processCalls_faithful h hsetup hrun

/-- The engine works on the first fragment of `sampleRequest`. -/
def ProcessWorld.started : ProcessWorld where
  transfer :=
    { engine := (TransferWorld.idle false (fun _ => .zero) fun _ => sampleRequest).engine
      wdf :=
        { (TransferWorld.idle false (fun _ => .zero) fun _ => sampleRequest).wdf with
          presented := 1
          bound := some 0
          current := some sampleRequest.first
          left := sampleRequest.rest
          cancelable := fun id => id == 0
          held := true
          programmed := fun id => id == 0 } }
  reported := none

theorem underWay_started : UnderWay sampleEngine sampleRequest 0 ProcessWorld.started.view := by
  refine ⟨⟨0, sampleRequest.first, ?_⟩, rfl, rfl, ⟨sampleRequest.first, rfl, rfl⟩, rfl, rfl⟩
  exact programChain_isSome.mpr (.inr ⟨by decide, by decide⟩)

/-- Both fragments are transferred. -/
theorem engineProcessTransfer_faithful_both : ∃ x',
    processCalls .dpc sampleEngine 0 ⟨statusSuccess, statusSuccess⟩
      [⟨0, statusSuccess⟩, ⟨0, statusSuccess⟩] .started = some x' ∧
      FaithfulStatus sampleRequest 0 x' := by
  have hall := (engineProcessTransfer_faithful_iff .dpc sampleEngine sampleRequest 0
    [⟨0, statusSuccess⟩, ⟨0, statusSuccess⟩] .started underWay_started).mpr ?_
  · have hrun : (processCalls .dpc sampleEngine 0 ⟨statusSuccess, statusSuccess⟩
        [⟨0, statusSuccess⟩, ⟨0, statusSuccess⟩] .started).isSome = true := by decide
    obtain ⟨x', hrun⟩ := Option.isSome_iff_exists.mp hrun
    exact ⟨x', hrun, hall _ x' hrun⟩
  · rintro ⟨-, hfails | hfails⟩
    · cases hfails
    · exact hfails

/-- The second fragment cannot be set up, and the request is completed with success. -/
theorem engineProcessTransfer_reports_success : ∃ a x',
    processCalls .dpc sampleEngine 0 a [⟨0, statusInternalError⟩] .started = some x' ∧
      x'.reported = some statusInternalError ∧
      x'.transfer.wdf.completions 0 = [(statusSuccess, 0x40)] ∧
      ¬ FaithfulStatus sampleRequest 0 x' := by
  have hrun : ((processCalls .dpc sampleEngine 0 ⟨statusSuccess, statusSuccess⟩
      [⟨0, statusInternalError⟩] .started).any fun x' =>
        x'.reported == some statusInternalError &&
          x'.transfer.wdf.completions 0 == [(statusSuccess, 0x40)]) = true := by decide
  obtain ⟨x', hrun, hx'⟩ := Option.any_eq_true _ _ |>.mp hrun
  simp only [Bool.and_eq_true, beq_iff_eq] at hx'
  refine ⟨_, x', hrun, hx'.1, hx'.2, fun hfaithful => ?_⟩
  obtain ⟨information, hone⟩ := hfaithful.failure _ hx'.1
  rw [hx'.2] at hone
  exact absurd hone (by simp [statusSuccess, statusInternalError])

end Xadma
