import Xadma.Verify.DescriptorBuffer

/-!
# A request in poll mode

Without interrupts the routine that presents a request polls the writeback buffer once, for the
first fragment, and processes the transfer when the count is there. What becomes of the request
follows from the answers that the routine gets (`PollInput`).
-/

namespace Xadma

/-- The answers of the framework and of the hardware. -/
structure PollInput where
  initStatus : NtStatus
  markStatus : NtStatus
  executeStatus : NtStatus
  /-- The values of the writeback buffer, by the number of reads before. -/
  writeback : Nat → BitVec 32
  engineStatus : BitVec 32
  /-- For the set-up of the next fragment. -/
  setupStatus : NtStatus
  releaseStatus : NtStatus

namespace PollInput

def answer (i : PollInput) : (o : TransferOp) → TransferWorld → o.Res
  | .initializeUsingRequest _, _ => i.initStatus
  | .markCancelableEx _, _ => i.markStatus
  | .execute, w =>
    match w.wdf.bound with
    | some id =>
      if ntSuccess i.executeStatus then .ok (w.wdf.request id).first else .error i.executeStatus
    | none => .error statusInvalidDeviceRequest
  | .getRequest _, w => w.wdf.bound
  | .getParameters (some id), w => (w.wdf.request id).deviceOffset
  | .getParameters none, _ => 0
  | .getBytesTransferred, w => fragmentBytes w.wdf.transferred
  | .dmaCompleted, w =>
    match w.wdf.left with
    | [] => .done statusSuccess
    | sgList :: _ => if ntSuccess i.setupStatus then .more sgList else .done i.setupStatus
  | .unmarkCancelable id, w =>
    if w.wdf.cancelled id then statusCancelled
    else if w.wdf.cancelable id then statusSuccess
    else statusInvalidDeviceRequest
  | .release, _ => i.releaseStatus
  | .poll, w => w.engine.poll
  | .numDescriptors, w => w.engine.numDescriptors
  | .completedDescCount, w => i.writeback w.engine.writebackReads
  | .engineStatus, _ => i.engineStatus
  | .complete .., _ | .getIoQueue _, _ | .writeDescriptors _, _ | .storeFirstDescAdj _, _
  | .storeNumDescriptors _, _ | .engineStart, _ | .engineStop, _ | .clearDescriptors, _
  | .clearWriteback, _ | .stuck, _ => ()

/-- The value says that `expected` descriptors are complete, or that there was an error. -/
def counted (expected value : BitVec 32) : Bool := value &&& xdmaWbCountMask == expected

def failed (value : BitVec 32) : Bool := value &&& xdmaWbErrMask != 0

/-- From the read `n` on the count arrives, and no error before it. -/
def Counts (i : PollInput) (expected : BitVec 32) (n : Nat) : Prop :=
  ∃ k, counted expected (i.writeback (n + k)) = true ∧
    ∀ j ≤ k, failed (i.writeback (n + j)) = false

/-- The hardware is finished or reports an error within `bound` reads. -/
def Ends (i : PollInput) (expected : BitVec 32) (n bound : Nat) : Prop :=
  ∃ k < bound, counted expected (i.writeback (n + k)) = true ∨
    failed (i.writeback (n + k)) = true

end PollInput

/-- The number that the writeback buffer has to reach for the first fragment. -/
def DmaRequest.expected (request : DmaRequest) : BitVec 32 :=
  BitVec.ofNat 32 request.first.elements.length

variable {i : PollInput} {id bound n : Nat} {w w' : TransferWorld} {e : TransferEngine}
  {expected : BitVec 32} {N : Prop} {request : DmaRequest} {status : NtStatus}

/-! ## The loop over the writeback buffer -/

theorem PollInput.counts_zero (h : PollInput.failed (i.writeback n) = false)
    (hcount : PollInput.counted expected (i.writeback n) = true) : i.Counts expected n :=
  ⟨0, hcount, fun j hj => by rwa [Nat.le_zero.mp hj]⟩

theorem PollInput.not_counts_of_failed (h : PollInput.failed (i.writeback n) = true) :
    ¬ i.Counts expected n := by
  rintro ⟨k, -, hok⟩
  have := hok 0 (Nat.zero_le k)
  rw [Nat.add_zero, h] at this
  cases this

theorem PollInput.counts_succ (h : PollInput.failed (i.writeback n) = false)
    (hcount : PollInput.counted expected (i.writeback n) = false) :
    i.Counts expected (n + 1) ↔ i.Counts expected n := by
  constructor
  · rintro ⟨k, hk, hok⟩
    refine ⟨k + 1, by rwa [Nat.add_assoc, Nat.add_comm 1] at hk, fun j hj => ?_⟩
    cases j with
    | zero => exact h
    | succ j =>
      have := hok j (Nat.le_of_succ_le_succ hj)
      rwa [Nat.add_assoc, Nat.add_comm 1] at this
  · rintro ⟨k, hk, hok⟩
    cases k with
    | zero => rw [Nat.add_zero, hcount] at hk; cases hk
    | succ k =>
      refine ⟨k, by rwa [Nat.add_assoc, Nat.add_comm 1], fun j hj => ?_⟩
      rw [Nat.add_assoc, Nat.add_comm 1]
      exact hok (j + 1) (Nat.succ_le_succ hj)

theorem PollInput.ends_succ (h : PollInput.failed (i.writeback n) = false)
    (hcount : PollInput.counted expected (i.writeback n) = false)
    (hends : i.Ends expected n (bound + 1)) : i.Ends expected (n + 1) bound := by
  obtain ⟨k, hk, hexit⟩ := hends
  cases k with
  | zero =>
    rw [Nat.add_zero, h, hcount] at hexit
    simp at hexit
  | succ k =>
    refine ⟨k, Nat.lt_of_succ_lt_succ hk, ?_⟩
    rwa [Nat.add_assoc, Nat.add_comm 1]

/-- The test at the end of the loop body. -/
theorem expected_ne_iff (hexpected : PollInput.failed expected = false) (value : BitVec 32) :
    (expected ≠ if value &&& xdmaWbCountMask > expected then expected ||| xdmaWbErrMask
      else value &&& xdmaWbCountMask) ↔ PollInput.counted expected value = false := by
  have hor : expected ≠ expected ||| xdmaWbErrMask := by
    intro h
    have hand : expected &&& xdmaWbErrMask = xdmaWbErrMask := by
      rw [h]
      ext j
      simp only [BitVec.getElem_and, BitVec.getElem_or, Bool.and_eq_right_iff_imp, Bool.or_eq_true]
      exact .inr
    simp only [PollInput.failed, bne_eq_false_iff_eq] at hexpected
    rw [hexpected] at hand
    exact absurd hand (by decide)
  simp only [PollInput.counted, beq_eq_false_iff_ne]
  split
  · next hgt =>
    refine ⟨fun _ heq => ?_, fun _ => hor⟩
    rw [heq] at hgt
    exact absurd hgt (BitVec.lt_irrefl _)
  · exact ne_comm

/-! ## Rules for the routines -/

/-- The routine of the thread that presents the request `id`, with the answers of `i`. -/
abbrev PollRuns (i : PollInput) (id : Nat) (N : Prop) {α : Type} (p : TransferProg α)
    (Q : α → TransferWorld → Prop) (w : TransferWorld) : Prop :=
  Prog.Runs (fun o w r => TransferWorld.act (.dispatch id) o w r) i.answer N p Q w

/-- What the routine goes by. -/
structure PollView where
  wdf : WdfSide
  poll : Bool
  numDescriptors : BitVec 32
  reads : Nat

def TransferWorld.view (w : TransferWorld) : PollView :=
  ⟨w.wdf, w.engine.poll, w.engine.numDescriptors, w.engine.writebackReads⟩

/-- The calls that leave that alone. -/
def TransferOp.quiet : TransferOp → Bool
  | .getRequest .programDma | .getBytesTransferred | .writeDescriptors _ | .storeFirstDescAdj _
  | .poll | .numDescriptors | .engineStart | .engineStop | .engineStatus | .clearDescriptors
  | .clearWriteback => true
  | _ => false

theorem PollRuns.quiet {o : TransferOp} (ho : o.quiet = true) :
    PollRuns i id N o.perform (fun r w' => r = i.answer o w ∧ w'.view = w.view) w := by
  refine Prog.Runs.perform ?_ fun w' ha => ⟨rfl, ?_⟩
  · cases o with
    | getRequest caller =>
      cases caller with
      | processTransfer => cases ho
      | programDma => simp [TransferWorld.act, EngineSide.act, WdfSide.act, PollInput.answer]
    | getBytesTransferred | poll | numDescriptors =>
      simp [TransferWorld.act, EngineSide.act, WdfSide.act, PollInput.answer]
    | initializeUsingRequest _ | markCancelableEx _ | execute | getParameters _ | dmaCompleted
    | unmarkCancelable _ | release | complete _ _ _ | getIoQueue _ | storeNumDescriptors _
    | completedDescCount | stuck => cases ho
    | _ => rfl
  · obtain ⟨engine, wdf⟩ := w'
    cases o with
    | getRequest caller =>
      cases caller with
      | processTransfer => cases ho
      | programDma =>
        simp only [TransferWorld.act, EngineSide.act, WdfSide.act, PollInput.answer, if_true] at ha
        cases ha
        rfl
    | getBytesTransferred | poll | numDescriptors =>
      simp only [TransferWorld.act, EngineSide.act, WdfSide.act, PollInput.answer, if_true] at ha
      cases ha
      rfl
    | initializeUsingRequest _ | markCancelableEx _ | execute | getParameters _ | dmaCompleted
    | unmarkCancelable _ | release | complete _ _ _ | getIoQueue _ | storeNumDescriptors _
    | completedDescCount | stuck => cases ho
    | _ => cases ha; rfl

/-- The loop goes by the first value that is an error or the count. -/
theorem awaitWriteback_runs (hexpected : PollInput.failed expected = false) (bound : Nat) :
    PollRuns i id (¬ i.Ends expected w.view.reads bound) (awaitWriteback expected bound)
      (fun status w' => w'.wdf = w.wdf ∧ w'.view.poll = w.view.poll ∧
        (ntSuccess status = true ↔ i.Counts expected w.view.reads)) w := by
  induction bound generalizing w with
  | zero =>
    rintro ⟨k, hk, -⟩
    exact Nat.not_lt_zero k hk
  | succ bound ih =>
    refine Prog.Runs.bind (Q := fun value w' => value = i.writeback w.view.reads ∧
      w' = ⟨{ w.engine with writebackReads := w.engine.writebackReads + 1 }, w.wdf⟩)
      (.perform rfl fun w' ha => ⟨rfl, (Option.some.inj ha).symm⟩) fun value w' h => ?_
    obtain ⟨rfl, rfl⟩ := h
    have htest := expected_ne_iff hexpected (i.writeback w.view.reads)
    split
    · next hfailed =>
      have hfailed : PollInput.failed (i.writeback w.view.reads) = true := by
        simpa [PollInput.failed] using hfailed
      exact Prog.Runs.ret ⟨rfl, rfl, fun h => (nomatch h),
        fun h => absurd h (PollInput.not_counts_of_failed hfailed)⟩
    · next hfailed =>
      have hok : PollInput.failed (i.writeback w.view.reads) = false := by
        simpa [PollInput.failed] using hfailed
      simp only [htest]
      split
      · next hcount =>
        refine ih.mono (fun status w' h => ?_) fun h hends =>
          h (PollInput.ends_succ hok hcount hends)
        exact ⟨h.1, h.2.1, h.2.2.trans (PollInput.counts_succ hok hcount)⟩
      · next hcount =>
        have hcounted := Bool.eq_true_of_not_eq_false hcount
        exact Prog.Runs.ret ⟨rfl, rfl, fun _ => PollInput.counts_zero hok hcounted, fun _ => rfl⟩

/-! ## The stages of the request -/

/-- The request is bound to the transaction, and nothing has become of it yet. -/
structure PollBound (request : DmaRequest) (id n : Nat) (v : PollView) : Prop where
  poll : v.poll = true
  reads : v.reads = n
  presents : v.wdf.request id = request
  bound : v.wdf.bound = some id
  uncompleted : v.wdf.completions id = []
  unfinished : v.wdf.finished id = false

/-- The transaction is not executed yet. -/
structure PollInitialized (request : DmaRequest) (id n : Nat) (v : PollView) : Prop
    extends PollBound request id n v where
  current : v.wdf.current = none
  transferred : v.wdf.transferred = []

/-- Its first fragment is under way. -/
structure PollStarted (request : DmaRequest) (id n : Nat) (v : PollView) : Prop
    extends PollBound request id n v where
  current : v.wdf.current = some request.first
  left : v.wdf.left = request.rest
  transferred : v.wdf.transferred = []

/-- The request is presented while the transaction is released. -/
structure PollReady (id : Nat) (v : PollView) : Prop where
  poll : v.poll = true
  bound : v.wdf.bound = none
  uncompleted : v.wdf.completions id = []
  unfinished : v.wdf.finished id = false

/-- The request was completed once: with success and all its bytes if every fragment was
transferred, and with a failure otherwise; and the transaction is released. -/
structure PollCompleted (request : DmaRequest) (id : Nat) (s : WdfSide) : Prop where
  released : s.bound = none
  once : ∃ status information, s.completions id = [(status, information)] ∧
    if s.finished id = true then
      ntSuccess status = true ∧ information = fragmentBytes request.fragments
    else ntSuccess status = false

theorem not_pollCompleted {s : WdfSide} (h : s.completions id = []) :
    ¬ PollCompleted request id s := by
  rintro ⟨-, status, information, hone, -⟩
  rw [h] at hone
  cases hone

/-- The release and the completion at the end of a routine. -/
theorem finish_runs {f : NtStatus → NtStatus} {information : Nat}
    (huncompleted : w.wdf.completions id = []) :
    PollRuns i id N (do
      let released ← TransferOp.release.perform
      (TransferOp.complete id (f released) information).perform)
      (fun _ w' => w'.wdf.completions id = [(f i.releaseStatus, information)] ∧
        w'.wdf.finished id = w.wdf.finished id ∧
        w'.wdf.bound = if ntSuccess i.releaseStatus then none else w.wdf.bound) w := by
  refine Prog.Runs.bind (Q := fun status w' => status = i.releaseStatus ∧
    w'.wdf = w.wdf.release i.releaseStatus) (.perform rfl fun w' ha => ?_) fun status w₁ h => ?_
  · exact ⟨rfl, by cases ha; rfl⟩
  obtain ⟨rfl, hwdf⟩ := h
  have hopen : w₁.wdf.completions id = [] := by rw [hwdf]; exact huncompleted
  apply Prog.Runs.performs rfl
  rw [WdfSide.touch_eq hopen]
  simp [WdfSide.leave, WdfSide.complete, hwdf, WdfSide.release, huncompleted]

theorem pollCompleted_iff {s : WdfSide} {information : Nat}
    (hcompletions : s.completions id = [(status, information)]) :
    PollCompleted request id s ↔ s.bound = none ∧
      if s.finished id = true then
        ntSuccess status = true ∧ information = fragmentBytes request.fragments
      else ntSuccess status = false := by
  constructor
  · rintro ⟨hreleased, status', information', hone, hresult⟩
    cases hcompletions.symm.trans hone
    exact ⟨hreleased, hresult⟩
  · exact fun ⟨hreleased, hresult⟩ => ⟨hreleased, _, _, hcompletions, hresult⟩

theorem errExit_runs (h : PollBound request id n w.view) (hstatus : ntSuccess status = false) :
    PollRuns i id N (errExit id status)
      (fun _ w' => PollCompleted request id w'.wdf ↔ ntSuccess i.releaseStatus = true) w := by
  refine (finish_runs (f := fun _ => status) h.uncompleted).post fun _ w' hw => ?_
  obtain ⟨hcompletions, hfinished, hbound⟩ := hw
  have hunfinished : w'.wdf.finished id = false := hfinished.trans h.unfinished
  have hold : w.wdf.bound = some id := h.bound
  rw [pollCompleted_iff hcompletions, hunfinished, hbound, hold]
  cases ntSuccess i.releaseStatus <;> simp [hstatus]

/-! ## `XDMA_EngineProgramDma` -/

/-- Only the record of the programmed requests changes. -/
structure Unchanged (v v' : PollView) : Prop where
  wdf : v'.wdf = { v.wdf with programmed := v'.wdf.programmed }
  poll : v'.poll = v.poll
  reads : v'.reads = v.reads

theorem getParameters_runs (huncompleted : w.wdf.completions id = []) :
    PollRuns i id N (TransferOp.getParameters (some id)).perform
      (fun deviceOffset w' => deviceOffset = (w.wdf.request id).deviceOffset ∧
        Unchanged w.view w'.view) w := by
  refine Prog.Runs.perform ?_ fun w' ha => ⟨rfl, ?_⟩
  · simp [TransferWorld.act, EngineSide.act, WdfSide.act, PollInput.answer]
  · simp only [TransferWorld.act, EngineSide.act, WdfSide.act, PollInput.answer, if_true,
      WdfSide.touch_eq huncompleted] at ha
    cases ha
    exact ⟨by simp [TransferWorld.view, WdfSide.leave], rfl, rfl⟩

theorem storeNumDescriptors_runs {v : PollView} {num : BitVec 32} (h : Unchanged v w.view) :
    PollRuns i id N (TransferOp.storeNumDescriptors num).perform
      (fun _ w' => Unchanged v w'.view ∧ w'.view.numDescriptors = num) w := by
  exact Prog.Runs.performs rfl ⟨⟨h.wdf, h.poll, h.reads⟩, rfl⟩

theorem xdmaEngineProgramDma_runs {sgList : ScatterGatherList} (hN : ¬ e.engine.Divides → N)
    (hpoll : w.view.poll = true) (hbound : w.wdf.bound = some id)
    (huncompleted : w.wdf.completions id = []) :
    PollRuns i id N (xdmaEngineProgramDma e sgList)
      (fun _ w' => Unchanged w.view w'.view ∧
        w'.view.numDescriptors = BitVec.ofNat 32 sgList.elements.length) w := by
  refine (PollRuns.quiet rfl).bind fun request w₁ h₁ => ?_
  obtain ⟨rfl, hview₁⟩ := h₁
  have hrequest : i.answer (.getRequest .programDma) w = some id := hbound
  have hwdf₁ : w₁.wdf = w.wdf := congrArg PollView.wdf hview₁
  rw [hrequest]
  refine (getParameters_runs (hwdf₁ ▸ huncompleted)).bind fun deviceOffset w₂ h₂ => ?_
  obtain ⟨-, h₂⟩ := h₂
  rw [hview₁] at h₂
  refine (PollRuns.quiet rfl).bind fun bytesTransferred w₃ h₃ => ?_
  split
  · next hnone =>
    refine hN fun hdiv => ?_
    obtain ⟨descs, hdescs⟩ := hdiv.programChain e.direction
      (startOffset e.width deviceOffset bytesTransferred) sgList
    cases hnone.symm.trans hdescs
  · refine (PollRuns.quiet rfl).bind fun _ w₄ h₄ => ?_
    refine (PollRuns.quiet rfl).bind fun _ w₅ h₅ => ?_
    refine (PollRuns.quiet rfl).bind fun poll w₆ h₆ => ?_
    have hview : w₆.view = w₂.view := h₆.2.trans (h₅.2.trans (h₄.2.trans h₃.2))
    have hkept : Unchanged w.view w₆.view := hview ▸ h₂
    have hyes : poll = true := by
      rw [h₆.1]
      exact (congrArg PollView.poll (h₅.2.trans (h₄.2.trans h₃.2))).trans (h₂.poll.trans hpoll)
    refine Prog.Runs.bind
      (.when (fun _ => storeNumDescriptors_runs hkept) fun hno => absurd hyes hno) fun _ w₇ h₇ => ?_
    refine (PollRuns.quiet rfl).post fun _ w₈ h₈ => ?_
    rw [h₈.2]
    exact h₇

theorem PollStarted.unchanged {v v' : PollView} (h : PollStarted request id n v)
    (hv : Unchanged v v') : PollStarted request id n v' := by
  obtain ⟨⟨hpoll, hreads, hpresents, hbound, huncompleted, hunfinished⟩, hcurrent, hleft,
    htrans⟩ := h
  obtain ⟨hwdf, hpoll', hreads'⟩ := hv
  refine ⟨⟨hpoll'.trans hpoll, hreads'.trans hreads, ?_, ?_, ?_, ?_⟩, ?_, ?_, ?_⟩
  all_goals rw [hwdf]; assumption

/-! ## `EvtIoWriteDma` and `EvtIoReadDma` up to the loop -/

theorem initializeUsingRequest_runs (h : PollReady id w.view) :
    PollRuns i id N (TransferOp.initializeUsingRequest id).perform
      (fun status w' => status = i.initStatus ∧
        if ntSuccess status = true then
          PollInitialized (w.wdf.request id) id w.view.reads w'.view
        else w' = w) w := by
  obtain ⟨hpoll, hbound, huncompleted, hunfinished⟩ := h
  have hfree : w.wdf.bound = none := hbound
  have hopen : w.wdf.completions id = [] := huncompleted
  refine Prog.Runs.perform ?_ fun w' ha => ⟨rfl, ?_⟩
  · simp only [TransferWorld.act, EngineSide.act, WdfSide.act]
    split <;> simp
  · simp only [TransferWorld.act, EngineSide.act, WdfSide.act, WdfSide.touch_eq hopen, hfree,
      if_true] at ha
    split
    · next hsuccess =>
      rw [if_pos hsuccess] at ha
      cases ha
      exact ⟨⟨hpoll, rfl, rfl, rfl, huncompleted, hunfinished⟩, rfl, rfl⟩
    · next hfail =>
      rw [if_neg hfail] at ha
      cases ha
      rfl

theorem markCancelableEx_runs (h : PollInitialized request id n w.view) :
    PollRuns i id N (TransferOp.markCancelableEx id).perform
      (fun status w' => status = i.markStatus ∧ PollInitialized request id n w'.view) w := by
  have hopen : w.wdf.completions id = [] := h.uncompleted
  obtain ⟨⟨hpoll, hreads, hpresents, hbound, huncompleted, hunfinished⟩, hcurrent, htrans⟩ := h
  refine Prog.Runs.perform ?_ fun w' ha => ⟨rfl, ?_⟩
  · simp only [TransferWorld.act, EngineSide.act, WdfSide.act]
    split <;> rfl
  · simp only [TransferWorld.act, EngineSide.act, WdfSide.act, WdfSide.touch_eq hopen] at ha
    split at ha
    all_goals
      cases ha
      exact ⟨⟨hpoll, hreads, hpresents, hbound, huncompleted, hunfinished⟩, hcurrent, htrans⟩

theorem execute_runs (h : PollInitialized request id n w.view) :
    PollRuns i id N TransferOp.execute.perform
      (fun started w' =>
        if ntSuccess i.executeStatus = true then
          started = .ok request.first ∧ PollStarted request id n w'.view
        else started = .error i.executeStatus ∧ PollBound request id n w'.view) w := by
  obtain ⟨⟨hpoll, hreads, hpresents, hbound, huncompleted, hunfinished⟩, hcurrent, htrans⟩ := h
  have hidle : w.wdf.current = none := hcurrent
  have hmine : w.wdf.bound = some id := hbound
  have hrequest : w.wdf.request id = request := hpresents
  cases hsuccess : ntSuccess i.executeStatus with
  | true =>
    refine Prog.Runs.perform ?_ fun w' ha => ?_
    · simp [TransferWorld.act, EngineSide.act, WdfSide.act, PollInput.answer, WdfSide.executeAct,
        hmine, hidle, hsuccess]
    · simp only [TransferWorld.act, EngineSide.act, WdfSide.act, PollInput.answer, hmine, hsuccess,
        WdfSide.executeAct, hidle, hrequest, if_true] at ha
      cases ha
      rw [if_pos rfl]
      refine ⟨by simp [PollInput.answer, hmine, hsuccess, hrequest], ?_⟩
      exact ⟨⟨hpoll, hreads, hpresents, rfl, huncompleted, hunfinished⟩, rfl, rfl, htrans⟩
  | false =>
    refine Prog.Runs.perform ?_ fun w' ha => ?_
    · simp [TransferWorld.act, EngineSide.act, WdfSide.act, PollInput.answer, WdfSide.executeAct,
        hmine, hsuccess]
    · simp only [TransferWorld.act, EngineSide.act, WdfSide.act, PollInput.answer, hmine, hsuccess,
        WdfSide.executeAct, Bool.false_eq_true, if_false] at ha
      cases ha
      rw [if_neg Bool.false_ne_true]
      refine ⟨by simp [PollInput.answer, hmine, hsuccess], ?_⟩
      exact ⟨hpoll, hreads, hpresents, rfl, huncompleted, hunfinished⟩

theorem wdfDmaTransactionExecute_runs (hN : ¬ e.engine.Divides → N)
    (h : PollInitialized request id n w.view) :
    PollRuns i id N (wdfDmaTransactionExecute e)
      (fun status w' => ntSuccess status = ntSuccess i.executeStatus ∧
        if ntSuccess i.executeStatus = true then
          PollStarted request id n w'.view ∧ w'.view.numDescriptors = request.expected
        else PollBound request id n w'.view) w := by
  refine (execute_runs h).bind fun started w₁ h₁ => ?_
  split at h₁
  · next hsuccess =>
    obtain ⟨rfl, h₁⟩ := h₁
    refine (xdmaEngineProgramDma_runs hN h₁.poll h₁.bound h₁.uncompleted).bind fun _ w₂ h₂ => ?_
    refine Prog.Runs.ret ⟨by rw [hsuccess]; rfl, ?_⟩
    rw [if_pos hsuccess]
    exact ⟨h₁.unchanged h₂.1, h₂.2⟩
  · next hfail =>
    obtain ⟨rfl, h₁⟩ := h₁
    refine Prog.Runs.ret ⟨rfl, ?_⟩
    rw [if_neg hfail]
    exact h₁

/-! ## `EngineProcessTransfer` -/

/-- The engine status shows no error. -/
def PollInput.stoppedOk (i : PollInput) : Bool :=
  i.engineStatus &&& xdmaStatExpectedZero == xdmaEngineStoppedOk

theorem processRequest_runs (h : PollStarted request id n w.view) :
    PollRuns i id N (TransferOp.getRequest .processTransfer).perform
      (fun r w' => r = some id ∧ PollStarted request id n w'.view) w := by
  refine Prog.Runs.perform ?_ fun w' ha => ⟨h.bound, ?_⟩
  · simp [TransferWorld.act, EngineSide.act, WdfSide.act, PollInput.answer]
  · simp only [TransferWorld.act, EngineSide.act, WdfSide.act, PollInput.answer, if_true] at ha
    cases ha
    exact ⟨⟨h.poll, h.reads, h.presents, h.bound, h.uncompleted, h.unfinished⟩, h.current, h.left,
      h.transferred⟩

theorem unmarkAnswers_answer :
    w.wdf.unmarkAnswers id (i.answer (.unmarkCancelable id) w) = true := by
  simp only [PollInput.answer, WdfSide.unmarkAnswers]
  split
  · simp
  · split
    · simp
    · decide

theorem unmarkCancelable_runs (huncompleted : w.wdf.completions id = []) :
    PollRuns i id N (TransferOp.unmarkCancelable id).perform
      (fun _ w' => w'.wdf.completions id = [] ∧ w'.wdf.finished = w.wdf.finished ∧
        w'.wdf.bound = w.wdf.bound) w := by
  refine Prog.Runs.perform ?_ fun w' ha => ?_
  · simp [TransferWorld.act, EngineSide.act, WdfSide.act, unmarkAnswers_answer]
  · simp only [TransferWorld.act, EngineSide.act, WdfSide.act, WdfSide.touch_eq huncompleted] at ha
    split at ha
    · cases ha
      exact ⟨huncompleted, rfl, rfl⟩
    · cases ha

/-- The end of a request that is processed. -/
theorem endRequest_runs {f : NtStatus → NtStatus} {information : Nat}
    (huncompleted : w.wdf.completions id = []) :
    PollRuns i id N (do
      let _ ← (TransferOp.unmarkCancelable id).perform
      let released ← TransferOp.release.perform
      (TransferOp.complete id (f released) information).perform)
      (fun _ w' => w'.wdf.completions id = [(f i.releaseStatus, information)] ∧
        w'.wdf.finished id = w.wdf.finished id ∧
        w'.wdf.bound = if ntSuccess i.releaseStatus then none else w.wdf.bound) w := by
  refine (unmarkCancelable_runs huncompleted).bind fun _ w₁ h₁ => ?_
  refine (finish_runs h₁.1).post fun _ w' h => ?_
  rw [h₁.2.1, h₁.2.2] at h
  exact h

/-- What `WdfDmaTransactionDmaCompleted` comes to for the first fragment. -/
structure FirstCompleted (i : PollInput) (request : DmaRequest) (id : Nat) (completed : Bool)
    (s : WdfSide) : Prop where
  uncompleted : s.completions id = []
  bound : s.bound = some id
  finished : s.finished id = request.rest.isEmpty
  completed_eq : completed = (request.rest.isEmpty || !ntSuccess i.setupStatus)
  transferred : s.transferred = [request.first]

theorem dmaCompletedAct_fields (id : Nat) {s s' : WdfSide} {sgList : ScatterGatherList}
    {answer : DmaCompleted} (hcurrent : s.current = some sgList) (h : s.dmaCompletedAct answer =
    some s') : s'.completions = s.completions ∧ s'.bound = s.bound ∧
      s'.transferred = s.transferred ++ [sgList] ∧
      s'.finished id = (s.finished id || (s.left.isEmpty && s.bound == some id)) := by
  simp only [WdfSide.dmaCompletedAct, hcurrent] at h
  split at h
  · next hleft =>
    split at h
    · cases h; exact ⟨rfl, rfl, rfl, by simp [hleft]⟩
    · cases h
  · next hleft =>
    split at h
    · cases h
    · cases h; exact ⟨rfl, rfl, rfl, by simp [hleft]⟩
  · next hleft =>
    split at h
    · cases h; exact ⟨rfl, rfl, rfl, by simp [hleft]⟩
    · cases h
  · cases h

/-- The framework has an answer for every transaction that is under way. -/
theorem dmaCompletedAct_isSome {sgList : ScatterGatherList}
    (hcurrent : w.wdf.current = some sgList) :
    (w.wdf.dmaCompletedAct (i.answer .dmaCompleted w)).isSome = true := by
  cases hleft : w.wdf.left with
  | nil =>
    simp [WdfSide.dmaCompletedAct, PollInput.answer, hcurrent, hleft, ntSuccess, statusSuccess]
  | cons next rest =>
    cases hsetup : ntSuccess i.setupStatus <;>
      simp [WdfSide.dmaCompletedAct, PollInput.answer, hcurrent, hleft, hsetup]

theorem dmaCompleted_runs (h : PollStarted request id n w.view) :
    PollRuns i id N TransferOp.dmaCompleted.perform
      (fun answer w' => w'.view.poll = true ∧
        FirstCompleted i request id (answer matches .done _) w'.wdf) w := by
  have hcurrent : w.wdf.current = some request.first := h.current
  refine Prog.Runs.perform ?_ fun w' ha => ?_
  · exact TransferWorld.act_isSome rfl (dmaCompletedAct_isSome hcurrent)
  · obtain ⟨hengine, hwdf⟩ := TransferWorld.act_eq_some.mp ha
    have hpoll : w'.engine = w.engine := (Option.some.inj hengine).symm
    obtain ⟨hcompletions, hbound, htransferred, hfinished⟩ :=
      dmaCompletedAct_fields id hcurrent hwdf
    have hleft : w.wdf.left = request.rest := h.left
    have hmine : w.wdf.bound = some id := h.bound
    refine ⟨(congrArg EngineSide.poll hpoll).trans h.poll, ?_, hbound.trans h.bound, ?_, ?_, ?_⟩
    · rw [hcompletions]
      exact h.uncompleted
    · rw [hfinished, show w.wdf.finished id = false from h.unfinished, hleft, hmine]
      simp
    · simp only [PollInput.answer, hleft]
      cases request.rest with
      | nil => rfl
      | cons next rest => cases hsetup : ntSuccess i.setupStatus <;> rfl
    · rw [htransferred, show w.wdf.transferred = [] from h.transferred]
      rfl

theorem wdfDmaTransactionDmaCompleted_runs (hN : ¬ e.engine.Divides → N)
    (h : PollStarted request id n w.view) :
    PollRuns i id N (wdfDmaTransactionDmaCompleted e)
      (fun completed w' => FirstCompleted i request id completed w'.wdf) w := by
  refine (dmaCompleted_runs h).bind fun answer w₁ h₁ => ?_
  obtain ⟨hpoll, h₁⟩ := h₁
  cases answer with
  | done status => exact Prog.Runs.ret h₁
  | more sgList =>
    refine (xdmaEngineProgramDma_runs hN hpoll h₁.bound h₁.uncompleted).bind fun _ w₂ h₂ => ?_
    have hwdf : w₂.wdf = { w₁.wdf with programmed := w₂.wdf.programmed } := h₂.1.wdf
    refine Prog.Runs.ret ?_
    rw [hwdf]
    exact ⟨h₁.uncompleted, h₁.bound, h₁.finished, h₁.completed_eq, h₁.transferred⟩

theorem processStatus_runs (hN : ¬ e.engine.Divides → N) (h : PollStarted request id n w.view) :
    PollRuns i id N (processStatus e id i.engineStatus)
      (fun _ w' => PollCompleted request id w'.wdf ↔
        ntSuccess i.releaseStatus = true ∧ (i.stoppedOk = false ∨ request.rest = [])) w := by
  unfold processStatus
  split
  · next hok =>
    have hstopped : i.stoppedOk = true := by simpa [PollInput.stoppedOk] using hok
    refine (wdfDmaTransactionDmaCompleted_runs hN h).bind fun completed w₁ h₁ => ?_
    refine (PollRuns.quiet rfl).bind fun bytesTransferred w₂ h₂ => ?_
    have hwdf : w₂.wdf = w₁.wdf := congrArg PollView.wdf h₂.2
    have hbytes : bytesTransferred = fragmentBytes [request.first] := by
      rw [h₂.1, ← h₁.transferred]
      rfl
    cases completed with
    | false =>
      -- the next fragment is under way, and nobody polls for it
      have hrest := h₁.completed_eq
      refine Prog.Runs.ret ⟨fun hc => absurd hc (not_pollCompleted (hwdf ▸ h₁.uncompleted)), ?_⟩
      rintro ⟨-, hbad | hlast⟩
      · rw [hstopped] at hbad
        cases hbad
      · rw [hlast] at hrest
        cases hrest
    | true =>
      have hall := h₁.completed_eq
      refine (endRequest_runs (f := fun status => status) (hwdf ▸ h₁.uncompleted)).post
        fun _ w₃ h₃ => ?_
      obtain ⟨hcompletions, hfinished, hbound⟩ := h₃
      have hmine : w₂.wdf.bound = some id := hwdf ▸ h₁.bound
      have hfin : w₂.wdf.finished id = request.rest.isEmpty := hwdf ▸ h₁.finished
      rw [pollCompleted_iff hcompletions, hbound, hfinished, hmine, hfin, hbytes, hstopped]
      cases hrest : request.rest <;> cases ntSuccess i.releaseStatus <;>
        simp [DmaRequest.fragments, hrest]
  · next hbad =>
    have hstopped : i.stoppedOk = false := by simpa [PollInput.stoppedOk] using hbad
    have hmine : w.wdf.bound = some id := h.bound
    have hfin : w.wdf.finished id = false := h.unfinished
    refine (endRequest_runs (f := fun _ => statusInternalError) h.uncompleted).post
      fun _ w₃ h₃ => ?_
    obtain ⟨hcompletions, hfinished, hbound⟩ := h₃
    rw [pollCompleted_iff hcompletions, hbound, hfinished, hmine, hfin, hstopped]
    have hfailure : ntSuccess statusInternalError = false := by decide
    cases ntSuccess i.releaseStatus <;> simp [hfailure]

theorem engineProcessTransfer_runs (hN : ¬ e.engine.Divides → N)
    (h : PollStarted request id n w.view) :
    PollRuns i id N (engineProcessTransfer e)
      (fun _ w' => PollCompleted request id w'.wdf ↔
        ntSuccess i.releaseStatus = true ∧ (i.stoppedOk = false ∨ request.rest = [])) w := by
  refine (processRequest_runs h).bind fun r w₁ h₁ => ?_
  obtain ⟨rfl, h₁⟩ := h₁
  refine (PollRuns.quiet rfl).bind fun engineStatus w₂ h₂ => ?_
  obtain ⟨rfl, h₂⟩ := h₂
  refine (PollRuns.quiet rfl).bind fun _ w₃ h₃ => ?_
  have hstarted : PollStarted request id n w₃.view := h₃.2 ▸ h₂ ▸ h₁
  refine (processStatus_runs hN hstarted).bind fun _ w₄ h₄ => ?_
  refine (PollRuns.quiet rfl).bind fun _ w₅ h₅ => ?_
  refine (PollRuns.quiet rfl).bind fun poll w₆ h₆ => ?_
  have hwdf : w₆.wdf = w₄.wdf := congrArg PollView.wdf (h₆.2.trans h₅.2)
  refine Prog.Runs.when (fun _ => (PollRuns.quiet rfl).post fun _ w₇ h₇ => ?_) fun _ => ?_
  · rw [show w₇.wdf = w₄.wdf from (congrArg PollView.wdf h₇.2).trans hwdf]
    exact h₄
  · rw [hwdf]
    exact h₄

/-! ## The whole routine -/

/-- The error bit is above every small number. -/
theorem PollInput.failed_eq_false {value : BitVec 32} (hlt : value.toNat < 2 ^ 31) :
    PollInput.failed value = false := by
  simp only [PollInput.failed, bne_eq_false_iff_eq]
  apply BitVec.eq_of_getLsbD_eq
  intro j hj
  rw [BitVec.getLsbD_and]
  rcases Nat.lt_or_ge j 31 with hj31 | hj31
  · rw [xdmaWbErrMask, bitN, BitVec.getLsbD_shiftLeft]
    simp [hj31]
  · rw [getLsbD_eq_false_of_lt hlt hj31]
    simp

theorem DmaRequest.expected_ok (request : DmaRequest) :
    PollInput.failed request.expected = false := by
  apply PollInput.failed_eq_false
  have hadmitted := request.first.admitted
  have : sgMaxElements < 2 ^ 31 := by decide
  rw [DmaRequest.expected, BitVec.toNat_ofNat]
  omega

/-- What the routine completes the request by. -/
def PollInput.Completes (i : PollInput) (request : DmaRequest) (n : Nat) : Prop :=
  ntSuccess i.initStatus = false ∨
    ntSuccess i.releaseStatus = true ∧
      (ntSuccess i.markStatus = false ∨ ntSuccess i.executeStatus = false ∨
        i.Counts request.expected n ∧ (i.stoppedOk = false ∨ request.rest = []))

theorem enginePollTransfer_runs (hN : ¬ e.engine.Divides → N)
    (hends : ¬ i.Ends request.expected n bound → N) (h : PollStarted request id n w.view)
    (hnum : w.view.numDescriptors = request.expected) :
    PollRuns i id N (enginePollTransfer e bound)
      (fun _ w' => PollCompleted request id w'.wdf ↔
        ntSuccess i.releaseStatus = true ∧ i.Counts request.expected n ∧
          (i.stoppedOk = false ∨ request.rest = [])) w := by
  refine (PollRuns.quiet rfl).bind fun expected w₁ h₁ => ?_
  obtain ⟨hread, hview⟩ := h₁
  have hexpected : expected = request.expected := hread.trans hnum
  subst hexpected
  have hreads : w₁.view.reads = n := by rw [hview]; exact h.reads
  refine ((awaitWriteback_runs request.expected_ok bound).mono (fun _ _ h => h) ?_).bind
    fun status w₂ h₂ => ?_
  · rw [hreads]
    exact hends
  obtain ⟨hwdf, hpoll, hcounts⟩ := h₂
  rw [hreads] at hcounts
  have hwdf : w₂.wdf = w.wdf := hwdf.trans (congrArg PollView.wdf hview)
  split
  · next hsuccess =>
    have hstarted : PollStarted request id w₂.view.reads w₂.view := by
      have hp : w₂.view.poll = true := by rw [hpoll, hview]; exact h.poll
      refine ⟨⟨hp, rfl, ?_, ?_, ?_, ?_⟩, ?_, ?_, ?_⟩
      all_goals rw [show w₂.view.wdf = w.wdf from hwdf]
      · exact h.presents
      · exact h.bound
      · exact h.uncompleted
      · exact h.unfinished
      · exact h.current
      · exact h.left
      · exact h.transferred
    refine (engineProcessTransfer_runs hN hstarted).bind fun _ w₃ h₃ => Prog.Runs.ret ?_
    rw [h₃]
    simp [hcounts.mp hsuccess]
  · next hfail =>
    refine Prog.Runs.ret ⟨fun hc => absurd hc (not_pollCompleted ?_), fun hc => ?_⟩
    · rw [hwdf]
      exact h.uncompleted
    · exact absurd (hcounts.mpr hc.2.1) hfail

theorem evtIoDma_runs (hN : ¬ e.engine.Divides → N) (h : PollReady id w.view)
    (hends : ¬ i.Ends (w.wdf.request id).expected w.view.reads bound → N) :
    PollRuns i id N (evtIoDma e id bound)
      (fun _ w' => PollCompleted (w.wdf.request id) id w'.wdf ↔
        i.Completes (w.wdf.request id) w.view.reads) w := by
  refine (initializeUsingRequest_runs h).bind fun status w₁ h₁ => ?_
  obtain ⟨rfl, h₁⟩ := h₁
  unfold PollInput.Completes
  split
  · next hinit =>
    rw [if_pos hinit] at h₁
    refine (markCancelableEx_runs h₁).bind fun status w₂ h₂ => ?_
    obtain ⟨rfl, h₂⟩ := h₂
    split
    · next hmark =>
      refine (wdfDmaTransactionExecute_runs hN h₂).bind fun status w₃ h₃ => ?_
      obtain ⟨hexecute, h₃⟩ := h₃
      split
      · next hsuccess =>
        rw [hexecute] at hsuccess
        rw [if_pos hsuccess] at h₃
        refine (PollRuns.quiet rfl).bind fun poll w₄ h₄ => ?_
        have hpoll : poll = true := h₄.1.trans h₃.1.poll
        refine Prog.Runs.when (fun _ => ?_) fun hno => absurd hpoll hno
        have hstarted := h₄.2.symm ▸ h₃.1
        refine (enginePollTransfer_runs hN hends hstarted ?_).bind fun _ w₅ h₅ => Prog.Runs.ret ?_
        · rw [h₄.2]
          exact h₃.2
        · rw [h₅]
          simp [hinit, hmark, hsuccess]
      · next hfail =>
        have hfailed : ntSuccess i.executeStatus = false :=
          hexecute ▸ Bool.eq_false_of_not_eq_true hfail
        rw [if_neg (hexecute ▸ hfail)] at h₃
        refine (errExit_runs h₃ (Bool.eq_false_of_not_eq_true hfail)).post fun _ w' hw => ?_
        rw [hw]
        simp [hinit, hfailed]
    · next hmark =>
      have hfailed := Bool.eq_false_of_not_eq_true hmark
      refine (errExit_runs h₂.toPollBound hfailed).post fun _ w' hw => ?_
      rw [hw]
      simp [hinit, hfailed]
  · next hinit =>
    rw [if_neg hinit] at h₁
    subst h₁
    have hfailed := Bool.eq_false_of_not_eq_true hinit
    refine (finish_runs (f := fun _ => i.initStatus) h.uncompleted).post fun _ w' hw => ?_
    obtain ⟨hcompletions, hfinished, hbound⟩ := hw
    rw [pollCompleted_iff hcompletions, hbound, hfinished,
      show w₁.wdf.bound = none from h.bound, show w₁.wdf.finished id = false from h.unfinished]
    simp [hfailed]

/-- Run the routine that presents the request `id`. -/
def runEvtIo (i : PollInput) (e : TransferEngine) (id bound : Nat) (w : TransferWorld) :
    Option (Unit × TransferWorld) :=
  (evtIo e id bound).exec (fun o w r => TransferWorld.act (.dispatch id) o w r) i.answer w

theorem evtIo_pollCompleted_iff (i : PollInput) (e : TransferEngine) (id bound : Nat)
    (w : TransferWorld) (h : PollReady id w.view) :
    (∀ w', runEvtIo i e id bound w = some ((), w') →
      (PollCompleted (w.wdf.request id) id w'.wdf ↔
        i.Completes (w.wdf.request id) w.engine.writebackReads)) ∧
    (e.engine.Divides → i.Ends (w.wdf.request id).expected w.engine.writebackReads bound →
      (runEvtIo i e id bound w).isSome = true) := by
  have hruns : PollRuns i id
      (¬ (e.engine.Divides ∧ i.Ends (w.wdf.request id).expected w.engine.writebackReads bound))
      (evtIo e id bound) (fun _ w' => PollCompleted (w.wdf.request id) id w'.wdf ↔
        i.Completes (w.wdf.request id) w.engine.writebackReads) w := by
    rw [evtIo_eq]
    exact evtIoDma_runs (fun hdiv hc => hdiv hc.1) h fun hends hc => hends hc.2
  refine ⟨fun w' hrun => hruns.of_some hrun, fun hdiv hends => hruns.isSome ?_⟩
  exact fun hc => hc ⟨hdiv, hends⟩

/-- Every call succeeds, and the writeback buffer holds `value`. -/
def PollInput.sample (value : BitVec 32) : PollInput :=
  ⟨statusSuccess, statusSuccess, statusSuccess, fun _ => value, 0, statusSuccess, statusSuccess⟩

theorem evtIo_pollCompleted_iff_counted : ∃ w',
    runEvtIo (.sample 1) sampleEngine 0 1 (.idle true (fun _ => .zero) fun _ => shortRequest) =
      some ((), w') ∧ PollCompleted shortRequest 0 w'.wdf := by
  obtain ⟨hiff, hreturns⟩ := evtIo_pollCompleted_iff (.sample 1) sampleEngine 0 1
    (.idle true (fun _ => .zero) fun _ => shortRequest) ⟨rfl, rfl, rfl, rfl⟩
  have hdiv : sampleEngine.engine.Divides := .inr ⟨by decide, by decide⟩
  obtain ⟨⟨⟨⟩, w'⟩, hrun⟩ :=
    Option.isSome_iff_exists.mp (hreturns hdiv ⟨0, Nat.zero_lt_one, .inl (by decide)⟩)
  refine ⟨w', hrun, (hiff w' hrun).mpr (.inr ⟨by decide, .inr (.inr ⟨⟨0, ?_, ?_⟩, .inr rfl⟩)⟩)⟩
  · decide
  · exact fun _ _ => (by decide : PollInput.failed 1 = false)

/-- The routine returns after an error in the writeback buffer, and the request stays pending. -/
theorem evtIo_poll_leaves_pending : ∃ w',
    runEvtIo (.sample 0x80000000) sampleEngine 0 1
      (.idle true (fun _ => .zero) fun _ => shortRequest) = some ((), w') ∧
      w'.wdf.completions 0 = [] ∧ ¬ PollCompleted shortRequest 0 w'.wdf := by
  have hrun : ((runEvtIo (.sample 0x80000000) sampleEngine 0 1
      (.idle true (fun _ => .zero) fun _ => shortRequest)).any fun x =>
        (x.2.wdf.completions 0).isEmpty) = true := by decide
  obtain ⟨⟨⟨⟩, w'⟩, hrun, hpending⟩ := Option.any_eq_true _ _ |>.mp hrun
  have hnone : w'.wdf.completions 0 = [] := List.isEmpty_iff.mp hpending
  exact ⟨w', hrun, hnone, not_pollCompleted hnone⟩

end Xadma
