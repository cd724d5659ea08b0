import Xadma.Sys.EntryQueue

/-!
# Every request is answered once

A helper completes a request that it succeeds with, or leaves that to its caller; a failure is
always completed by the caller. `EvtIoDeviceControl` looks at the context of a queue before it
knows that the file has one: only the files of DMA nodes do.
-/

namespace Xadma

namespace Entry

variable {w : PointerWidth} {answer : (o : EntryOp w) → List Answer → o.Res}
  {answers : List Answer} {α : Type}

/-! ## Routines that answer nothing -/

/-- A call that returns and does not answer the request. -/
def Quiet (o : EntryOp w) : Prop := ∀ answers r, answerAct o answers r = some answers

theorem exec_of_quiet {p : EntryProg w α} (h : p.All Quiet)
    (answer : (o : EntryOp w) → List Answer → o.Res) (answers : List Answer) :
    ∃ a, Prog.exec answerAct answer p answers = some (a, answers) := by
  induction p with
  | ret a => exact ⟨a, rfl⟩
  | call op k ih =>
    obtain ⟨a, ha⟩ := ih (answer op answers) (h.2 _)
    exact ⟨a, by rw [Prog.exec_call, h.1, Option.bind_some, ha]⟩

theorem readBarToRequest_all {P : EntryOp w → Prop} (hmemory : P .retrieveOutputMemory)
    (hread : ∀ access, P (.readRegisterBuffer access)) (deviceOffset : BitVec 64)
    (length bar : BitVec w.bits) : (readBarToRequest deviceOffset length bar).All P := by
  unfold readBarToRequest
  split
  · exact trivial
  · apply (Prog.All.perform hmemory).bind
    intro requestMemory
    split
    · exact trivial
    · exact (Prog.All.perform (hread _)).bind fun _ => trivial

theorem writeBarFromRequest_all {P : EntryOp w → Prop} (hmemory : P .retrieveInputMemory)
    (hwrite : ∀ access, P (.writeRegisterBuffer access)) (deviceOffset : BitVec 64)
    (length bar : BitVec w.bits) : (writeBarFromRequest deviceOffset length bar).All P := by
  unfold writeBarFromRequest
  split
  · exact trivial
  · apply (Prog.All.perform hmemory).bind
    intro status
    split
    · exact trivial
    · exact (Prog.All.perform (hwrite _)).bind fun _ => trivial

theorem readBarToRequest_quiet (deviceOffset : BitVec 64) (length bar : BitVec w.bits) :
    (readBarToRequest deviceOffset length bar).All Quiet :=
  readBarToRequest_all (fun _ _ => rfl) (fun _ _ _ => rfl) ..

theorem writeBarFromRequest_quiet (deviceOffset : BitVec 64) (length bar : BitVec w.bits) :
    (writeBarFromRequest deviceOffset length bar).All Quiet :=
  writeBarFromRequest_all (fun _ _ => rfl) (fun _ _ _ => rfl) ..

theorem ioctlGetPerf_quiet : (ioctlGetPerf (w := w)).All Quiet := by
  apply (Prog.All.perform fun _ _ => rfl).bind
  intro _
  apply (Prog.All.perform fun _ _ => rfl).bind
  intro requestMemory
  split
  · exact trivial
  · exact Prog.All.perform fun _ _ => rfl

theorem ioctlGetAddrMode_quiet : (ioctlGetAddrMode (w := w)).All Quiet := by
  apply (Prog.All.perform fun _ _ => rfl).bind
  intro _
  apply (Prog.All.perform fun _ _ => rfl).bind
  intro requestMemory
  split
  · exact trivial
  · exact Prog.All.perform fun _ _ => rfl

theorem writeNonIncrAddr_quiet (addrMode : BitVec 32) :
    (writeNonIncrAddr (w := w) addrMode).All Quiet := by
  unfold writeNonIncrAddr
  split
  · exact Prog.All.perform fun _ _ => rfl
  · exact Prog.All.perform fun _ _ => rfl

theorem ioctlSetAddrMode_quiet : (ioctlSetAddrMode (w := w)).All Quiet := by
  apply (Prog.All.perform fun _ _ => rfl).bind
  intro status
  split
  · exact trivial
  apply (Prog.All.perform fun _ _ => rfl).bind
  intro copied
  split
  · exact trivial
  apply Prog.All.bind (writeNonIncrAddr_quiet _)
  exact fun _ => (Prog.All.perform fun _ _ => rfl).bind fun _ => trivial

/-! ## One answer -/

/-- The routine returns, whatever its calls answer, and ends in `Q`. -/
abbrev EntryRuns (answer : (o : EntryOp w) → List Answer → o.Res) (p : EntryProg w α)
    (Q : α → List Answer → Prop) (answers : List Answer) : Prop :=
  Prog.Runs answerAct answer False p Q answers

/-- The routine returns whatever its calls answer, and has answered the request once, with an
answer of `P`. -/
def AnswersOnce (P : Answer → Prop) (p : EntryProg w Unit) : Prop :=
  ∀ answer, ∃ a, P a ∧ Prog.exec answerAct answer p [] = some ((), [a])

/-- One answer is there in the end. -/
abbrev OneAnswer (P : Answer → Prop) (_ : Unit) (answers : List Answer) : Prop :=
  ∃ a, P a ∧ answers = [a]

variable {P : Answer → Prop}

theorem AnswersOnce.mono {P' : Answer → Prop} {p : EntryProg w Unit} (h : AnswersOnce P p)
    (hP : ∀ a, P a → P' a) : AnswersOnce P' p := by
  intro answer
  obtain ⟨a, ha, hexec⟩ := h answer
  exact ⟨a, hP a ha, hexec⟩

theorem answersOnce_of_runs {p : EntryProg w Unit}
    (h : ∀ answer, EntryRuns answer p (OneAnswer P) []) : AnswersOnce P p := by
  intro answer
  have hrun := h answer
  unfold EntryRuns Prog.Runs at hrun
  split at hrun
  · next x hx =>
    obtain ⟨a, hP, ha⟩ := hrun
    exact ⟨a, hP, by rw [hx, ← ha]⟩
  · exact hrun.elim

theorem quiet_bind_runs {p : EntryProg w α} {f : α → EntryProg w Unit}
    {Q : Unit → List Answer → Prop} (hp : p.All Quiet)
    (hf : ∀ a, EntryRuns answer (f a) Q answers) :
    EntryRuns answer (p >>= f) Q answers := by
  obtain ⟨a, ha⟩ := exec_of_quiet hp answer answers
  have hrun := hf a
  unfold EntryRuns Prog.Runs at hrun ⊢
  rw [Prog.exec_bind, ha, Option.bind_some]
  exact hrun

theorem complete_runs (status : NtStatus) (information : Nat) :
    EntryRuns answer (EntryOp.complete status information).perform
      (fun _ answers' => answers' = answers ++ [.completed status information]) answers :=
  Prog.Runs.performs rfl rfl

theorem forward_runs (queue : Option IoQueue) :
    EntryRuns answer (EntryOp.forwardToIoQueue queue).perform
      (fun status answers' => status = answer (.forwardToIoQueue queue) answers ∧
        answers' = if ntSuccess status then answers ++ [.forwarded queue] else answers) answers :=
  Prog.Runs.performs rfl ⟨rfl, rfl⟩

theorem completeFailed_runs (status : NtStatus) :
    EntryRuns answer (completeFailed status)
      (fun _ answers' =>
        answers' = if ntSuccess status then answers else answers ++ [.completed status 0])
      answers := by
  cases hstatus : ntSuccess status with
  | true => exact Prog.Runs.when (fun hno => by simp [hstatus] at hno) fun _ => rfl
  | false => exact Prog.Runs.when (fun _ => complete_runs _ _) fun hno => by simp [hstatus] at hno

theorem completeDone_runs (information : Nat) (status : NtStatus) :
    EntryRuns answer (completeDone information status)
      (fun _ answers' =>
        answers' = if ntSuccess status then answers ++ [.completed status information]
          else answers) answers := by
  cases hstatus : ntSuccess status with
  | true => exact Prog.Runs.when (fun _ => complete_runs _ _) fun hno => absurd hstatus hno
  | false => exact Prog.Runs.when (fun hyes => by simp [hstatus] at hyes) fun _ => rfl

/-- The answer of a request that is completed here. -/
def Answer.IsCompleted (a : Answer) : Prop :=
  ∃ status information, a = .completed status information

/-- What a routine that succeeded or failed leaves to `completeFailed`. -/
theorem completeFailed_oneAnswer {status : NtStatus} {a : Answer} (ha : P a)
    (hP : ∀ a, a.IsCompleted → P a) (h : answers = if ntSuccess status then [a] else []) :
    EntryRuns answer (completeFailed status) (OneAnswer P) answers := by
  apply (completeFailed_runs status).post
  rintro - _ rfl
  rw [h]
  cases ntSuccess status with
  | true => exact ⟨a, ha, rfl⟩
  | false => exact ⟨.completed status 0, hP _ ⟨_, _, rfl⟩, rfl⟩

/-- A failing routine is left to its caller. -/
theorem failed_answersOnce {status : NtStatus} (h : ntSuccess status = false) :
    AnswersOnce (w := w) (· = .completed status 0) (completeFailed status) := by
  apply answersOnce_of_runs
  intro answer
  apply (completeFailed_runs status).post
  rintro - _ rfl
  rw [h]
  exact ⟨_, rfl, rfl⟩

/-- A helper that leaves both completions to its caller. -/
theorem helper_answersOnce {p : EntryProg w NtStatus} (hp : p.All Quiet) (information : Nat) :
    AnswersOnce Answer.IsCompleted (do
      let status ← p
      completeDone information status
      completeFailed status) := by
  apply answersOnce_of_runs
  intro answer
  apply quiet_bind_runs hp
  intro status
  apply (completeDone_runs information status).bind
  intro _ _ hdone
  exact completeFailed_oneAnswer ⟨_, _, rfl⟩ (fun _ h => h) hdone

theorem forward_answersOnce (queue : Option IoQueue) :
    AnswersOnce (w := w) (fun a => a.IsCompleted ∨ a = .forwarded queue)
      ((EntryOp.forwardToIoQueue queue).perform >>= completeFailed) := by
  apply answersOnce_of_runs
  intro answer
  apply (forward_runs queue).bind
  intro _ _ hforward
  exact completeFailed_oneAnswer (.inr rfl) (fun _ h => .inl h) hforward.2

theorem AnswersOnce.quiet_bind {p : EntryProg w α} {f : α → EntryProg w Unit} (hp : p.All Quiet)
    (hf : ∀ a, AnswersOnce P (f a)) : AnswersOnce P (p >>= f) := by
  intro answer
  obtain ⟨a, ha⟩ := exec_of_quiet hp answer []
  obtain ⟨b, hP, hb⟩ := hf a answer
  exact ⟨b, hP, by rw [Prog.exec_bind, ha, Option.bind_some, hb]⟩

theorem complete_answersOnce (status : NtStatus) (information : Nat) :
    AnswersOnce (w := w) (· = .completed status information)
      (EntryOp.complete status information).perform :=
  fun _ => ⟨_, rfl, rfl⟩

/-- A quiet call leaves everything to what comes after it. -/
theorem quiet_runs {o : EntryOp w} (h : Quiet o) :
    EntryRuns answer o.perform (fun _ answers' => answers' = answers) answers :=
  Prog.Runs.performs (h _ _) rfl

/-- The routine completes the request itself if it succeeds, and leaves it alone if not. -/
theorem evtReadUserEvent_runs (file : File w) (length : BitVec w.bits) :
    EntryRuns answer (evtReadUserEvent file length)
      (fun status answers =>
        answers = if ntSuccess status then [.completed status sizeofBoolean] else []) [] := by
  have hinvalid : ntSuccess statusInvalidParameter = false := by decide
  unfold evtReadUserEvent
  split
  · apply Prog.Runs.ret
    rw [hinvalid]
    rfl
  apply (quiet_runs fun _ _ => rfl).bind
  rintro - _ rfl
  apply (quiet_runs fun _ _ => rfl).bind
  rintro - _ rfl
  apply (quiet_runs fun _ _ => rfl).bind
  rintro outputMem _ rfl
  split
  · next hfail =>
    apply Prog.Runs.ret
    rw [(Bool.not_eq_true' _).mp hfail]
    rfl
  split
  · apply Prog.Runs.ret
    rw [hinvalid]
    rfl
  · next hsize =>
    rw [not_not.mp hsize]
    apply (quiet_runs fun _ _ => rfl).bind
    rintro status _ rfl
    split
    · next hfail =>
      apply Prog.Runs.ret
      rw [(Bool.not_eq_true' _).mp hfail]
      rfl
    · next hdone =>
      rw [Bool.not_eq_true', Bool.not_eq_false] at hdone
      apply Prog.Runs.bind (Prog.Runs.performs rfl (Q := fun _ answers =>
        answers = [.completed status sizeofBoolean]) rfl)
      rintro - _ rfl
      apply Prog.Runs.ret
      rw [hdone]
      rfl

theorem event_answersOnce (file : File w) (length : BitVec w.bits) :
    AnswersOnce Answer.IsCompleted (evtReadUserEvent file length >>= completeFailed) := by
  apply answersOnce_of_runs
  intro answer
  apply (evtReadUserEvent_runs file length).bind
  intro _ _ hread
  exact completeFailed_oneAnswer ⟨_, _, rfl⟩ (fun _ h => h) hread

/-! ## The engine queues -/

/-- The loop creates a queue for every enabled engine that it passes, and takes none away. -/
theorem createQueues_queued {engine : EngineSlot → EngineInfo} {create : EngineSlot → NtStatus}
    {es : List EngineSlot} {table engineQueue : EngineSlot → Option IoQueue} {status : NtStatus}
    (h : createQueues engine create es table = (status, engineQueue))
    (hstatus : ntSuccess status = true) {e : EngineSlot} (henabled : (engine e).enabled = true)
    (he : e ∈ es ∨ table e = some ⟨some e⟩) : engineQueue e = some ⟨some e⟩ := by
  induction es generalizing table with
  | nil =>
    cases h
    exact he.resolve_left List.not_mem_nil
  | cons d es ih =>
    unfold createQueues at h
    by_cases hd : (engine d).enabled = true
    · by_cases hcreate : ntSuccess (create d) = true
      · simp only [hd, if_true, engineCreateQueue, hcreate, Bool.not_true, Bool.false_eq_true,
          if_false] at h
        apply ih h
        by_cases hed : e = d
        · subst hed
          exact .inr (Function.update_self ..)
        · rw [Function.update_of_ne hed]
          exact he.imp_left fun hmem => (List.mem_cons.mp hmem).resolve_left hed
      · simp only [hd, if_true, engineCreateQueue, hcreate, Bool.not_false] at h
        cases h
        exact absurd hstatus hcreate
    · rw [if_neg hd] at h
      apply ih h
      apply he.imp_left
      intro hmem
      rcases List.mem_cons.mp hmem with rfl | hmem
      · exact absurd henabled hd
      · exact hmem

/-- The device context that `EvtDevicePrepareHardware` leaves when it succeeds. -/
def DeviceContext.ofPrepare (bar : Nat → BitVec w.bits) (configBarIdx : Nat)
    (userBarIdx bypassBarIdx : Int) (engine : EngineSlot → EngineInfo)
    (create : EngineSlot → NtStatus)
    (h : ntSuccess (createQueues engine create engineSlots fun _ => none).1 = true) :
    DeviceContext w where
  bar := bar
  configBarIdx := configBarIdx
  userBarIdx := userBarIdx
  bypassBarIdx := bypassBarIdx
  engine := engine
  engineQueue := (createQueues engine create engineSlots fun _ => none).2
  queued := fun _ he henabled => createQueues_queued rfl h henabled (.inl he)

/-! ## The files that are opened -/

variable {file : File w}

/-- The nodes of the engines. -/
def IsDma (t : DevNodeType) : Prop := t = .h2c ∨ t = .c2h

instance (t : DevNodeType) : Decidable (IsDma t) := inferInstanceAs (Decidable (_ ∨ _))

/-- The engine of a DMA node is one of those that queues are created for. -/
theorem mem_engineSlots {fileName : String} {devType : DevNodeType} {index : Nat} {dir : DirToDev}
    (h : getDevNodeType fileName = (devType, index)) (hdma : IsDma devType) :
    (⟨dir, index⟩ : EngineSlot) ∈ engineSlots := by
  have hlut : ∀ entry ∈ fileNameLut, IsDma entry.2.1 → entry.2.2 < xdmaMaxNumChannels := by decide
  have hindex : index < xdmaMaxNumChannels := by
    unfold getDevNodeType at h
    cases hlookup : fileNameLut.lookup fileName with
    | none =>
      rw [hlookup] at h
      cases h
      exact absurd hdma (by decide)
    | some entry =>
      rw [hlookup] at h
      obtain ⟨before, after, hmem, -⟩ := List.lookup_eq_some_iff.mp hlookup
      have hentry : (fileName, entry) ∈ fileNameLut := by
        rw [hmem]
        exact List.mem_append_right _ (List.mem_cons_self ..)
      cases h
      exact hlut _ hentry hdma
  apply List.mem_flatMap.mpr
  refine ⟨dir, ?_, List.mem_map.mpr ⟨index, List.mem_range.mpr hindex, rfl⟩⟩
  cases dir with
  | h2c => exact List.mem_cons_self ..
  | c2h => exact List.mem_cons_of_mem _ (List.mem_cons_self ..)

/-- What the routines of the entry queue rely on: the file of a DMA node has the queue of its
engine, and no other file has a queue. -/
structure File.Opened (file : File w) : Prop where
  dma : IsDma file.devType → ∃ e, file.u = .engine e ∧ file.queue = some ⟨some e⟩
  other : ¬ IsDma file.devType → file.queue = none

theorem File.Opened.of_other {devType : DevNodeType} {u : FileTarget w} (h : ¬ IsDma devType) :
    (⟨devType, u, none⟩ : File w).Opened :=
  ⟨fun hdma => absurd hdma h, fun _ => rfl⟩

theorem createEngineFile_opened {ctx : DeviceContext w} {devType : DevNodeType} {e : EngineSlot}
    {calls : List FileEngineCall} (hdma : IsDma devType) (he : e ∈ engineSlots)
    (h : createEngineFile ctx devType e = .ok (file, calls)) : file.Opened := by
  simp only [createEngineFile] at h
  split at h
  · cases h
  · next henabled =>
    rw [Bool.not_eq_false] at henabled
    cases h
    exact ⟨fun _ => ⟨e, rfl, ctx.queued e he henabled⟩, fun hother => absurd hdma hother⟩

theorem evtDeviceFileCreate_opened {ctx : DeviceContext w} {fileName : Option String}
    {calls : List FileEngineCall}
    (h : evtDeviceFileCreate ctx fileName = .ok (file, calls)) : file.Opened := by
  cases fileName with
  | none => cases h
  | some fileName =>
    simp only [evtDeviceFileCreate] at h
    have hslot := @mem_engineSlots fileName
    generalize getDevNodeType fileName = node at h hslot
    obtain ⟨devType, index⟩ := node
    cases devType with
    | control | events =>
      cases h
      exact .of_other (by decide)
    | user =>
      by_cases hidx : ctx.userBarIdx < 0
      · simp [hidx] at h
      · simp only [hidx, if_false] at h
        cases h
        exact .of_other (by decide)
    | bypass =>
      by_cases hidx : ctx.bypassBarIdx < 0
      · simp [hidx] at h
      · simp only [hidx, if_false] at h
        cases h
        exact .of_other (by decide)
    | h2c => exact createEngineFile_opened (by decide) (hslot rfl (by decide)) h
    | c2h => exact createEngineFile_opened (by decide) (hslot rfl (by decide)) h
    | ah2c | ac2h | unknown => cases h

/-! ## The requests -/

theorem evtIoRead_answersOnce (deviceOffset : BitVec 64) (length : BitVec w.bits) :
    AnswersOnce (fun a => a.IsCompleted ∨ a = .forwarded file.queue ∧ IsDma file.devType)
      (evtIoRead file deviceOffset length) := by
  unfold evtIoRead
  cases file.devType with
  | user | control | bypass =>
    exact (helper_answersOnce (readBarToRequest_quiet ..) _).mono fun _ h => .inl h
  | events => exact (event_answersOnce file length).mono fun _ h => .inl h
  | c2h =>
    apply (forward_answersOnce file.queue).mono
    exact fun _ h => h.imp_right fun h => ⟨h, by decide⟩
  | h2c | ah2c | ac2h | unknown =>
    exact (failed_answersOnce (by decide)).mono fun _ h => .inl ⟨_, _, h⟩

theorem evtIoWrite_answersOnce (deviceOffset : BitVec 64) (length : BitVec w.bits) :
    AnswersOnce (fun a => a.IsCompleted ∨ a = .forwarded file.queue ∧ IsDma file.devType)
      (evtIoWrite file deviceOffset length) := by
  unfold evtIoWrite
  cases file.devType with
  | user | control | bypass =>
    exact (helper_answersOnce (writeBarFromRequest_quiet ..) _).mono fun _ h => .inl h
  | h2c =>
    apply (forward_answersOnce file.queue).mono
    exact fun _ h => h.imp_right fun h => ⟨h, by decide⟩
  | events | c2h | ah2c | ac2h | unknown =>
    exact (failed_answersOnce (by decide)).mono fun _ h => .inl ⟨_, _, h⟩

/-- The mode is set with a completion of its own. -/
theorem setAddrMode_answersOnce :
    AnswersOnce (w := w) Answer.IsCompleted (do
      let status ← ioctlSetAddrMode
      Prog.when (ntSuccess status = true) (EntryOp.complete statusSuccess 0).perform
      completeFailed status) := by
  apply AnswersOnce.quiet_bind ioctlSetAddrMode_quiet
  intro status
  cases hstatus : ntSuccess status with
  | true =>
    intro answer
    refine ⟨.completed statusSuccess 0, ⟨_, _, rfl⟩, ?_⟩
    simp [Prog.when, completeFailed, hstatus, EntryOp.perform, Prog.perform, answerAct]
  | false =>
    intro answer
    refine ⟨.completed status 0, ⟨_, _, rfl⟩, ?_⟩
    simp [Prog.when, completeFailed, hstatus, EntryOp.perform, Prog.perform, answerAct]

/-- What the framework answers to the calls made for a request. -/
def requestAnswer (request : IoRequest w) (o : EntryOp w) (answers : List Answer) : o.Res :=
  match o with
  | .retrieveOutputMemory => (request.retrieveMemory, request.length.toNat)
  | .retrieveInputMemory => request.retrieveMemory
  | .forwardToIoQueue _ => request.forwardToIoQueue
  | o => succeeds o answers

theorem readBarToRequest_runs (request : IoRequest w) (bar : BitVec w.bits) :
    EntryRuns (requestAnswer request)
      (readBarToRequest request.deviceOffset request.length bar)
      (fun status answers' =>
        status = (Xadma.readBarToRequest request bar).1 ∧ answers' = answers) answers := by
  unfold readBarToRequest Xadma.readBarToRequest
  by_cases hzero : request.length = 0
  · simp only [hzero, if_true]
    exact Prog.Runs.ret ⟨rfl, rfl⟩
  simp only [hzero, if_false]
  apply Prog.Runs.bind (Prog.Runs.performs rfl (Q := fun requestMemory answers' =>
    requestMemory.1 = request.retrieveMemory ∧ answers' = answers) ⟨rfl, rfl⟩)
  rintro ⟨_, _⟩ _ ⟨rfl, rfl⟩
  split
  · exact Prog.Runs.ret ⟨rfl, rfl⟩
  · apply (quiet_runs fun _ _ => rfl).bind
    rintro - _ rfl
    exact Prog.Runs.ret ⟨rfl, rfl⟩

/-- What the outcome of a request says about its answers. -/
def outcomeAnswers (queue : Option IoQueue) (outcome : IoOutcome w) : List Answer :=
  match outcome.completed with
  | some (status, information) => [.completed status information]
  | none => [.forwarded queue]

theorem handedOn_runs {status : NtStatus} {queue : Option IoQueue}
    (h : answers = if ntSuccess status then [.forwarded queue] else []) :
    EntryRuns answer (completeFailed status)
      (fun _ answers' => answers' = outcomeAnswers queue (finishHandedOn (w := w) status))
      answers := by
  apply (completeFailed_runs status).post
  rintro - _ rfl
  rw [h]
  cases hstatus : ntSuccess status with
  | true => simp [outcomeAnswers, finishHandedOn, hstatus]
  | false => simp [outcomeAnswers, finishHandedOn, hstatus]

/-- The routine does what `Xadma.evtIoRead` says about the file and its BAR. -/
theorem evtIoRead_runs (b : Bar w) (hbar : file.u.asBar = b.bar) (hevents : file.devType ≠ .events)
    (request : IoRequest w) :
    EntryRuns (requestAnswer request) (evtIoRead file request.deviceOffset request.length)
      (fun _ answers =>
        answers = outcomeAnswers file.queue (Xadma.evtIoRead .xdma ⟨file.devType, b⟩ request))
      [] := by
  unfold evtIoRead Xadma.evtIoRead
  cases hdev : file.devType with
  | events => exact absurd hdev hevents
  | user | control | bypass =>
    rw [hbar]
    apply (readBarToRequest_runs request b.bar).bind
    rintro _ _ ⟨rfl, rfl⟩
    apply (completeDone_runs _ _).bind
    rintro - _ rfl
    apply (completeFailed_runs _).post
    rintro - _ rfl
    cases hstatus : ntSuccess (Xadma.readBarToRequest request b.bar).1 with
    | true => simp [outcomeAnswers, finishBar, hstatus]
    | false => simp [outcomeAnswers, finishBar, hstatus]
  | c2h =>
    apply (forward_runs file.queue).bind
    rintro _ _ ⟨rfl, hforward⟩
    exact handedOn_runs hforward
  | h2c | ah2c | ac2h | unknown => exact handedOn_runs rfl

theorem evtIoDeviceControl_answersOnce (hfile : file.Opened) (hdma : IsDma file.devType)
    (ioControlCode : BitVec 32) :
    AnswersOnce Answer.IsCompleted (evtIoDeviceControl file ioControlCode) := by
  obtain ⟨e, -, hqueue⟩ := hfile.dma hdma
  unfold evtIoDeviceControl
  rw [hqueue]
  apply AnswersOnce.quiet_bind (Prog.All.perform fun _ _ => rfl)
  intro _
  rw [if_neg (by simp)]
  split
  · apply AnswersOnce.quiet_bind (Prog.All.perform fun _ _ => rfl)
    exact fun _ => (complete_answersOnce _ _).mono fun _ h => ⟨_, _, h⟩
  split
  · exact helper_answersOnce ioctlGetPerf_quiet _
  split
  · exact helper_answersOnce ioctlGetAddrMode_quiet _
  split
  · exact setAddrMode_answersOnce
  · exact (failed_answersOnce (by decide)).mono fun _ h => ⟨_, _, h⟩

/-! ## The entry queue -/

def EntryRequest.IsDeviceControl : EntryRequest w → Prop
  | .deviceControl _ => True
  | _ => False

/-- The request is answered once; a request that is forwarded goes to the queue of the engine of
its file; and a device control request for a file without an engine is refused, without a look
at a queue. -/
structure Answered (file : File w) (request : EntryRequest w) : Prop where
  once : AnswersOnce
    (fun a => a.IsCompleted ∨ ∃ e, file.u = .engine e ∧ a = .forwarded (some ⟨some e⟩))
    (request.routine file)
  refused : request.IsDeviceControl → ¬ IsDma file.devType →
    AnswersOnce (· = .completed statusInvalidParameter 0) (request.routine file) ∧
      (request.routine file).All fun o => o ≠ .getQueueContext none

theorem Answered.of_answersOnce {request : EntryRequest w} (hfile : file.Opened)
    (h : AnswersOnce (fun a => a.IsCompleted ∨ a = .forwarded file.queue ∧ IsDma file.devType)
      (request.routine file))
    (hcontrol : ¬ (request.IsDeviceControl ∧ ¬ IsDma file.devType)) : Answered file request := by
  constructor
  · apply h.mono
    rintro a (hdone | ⟨hforward, hdma⟩)
    · exact .inl hdone
    · obtain ⟨e, hu, hqueue⟩ := hfile.dma hdma
      exact .inr ⟨e, hu, hforward.trans (congrArg _ hqueue)⟩
  · exact fun hioctl hother => absurd ⟨hioctl, hother⟩ hcontrol

/-- The framework does not go on with the handle that the file does not have. -/
theorem evtIoDeviceControl_stops (hqueue : file.queue = none) (ioControlCode : BitVec 32) :
    Prog.exec answerAct answer (evtIoDeviceControl file ioControlCode) [] = none := by
  unfold evtIoDeviceControl
  rw [hqueue]
  rfl

theorem file_answered_iff (ctx : DeviceContext w) (fileName : Option String) (file : File w)
    (calls : List FileEngineCall) (h : evtDeviceFileCreate ctx fileName = .ok (file, calls))
    (request : EntryRequest w) :
    Answered file request ↔ ¬ (request.IsDeviceControl ∧ ¬ IsDma file.devType) := by
  have hfile := evtDeviceFileCreate_opened h
  constructor
  · rintro hanswered ⟨hioctl, hother⟩
    cases request with
    | read | write => exact hioctl
    | deviceControl ioControlCode =>
      obtain ⟨a, -, hexec⟩ := hanswered.once succeeds
      rw [EntryRequest.routine, evtIoDeviceControl_stops (hfile.other hother)] at hexec
      cases hexec
  · intro hcontrol
    cases request with
    | read deviceOffset length =>
      exact .of_answersOnce hfile (evtIoRead_answersOnce deviceOffset length) hcontrol
    | write deviceOffset length =>
      exact .of_answersOnce hfile (evtIoWrite_answersOnce deviceOffset length) hcontrol
    | deviceControl ioControlCode =>
      have hdma : IsDma file.devType := not_not.mp fun hother => hcontrol ⟨trivial, hother⟩
      have honce := evtIoDeviceControl_answersOnce hfile hdma ioControlCode
      exact .of_answersOnce hfile (honce.mono fun _ h => .inl h) hcontrol

/-- A device with a config BAR and a user BAR, and the first H2C engine. -/
def twoBarContext : DeviceContext .w64 where
  bar := fun n => BitVec.ofNat 64 (0x10000 * (n + 1))
  configBarIdx := 1
  userBarIdx := 0
  bypassBarIdx := -1
  engine := fun e => ⟨e = ⟨.h2c, 0⟩, .mm, false⟩
  engineQueue := fun e => if e = ⟨.h2c, 0⟩ then some ⟨some e⟩ else none
  queued := by decide

theorem file_answered_iff_write :
    ∃ file calls, evtDeviceFileCreate twoBarContext (some "\\h2c_0") = .ok (file, calls) ∧
      (Answered file (.write 0 4) ↔
        ¬ ((EntryRequest.write (w := .w64) 0 4).IsDeviceControl ∧ ¬ IsDma file.devType)) :=
  ⟨_, _, rfl, file_answered_iff twoBarContext (some "\\h2c_0") _ _ rfl (.write 0 4)⟩

/-- The user node has no queue. -/
theorem userFile_not_answered :
    ∃ file calls, evtDeviceFileCreate twoBarContext (some "\\user") = .ok (file, calls) ∧
      ¬ Answered file (.deviceControl ioctlXdmaPerfStart) := by
  refine ⟨_, _, rfl, fun hanswered => ?_⟩
  obtain ⟨a, -, hexec⟩ := hanswered.once succeeds
  rw [EntryRequest.routine, evtIoDeviceControl_stops rfl] at hexec
  cases hexec

end Entry

end Xadma
