import Xadma.Theory.RelyGuarantee
import Xadma.Libxdma.Transfer
import Xadma.Verify.Split

/-!
# The descriptor buffer while the engine runs

`XDMA_EngineProgramDma` writes its chain and starts the engine. `EngineProcessTransfer` clears the
buffer at its end, and that clear is harmless only if no fragment was programmed since it stopped
the engine. With a next fragment there always is one: `WdfDmaTransactionDmaCompleted` has it
programmed.
-/

namespace Xadma

open Threads

/-- The buffer holds what `XDMA_EngineProgramDma` wrote last. -/
def EngineSide.Holds (s : EngineSide) : Prop :=
  ∀ k desc, s.latestChain[k]? = some desc → s.descBuffer k = desc

/-- While the hardware works on a fragment, the buffer holds its chain. -/
def DescriptorsHeld (s : EngineSide) : Prop := s.run = true → s.reported = false → s.Holds

abbrev TransferLabel := Label TransferOp TransferOp.Res TransferThread TransferEvent TransferCall

/-- The buffer is cleared only if `XDMA_EngineProgramDma` has not run since the engine was stopped
for the transfer that is processed. -/
def undisturbed (s : TransferWorld) : TransferLabel → Bool
  | .call t .clearDescriptors _ => !s.engine.overlapped t
  | _ => true

structure EngineInv (s : EngineSide) : Prop where
  held : s.run = true → s.Holds
  quiet : ∀ t, s.overlapped t = false → s.run = false ∧ s.programming = []

/-- A thread relies on being left in `XDMA_EngineProgramDma`, with its chain in the buffer. -/
def EngineRely (t : TransferThread) (s s' : EngineSide) : Prop :=
  t ∈ s.programming → t ∈ s'.programming ∧ (s.Holds → s'.Holds)

variable {s s' : EngineSide} {w w' : TransferWorld} {t u : TransferThread} {e : TransferEngine}
  {o : TransferOp} {r : o.Res}

theorem EngineSide.holds_write (descs : List DmaDescriptor) : EngineSide.Holds { s with
    descBuffer := fun k => descs[k]?.getD (s.descBuffer k), latestChain := descs } := by
  intro k desc h
  rw [show ({ s with descBuffer := _, latestChain := descs } : EngineSide).latestChain = descs from
    rfl] at h
  simp [h]

/-- A call that neither begins nor ends `XDMA_EngineProgramDma`, nor touches the buffer or the run
bit. -/
theorem EngineInv.same (hi : EngineInv s) (hrun : s'.run = s.run)
    (hbuffer : s'.descBuffer = s.descBuffer) (hchain : s'.latestChain = s.latestChain)
    (hprog : s'.programming = s.programming) (hover : s'.overlapped = s.overlapped) :
    EngineInv s' ∧ ∀ u, EngineRely u s s' := by
  have hholds : s.Holds → s'.Holds := by
    intro h k desc hk
    rw [hchain] at hk
    rw [hbuffer]
    exact h k desc hk
  refine ⟨⟨fun h => hholds (hi.held (hrun ▸ h)), fun t h => ?_⟩, fun u hu => ⟨hprog ▸ hu, hholds⟩⟩
  rw [hrun, hprog]
  exact hi.quiet t (hover ▸ h)

theorem EngineInv.begin (hi : EngineInv s) :
    EngineInv { s with programming := t :: s.programming, overlapped := fun _ => true } ∧
      ∀ u, EngineRely u s
        { s with programming := t :: s.programming, overlapped := fun _ => true } :=
  ⟨⟨hi.held, fun _ h => by cases h⟩, fun _ hu => ⟨List.mem_cons_of_mem t hu, id⟩⟩

theorem EngineInv.start (hi : EngineInv s) (ht : t ∈ s.programming) (hholds : s.Holds) :
    EngineInv { s with run := true, reported := false, programming := s.programming.erase t } ∧
      ∀ u, u ≠ t → EngineRely u s
        { s with run := true, reported := false, programming := s.programming.erase t } := by
  refine ⟨⟨fun _ => hholds, fun u h => ?_⟩, fun u hne hu => ⟨?_, id⟩⟩
  · have hnone := (hi.quiet u h).2
    rw [hnone] at ht
    cases ht
  · exact (List.mem_erase_of_ne hne).mpr hu

theorem EngineInv.stop (hi : EngineInv s) :
    EngineInv { s with
      run := false, overlapped := Function.update s.overlapped t (!s.programming.isEmpty) } := by
  refine ⟨fun h => (nomatch h), fun u h => ⟨rfl, ?_⟩⟩
  by_cases hut : u = t
  · subst hut
    simpa using h
  · exact (hi.quiet u (by simpa [hut] using h)).2

theorem EngineInv.clear (hi : EngineInv s) (h : s.overlapped t = false) :
    EngineInv { s with descBuffer := fun _ => .zero } ∧
      ∀ u, EngineRely u s { s with descBuffer := fun _ => .zero } := by
  obtain ⟨hrun, hnone⟩ := hi.quiet t h
  refine ⟨⟨fun h => absurd h (by simp [hrun]), hi.quiet⟩, fun u hu => ?_⟩
  rw [hnone] at hu
  cases hu

/-- What every call but the start of the engine keeps. -/
theorem EngineInv.act (hi : EngineInv s) (hstart : o ≠ .engineStart)
    (hclear : o = .clearDescriptors → s.overlapped t = false) (h : s.act t o r = some s') :
    EngineInv s' ∧ ∀ u, EngineRely u s s' := by
  cases o with
  | getRequest caller =>
    cases caller with
    | processTransfer => cases h; exact hi.same rfl rfl rfl rfl rfl
    | programDma => cases h; exact hi.begin
  | writeDescriptors descs =>
    cases h
    exact ⟨⟨fun _ => EngineSide.holds_write descs, hi.quiet⟩, fun _ hu =>
      ⟨hu, fun _ => EngineSide.holds_write descs⟩⟩
  | engineStart => exact absurd rfl hstart
  | engineStop => cases h; exact ⟨hi.stop, fun _ hu => ⟨hu, id⟩⟩
  | clearDescriptors => cases h; exact hi.clear (hclear rfl)
  | poll | numDescriptors =>
    simp only [EngineSide.act] at h
    split at h
    · cases h; exact hi.same rfl rfl rfl rfl rfl
    · cases h
  | stuck => cases h
  | _ => cases h; exact hi.same rfl rfl rfl rfl rfl

/-! ## The routines -/

abbrev EngineSafe (e : TransferEngine) (t : TransferThread) {α : Type} (p : TransferProg α)
    (Q : α → TransferWorld → Prop) (w : TransferWorld) : Prop :=
  Safe (transferThreads e) (fun w l => undisturbed w l = true) (fun w => EngineInv w.engine)
    (fun t w w' => EngineRely t w.engine w'.engine) t p Q w

abbrev EngineStable (t : TransferThread) (P : TransferWorld → Prop) : Prop :=
  Stable (fun w => EngineInv w.engine) (fun t w w' => EngineRely t w.engine w'.engine) t P

/-- The thread is in `XDMA_EngineProgramDma`, and with its chain in the buffer. -/
def Programming (t : TransferThread) (w : TransferWorld) : Prop := t ∈ w.engine.programming

def ChainWritten (t : TransferThread) (w : TransferWorld) : Prop :=
  Programming t w ∧ w.engine.Holds

theorem Programming.stable : EngineStable t (Programming t) :=
  fun _ _ _ _ hr h => (hr h).1

theorem ChainWritten.stable : EngineStable t (ChainWritten t) :=
  fun _ _ _ _ hr h => ⟨(hr h.1).1, (hr h.1).2 h.2⟩

/-- The rule for a call other than the start of the engine: the rest is what it does to `P`. -/
theorem EngineSafe.perform {P : TransferWorld → Prop} {Q : o.Res → TransferWorld → Prop}
    (hP : EngineStable t P) (hQ : ∀ r, EngineStable t (Q r)) (hstart : o ≠ .engineStart) (h : P w)
    (hpost : ∀ w r w', P w → w.engine.act t o r = some w'.engine →
      EngineRely t w.engine w'.engine → Q r w') :
    EngineSafe e t o.perform Q w := by
  refine Safe.perform P hP hQ h fun w r w' hi hp hok ha => ?_
  have hengine := (TransferWorld.act_eq_some.mp ha).1
  have hclear : o = .clearDescriptors → w.engine.overlapped t = false := by
    rintro rfl
    simpa [undisturbed] using hok
  obtain ⟨hi', hu⟩ := EngineInv.act hi hstart hclear hengine
  exact ⟨hi', fun u _ => hu u, hpost w r w' hp hengine (hu t)⟩

theorem EngineSafe.skip (hstart : o ≠ .engineStart) :
    EngineSafe e t o.perform (fun _ _ => True) w :=
  EngineSafe.perform (P := fun _ => True) (Stable.const _) (fun _ => Stable.const _) hstart trivial
    fun _ _ _ _ _ _ => trivial

theorem EngineSafe.keep {P : TransferWorld → Prop} (hP : EngineStable t P)
    (hown : ∀ w w', EngineRely t w.engine w'.engine → P w → P w') (hstart : o ≠ .engineStart)
    (h : P w) : EngineSafe e t o.perform (fun _ => P) w :=
  EngineSafe.perform hP (fun _ => hP) hstart h fun _ _ _ hp _ hr => hown _ _ hr hp

theorem EngineSafe.done {α : Type} {a : α} : EngineSafe e t (.ret a) (fun _ _ => True) w :=
  Safe.ret (Stable.const _) trivial

theorem xdmaEngineProgramDma_engineSafe (sgList : ScatterGatherList) :
    EngineSafe e t (xdmaEngineProgramDma e sgList) (fun _ _ => True) w := by
  have hprog : ∀ w w', EngineRely t w.engine w'.engine → Programming t w → Programming t w' :=
    fun _ _ hr h => (hr h).1
  have hwritten : ∀ w w', EngineRely t w.engine w'.engine → ChainWritten t w → ChainWritten t w' :=
    fun _ _ hr h => ⟨(hr h.1).1, (hr h.1).2 h.2⟩
  have hbegin : EngineSafe e t (TransferOp.getRequest .programDma).perform
      (fun _ => Programming t) w := by
    refine EngineSafe.perform (P := fun _ => True) (Stable.const _) (fun _ => Programming.stable)
      (by simp) trivial fun w r w' _ ha _ => ?_
    simp only [EngineSide.act, Option.some.injEq] at ha
    unfold Programming
    rw [← ha]
    exact List.mem_cons_self
  refine hbegin.bind fun request w h => ?_
  refine (EngineSafe.keep Programming.stable hprog (by simp) h).bind fun deviceOffset w h => ?_
  refine (EngineSafe.keep Programming.stable hprog (by simp) h).bind fun bytes w h => ?_
  split
  · exact EngineSafe.skip (by simp)
  · next descs hdescs =>
    refine Safe.bind (Q := fun _ => ChainWritten t) ?_ fun _ w h => ?_
    · refine EngineSafe.perform Programming.stable (fun _ => ChainWritten.stable) (by simp) h
        fun w r w' hp ha hr => ?_
      simp only [EngineSide.act, Option.some.injEq] at ha
      refine ⟨(hr hp).1, ?_⟩
      rw [← ha]
      exact EngineSide.holds_write descs
    refine (EngineSafe.keep ChainWritten.stable hwritten (by simp) h).bind fun _ w h => ?_
    refine (EngineSafe.keep ChainWritten.stable hwritten (by simp) h).bind fun poll w h => ?_
    refine Safe.bind (Q := fun _ => ChainWritten t) ?_ fun _ w h => ?_
    · exact Safe.when ChainWritten.stable h fun _ =>
        EngineSafe.keep ChainWritten.stable hwritten (by simp) h
    refine Safe.perform _ ChainWritten.stable (fun _ => Stable.const _) h
      fun w r w' hi hp _ ha => ?_
    have hengine := (TransferWorld.act_eq_some.mp ha).1
    simp only [EngineSide.act, Option.some.injEq] at hengine
    rw [← hengine]
    obtain ⟨hi', hu⟩ := EngineInv.start hi hp.1 hp.2
    exact ⟨hi', hu, trivial⟩

theorem wdfDmaTransactionExecute_engineSafe :
    EngineSafe e t (wdfDmaTransactionExecute e) (fun _ _ => True) w := by
  refine (EngineSafe.skip (by simp)).bind fun started w _ => ?_
  cases started with
  | error status => exact EngineSafe.done
  | ok sgList =>
    exact (xdmaEngineProgramDma_engineSafe sgList).bind fun _ w _ => EngineSafe.done

theorem wdfDmaTransactionDmaCompleted_engineSafe :
    EngineSafe e t (wdfDmaTransactionDmaCompleted e) (fun _ _ => True) w := by
  refine (EngineSafe.skip (by simp)).bind fun completed w _ => ?_
  cases completed with
  | done status => exact EngineSafe.done
  | more sgList =>
    exact (xdmaEngineProgramDma_engineSafe sgList).bind fun _ w _ => EngineSafe.done

theorem processStatus_engineSafe {request : Nat} {engineStatus : BitVec 32} :
    EngineSafe e t (processStatus e request engineStatus) (fun _ _ => True) w := by
  unfold processStatus
  split
  · refine wdfDmaTransactionDmaCompleted_engineSafe.bind fun completed w _ => ?_
    refine (EngineSafe.skip (by simp)).bind fun bytesTransferred w _ => ?_
    cases completed with
    | false => exact EngineSafe.done
    | true =>
      refine (EngineSafe.skip (by simp)).bind fun _ w _ => ?_
      refine (EngineSafe.skip (by simp)).bind fun status w _ => ?_
      exact EngineSafe.skip (by simp)
  · refine (EngineSafe.skip (by simp)).bind fun _ w _ => ?_
    refine (EngineSafe.skip (by simp)).bind fun _ w _ => ?_
    exact EngineSafe.skip (by simp)

theorem engineProcessTransfer_engineSafe :
    EngineSafe e t (engineProcessTransfer e) (fun _ _ => True) w := by
  refine (EngineSafe.skip (by simp)).bind fun request w _ => ?_
  cases request with
  | none => exact EngineSafe.done
  | some request =>
    refine (EngineSafe.skip (by simp)).bind fun engineStatus w _ => ?_
    refine (EngineSafe.skip (by simp)).bind fun _ w _ => ?_
    refine processStatus_engineSafe.bind fun _ w _ => ?_
    refine (EngineSafe.skip (by simp)).bind fun _ w _ => ?_
    refine (EngineSafe.skip (by simp)).bind fun poll w _ => ?_
    exact Safe.when (Stable.const _) trivial fun _ => EngineSafe.skip (by simp)

theorem awaitWriteback_engineSafe {expected : BitVec 32} (bound : Nat) :
    EngineSafe e t (awaitWriteback expected bound) (fun _ _ => True) w := by
  induction bound generalizing w with
  | zero => exact (EngineSafe.skip (by simp)).bind fun _ w _ => EngineSafe.done
  | succ bound ih =>
    refine (EngineSafe.skip (by simp)).bind fun actual w _ => ?_
    split
    · exact EngineSafe.done
    · simp only
      split
      all_goals
        split
        · exact ih
        · exact EngineSafe.done

theorem enginePollTransfer_engineSafe (bound : Nat) :
    EngineSafe e t (enginePollTransfer e bound) (fun _ _ => True) w := by
  refine (EngineSafe.skip (by simp)).bind fun expected w _ => ?_
  refine (awaitWriteback_engineSafe bound).bind fun status w _ => ?_
  split
  · exact engineProcessTransfer_engineSafe.bind fun _ w _ => EngineSafe.done
  · exact EngineSafe.done

theorem errExit_engineSafe {id : Nat} {status : NtStatus} :
    EngineSafe e t (errExit id status) (fun _ _ => True) w :=
  (EngineSafe.skip (by simp)).bind fun _ w _ => EngineSafe.skip (by simp)

theorem evtIoDma_engineSafe {id bound : Nat} :
    EngineSafe e t (evtIoDma e id bound) (fun _ _ => True) w := by
  refine (EngineSafe.skip (by simp)).bind fun status w _ => ?_
  split
  · refine (EngineSafe.skip (by simp)).bind fun status w _ => ?_
    split
    · refine wdfDmaTransactionExecute_engineSafe.bind fun status w _ => ?_
      split
      · refine (EngineSafe.skip (by simp)).bind fun poll w _ => ?_
        refine Safe.when (Stable.const _) trivial fun _ => ?_
        exact (enginePollTransfer_engineSafe bound).bind fun _ w _ => EngineSafe.done
      · exact errExit_engineSafe
    · exact errExit_engineSafe
  · exact errExit_engineSafe

theorem evtCancelDma_engineSafe {id : Nat} :
    EngineSafe e t (evtCancelDma id) (fun _ _ => True) w := by
  refine (EngineSafe.skip (by simp)).bind fun _ w _ => ?_
  refine (EngineSafe.skip (by simp)).bind fun _ w _ => ?_
  refine (EngineSafe.skip (by simp)).bind fun _ w _ => ?_
  refine (EngineSafe.skip (by simp)).bind fun _ w _ => ?_
  exact EngineSafe.skip (by simp)

/-! ## Every run -/

section
variable {poll : Bool} {descBuffer : Nat → DmaDescriptor} {request : Nat → DmaRequest}
  {c : Config TransferOp TransferOp.Res TransferWorld TransferThread}

theorem engineInv_idle : EngineInv (TransferWorld.idle poll descBuffer request).engine :=
  ⟨fun h => (nomatch h), fun _ h => (nomatch h)⟩

theorem descriptorsHeld_of_reach
    (h : (transferThreads e).Reach (fun w l => undisturbed w l = true)
      (transferConfig poll descBuffer request) c) :
    DescriptorsHeld c.state.engine := by
  have hinv : EngineInv c.state.engine := by
    refine (Reach.safe (I := fun w => EngineInv w.engine)
      (R := fun t w w' => EngineRely t w.engine w'.engine) (Q := fun _ _ => True)
      engineInv_idle ?_ ?_ ?_ h).1
    · exact fun t => EngineSafe.done
    · intro ev w w' hi _ hw
      simp only [transferThreads] at hw
      split at hw
      · cases hw
        exact hi.same rfl rfl rfl rfl rfl
      · cases hw
    · intro t a w w' p hi _ _ hstart
      obtain ⟨id, bound, rfl, -, -, -, rfl, rfl⟩ | ⟨rfl, -, -, rfl, rfl⟩ |
        ⟨id, rfl, -, -, -, -, rfl, rfl⟩ := transferThreads_start_cases hstart
      · rw [evtIo_eq]
        exact ⟨hi, fun _ _ hu => ⟨hu, fun h => h⟩, evtIoDma_engineSafe⟩
      · exact ⟨hi, fun _ _ hu => ⟨hu, fun h => h⟩, engineProcessTransfer_engineSafe⟩
      · exact ⟨hi, fun _ _ hu => ⟨hu, fun h => h⟩, evtCancelDma_engineSafe⟩
  exact fun hrun _ => hinv.held hrun

end

/-! ## Requests in one and in two fragments -/

def sampleEngine : TransferEngine := ⟨.sample .mm .contiguous, .w64, .h2c⟩

def sampleRequest : DmaRequest := ⟨0, .single ⟨0x2000, 0x40⟩, [.single ⟨0x3000, 0x40⟩]⟩

/-- `sampleRequest` in one fragment. -/
def shortRequest : DmaRequest := { sampleRequest with rest := [] }

/-- `XDMA_EngineProgramDma` by the thread `t`, for a fragment of a request. -/
def programSteps (id : Nat) (t : TransferThread) (sgList : ScatterGatherList) (bytes : Nat) :
    List TransferLabel :=
  [.call t (.getRequest .programDma) (some id), .call t (.getParameters (some id)) 0,
    .call t .getBytesTransferred bytes,
    .call t (.writeDescriptors ((programChain sampleEngine.engine .writeToDevice
      (startOffset .w64 0 bytes) sgList).getD [])) (),
    .call t (.storeFirstDescAdj (firstDescAdj sampleEngine.engine 1)) (),
    .call t .poll false, .call t .engineStart ()]

/-- A request is presented, and the engine is started for its first fragment. -/
def presentSteps (id : Nat) : List TransferLabel :=
  [.start (.dispatch id) (.present 0), .call (.dispatch id) (.initializeUsingRequest id) 0,
    .call (.dispatch id) (.markCancelableEx id) 0,
    .call (.dispatch id) .execute (.ok sampleRequest.first)] ++
  programSteps id (.dispatch id) sampleRequest.first 0 ++ [.call (.dispatch id) .poll false]

/-- The hardware reports the fragment of the first request, and the DPC finds the engine stopped. -/
def reportSteps (completed : DmaCompleted) : List TransferLabel :=
  [.env .report, .start .dpc .interrupt, .call .dpc (.getRequest .processTransfer) (some 0),
    .call .dpc .engineStatus 0, .call .dpc .engineStop (), .call .dpc .dmaCompleted completed]

/-- The fragment was the last one. The DPC completes the request and clears the buffer. -/
def lastFragmentSteps : List TransferLabel :=
  reportSteps (.done statusSuccess) ++
  [.call .dpc .getBytesTransferred 0x40, .call .dpc (.unmarkCancelable 0) statusSuccess,
    .call .dpc .release statusSuccess, .call .dpc (.complete 0 statusSuccess 0x40) (),
    .call .dpc .clearDescriptors (), .call .dpc .poll false]

/-- The first fragment is complete, and the DPC has the second one programmed. -/
def nextFragmentSteps : List TransferLabel :=
  reportSteps (.more (.single ⟨0x3000, 0x40⟩)) ++
  programSteps 0 .dpc (.single ⟨0x3000, 0x40⟩) 0x40

/-- The buffer is cleared behind the first request, and the engine is started for the second one. -/
theorem descriptorsHeld_first : ∃ c,
    (transferThreads sampleEngine).Reach (fun w l => undisturbed w l = true)
      (transferConfig false (fun _ => .zero) fun _ => shortRequest) c ∧
      c.state.wdf.completions 0 = [(statusSuccess, 0x40)] ∧ c.state.engine.run = true ∧
      DescriptorsHeld c.state.engine := by
  have hrun : ∃ c, (transferThreads sampleEngine).Reach (fun w l => undisturbed w l = true)
      (transferConfig false (fun _ => .zero) fun _ => shortRequest) c ∧
      (c.state.wdf.completions 0 == [(statusSuccess, 0x40)] && c.state.engine.run) = true :=
    Reach.exists_of_run (presentSteps 0 ++ lastFragmentSteps ++ presentSteps 1)
      (fun w : TransferWorld => w.wdf.completions 0 == [(statusSuccess, 0x40)] && w.engine.run)
      (by decide)
  obtain ⟨c, hc, h⟩ := hrun
  obtain ⟨hcompleted, hgo⟩ := (Bool.and_eq_true _ _).mp h
  exact ⟨c, hc, eq_of_beq hcompleted, hgo, descriptorsHeld_of_reach hc⟩

/-- The chain of the second fragment is cleared while the hardware works on it. -/
theorem engineProcessTransfer_clears_next : ∃ c,
    (transferThreads sampleEngine).Reach (fun _ _ => True)
      (transferConfig false (fun _ => .zero) fun _ => sampleRequest) c ∧
      ¬ DescriptorsHeld c.state.engine := by
  have hrun : ∃ c, (transferThreads sampleEngine).Reach (fun _ _ => True)
      (transferConfig false (fun _ => .zero) fun _ => sampleRequest) c ∧
      (c.state.engine.run && !c.state.engine.reported &&
        c.state.engine.latestChain[0]?.any (· != c.state.engine.descBuffer 0)) = true :=
    Reach.exists_of_run (presentSteps 0 ++ nextFragmentSteps ++
      [.call .dpc .getBytesTransferred 0x40, .call .dpc .clearDescriptors ()])
      (fun w : TransferWorld => w.engine.run && !w.engine.reported &&
        w.engine.latestChain[0]?.any (· != w.engine.descBuffer 0)) (by decide)
  obtain ⟨c, hc, h⟩ := hrun
  refine ⟨c, hc, fun hheld => ?_⟩
  simp only [Bool.and_eq_true, Bool.not_eq_true', Option.any_eq_true, bne_iff_ne] at h
  obtain ⟨⟨hgo, hreported⟩, desc, hdesc, hne⟩ := h
  exact hne (hheld hgo hreported 0 desc hdesc).symm

end Xadma
