import Xadma.Verify.Arbitration

/-!
# Which callback completes a request, over every run

One derivation for each routine: it starts at its first stage, each call takes it to the next one,
and what it releases and completes is still its own.
-/

namespace Xadma

open Threads

variable {s s' : WdfSide} {w w' : TransferWorld} {t : TransferThread} {e : TransferEngine}
  {o : TransferOp} {r : o.Res} {id : Nat} {st st' : Stage}

/-! ## Calls without an effect on the stages -/

/-- The calls that the framework takes no part in, or only answers. -/
def TransferOp.silent : TransferOp → Bool
  | .getRequest .programDma | .getBytesTransferred | .writeDescriptors _ | .storeFirstDescAdj _
  | .poll | .storeNumDescriptors _ | .numDescriptors | .completedDescCount | .engineStart
  | .engineStop | .engineStatus | .clearDescriptors | .clearWriteback | .stuck => true
  | _ => false

theorem WdfSide.act_silent (ho : o.silent = true) (h : s.act t o r = some s') : s' = s := by
  cases o with
  | getRequest caller =>
    cases caller with
    | processTransfer => cases ho
    | programDma =>
      simp only [WdfSide.act] at h
      split at h
      · exact (Option.some.inj h).symm
      · cases h
  | getBytesTransferred =>
    simp only [WdfSide.act] at h
    split at h
    · exact (Option.some.inj h).symm
    · cases h
  | initializeUsingRequest _ | markCancelableEx _ | execute | getParameters _ | dmaCompleted
  | unmarkCancelable _ | release | complete _ _ _ | getIoQueue _ => cases ho
  | _ => exact (Option.some.inj h).symm

theorem EngineSide.act_poll {a a' : EngineSide} (h : a.act t o r = some a') : a'.poll = a.poll := by
  cases o with
  | getRequest caller => cases caller <;> cases h <;> rfl
  | poll | numDescriptors =>
    simp only [EngineSide.act] at h
    split at h
    · cases h; rfl
    · cases h
  | stuck => cases h
  | _ => cases h; rfl

/-- The fragments may change. -/
structure SameStages (s s' : WdfSide) : Prop where
  presented : s'.presented = s.presented
  bound : s'.bound = s.bound
  cancelable : s'.cancelable = s.cancelable
  cancelled : s'.cancelled = s.cancelled
  completions : s'.completions = s.completions
  held : s'.held = s.held
  overReleased : s'.overReleased = s.overReleased
  lateTouch : s'.lateTouch = s.lateTouch
  programmed : s'.programmed = s.programmed
  executeFailed : s'.executeFailed = s.executeFailed
  processing : s'.processing = s.processing

theorem SameStages.at (h : SameStages s s') (hat : st.At s id) : st.At s' id := by
  obtain ⟨⟨hlast, huncompleted⟩, hspec⟩ := hat
  refine ⟨⟨h.presented ▸ hlast, h.completions ▸ huncompleted⟩, ?_⟩
  cases st <;>
    simpa only [Stage.Spec, h.held, h.programmed, h.cancelable, h.cancelled, h.executeFailed,
      h.processing] using hspec

theorem SameStages.inv (h : SameStages s s') (hi : WdfInv s) : WdfInv s' := by
  refine ⟨⟨?_, ?_, ?_⟩, ?_, ?_, ?_, ?_⟩
  · simpa only [h.completions] using hi.once
  · simpa only [h.overReleased] using hi.released
  · simpa only [h.lateTouch] using hi.untouched
  · simpa only [h.presented, h.completions] using hi.completed
  · simpa only [h.presented, h.completions, h.programmed, h.cancelable, h.cancelled] using hi.fresh
  · simpa only [h.held, h.bound, h.presented, h.completions] using hi.bound
  · simpa only [h.cancelable, h.cancelled, h.executeFailed, h.completions, h.held] using hi.markable

theorem SameStages.rely (h : SameStages s s') : WdfRely t s s' := fun _ _ _ hat => h.at hat

theorem sameStages_dmaCompleted {answer : DmaCompleted}
    (h : s.dmaCompletedAct answer = some s') : SameStages s s' := by
  unfold WdfSide.dmaCompletedAct at h
  split at h
  · cases answer with
    | done status => cases h; exact ⟨rfl, rfl, rfl, rfl, rfl, rfl, rfl, rfl, rfl, rfl, rfl⟩
    | more sgList => cases h
  · simp only at h
    split at h
    any_goals split at h
    all_goals cases h
    all_goals exact ⟨rfl, rfl, rfl, rfl, rfl, rfl, rfl, rfl, rfl, rfl, rfl⟩

theorem sameStages_execute {sgList : ScatterGatherList}
    (h : s.executeAct t (.ok sgList) = some s') : SameStages s s' := by
  simp only [WdfSide.executeAct] at h
  split at h
  · split at h
    · cases h; exact ⟨rfl, rfl, rfl, rfl, rfl, rfl, rfl, rfl, rfl, rfl, rfl⟩
    · cases h
  · cases h

/-! ## The rules -/

def TransferInv (w : TransferWorld) : Prop := WdfInv w.wdf ∧ w.engine.poll = false

abbrev WdfSafe (e : TransferEngine) (t : TransferThread) {α : Type} (p : TransferProg α)
    (Q : α → TransferWorld → Prop) (w : TransferWorld) : Prop :=
  Safe (transferThreads e) (fun w l => arbitrated w l = true) TransferInv
    (fun t w w' => WdfRely t w.wdf w'.wdf) t p Q w

abbrev WdfStable (t : TransferThread) (P : TransferWorld → Prop) : Prop :=
  Stable TransferInv (fun t w w' => WdfRely t w.wdf w'.wdf) t P

/-- The routine is at the stage `st` with its request. -/
def OnStage (st : Stage) (id : Nat) (w : TransferWorld) : Prop := st.At w.wdf id

theorem OnStage.stable (ht : st.owner id = t) : WdfStable t (OnStage st id) :=
  fun _ _ _ _ hr h => hr st id ht h

theorem WdfSafe.perform {P : TransferWorld → Prop} {Q : o.Res → TransferWorld → Prop}
    (hP : WdfStable t P) (hQ : ∀ r, WdfStable t (Q r)) (h : P w)
    (hstep : ∀ w r w', WdfInv w.wdf → P w → arbitrated w (.call t o r) = true →
      w.wdf.act t o r = some w'.wdf →
      WdfInv w'.wdf ∧ (∀ u, u ≠ t → WdfRely u w.wdf w'.wdf) ∧ Q r w') :
    WdfSafe e t o.perform Q w := by
  refine Safe.perform P hP hQ h fun w r w' hi hp hok ha => ?_
  obtain ⟨hengine, hwdf⟩ := TransferWorld.act_eq_some.mp ha
  obtain ⟨hi', hu, hq⟩ := hstep w r w' hi.1 hp hok hwdf
  exact ⟨⟨hi', (EngineSide.act_poll hengine).trans hi.2⟩, hu, hq⟩

/-- A call that the framework takes no part in. -/
theorem WdfSafe.keep (ho : o.silent = true) (ht : st.owner id = t) (h : OnStage st id w) :
    WdfSafe e t o.perform (fun _ => OnStage st id) w := by
  refine WdfSafe.perform (OnStage.stable ht) (fun _ => OnStage.stable ht) h ?_
  intro w r w' hi h _ ha
  unfold OnStage
  rw [WdfSide.act_silent ho ha]
  exact ⟨hi, fun _ _ _ _ _ h => h, h⟩

theorem WdfSafe.skip (ho : o.silent = true) : WdfSafe e t o.perform (fun _ _ => True) w := by
  refine WdfSafe.perform (P := fun _ => True) (Stable.const _) (fun _ => Stable.const _) trivial ?_
  intro w r w' hi _ _ ha
  rw [WdfSide.act_silent ho ha]
  exact ⟨hi, fun _ _ _ _ _ h => h, trivial⟩

theorem WdfSafe.done {α : Type} {a : α} : WdfSafe e t (.ret a) (fun _ _ => True) w :=
  Safe.ret (Stable.const _) trivial

/-! ## `XDMA_EngineProgramDma` -/

theorem WdfInv.getParameters {deviceOffset : BitVec 64} (hi : WdfInv s) (h : st.At s id)
    (hst : st = .marked ∨ st = .working)
    (ha : s.act (st.owner id) (.getParameters (some id)) deviceOffset = some s') :
    WdfInv s' ∧ ∀ u, u ≠ st.owner id → WdfRely u s s' := by
  simp only [WdfSide.act] at ha
  split at ha
  · rw [WdfSide.touch_eq h.uncompleted] at ha
    cases ha
    rcases hst with rfl | rfl
    · simpa [Stage.owner, WdfSide.leave] using hi.program h
    · simpa [Stage.owner, WdfSide.leave] using hi.leave
  · cases ha

theorem xdmaEngineProgramDma_wdfSafe (sgList : ScatterGatherList) (ht : st.owner id = t)
    (hst : st = .marked ∨ st = .working) (h : OnStage st id w) :
    WdfSafe e t (xdmaEngineProgramDma e sgList) (fun _ _ => True) w := by
  refine Safe.bind (Q := fun r w => r = some id ∧ OnStage st id w) ?_ fun request w h => ?_
  · refine WdfSafe.perform (OnStage.stable ht)
      (fun r => (Stable.const _).and (OnStage.stable ht)) h ?_
    intro w r w' hi h _ ha
    have hbound : r = w.wdf.bound := by
      simp only [WdfSide.act] at ha
      split at ha
      · assumption
      · cases ha
    have hheld : w.wdf.held = true := by
      rcases hst with rfl | rfl
      · exact h.spec.1
      · exact h.spec.1
    unfold OnStage
    rw [WdfSide.act_silent rfl ha]
    exact ⟨hi, fun _ _ _ _ _ h => h, hbound.trans (hi.bound_eq h.toCurrent hheld), h⟩
  obtain ⟨rfl, h⟩ := h
  refine Safe.bind (Q := fun _ _ => True) ?_ fun deviceOffset w _ => ?_
  · refine WdfSafe.perform (OnStage.stable ht) (fun _ => Stable.const _) h ?_
    intro w r w' hi h _ ha
    subst ht
    obtain ⟨hi', hu⟩ := hi.getParameters h hst ha
    exact ⟨hi', hu, trivial⟩
  refine (WdfSafe.skip rfl).bind fun bytesTransferred w _ => ?_
  split
  · exact WdfSafe.skip rfl
  · refine (WdfSafe.skip rfl).bind fun _ w _ => ?_
    refine (WdfSafe.skip rfl).bind fun _ w _ => ?_
    refine (WdfSafe.skip rfl).bind fun poll w _ => ?_
    refine (Safe.when (Stable.const _) trivial fun _ => WdfSafe.skip rfl).bind fun _ w _ => ?_
    exact WdfSafe.skip rfl

/-! ## Releasing and completing -/

theorem release_wdfSafe
    (hst : st = .failing ∧ st' = .failed ∨ st = .claimed ∧ st' = .released ∨
      st = .pending ∧ st' = .givenUp)
    (ht : st.owner id = t) (h : OnStage st id w) :
    WdfSafe e t TransferOp.release.perform (fun _ => OnStage st' id) w := by
  have ht' : st'.owner id = t := by
    rcases hst with ⟨rfl, rfl⟩ | ⟨rfl, rfl⟩ | ⟨rfl, rfl⟩ <;> exact ht
  refine WdfSafe.perform (OnStage.stable ht) (fun _ => OnStage.stable ht') h ?_
  intro w r w' hi h hok ha
  unfold OnStage
  rw [← Option.some.inj ha]
  subst ht
  refine hi.releaseAt h ?_
  rcases hst with hst | hst | ⟨rfl, rfl⟩
  · exact .inl hst
  · exact .inr (.inl hst)
  · refine .inr (.inr ⟨rfl, rfl, ?_⟩)
    simpa [arbitrated, Stage.owner] using hok

theorem complete_wdfSafe {status : NtStatus} {information : Nat}
    (hst : st = .failed ∨ st = .released ∨ st = .givenUp) (ht : st.owner id = t)
    (h : OnStage st id w) :
    WdfSafe e t (TransferOp.complete id status information).perform (fun _ _ => True) w := by
  refine WdfSafe.perform (OnStage.stable ht) (fun _ => Stable.const _) h ?_
  intro w r w' hi h _ ha
  subst ht
  simp only [WdfSide.act, WdfSide.touch_eq h.uncompleted, Option.some.injEq] at ha
  obtain ⟨hi', hu⟩ := hi.completeAt h hst (status, information)
  rw [← ha]
  rcases hst with rfl | rfl | rfl
  · exact ⟨hi', hu, trivial⟩
  · obtain ⟨hi'', hu''⟩ := hi'.leave
    exact ⟨hi'', fun u hne st k hst hat => hu'' u hne st k hst (hu u hne st k hst hat), trivial⟩
  · exact ⟨hi', hu, trivial⟩

theorem errExit_wdfSafe {status : NtStatus} (h : OnStage .failing id w) :
    WdfSafe e (.dispatch id) (errExit id status) (fun _ _ => True) w :=
  (release_wdfSafe (.inl ⟨rfl, rfl⟩) rfl h).bind fun _ _ h =>
    complete_wdfSafe (.inl rfl) rfl h

/-! ## `EvtIoWriteDma` and `EvtIoReadDma` -/

theorem initializeUsingRequest_wdfSafe (h : OnStage .presented id w) :
    WdfSafe e (.dispatch id) (TransferOp.initializeUsingRequest id).perform
      (fun status w => ntSuccess status = true ∧ OnStage .initialized id w) w := by
  refine WdfSafe.perform (OnStage.stable rfl)
    (fun _ => (Stable.const _).and (OnStage.stable rfl)) h ?_
  intro w status w' hi h hok ha
  have hsuccess : ntSuccess status = true := hok
  simp only [WdfSide.act, hsuccess, if_true, WdfSide.touch_eq h.uncompleted] at ha
  split at ha
  · unfold OnStage
    rw [← Option.some.inj ha]
    obtain ⟨hi', hu, hat⟩ := hi.bindRequest h
    exact ⟨hi', hu, hsuccess, hat⟩
  · cases ha

theorem markCancelableEx_wdfSafe (h : OnStage .initialized id w) :
    WdfSafe e (.dispatch id) (TransferOp.markCancelableEx id).perform
      (fun status => OnStage (if ntSuccess status then .marked else .failing) id) w := by
  refine WdfSafe.perform (OnStage.stable rfl) (fun status => OnStage.stable ?_) h ?_
  · split <;> rfl
  intro w status w' hi h _ ha
  simp only [WdfSide.act, WdfSide.touch_eq h.uncompleted] at ha
  unfold OnStage
  split at ha
  · next hsuccess =>
    rw [← Option.some.inj ha, if_pos hsuccess]
    exact hi.mark h
  · next hfail =>
    rw [← Option.some.inj ha, if_neg hfail]
    obtain ⟨hcur, hheld, hprog, hcancelable, hcancelled⟩ := h
    refine ⟨hi, fun _ _ _ _ _ h => h, hcur, hheld, hprog, hcancelled, fun h => ?_⟩
    rw [hcancelable] at h
    cases h

/-- The stage before the first fragment is programmed. -/
def executeStage : Except NtStatus ScatterGatherList → Stage
  | .error _ => .failing
  | .ok _ => .marked

theorem executeStage_owner (started : Except NtStatus ScatterGatherList) :
    (executeStage started).owner id = .dispatch id := by
  cases started <;> rfl

theorem wdfDmaTransactionExecute_wdfSafe (h : OnStage .marked id w) :
    WdfSafe e (.dispatch id) (wdfDmaTransactionExecute e)
      (fun status w => ntSuccess status = false → OnStage .failing id w) w := by
  refine Safe.bind (Q := fun started => OnStage (executeStage started) id) ?_ fun started w h => ?_
  · refine WdfSafe.perform (OnStage.stable rfl)
      (fun started => OnStage.stable (executeStage_owner started)) h ?_
    intro w started w' hi h hok ha
    cases started with
    | error status =>
      simp only [WdfSide.act, WdfSide.executeAct] at ha
      split at ha
      · cases ha
      · unfold OnStage
        rw [← Option.some.inj ha]
        exact hi.executeFail h (by simpa [arbitrated] using hok)
    | ok sgList =>
      have hsame : SameStages w.wdf w'.wdf := sameStages_execute (t := .dispatch id) ha
      exact ⟨hsame.inv hi, fun _ _ => hsame.rely, hsame.at h⟩
  cases started with
  | error status => exact Safe.ret (fun _ _ _ _ hr h hs => hr .failing id rfl (h hs)) fun _ => h
  | ok sgList =>
    refine (xdmaEngineProgramDma_wdfSafe sgList rfl (.inl rfl) h).bind fun _ w _ => ?_
    exact Safe.ret (fun _ _ _ _ hr h hs => hr .failing id rfl (h hs)) fun h => (nomatch h)

/-- In interrupt mode. -/
theorem poll_wdfSafe :
    WdfSafe e t TransferOp.poll.perform (fun poll _ => poll = false) w := by
  refine Safe.perform (fun _ => True) (Stable.const _) (fun _ => Stable.const _) trivial ?_
  intro w r w' hi _ _ ha
  obtain ⟨hengine, hwdf⟩ := TransferWorld.act_eq_some.mp ha
  have hr : r = w.engine.poll := by
    simp only [EngineSide.act] at hengine
    split at hengine
    · assumption
    · cases hengine
  have hsame : w'.wdf = w.wdf := WdfSide.act_silent rfl hwdf
  refine ⟨⟨hsame ▸ hi.1, (EngineSide.act_poll hengine).trans hi.2⟩, fun u _ => ?_, hr.trans hi.2⟩
  rw [hsame]
  exact fun _ _ _ h => h

theorem evtIoDma_wdfSafe {bound : Nat} (h : OnStage .presented id w) :
    WdfSafe e (.dispatch id) (evtIoDma e id bound) (fun _ _ => True) w := by
  refine (initializeUsingRequest_wdfSafe h).bind fun status w h => ?_
  rw [if_pos h.1]
  refine (markCancelableEx_wdfSafe h.2).bind fun status w h => ?_
  split
  · next hsuccess =>
    rw [if_pos hsuccess] at h
    refine (wdfDmaTransactionExecute_wdfSafe h).bind fun status w h => ?_
    split
    · refine poll_wdfSafe.bind fun poll w hpoll => ?_
      exact Safe.when (Stable.const _) trivial fun h => absurd (hpoll.symm.trans h) (by simp)
    · next hfail => exact errExit_wdfSafe (h (Bool.eq_false_of_not_eq_true hfail))
  · next hfail =>
    rw [if_neg hfail] at h
    exact errExit_wdfSafe h

/-! ## `EngineProcessTransfer` and `EvtCancelDma` -/

/-- The DPC takes up what it finds. -/
theorem getRequest_wdfSafe :
    WdfSafe e .dpc (TransferOp.getRequest .processTransfer).perform
      (fun request w => ∀ id, request = some id → OnStage .working id w) w := by
  refine WdfSafe.perform (P := fun _ => True) (Stable.const _)
    (fun r _ _ _ _ hr h id hid => hr .working id rfl (h id hid)) trivial ?_
  intro w request w' hi _ hok ha
  simp only [WdfSide.act] at ha
  split at ha
  · next hbound =>
    unfold OnStage
    rw [← Option.some.inj ha]
    cases request with
    | none =>
      obtain ⟨hi', hu⟩ := hi.leave
      exact ⟨hi', hu, fun _ h => nomatch h⟩
    | some id =>
      obtain ⟨hprog, hheld⟩ := Bool.and_eq_true_iff.mp hok
      obtain ⟨hi', hu, hat⟩ := hi.takeUp hbound.symm hprog hheld
      refine ⟨hi', hu, fun k hk => ?_⟩
      cases hk
      exact hat
  · cases ha

theorem unmarkCancelable_wdfSafe (h : OnStage .working id w) :
    WdfSafe e .dpc (TransferOp.unmarkCancelable id).perform (fun _ => OnStage .claimed id) w := by
  refine WdfSafe.perform (OnStage.stable rfl) (fun _ => OnStage.stable rfl) h ?_
  intro w status w' hi h hok ha
  simp only [WdfSide.act, WdfSide.touch_eq h.uncompleted] at ha
  split at ha
  · unfold OnStage
    rw [← Option.some.inj ha]
    exact hi.claim h (by simpa [arbitrated] using hok)
  · cases ha

theorem wdfDmaTransactionDmaCompleted_wdfSafe (h : OnStage .working id w) :
    WdfSafe e .dpc (wdfDmaTransactionDmaCompleted e)
      (fun completed w => completed = true → OnStage .working id w) w := by
  refine Safe.bind (Q := fun _ => OnStage .working id) ?_ fun completed w h => ?_
  · refine WdfSafe.perform (OnStage.stable rfl) (fun _ => OnStage.stable rfl) h ?_
    intro w answer w' hi h _ ha
    have hsame : SameStages w.wdf w'.wdf := sameStages_dmaCompleted ha
    exact ⟨hsame.inv hi, fun _ _ => hsame.rely, hsame.at h⟩
  cases completed with
  | done status =>
    exact Safe.ret (fun _ _ _ _ hr h hs => hr .working id rfl (h hs)) fun _ => h
  | more sgList =>
    refine (xdmaEngineProgramDma_wdfSafe sgList rfl (.inr rfl) h).bind fun _ w _ => ?_
    exact Safe.ret (fun _ _ _ _ hr h hs => hr .working id rfl (h hs)) fun h => (nomatch h)

/-- The DPC ends a request that it works on. -/
theorem endRequest_wdfSafe {f : NtStatus → TransferProg Unit} (h : OnStage .working id w)
    (hf : ∀ status w, OnStage .released id w → WdfSafe e .dpc (f status) (fun _ _ => True) w) :
    WdfSafe e .dpc (do
      let _ ← (TransferOp.unmarkCancelable id).perform
      let status ← TransferOp.release.perform
      f status) (fun _ _ => True) w :=
  (unmarkCancelable_wdfSafe h).bind fun _ _ h =>
    (release_wdfSafe (.inr (.inl ⟨rfl, rfl⟩)) rfl h).bind fun status w h => hf status w h

theorem processStatus_wdfSafe {engineStatus : BitVec 32} (h : OnStage .working id w) :
    WdfSafe e .dpc (processStatus e id engineStatus) (fun _ _ => True) w := by
  unfold processStatus
  split
  · refine (wdfDmaTransactionDmaCompleted_wdfSafe h).bind fun completed w h => ?_
    cases completed with
    | false => exact (WdfSafe.skip rfl).bind fun _ w _ => WdfSafe.done
    | true =>
      refine (WdfSafe.keep rfl rfl (h rfl)).bind fun bytesTransferred w h => ?_
      exact endRequest_wdfSafe h fun status w h => complete_wdfSafe (.inr (.inl rfl)) rfl h
  · exact endRequest_wdfSafe h fun status w h => complete_wdfSafe (.inr (.inl rfl)) rfl h

theorem engineProcessTransfer_wdfSafe :
    WdfSafe e .dpc (engineProcessTransfer e) (fun _ _ => True) w := by
  refine getRequest_wdfSafe.bind fun request w h => ?_
  cases request with
  | none => exact WdfSafe.done
  | some id =>
    refine (WdfSafe.keep rfl rfl (h id rfl)).bind fun engineStatus w h => ?_
    refine (WdfSafe.keep rfl rfl h).bind fun _ w h => ?_
    refine (processStatus_wdfSafe h).bind fun _ w _ => ?_
    refine (WdfSafe.skip rfl).bind fun _ w _ => ?_
    refine (WdfSafe.skip rfl).bind fun poll w _ => ?_
    exact Safe.when (Stable.const _) trivial fun _ => WdfSafe.skip rfl

theorem evtCancelDma_wdfSafe (h : OnStage .pending id w) :
    WdfSafe e (.cancel id) (evtCancelDma id) (fun _ _ => True) w := by
  refine Safe.bind (Q := fun _ => OnStage .pending id) ?_ fun _ w h => ?_
  · refine WdfSafe.perform (OnStage.stable rfl) (fun _ => OnStage.stable rfl) h ?_
    intro w r w' hi h _ ha
    simp only [WdfSide.act, WdfSide.touch_eq h.uncompleted, Option.some.injEq] at ha
    unfold OnStage
    rw [← ha]
    exact ⟨hi, fun _ _ _ _ _ h => h, h⟩
  refine (WdfSafe.keep rfl rfl h).bind fun _ w h => ?_
  refine Safe.bind (Q := fun _ => OnStage .pending id) ?_ fun _ w h => ?_
  · refine WdfSafe.perform (OnStage.stable rfl) (fun _ => OnStage.stable rfl) h ?_
    intro w status w' hi h _ ha
    simp only [WdfSide.act, WdfSide.touch_eq h.uncompleted] at ha
    split at ha
    · unfold OnStage
      rw [← Option.some.inj ha]
      exact hi.unmarkCancelled h
    · cases ha
  refine (release_wdfSafe (.inr (.inr ⟨rfl, rfl⟩)) rfl h).bind fun _ w h => ?_
  exact complete_wdfSafe (.inr (.inr rfl)) rfl h

/-! ## Every run -/

section
variable {descBuffer : Nat → DmaDescriptor} {request : Nat → DmaRequest}
  {c : Config TransferOp TransferOp.Res TransferWorld TransferThread}

theorem transferInv_idle : TransferInv (.idle false descBuffer request) := by
  refine ⟨⟨⟨fun _ => Nat.zero_le 1, rfl, rfl⟩, ?_, ?_, ?_, ?_⟩, rfl⟩
  · exact fun k hk => absurd hk (Nat.not_lt_zero _)
  · exact fun k _ => ⟨rfl, rfl, rfl, rfl⟩
  · exact fun h => nomatch h
  · exact fun k h => nomatch h

theorem completedAtMostOnce_of_reach
    (h : (transferThreads e).Reach (fun w l => arbitrated w l = true)
      (transferConfig false descBuffer request) c) :
    CompletedAtMostOnce c.state.wdf := by
  have hinv : TransferInv c.state := by
    refine (Reach.safe (I := TransferInv) (R := fun t w w' => WdfRely t w.wdf w'.wdf)
      (Q := fun _ _ => True) transferInv_idle ?_ ?_ ?_ h).1
    · exact fun t => WdfSafe.done
    · intro ev w w' hi _ hw
      simp only [transferThreads] at hw
      split at hw
      · cases hw
        exact ⟨hi, fun _ _ _ _ h => h⟩
      · cases hw
    · intro t a w w' p hi _ hok hstart
      obtain ⟨id, bound, rfl, rfl, hid, hall, rfl, rfl⟩ | ⟨rfl, -, -, rfl, rfl⟩ |
        ⟨id, rfl, rfl, hcancelable, hcancelled, huncompleted, rfl, rfl⟩ :=
        transferThreads_start_cases hstart
      · obtain ⟨hi', hu, hat⟩ := hi.1.present hid hall
        rw [evtIo_eq]
        exact ⟨⟨hi', hi.2⟩, fun u _ => hu u, evtIoDma_wdfSafe hat⟩
      · exact ⟨hi, fun _ _ _ _ _ h => h, engineProcessTransfer_wdfSafe⟩
      · have hfailed : w.wdf.executeFailed id = false := by simpa [arbitrated] using hok
        obtain ⟨hi', hu, hat⟩ := hi.1.cancel hcancelable hcancelled huncompleted hfailed
        exact ⟨⟨hi', hi.2⟩, hu, evtCancelDma_wdfSafe hat⟩
  exact hinv.1.toCompletedAtMostOnce

end

/-! ## A cancellation -/

def cancelSteps : List TransferLabel :=
  [.call (.cancel 0) (.getIoQueue 0) (), .call (.cancel 0) .engineStop (),
    .call (.cancel 0) (.unmarkCancelable 0) statusCancelled, .call (.cancel 0) .release 0,
    .call (.cancel 0) (.complete 0 statusCancelled 0) ()]

theorem completedAtMostOnce_cancel : ∃ c,
    (transferThreads sampleEngine).Reach (fun w l => arbitrated w l = true)
      (transferConfig false (fun _ => .zero) fun _ => shortRequest) c ∧
      c.state.wdf.completions 0 = [(statusCancelled, 0)] ∧ CompletedAtMostOnce c.state.wdf := by
  have hrun : ∃ c, (transferThreads sampleEngine).Reach (fun w l => arbitrated w l = true)
      (transferConfig false (fun _ => .zero) fun _ => shortRequest) c ∧
      (c.state.wdf.completions 0 == [(statusCancelled, 0)]) = true :=
    Reach.exists_of_run (presentSteps 0 ++ [.start (.cancel 0) .cancel] ++ cancelSteps)
      (fun w : TransferWorld => w.wdf.completions 0 == [(statusCancelled, 0)]) (by decide)
  obtain ⟨c, hc, h⟩ := hrun
  exact ⟨c, hc, by simpa using h, completedAtMostOnce_of_reach hc⟩

/-- The DPC has found the transfer complete when the cancellation begins: it completes the request
although it can no longer unmark it, and so does `EvtCancelDma`. -/
theorem engineProcessTransfer_races_cancel : ∃ c,
    (transferThreads sampleEngine).Reach (fun _ _ => True)
      (transferConfig false (fun _ => .zero) fun _ => shortRequest) c ∧
      c.state.wdf.completions 0 = [(statusSuccess, 0x40), (statusCancelled, 0)] ∧
      ¬ CompletedAtMostOnce c.state.wdf := by
  have hrun : ∃ c, (transferThreads sampleEngine).Reach (fun _ _ => True)
      (transferConfig false (fun _ => .zero) fun _ => shortRequest) c ∧
      (c.state.wdf.completions 0 == [(statusSuccess, 0x40), (statusCancelled, 0)]) = true :=
    Reach.exists_of_run (presentSteps 0 ++
      [.env .report, .start .dpc .interrupt, .call .dpc (.getRequest .processTransfer) (some 0),
        .call .dpc .engineStatus 0, .call .dpc .engineStop (),
        .call .dpc .dmaCompleted (.done statusSuccess), .call .dpc .getBytesTransferred 0x40,
        .start (.cancel 0) .cancel, .call .dpc (.unmarkCancelable 0) statusCancelled,
        .call .dpc .release 0, .call .dpc (.complete 0 statusSuccess 0x40) ()] ++ cancelSteps)
      (fun w : TransferWorld =>
        w.wdf.completions 0 == [(statusSuccess, 0x40), (statusCancelled, 0)]) (by decide)
  obtain ⟨c, hc, h⟩ := hrun
  have hcompletions := eq_of_beq h
  refine ⟨c, hc, hcompletions, fun honce => ?_⟩
  have := honce.once 0
  rw [hcompletions] at this
  exact absurd this (by decide)

end Xadma
