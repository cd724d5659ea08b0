import Xadma.Verify.DmaRequests
import Xadma.Verify.DescriptorBuffer

/-!
# What a completed request has moved, over every run

One derivation for each routine of the driver: what it knows of the transaction and of the transfers
that are made, from the presentation of a request to its completion.
-/

namespace Xadma

open Threads

/-- The engine is not at work on the request, for which it has made the transfers `m`. -/
structure DmaView.Halted (id : Nat) (m : List Transfer) (v : DmaView) : Prop
    extends Current v.wdf id where
  run : v.run = false
  moved : v.moved id = m

/-- The transaction is bound to the request, and nothing has been done for it. -/
structure DmaView.Initialized (id : Nat) (v : DmaView) : Prop extends DmaView.Halted id [] v where
  bound : v.wdf.bound = some id
  transferred : v.wdf.transferred = []

/-- A fragment is under way, and the transfers `m` are made. -/
structure DmaView.Fragment (req : DmaRequest) (id : Nat) (past : List ScatterGatherList)
    (sgList : ScatterGatherList) (m : List Transfer) (v : DmaView) : Prop
    extends UnderWayOn req id past sgList v.wdf where
  moved : v.moved id = m

/-- It can be programmed, or counted. -/
structure DmaView.Ready (req : DmaRequest) (id : Nat) (past : List ScatterGatherList)
    (sgList : ScatterGatherList) (m : List Transfer) (v : DmaView) : Prop
    extends DmaView.Fragment req id past sgList m v where
  run : v.run = false

/-- The engine has made the transfers of the fragments before it, and no others. -/
abbrev DmaView.Programmable (e : TransferEngine) (req : DmaRequest) (id : Nat)
    (past : List ScatterGatherList) (sgList : ScatterGatherList) (v : DmaView) : Prop :=
  v.Ready req id past sgList (req.planned e past)

variable {e : TransferEngine} {request : Nat → DmaRequest} {s s' : DmaWorld} {v : DmaView}
  {t : TransferThread} {o : TransferOp} {r : o.Res} {id : Nat} {past : List ScatterGatherList}
  {sgList : ScatterGatherList} {chain : List DmaDescriptor} {n : Nat} {req : DmaRequest}
  {m : List Transfer} {wdf : WdfSide}

/-! ## Calls of the framework -/

/-- The calls that the engine takes no part in, but for the completion of the request. -/
def TransferOp.Framework : TransferOp → Prop
  | .engineStart | .engineStop | .engineStatus | .complete .. => False
  | _ => True

theorem TransferOp.Framework.goesOn (ho : o.Framework) : o.GoesOn := by
  cases o with
  | engineStart | complete _ _ _ => cases ho
  | _ => trivial

theorem TransferOp.Framework.view (ho : o.Framework) (h : DmaWorld.act e t o s r = some s') :
    s.transfer.wdf.act t o r = some s'.transfer.wdf ∧
      s'.view = { s.view with wdf := s'.transfer.wdf } := by
  obtain ⟨hengine, hwdf, hsg, hmoved, hholder⟩ := DmaWorld.act_eq_some.mp h
  have hsg' : s'.sg = s.sg := by
    cases o with
    | engineStart | engineStop | engineStatus => cases ho
    | _ => exact (Option.some.inj hsg).symm
  have hholder' : s'.holder = s.holder := by
    rw [hholder]
    cases o with
    | engineStart | complete _ _ _ => cases ho
    | _ => rfl
  have hrun : s'.transfer.engine.run = s.transfer.engine.run :=
    EngineSide.act_keeps ho.goesOn (fun heq => by subst heq; cases ho) hengine
  refine ⟨hwdf, ?_⟩
  unfold DmaWorld.view
  rw [hholder', hsg', hmoved, hrun]

theorem DmaSafe.framework {P : DmaView → Prop} {Q : o.Res → DmaView → Prop} (ho : o.Framework)
    (h : Mine t P s)
    (hpost : ∀ v r wdf, v.wdf.request = request → P v → v.wdf.act t o r = some wdf →
      Q r { v with wdf := wdf }) :
    DmaSafe e request t o.perform (fun r => Mine t (Q r)) s := by
  refine DmaSafe.perform ho.goesOn h fun s r s' hrequests hp ha => ?_
  obtain ⟨hwdf, hview⟩ := ho.view ha
  rw [hview]
  exact hpost s.view r _ hrequests hp hwdf

theorem getBytesTransferred_eq {w w' : WdfSide} {bytes : Nat}
    (h : w.act t .getBytesTransferred bytes = some w') :
    w' = w ∧ bytes = fragmentBytes w.transferred := by
  simp only [WdfSide.act] at h
  split at h
  · next hbytes => exact ⟨(Option.some.inj h).symm, hbytes⟩
  · cases h

/-! ## `XDMA_EngineProgramDma` -/

/-- The engine is started for a fragment whose chain is written. -/
theorem DmaInv.start (hi : DmaInv e request s)
    (hready : Mine t (DmaView.Programmable e (request id) id past sgList) s)
    (hprog : (request id).chain e past sgList = some chain)
    (hbuffer : HoldsOrCleared chain s.transfer.engine.descBuffer)
    (h : DmaWorld.act e t .engineStart s () = some s') : DmaInv e request s' := by
  obtain ⟨hengine, hwdf, hsg, hmoved, hholder⟩ := DmaWorld.act_eq_some.mp h
  have hwdf' : s'.transfer.wdf = s.transfer.wdf := (Option.some.inj hwdf).symm
  have hrun : s.transfer.engine.run = false := hready.2.run
  have hsg' : s'.sg = s.sg.start e.engine.descBuffer.logical := by
    simp only [SgEngine.act, hrun] at hsg
    exact (Option.some.inj hsg).symm
  refine ⟨(EngineSide.act_poll hengine).trans hi.poll, hwdf' ▸ hi.requests, ?_, ?_,
    hwdf' ▸ hi.earlier, hwdf' ▸ hi.once, ?_⟩
  · rw [hmoved, hwdf']
    exact hi.truthful
  · rw [hmoved, hwdf']
    exact hi.fresh
  · unfold DmaWorld.Phase
    rw [hholder]
    refine ⟨id, past, sgList, chain, 0, hwdf' ▸ hready.2.toUnderWayOn, hprog, ?_, ?_, ?_⟩
    · rw [← Option.some.inj hengine]
      exact hbuffer
    · rw [hsg']
      exact Progress.start (linkedChain_of_programChain hprog) (hi.quiet hready.1).interrupt
    · rw [hmoved, List.take_zero, List.append_nil]
      exact hready.2.moved

theorem xdmaEngineProgramDma_dmaSafe
    (h : Mine t (DmaView.Programmable e (request id) id past sgList) s) :
    DmaSafe e request t (xdmaEngineProgramDma e sgList) (fun _ _ => True) s := by
  have hget : DmaSafe e request t (TransferOp.getRequest .programDma).perform
      (fun r => Mine t fun v => r = some id ∧ v.Programmable e (request id) id past sgList) s := by
    refine DmaSafe.framework trivial h fun v r wdf _ hv ha => ?_
    simp only [WdfSide.act] at ha
    split at ha
    · next hr =>
      cases ha
      exact ⟨hr.trans hv.bound, hv⟩
    · cases ha
  refine hget.bind fun r s h => ?_
  obtain ⟨hheld, rfl, hready⟩ := h
  have hparams : DmaSafe e request t (TransferOp.getParameters (some id)).perform
      (fun r => Mine t fun v => r = (request id).deviceOffset ∧
        v.Programmable e (request id) id past sgList) s := by
    refine DmaSafe.framework trivial ⟨hheld, hready⟩ fun v r wdf hrequests hv ha => ?_
    simp only [WdfSide.act] at ha
    split at ha
    · next hr =>
      cases ha
      exact ⟨hrequests ▸ hr, ⟨⟨⟨⟨hv.last, hv.uncompleted⟩, hv.bound, hv.current, hv.transferred,
        hv.cut⟩, hv.moved⟩, hv.run⟩⟩
    · cases ha
  refine hparams.bind fun deviceOffset s h => ?_
  obtain ⟨hheld, rfl, hready⟩ := h
  have hbytes : DmaSafe e request t TransferOp.getBytesTransferred.perform
      (fun r => Mine t fun v => r = fragmentBytes past ∧
        v.Programmable e (request id) id past sgList)
      s := by
    refine DmaSafe.framework trivial ⟨hheld, hready⟩ fun v r wdf _ hv ha => ?_
    obtain ⟨rfl, hr⟩ := getBytesTransferred_eq ha
    exact ⟨hr.trans (congrArg _ hv.transferred), hv⟩
  refine hbytes.bind fun bytes s h => ?_
  obtain ⟨hheld, rfl, hready⟩ := h
  split
  · exact DmaSafe.harmless rfl
  · next chain hprog =>
    have hwrite : DmaSafe e request t (TransferOp.writeDescriptors chain).perform
        (fun _ s => Mine t (DmaView.Programmable e (request id) id past sgList) s ∧
          HoldsOrCleared chain s.transfer.engine.descBuffer) s := by
      refine Safe.perform _ Mine.stable (fun _ => Mine.stable_written) ⟨hheld, hready⟩
        fun s r s' hi hp _ ha => ?_
      obtain ⟨hi', hheld', -⟩ := hi.goesOn (o := .writeDescriptors chain) hp.1 trivial ha
      refine ⟨hi', fun u hne => DmaRely.of_held hp.1 hne, ⟨hheld', ?_⟩, ?_⟩
      · rw [TransferOp.Unseen.view (o := .writeDescriptors chain) rfl ha]
        exact hp.2
      · rw [← Option.some.inj (DmaWorld.act_eq_some.mp ha).1]
        exact holdsOrCleared_write _
    refine hwrite.bind fun _ s h => ?_
    refine (DmaSafe.written (o := .storeFirstDescAdj _) rfl h).bind fun _ s h => ?_
    refine (DmaSafe.written (o := .poll) rfl h).bind fun poll s h => ?_
    have hstore : DmaSafe e request t (Prog.when (poll = true)
        (TransferOp.storeNumDescriptors (BitVec.ofNat 32 sgList.elements.length)).perform)
        (fun _ s => Mine t (DmaView.Programmable e (request id) id past sgList) s ∧
          HoldsOrCleared chain s.transfer.engine.descBuffer) s :=
      Safe.when Mine.stable_written h fun _ => DmaSafe.written rfl h
    refine hstore.bind fun _ s h => ?_
    refine Safe.perform _ Mine.stable_written (fun _ => Stable.const _) h
      fun s r s' hi hp _ ha => ?_
    exact ⟨hi.start hp.1 hprog hp.2 ha, fun u hne => DmaRely.of_held hp.1.1 hne, trivial⟩

/-! ## The end of a request -/

theorem Current.goesOn {w : WdfSide} (h : Current w id) (ho : o.GoesOn)
    (ha : w.act t o r = some wdf) : Current wdf id := by
  obtain ⟨hpresented, hcompletions, -⟩ := WdfSide.act_keeps ho ha
  exact ⟨hpresented ▸ h.last, hcompletions ▸ h.uncompleted⟩

/-- The request is completed by the thread that works on it. -/
theorem DmaInv.complete {status : NtStatus} {information : Nat} (hi : DmaInv e request s)
    (h : Mine t (DmaView.Halted id m) s)
    (hinformation : ntSuccess status = true → ∃ fs, fs <+: (request id).fragments ∧
      m = (request id).planned e fs ∧ information = fragmentBytes fs)
    (ha : DmaWorld.act e t (.complete id status information) s () = some s') :
    DmaInv e request s' := by
  obtain ⟨hengine, hwdf, hsg, hmoved, hholder⟩ := DmaWorld.act_eq_some.mp ha
  obtain ⟨hheld, hhalted⟩ := h
  have hwdf' := Option.some.inj hwdf
  have hcompletions : s'.transfer.wdf.completions =
      Function.update s.transfer.wdf.completions id [(status, information)] := by
    have happend : s'.transfer.wdf.completions = Function.update s.transfer.wdf.completions id
        (s.transfer.wdf.completions id ++ [(status, information)]) := by
      rw [← hwdf']
      rfl
    rw [happend, show s.transfer.wdf.completions id = [] from hhalted.uncompleted,
      List.nil_append]
  have hpresented : s'.transfer.wdf.presented = s.transfer.wdf.presented := by
    rw [← hwdf']
    rfl
  have hlast : id + 1 = s.transfer.wdf.presented := hhalted.last
  have hearlier : ∀ k < s.transfer.wdf.presented, s'.transfer.wdf.completions k ≠ [] := by
    intro k hk
    rw [hcompletions]
    by_cases hkid : k = id
    · subst hkid
      simp
    · rw [Function.update_of_ne hkid]
      exact hi.earlier k (by omega)
  refine ⟨(EngineSide.act_poll hengine).trans hi.poll, ?_, fun k => ?_, fun k hk => ?_,
    fun k hk => hearlier k (by omega), fun k => ?_, ?_⟩
  · rw [← hwdf']
    exact hi.requests
  · rw [hmoved, hcompletions]
    by_cases hk : k = id
    · subst hk
      rw [Function.update_self]
      refine ⟨(hi.truthful k).inOrder, fun result hresult hsuccess => ?_⟩
      cases List.mem_singleton.mp hresult
      obtain ⟨fs, hfs, rfl, hn⟩ := hinformation hsuccess
      exact ⟨fs, hfs, hhalted.moved, hn⟩
    · rw [Function.update_of_ne hk]
      exact hi.truthful k
  · rw [hpresented] at hk
    rw [hmoved, hcompletions, Function.update_of_ne (by omega)]
    exact hi.fresh k hk
  · rw [hcompletions]
    by_cases hk : k = id
    · subst hk
      rw [Function.update_self, List.length_singleton]
    · rw [Function.update_of_ne hk]
      exact hi.once k
  · unfold DmaWorld.Phase
    rw [hholder]
    have hsg' : s'.sg = s.sg := (Option.some.inj hsg).symm
    have hrun' : s'.transfer.engine.run = s.transfer.engine.run := by
      rw [← Option.some.inj hengine]
    exact ⟨hsg' ▸ hi.quiet hheld, hrun'.trans hhalted.run,
      fun k hk => hearlier k (hpresented ▸ hk)⟩

theorem complete_dmaSafe {status : NtStatus} {information : Nat}
    (h : Mine t (DmaView.Halted id m) s)
    (hinformation : ntSuccess status = true → ∃ fs, fs <+: (request id).fragments ∧
      m = (request id).planned e fs ∧ information = fragmentBytes fs) :
    DmaSafe e request t (TransferOp.complete id status information).perform (fun _ _ => True)
      s :=
  Safe.perform _ Mine.stable (fun _ => Stable.const _) h fun _ _ _ hi hp _ ha =>
    ⟨hi.complete hp hinformation ha, fun _ hne => DmaRely.of_held hp.1 hne, trivial⟩

theorem DmaView.Halted.framework (hv : v.Halted id m) (ho : o.Framework)
    (ha : v.wdf.act t o r = some wdf) : DmaView.Halted id m { v with wdf := wdf } :=
  ⟨hv.toCurrent.goesOn ho.goesOn ha, hv.run, hv.moved⟩

theorem DmaSafe.halted (ho : o.Framework) (h : Mine t (DmaView.Halted id m) s) :
    DmaSafe e request t o.perform (fun _ => Mine t (DmaView.Halted id m)) s :=
  DmaSafe.framework ho h fun _ _ _ _ hv ha => hv.framework ho ha

/-- The request is released and completed with an error. -/
theorem failRequest_dmaSafe {status : NtStatus} (hstatus : ntSuccess status = false)
    (h : Mine t (DmaView.Halted id m) s) :
    DmaSafe e request t (errExit id status) (fun _ _ => True) s := by
  refine (DmaSafe.halted (o := .release) trivial h).bind fun _ s h => ?_
  exact complete_dmaSafe h fun hsuccess => absurd (hstatus.symm.trans hsuccess) (by simp)

/-! ## `EvtIoWriteDma` and `EvtIoReadDma` -/

theorem initializeUsingRequest_dmaSafe (h : Mine t (DmaView.Halted id []) s) :
    DmaSafe e request t (TransferOp.initializeUsingRequest id).perform
      (fun status => Mine t fun v => v.Halted id [] ∧
        (ntSuccess status = true → v.Initialized id)) s := by
  refine DmaSafe.framework trivial h fun v status wdf _ hv ha => ?_
  have hhalted := hv.framework (o := .initializeUsingRequest id) trivial ha
  refine ⟨hhalted, fun hsuccess => ?_⟩
  simp only [WdfSide.act, hsuccess, if_true] at ha
  split at ha
  · cases ha
    exact ⟨hhalted, rfl, rfl⟩
  · cases ha

theorem markCancelableEx_dmaSafe (h : Mine t (DmaView.Initialized id) s) :
    DmaSafe e request t (TransferOp.markCancelableEx id).perform
      (fun _ => Mine t (DmaView.Initialized id)) s := by
  refine DmaSafe.framework trivial h fun v status wdf _ hv ha => ?_
  have hhalted := hv.toHalted.framework (o := .markCancelableEx id) trivial ha
  simp only [WdfSide.act] at ha
  split at ha
  all_goals
    cases ha
    exact ⟨hhalted, hv.bound, hv.transferred⟩

/-- The framework hands over the first fragment, or nothing is done. -/
theorem execute_dmaSafe (h : Mine t (DmaView.Initialized id) s) :
    DmaSafe e request t TransferOp.execute.perform
      (fun started => Mine t fun v => match started with
        | .error status => ntSuccess status = false ∧ v.Halted id []
        | .ok sgList => v.Programmable e (request id) id [] sgList) s := by
  refine DmaSafe.framework trivial h fun v started wdf hrequests hv ha => ?_
  have hhalted := hv.toHalted.framework (o := .execute) trivial ha
  cases started with
  | error status =>
    refine ⟨?_, hhalted⟩
    simp only [WdfSide.act, WdfSide.executeAct] at ha
    split at ha
    · cases ha
    · next hfail => exact Bool.eq_false_of_not_eq_true hfail
  | ok sgList =>
    simp only [WdfSide.act, WdfSide.executeAct, hv.bound, hrequests] at ha
    split at ha
    · next heq _ =>
      cases heq
      split at ha
      · next hfirst =>
        cases ha
        refine ⟨⟨⟨hhalted.toCurrent, rfl, rfl, hv.transferred, ?_⟩, hhalted.moved⟩,
          hhalted.run⟩
        rw [hfirst]
        rfl
      · cases ha
    · cases ha

theorem wdfDmaTransactionExecute_dmaSafe (h : Mine t (DmaView.Initialized id) s) :
    DmaSafe e request t (wdfDmaTransactionExecute e)
      (fun status s => ntSuccess status = false → Mine t (DmaView.Halted id []) s) s := by
  refine (execute_dmaSafe h).bind fun started s h => ?_
  cases started with
  | error status => exact Safe.ret Mine.stable_of fun _ => ⟨h.1, h.2.2⟩
  | ok sgList =>
    refine (xdmaEngineProgramDma_dmaSafe h).bind fun _ s _ => ?_
    exact Safe.ret Mine.stable_of fun hfail => absurd hfail (by decide)

theorem evtIoDma_dmaSafe {bound : Nat} (h : Mine t (DmaView.Halted id []) s) :
    DmaSafe e request t (evtIoDma e id bound) (fun _ _ => True) s := by
  refine (initializeUsingRequest_dmaSafe h).bind fun status s h => ?_
  split
  · next hsuccess =>
    have hinitialized : Mine t (DmaView.Initialized id) s := ⟨h.1, h.2.2 hsuccess⟩
    refine (markCancelableEx_dmaSafe hinitialized).bind fun status s h => ?_
    split
    · refine (wdfDmaTransactionExecute_dmaSafe h).bind fun status s h => ?_
      split
      · refine DmaSafe.poll.bind fun poll s hpoll => ?_
        exact Safe.when (Stable.const _) trivial fun h => absurd (hpoll.symm.trans h) (by simp)
      · next hfail =>
        have hstatus := Bool.eq_false_of_not_eq_true hfail
        exact failRequest_dmaSafe hstatus (h hstatus)
    · next hfail =>
      exact failRequest_dmaSafe (Bool.eq_false_of_not_eq_true hfail) ⟨h.1, h.2.toHalted⟩
  · next hfail =>
    exact failRequest_dmaSafe (Bool.eq_false_of_not_eq_true hfail) ⟨h.1, h.2.1⟩

/-! ## `EngineProcessTransfer` -/

/-- The engine has stopped by itself, and its status tells whether the fragment is transferred. -/
structure DmaView.Reported (e : TransferEngine) (req : DmaRequest) (id : Nat)
    (past : List ScatterGatherList) (sgList : ScatterGatherList) (m : List Transfer) (v : DmaView) :
    Prop extends DmaView.Fragment req id past sgList m v where
  idle : v.sg.busy = false
  ok : v.sg.status &&& xdmaStatExpectedZero = xdmaEngineStoppedOk →
    m = req.planned e (past ++ [sgList])

theorem getRequest_dmaSafe (h : Mine t (DmaView.Reported e (request id) id past sgList m) s) :
    DmaSafe e request t (TransferOp.getRequest .processTransfer).perform
      (fun r => Mine t fun v => r = some id ∧ v.Reported e (request id) id past sgList m) s := by
  refine DmaSafe.framework trivial h fun v r wdf _ hv ha => ?_
  simp only [WdfSide.act] at ha
  split at ha
  · next hr =>
    cases ha
    exact ⟨hr.trans hv.bound, ⟨⟨⟨⟨hv.last, hv.uncompleted⟩, hv.bound, hv.current, hv.transferred,
      hv.cut⟩, hv.moved⟩, hv.idle, hv.ok⟩⟩
  · cases ha

/-- The status is read once: the DPC keeps what it says. -/
theorem engineStatus_dmaSafe
    (h : Mine t (DmaView.Reported e (request id) id past sgList m) s) :
    DmaSafe e request t TransferOp.engineStatus.perform
      (fun status => Mine t fun v =>
        (status &&& xdmaStatExpectedZero = xdmaEngineStoppedOk →
          m = (request id).planned e (past ++ [sgList])) ∧
        v.Fragment (request id) id past sgList m) s := by
  refine DmaSafe.perform (o := .engineStatus) trivial h fun s status s' _ hv ha => ?_
  obtain ⟨-, hwdf, hsg, hmoved, -⟩ := DmaWorld.act_eq_some.mp ha
  constructor
  · simp only [SgEngine.act] at hsg
    split at hsg
    · next hstatus =>
      have hidle : s.sg.busy = false := hv.idle
      simp only [SgEngine.statusRegister, hidle, Bool.false_eq_true, if_false] at hstatus
      rw [hstatus]
      exact hv.ok
    · cases hsg
  · have hwdf' : s'.view.wdf = s.view.wdf := WdfSide.act_silent rfl hwdf
    have hmoved' : s'.view.moved = s.view.moved := hmoved
    exact ⟨hwdf' ▸ hv.toUnderWayOn, hmoved' ▸ hv.moved⟩

theorem engineStop_dmaSafe (h : Mine t (DmaView.Fragment (request id) id past sgList m) s) :
    DmaSafe e request t TransferOp.engineStop.perform
      (fun _ => Mine t (DmaView.Ready (request id) id past sgList m)) s := by
  refine DmaSafe.perform (o := .engineStop) trivial h fun s _ s' _ hv ha => ?_
  obtain ⟨hengine, hwdf, -, hmoved, -⟩ := DmaWorld.act_eq_some.mp ha
  have hwdf' : s'.view.wdf = s.view.wdf := WdfSide.act_silent rfl hwdf
  have hmoved' : s'.view.moved = s.view.moved := hmoved
  refine ⟨⟨hwdf' ▸ hv.toUnderWayOn, hmoved' ▸ hv.moved⟩, ?_⟩
  change s'.transfer.engine.run = false
  rw [← Option.some.inj hengine]

theorem DmaView.Ready.halted (hv : v.Ready req id past sgList m) : v.Halted id m :=
  ⟨hv.toCurrent, hv.run, hv.moved⟩

/-- The fragment is counted: it was the last one, the next one cannot be set up, or it is next. -/
theorem dmaCompleted_dmaSafe
    (h : Mine t (DmaView.Ready (request id) id past sgList
      ((request id).planned e (past ++ [sgList]))) s) :
    DmaSafe e request t TransferOp.dmaCompleted.perform
      (fun completed => Mine t fun v => match completed with
        | .done _ => v.wdf.transferred = past ++ [sgList] ∧
          past ++ [sgList] <+: (request id).fragments ∧
          v.Halted id ((request id).planned e (past ++ [sgList]))
        | .more next => v.Programmable e (request id) id (past ++ [sgList]) next) s := by
  refine DmaSafe.framework trivial h fun v completed wdf hrequests hv ha => ?_
  have hhalted := hv.halted.framework (o := .dmaCompleted) trivial ha
  have hfirst := hv.toUnderWayOn.prefix
  simp only [WdfSide.act, WdfSide.dmaCompletedAct, hv.current] at ha
  split at ha
  · split at ha
    · cases ha
      exact ⟨congrArg (· ++ [sgList]) hv.transferred, hfirst, hhalted⟩
    · cases ha
  · split at ha
    · cases ha
    · cases ha
      exact ⟨congrArg (· ++ [sgList]) hv.transferred, hfirst, hhalted⟩
  · next answer nextList rest hleft =>
    split at ha
    · next hnext =>
      subst hnext
      cases ha
      refine ⟨⟨⟨hhalted.toCurrent, hv.bound, rfl, congrArg (· ++ [sgList]) hv.transferred, ?_⟩,
        hhalted.moved⟩, hhalted.run⟩
      simp [hv.cut, hleft]
    · cases ha
  · cases ha

theorem wdfDmaTransactionDmaCompleted_dmaSafe
    (h : Mine t (DmaView.Ready (request id) id past sgList
      ((request id).planned e (past ++ [sgList]))) s) :
    DmaSafe e request t (wdfDmaTransactionDmaCompleted e)
      (fun completed s => completed = true → Mine t (fun v =>
        v.wdf.transferred = past ++ [sgList] ∧ past ++ [sgList] <+: (request id).fragments ∧
          v.Halted id ((request id).planned e (past ++ [sgList]))) s) s := by
  refine (dmaCompleted_dmaSafe h).bind fun completed s h => ?_
  cases completed with
  | done status => exact Safe.ret Mine.stable_of fun _ => h
  | more next =>
    refine (xdmaEngineProgramDma_dmaSafe h).bind fun _ s _ => ?_
    exact Safe.ret Mine.stable_of fun hover => absurd hover (by decide)

theorem processStatus_dmaSafe {engineStatus : BitVec 32}
    (hok : engineStatus &&& xdmaStatExpectedZero = xdmaEngineStoppedOk →
      m = (request id).planned e (past ++ [sgList]))
    (h : Mine t (DmaView.Ready (request id) id past sgList m) s) :
    DmaSafe e request t (processStatus e id engineStatus) (fun _ _ => True) s := by
  unfold processStatus
  split
  · next hstatus =>
    obtain rfl := hok hstatus
    refine (wdfDmaTransactionDmaCompleted_dmaSafe h).bind fun completed s h => ?_
    cases completed with
    | false =>
      exact (DmaSafe.harmless (o := .getBytesTransferred) rfl).bind fun _ s _ => DmaSafe.done
    | true =>
      have hbytes : DmaSafe e request t TransferOp.getBytesTransferred.perform
          (fun bytes => Mine t fun v => bytes = fragmentBytes (past ++ [sgList]) ∧
            past ++ [sgList] <+: (request id).fragments ∧
            v.Halted id ((request id).planned e (past ++ [sgList]))) s := by
        refine DmaSafe.framework trivial (h rfl) fun v bytes wdf _ hv ha => ?_
        obtain ⟨rfl, hbytes⟩ := getBytesTransferred_eq ha
        exact ⟨hbytes.trans (congrArg _ hv.1), hv.2⟩
      refine hbytes.bind fun bytes s h => ?_
      obtain ⟨hheld, rfl, hfirst, hhalted⟩ := h
      refine (DmaSafe.halted (o := .unmarkCancelable id) trivial ⟨hheld, hhalted⟩).bind
        fun _ s h => ?_
      refine (DmaSafe.halted (o := .release) trivial h).bind fun status s h => ?_
      exact complete_dmaSafe h fun _ => ⟨_, hfirst, rfl, rfl⟩
  · refine (DmaSafe.halted (o := .unmarkCancelable id) trivial ⟨h.1, h.2.halted⟩).bind
      fun _ s h => ?_
    refine (DmaSafe.halted (o := .release) trivial h).bind fun _ s h => ?_
    exact complete_dmaSafe h fun hsuccess => absurd hsuccess (by decide)

theorem engineProcessTransfer_dmaSafe
    (h : Mine t (DmaView.Reported e (request id) id past sgList m) s) :
    DmaSafe e request t (engineProcessTransfer e) (fun _ _ => True) s := by
  refine (getRequest_dmaSafe h).bind fun r s h => ?_
  obtain ⟨hheld, rfl, h⟩ := h
  refine (engineStatus_dmaSafe ⟨hheld, h⟩).bind fun engineStatus s h => ?_
  obtain ⟨hheld, hok, h⟩ := h
  refine (engineStop_dmaSafe ⟨hheld, h⟩).bind fun _ s h => ?_
  refine (processStatus_dmaSafe hok h).bind fun _ s _ => ?_
  refine (DmaSafe.harmless (o := .clearDescriptors) rfl).bind fun _ s _ => ?_
  refine DmaSafe.poll.bind fun poll s hpoll => ?_
  exact Safe.when (Stable.const _) trivial fun h => absurd (hpoll.symm.trans h) (by simp)

/-! ## The engine -/

theorem DmaInv.running (hi : DmaInv e request s) (h : ¬ s.sg.Quiet) :
    s.holder = .engine ∧ ∃ id past sgList chain n,
      Running e (request id) id past sgList chain n s := by
  have hphase := hi.phase
  unfold DmaWorld.Phase at hphase
  split at hphase
  · exact absurd hphase.1 h
  · exact absurd hphase.1 h
  · next hholder => exact ⟨hholder, hphase⟩

/-- The engine gets from `n` executed descriptors to `n'`. -/
theorem DmaInv.engineStep {sg : SgEngine} {ts : List Transfer} {n' : Nat}
    (hi : DmaInv e request s) (hholder : s.holder = .engine)
    (hrunning : Running e (request id) id past sgList chain n s)
    (hprogress : Progress e.engine.descBuffer.logical chain n' sg)
    (hts : ((request id).plannedNext e past sgList).take n ++ ts =
      ((request id).plannedNext e past sgList).take n') :
    DmaInv e request (DmaWorld.move { s with sg := sg } ts) := by
  have hlast : s.transfer.wdf.presented - 1 = id := by
    have := hrunning.underWay.last
    omega
  have hmoved : (DmaWorld.move { s with sg := sg } ts).moved =
      Function.update s.moved id ((request id).planned e past ++
        ((request id).plannedNext e past sgList).take n') := by
    simp only [DmaWorld.move, hlast]
    rw [hrunning.moved, List.append_assoc, hts]
  refine ⟨hi.poll, hi.requests, fun k => ?_, fun k hk => ?_, hi.earlier, hi.once, ?_⟩
  · rw [hmoved]
    by_cases hkid : k = id
    · subst hkid
      have huncompleted : s.transfer.wdf.completions k = [] := hrunning.underWay.uncompleted
      rw [Function.update_self]
      change Truthful e (request k) _ (s.transfer.wdf.completions k)
      rw [huncompleted]
      refine Truthful.unfinished (List.IsPrefix.trans ?_
        (DmaRequest.planned_prefix hrunning.underWay.prefix))
      rw [DmaRequest.planned_snoc]
      exact (List.prefix_append_right_inj _).mpr (List.take_prefix _ _)
    · rw [Function.update_of_ne hkid]
      exact hi.truthful k
  · have hfresh := hi.fresh k hk
    rw [hmoved, Function.update_of_ne]
    · exact hfresh
    · intro hkid
      subst hkid
      have hlt : k + 1 = s.transfer.wdf.presented := hrunning.underWay.last
      have hle : s.transfer.wdf.presented ≤ k := hk
      omega
  · unfold DmaWorld.Phase
    rw [show (DmaWorld.move { s with sg := sg } ts).holder = .engine from hholder]
    refine ⟨id, past, sgList, chain, n', hrunning.underWay, hrunning.programmed, hrunning.buffer,
      hprogress, ?_⟩
    rw [hmoved, Function.update_self]

theorem DmaWorld.move_nil : s.move [] = s := by
  simp [DmaWorld.move]

/-- What the engine does by itself. -/
theorem DmaInv.env {ev : SgEvent} (hi : DmaInv e request s) (h : DmaWorld.env e ev s = some s') :
    DmaInv e request s' ∧ ∀ u, DmaRely u s s' := by
  have hbusy : s.sg.busy = true := by
    cases ev with
    | fetch =>
      obtain ⟨sg, hsg, -⟩ := Option.map_eq_some_iff.mp h
      simp only [SgEngine.fetch] at hsg
      split at hsg
      · assumption
      · cases hsg
    | execute =>
      obtain ⟨x, hx, -⟩ := Option.map_eq_some_iff.mp h
      simp only [SgEngine.execute] at hx
      split at hx
      · assumption
      · cases hx
    | fail bits =>
      obtain ⟨sg, hsg, -⟩ := Option.map_eq_some_iff.mp h
      simp only [SgEngine.fail] at hsg
      split at hsg
      · next hgo => exact hgo.1
      · cases hsg
  obtain ⟨hholder, id, past, sgList, chain, n, hrunning⟩ :=
    hi.running fun hquiet => by rw [hquiet.idle] at hbusy; cases hbusy
  have hlink := linkedChain_of_programChain hrunning.programmed
  refine ⟨?_, fun u hu => by rw [hholder] at hu; cases hu⟩
  cases ev with
  | fetch =>
    obtain ⟨sg, hsg, rfl⟩ := Option.map_eq_some_iff.mp h
    rw [← DmaWorld.move_nil (s := { s with sg := sg })]
    exact hi.engineStep hholder hrunning (hrunning.progress.fetch hlink hrunning.buffer hsg)
      (List.append_nil _)
  | execute =>
    obtain ⟨⟨sg, ts⟩, hx, rfl⟩ := Option.map_eq_some_iff.mp h
    obtain ⟨n', hprogress, hts⟩ := hrunning.progress.execute hlink hx
    rw [DmaRequest.chain_moves hrunning.programmed] at hts
    exact hi.engineStep hholder hrunning hprogress hts
  | fail bits =>
    obtain ⟨sg, hsg, rfl⟩ := Option.map_eq_some_iff.mp h
    rw [← DmaWorld.move_nil (s := { s with sg := sg })]
    exact hi.engineStep hholder hrunning (hrunning.progress.fail hsg) (List.append_nil _)

/-! ## Every run -/

/-- Nobody works on a request when the next one is presented. -/
theorem DmaInv.unheld (hi : DmaInv e request s)
    (hall : ∀ k < s.transfer.wdf.presented, s.transfer.wdf.completions k ≠ []) :
    s.holder = .nobody := by
  have hnone : ∀ id, ¬ Current s.transfer.wdf id := by
    intro id hcurrent
    have hlast := hcurrent.last
    exact hall id (by omega) hcurrent.uncompleted
  have hphase := hi.phase
  unfold DmaWorld.Phase at hphase
  split at hphase
  · assumption
  · obtain ⟨-, id, hcurrent⟩ := hphase
    exact absurd hcurrent (hnone id)
  · obtain ⟨id, past, sgList, chain, n, hrunning⟩ := hphase
    exact absurd hrunning.underWay.toCurrent (hnone id)

theorem DmaInv.present (hi : DmaInv e request s) (hid : id = s.transfer.wdf.presented)
    (hall : ∀ k < id, s.transfer.wdf.completions k ≠ [])
    (h : s' = { s with
      transfer := { s.transfer with wdf := { s.transfer.wdf with presented := id + 1 } }
      holder := .thread (.dispatch id) }) :
    DmaInv e request s' ∧ Mine (.dispatch id) (DmaView.Halted id []) s' := by
  subst hid
  have hphase := hi.phase
  unfold DmaWorld.Phase at hphase
  rw [hi.unheld hall] at hphase
  obtain ⟨hquiet, hrun, -⟩ := hphase
  obtain ⟨hmoved, huncompleted⟩ := hi.fresh _ (Nat.le_refl _)
  have hcurrent : Current { s.transfer.wdf with presented := s.transfer.wdf.presented + 1 }
      s.transfer.wdf.presented := ⟨rfl, huncompleted⟩
  subst h
  refine ⟨⟨hi.poll, hi.requests, hi.truthful, fun k hk => hi.fresh k (Nat.le_of_succ_le hk),
    fun k hk => hall k (Nat.lt_of_succ_lt_succ hk), hi.once, hquiet, _, hcurrent⟩, rfl, hcurrent,
    hrun, hmoved⟩

/-- The DPC finds the engine stopped. -/
theorem DmaInv.interrupted (hi : DmaInv e request s) (h : s.sg.interrupt = true)
    (hs : s' = { s with
      sg := { s.sg with interrupt := false }
      holder := .thread .dpc }) :
    DmaInv e request s' ∧ s.holder = .engine ∧ ∃ id past sgList,
      Mine .dpc (DmaView.Reported e (request id) id past sgList (s.moved id)) s' := by
  obtain ⟨hholder, id, past, sgList, chain, n, hrunning⟩ :=
    hi.running fun hquiet => by rw [hquiet.interrupt] at h; cases h
  have hstopped : Stopped chain n s.sg := by
    rcases hrunning.progress with hp | hp
    · rw [hp.interrupt] at h
      cases h
    · exact hp
  have hlen : ((request id).plannedNext e past sgList).length = chain.length := by
    rw [← DmaRequest.chain_moves hrunning.programmed, List.length_map]
  subst hs
  refine ⟨⟨hi.poll, hi.requests, hi.truthful, hi.fresh, hi.earlier, hi.once,
    ⟨hstopped.idle, rfl⟩, id, hrunning.underWay.toCurrent⟩, hholder, id, past, sgList, rfl,
    ⟨hrunning.underWay, rfl⟩, hstopped.idle, fun hok => ?_⟩
  rw [hrunning.moved, hstopped.all hok, ← hlen, List.take_length, DmaRequest.planned_snoc]

theorem dmaInv_idle {descBuffer : Nat → DmaDescriptor} :
    DmaInv e request (dmaConfig descBuffer request).state := by
  refine ⟨rfl, rfl, fun k => Truthful.unfinished (List.nil_prefix), fun k _ => ⟨rfl, rfl⟩, ?_,
    fun k => Nat.zero_le _, ⟨rfl, rfl⟩, rfl, ?_⟩
  · exact fun k hk => absurd hk (Nat.not_lt_zero _)
  · exact fun k hk => absurd hk (Nat.not_lt_zero _)

theorem dmaInv_of_reach {descBuffer : Nat → DmaDescriptor}
    {c : Config TransferOp TransferOp.Res DmaWorld TransferThread}
    (h : (dmaThreads e).Reach (fun _ _ => True) (dmaConfig descBuffer request) c) :
    DmaInv e request c.state := by
  refine (Reach.safe (I := DmaInv e request) (R := DmaRely) (Q := fun _ _ => True) dmaInv_idle
    (fun t => DmaSafe.done) (fun ev s s' hi _ hs => hi.env hs) ?_ h).1
  intro t a s s' p hi _ _ hstart
  simp only [dmaThreads, DmaWorld.begin, Option.bind_eq_bind, Option.pure_def] at hstart
  obtain ⟨⟨transfer, q⟩, htransfer, hstart⟩ := Option.bind_eq_some_iff.mp hstart
  obtain ⟨id, bound, rfl, rfl, hid, hall, rfl, rfl⟩ | ⟨rfl, -, -, rfl, rfl⟩ |
    ⟨id, rfl, -⟩ := transferThreads_start_cases htransfer
  · cases hstart
    obtain ⟨hi', hmine⟩ := hi.present hid hall rfl
    rw [evtIo_eq]
    refine ⟨hi', fun u _ hu => ?_, evtIoDma_dmaSafe hmine⟩
    rw [hi.unheld (hid ▸ hall)] at hu
    cases hu
  · simp only at hstart
    split at hstart
    · next hinterrupt =>
      cases hstart
      obtain ⟨hi', hholder, id, past, sgList, hmine⟩ := hi.interrupted hinterrupt rfl
      refine ⟨hi', fun u _ hu => ?_, engineProcessTransfer_dmaSafe hmine⟩
      rw [hholder] at hu
      cases hu
    · cases hstart
  · cases hstart

/-- It does not matter what the engine has fetched when the DPC of the fragment before clears the
buffer, nor which transfer fails: what is reported for a request is what was moved for it. -/
theorem truthful_of_reach {descBuffer : Nat → DmaDescriptor}
    {c : Config TransferOp TransferOp.Res DmaWorld TransferThread}
    (h : (dmaThreads e).Reach (fun _ _ => True) (dmaConfig descBuffer request) c) (k : Nat) :
    Truthful e (request k) (c.state.moved k) (c.state.transfer.wdf.completions k) :=
  (dmaInv_of_reach h).truthful k

/-! ## A run -/

/-- `XDMA_EngineProgramDma` by the thread `t`, for a fragment of the first request. -/
def programLabels (e : TransferEngine) (req : DmaRequest) (t : TransferThread)
    (sgList : ScatterGatherList) (bytes : Nat) : List SgLabel :=
  [.call t (.getRequest .programDma) (some 0), .call t (.getParameters (some 0)) req.deviceOffset,
    .call t .getBytesTransferred bytes,
    .call t (.writeDescriptors ((programChain e.engine e.direction
      (startOffset e.width req.deviceOffset bytes) sgList).getD [])) (),
    .call t (.storeFirstDescAdj (firstDescAdj e.engine 1)) (),
    .call t .poll false, .call t .engineStart ()]

/-- The DPC finds the engine stopped behind a completed descriptor. -/
def interruptSteps (completed : DmaCompleted) : List SgLabel :=
  [.env .execute, .start .dpc .interrupt, .call .dpc (.getRequest .processTransfer) (some 0),
    .call .dpc .engineStatus 6, .call .dpc .engineStop (), .call .dpc .dmaCompleted completed]

/-- A request in two fragments of one element each. The engine has fetched the descriptor of the
second one when the DPC clears it. -/
def raceSteps (e : TransferEngine) (req : DmaRequest) (second : ScatterGatherList) :
    List SgLabel :=
  [.start (.dispatch 0) (.present 0),
    .call (.dispatch 0) (.initializeUsingRequest 0) statusSuccess,
    .call (.dispatch 0) (.markCancelableEx 0) statusSuccess,
    .call (.dispatch 0) .execute (.ok req.first)] ++
  programLabels e req (.dispatch 0) req.first 0 ++ [.call (.dispatch 0) .poll false, .env .fetch] ++
  interruptSteps (.more second) ++
  programLabels e req .dpc second (fragmentBytes [req.first]) ++
  [.env .fetch, .call .dpc .getBytesTransferred (fragmentBytes [req.first]),
    .call .dpc .clearDescriptors (), .call .dpc .poll false] ++
  interruptSteps (.done statusSuccess) ++
  [.call .dpc .getBytesTransferred (fragmentBytes req.fragments),
    .call .dpc (.unmarkCancelable 0) statusSuccess, .call .dpc .release statusSuccess,
    .call .dpc (.complete 0 statusSuccess (fragmentBytes req.fragments)) ()]

theorem truthful_race : ∃ c,
    (dmaThreads sampleEngine).Reach (fun _ _ => True)
      (dmaConfig (fun _ => .zero) fun _ => sampleRequest) c ∧
      c.state.transfer.wdf.completions 0 = [(statusSuccess, 0x80)] ∧
      Truthful sampleEngine sampleRequest (c.state.moved 0) [(statusSuccess, 0x80)] := by
  have hrun : ∃ c, (dmaThreads sampleEngine).Reach (fun _ _ => True)
      (dmaConfig (fun _ => .zero) fun _ => sampleRequest) c ∧
      (c.state.transfer.wdf.completions 0 == [(statusSuccess, 0x80)]) = true :=
    Reach.exists_of_run (raceSteps sampleEngine sampleRequest (.single ⟨0x3000, 0x40⟩))
      (fun s : DmaWorld => s.transfer.wdf.completions 0 == [(statusSuccess, 0x80)]) (by decide)
  obtain ⟨c, hc, h⟩ := hrun
  have hcompletions := eq_of_beq h
  exact ⟨c, hc, hcompletions, hcompletions ▸ truthful_of_reach hc 0⟩

end Xadma
