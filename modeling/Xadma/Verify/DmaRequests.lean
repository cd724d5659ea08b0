import Xadma.Verify.SgEngine
import Xadma.Verify.ArbitrationRuns

/-!
# What a completed request has moved

The driver clears the descriptor buffer while the engine may be at work on the next fragment, yet
what it reports is right. The engine makes the transfers of each request in order and no others, and
a request that is completed with success and `n` bytes is one whose first `n` bytes are moved. While
one thread works on the request, the other ones do no more than clear the descriptor buffer.
-/

namespace Xadma

open Threads

/-- The transfers of the fragments `fs` of a request. -/
def DmaRequest.planned (e : TransferEngine) (request : DmaRequest) (fs : List ScatterGatherList) :
    List Transfer :=
  plannedFragments e.width e.engine.addressMode request.deviceOffset 0 fs

/-- The transfers of the request are made in order, and a success with `n` bytes means that those of
its first fragments with `n` bytes are made, and no others. -/
structure Truthful (e : TransferEngine) (request : DmaRequest) (moved : List Transfer)
    (completions : List (NtStatus × Nat)) : Prop where
  inOrder : moved <+: request.planned e request.fragments
  information : ∀ result ∈ completions, ntSuccess result.1 = true → ∃ fs,
    fs <+: request.fragments ∧ moved = request.planned e fs ∧ result.2 = fragmentBytes fs

/-- What one thread leaves to the others. -/
structure DmaView where
  holder : Holder
  wdf : WdfSide
  sg : SgEngine
  moved : Nat → List Transfer
  run : Bool

def DmaWorld.view (s : DmaWorld) : DmaView :=
  ⟨s.holder, s.transfer.wdf, s.sg, s.moved, s.transfer.engine.run⟩

/-- The engine neither works nor asks for the DPC. -/
structure SgEngine.Quiet (s : SgEngine) : Prop where
  idle : s.busy = false
  interrupt : s.interrupt = false

/-- The fragment `sgList` of the request is under way, behind the fragments `past`. -/
structure UnderWayOn (request : DmaRequest) (id : Nat) (past : List ScatterGatherList)
    (sgList : ScatterGatherList) (s : WdfSide) : Prop extends Current s id where
  bound : s.bound = some id
  current : s.current = some sgList
  transferred : s.transferred = past
  cut : request.fragments = past ++ sgList :: s.left

/-- The transfers of a fragment behind the fragments `past`. -/
def DmaRequest.plannedNext (e : TransferEngine) (request : DmaRequest)
    (past : List ScatterGatherList) (sgList : ScatterGatherList) : List Transfer :=
  plannedTransfers e.engine.addressMode
    (startOffset e.width request.deviceOffset (fragmentBytes past)) sgList.elements

/-- The chain of that fragment. -/
def DmaRequest.chain (e : TransferEngine) (request : DmaRequest) (past : List ScatterGatherList)
    (sgList : ScatterGatherList) : Option (List DmaDescriptor) :=
  programChain e.engine e.direction
    (startOffset e.width request.deviceOffset (fragmentBytes past)) sgList

/-- The engine has been started for the fragment and has executed `n` descriptors. -/
structure Running (e : TransferEngine) (request : DmaRequest) (id : Nat)
    (past : List ScatterGatherList) (sgList : ScatterGatherList) (chain : List DmaDescriptor)
    (n : Nat) (s : DmaWorld) : Prop where
  underWay : UnderWayOn request id past sgList s.transfer.wdf
  programmed : request.chain e past sgList = some chain
  buffer : HoldsOrCleared chain s.transfer.engine.descBuffer
  progress : Progress e.engine.descBuffer.logical chain n s.sg
  moved : s.moved id = request.planned e past ++ (request.plannedNext e past sgList).take n

/-- What holds by who works on the request. -/
def DmaWorld.Phase (e : TransferEngine) (request : Nat → DmaRequest) (s : DmaWorld) : Prop :=
  match s.holder with
  | .nobody => s.sg.Quiet ∧ s.transfer.engine.run = false ∧
      ∀ k < s.transfer.wdf.presented, s.transfer.wdf.completions k ≠ []
  | .thread _ => s.sg.Quiet ∧ ∃ id, Current s.transfer.wdf id
  | .engine => ∃ id past sgList chain n, Running e (request id) id past sgList chain n s

structure DmaInv (e : TransferEngine) (request : Nat → DmaRequest) (s : DmaWorld) : Prop where
  poll : s.transfer.engine.poll = false
  requests : s.transfer.wdf.request = request
  truthful : ∀ k, Truthful e (request k) (s.moved k) (s.transfer.wdf.completions k)
  fresh : ∀ k, s.transfer.wdf.presented ≤ k →
    s.moved k = [] ∧ s.transfer.wdf.completions k = []
  earlier : ∀ k, k + 1 < s.transfer.wdf.presented → s.transfer.wdf.completions k ≠ []
  once : ∀ k, (s.transfer.wdf.completions k).length ≤ 1
  phase : s.Phase e request

/-- A thread that works on the request relies on finding everything as it left it, but for what is
cleared in the descriptor buffer. -/
def DmaRely (t : TransferThread) (s s' : DmaWorld) : Prop :=
  s.holder = .thread t → s'.view = s.view ∧ ∀ chain,
    HoldsOrCleared chain s.transfer.engine.descBuffer →
      HoldsOrCleared chain s'.transfer.engine.descBuffer

variable {e : TransferEngine} {request : Nat → DmaRequest} {s s' : DmaWorld} {t : TransferThread}
  {o : TransferOp} {r : o.Res} {id : Nat} {past fs : List ScatterGatherList}
  {sgList : ScatterGatherList} {chain : List DmaDescriptor} {n : Nat} {req : DmaRequest}

/-! ## The transfers of a request -/

theorem fragmentBytes_eq : fragmentBytes fs = totalLength (fs.flatMap (·.elements)) := by
  induction fs with
  | nil => rfl
  | cons sgList fs ih =>
    rw [List.flatMap_cons, totalLength_append, ← ih]
    rfl

theorem DmaRequest.planned_snoc :
    req.planned e (past ++ [sgList]) = req.planned e past ++ req.plannedNext e past sgList := by
  rw [planned, planned, plannedFragments_append, plannedNext, Nat.zero_add, ← fragmentBytes_eq]
  simp [plannedFragments]

theorem DmaRequest.planned_prefix (h : fs <+: req.fragments) :
    req.planned e fs <+: req.planned e req.fragments := by
  obtain ⟨rest, hrest⟩ := h
  rw [← hrest, planned, planned, plannedFragments_append]
  exact List.prefix_append _ _

theorem UnderWayOn.prefix {w : WdfSide} (h : UnderWayOn req id past sgList w) :
    past ++ [sgList] <+: req.fragments := by
  rw [h.cut]
  exact ⟨w.left, by simp⟩

/-- The transfers of a chain are those that are planned for its fragment. -/
theorem DmaRequest.chain_moves (h : req.chain e past sgList = some chain) :
    chain.map (DmaDescriptor.transfer e.direction) = req.plannedNext e past sgList := by
  have hmoves := programChain_moves h
  have hlen := (programChain_getElem? h).1
  rw [executeChain_of_visits (hlen ▸ programChain_visits h)] at hmoves
  exact Option.some.inj hmoves

theorem Truthful.unfinished {moved : List Transfer}
    (h : moved <+: req.planned e req.fragments) : Truthful e req moved [] :=
  ⟨h, fun _ hr => by cases hr⟩

/-! ## One call -/

theorem DmaWorld.act_eq_some : DmaWorld.act e t o s r = some s' ↔
    s.transfer.engine.act t o r = some s'.transfer.engine ∧
    s.transfer.wdf.act t o r = some s'.transfer.wdf ∧
    s.sg.act e.engine.descBuffer.logical s.transfer.engine.run o r = some s'.sg ∧
    s'.moved = s.moved ∧ s'.holder = s.holderAfter o := by
  simp only [DmaWorld.act, Option.bind_eq_bind, Option.bind_eq_some_iff, Option.pure_def]
  constructor
  · rintro ⟨transfer, htransfer, sg, hsg, h⟩
    cases h
    obtain ⟨hengine, hwdf⟩ := TransferWorld.act_eq_some.mp htransfer
    exact ⟨hengine, hwdf, hsg, rfl, rfl⟩
  · rintro ⟨hengine, hwdf, hsg, hmoved, hholder⟩
    refine ⟨s'.transfer, TransferWorld.act_eq_some.mpr ⟨hengine, hwdf⟩, s'.sg, hsg, ?_⟩
    rw [← hmoved, ← hholder]

/-- The calls that neither start the engine nor complete the request. -/
def TransferOp.GoesOn : TransferOp → Prop
  | .engineStart | .complete .. => False
  | _ => True

theorem WdfSide.act_keeps {a a' : WdfSide} (ho : o.GoesOn) (h : a.act t o r = some a') :
    a'.presented = a.presented ∧ a'.completions = a.completions ∧ a'.request = a.request := by
  cases o with
  | engineStart | complete _ _ _ => cases ho
  | initializeUsingRequest _ =>
    simp only [WdfSide.act] at h
    split at h
    · split at h
      · cases h; exact ⟨rfl, rfl, rfl⟩
      · cases h
    · cases h; exact ⟨rfl, rfl, rfl⟩
  | markCancelableEx _ =>
    simp only [WdfSide.act] at h
    split at h <;> cases h <;> exact ⟨rfl, rfl, rfl⟩
  | execute =>
    cases r with
    | error status =>
      simp only [WdfSide.act, WdfSide.executeAct] at h
      split at h
      · cases h
      · split at h <;> cases h <;> exact ⟨rfl, rfl, rfl⟩
    | ok sgList =>
      simp only [WdfSide.act, WdfSide.executeAct] at h
      split at h
      · split at h
        · cases h; exact ⟨rfl, rfl, rfl⟩
        · cases h
      · cases h
  | dmaCompleted =>
    simp only [WdfSide.act, WdfSide.dmaCompletedAct] at h
    split at h
    · split at h
      · cases h; exact ⟨rfl, rfl, rfl⟩
      · cases h
    · split at h
      any_goals split at h
      all_goals cases h
      all_goals exact ⟨rfl, rfl, rfl⟩
  | getRequest caller =>
    cases caller
    all_goals
      simp only [WdfSide.act] at h
      split at h
      · cases h; exact ⟨rfl, rfl, rfl⟩
      · cases h
  | getParameters request =>
    cases request with
    | none => cases h
    | some id =>
      simp only [WdfSide.act] at h
      split at h
      · cases h; exact ⟨rfl, rfl, rfl⟩
      · cases h
  | getBytesTransferred | unmarkCancelable _ =>
    simp only [WdfSide.act] at h
    split at h
    · cases h; exact ⟨rfl, rfl, rfl⟩
    · cases h
  | _ => cases h; exact ⟨rfl, rfl, rfl⟩

theorem EngineSide.act_keeps {a a' : EngineSide} (ho : o.GoesOn) (hstop : o ≠ .engineStop)
    (h : a.act t o r = some a') : a'.run = a.run := by
  cases o with
  | engineStart | complete _ _ _ => cases ho
  | engineStop => exact absurd rfl hstop
  | getRequest caller => cases caller <;> cases h <;> rfl
  | poll | numDescriptors =>
    simp only [EngineSide.act] at h
    split at h
    · cases h; rfl
    · cases h
  | stuck => cases h
  | _ => cases h; rfl

theorem SgEngine.act_quiet {a a' : SgEngine} {base : BitVec 64} {run : Bool} (ho : o.GoesOn)
    (hq : a.Quiet) (h : a.act base run o r = some a') : a'.Quiet := by
  cases o with
  | engineStart => cases ho
  | engineStatus =>
    simp only [SgEngine.act] at h
    split at h
    · cases h; exact ⟨hq.idle, hq.interrupt⟩
    · cases h
  | engineStop => cases h; exact ⟨rfl, hq.interrupt⟩
  | _ => cases h; exact hq

/-- The invariant over a call of the thread that works on the request. -/
theorem DmaInv.goesOn (hi : DmaInv e request s) (hheld : s.holder = .thread t) (ho : o.GoesOn)
    (h : DmaWorld.act e t o s r = some s') :
    DmaInv e request s' ∧ s'.holder = .thread t ∧ s'.moved = s.moved := by
  obtain ⟨hengine, hwdf, hsg, hmoved, hholder⟩ := DmaWorld.act_eq_some.mp h
  obtain ⟨hpresented, hcompletions, hrequests⟩ := WdfSide.act_keeps ho hwdf
  have hheld' : s'.holder = .thread t := by
    rw [hholder, ← hheld]
    cases o with
    | engineStart | complete _ _ _ => cases ho
    | _ => rfl
  have hphase := hi.phase
  unfold DmaWorld.Phase at hphase
  rw [hheld] at hphase
  obtain ⟨hquiet, id, hcurrent⟩ := hphase
  refine ⟨⟨(EngineSide.act_poll hengine).trans hi.poll, hrequests.trans hi.requests, ?_, ?_, ?_,
    hcompletions ▸ hi.once, ?_⟩, hheld', hmoved⟩
  · rw [hmoved, hcompletions]
    exact hi.truthful
  · rw [hmoved, hpresented, hcompletions]
    exact hi.fresh
  · rw [hpresented, hcompletions]
    exact hi.earlier
  · unfold DmaWorld.Phase
    rw [hheld']
    refine ⟨SgEngine.act_quiet ho hquiet hsg, id, ?_, ?_⟩
    · rw [hpresented]
      exact hcurrent.last
    · rw [hcompletions]
      exact hcurrent.uncompleted

theorem DmaInv.quiet (hi : DmaInv e request s) (hheld : s.holder = .thread t) : s.sg.Quiet := by
  have hphase := hi.phase
  unfold DmaWorld.Phase at hphase
  rw [hheld] at hphase
  exact hphase.1

/-- The others do not rely on anything while the thread works on the request. -/
theorem DmaRely.of_held {u : TransferThread} (hheld : s.holder = .thread t) (hne : u ≠ t) :
    DmaRely u s s' := by
  intro hu
  rw [hheld] at hu
  cases hu
  exact absurd rfl hne

/-! ## The rules -/

abbrev DmaSafe (e : TransferEngine) (request : Nat → DmaRequest) (t : TransferThread) {α : Type}
    (p : TransferProg α) (Q : α → DmaWorld → Prop) (s : DmaWorld) : Prop :=
  Safe (dmaThreads e) (fun _ _ => True) (DmaInv e request) DmaRely t p Q s

abbrev DmaStable (e : TransferEngine) (request : Nat → DmaRequest) (t : TransferThread)
    (P : DmaWorld → Prop) : Prop :=
  Stable (DmaInv e request) DmaRely t P

/-- What a thread knows while it works on the request. -/
def Mine (t : TransferThread) (P : DmaView → Prop) (s : DmaWorld) : Prop :=
  s.holder = .thread t ∧ P s.view

theorem Mine.stable {P : DmaView → Prop} : DmaStable e request t (Mine t P) := by
  intro s s' _ _ hr h
  obtain ⟨hview, -⟩ := hr h.1
  have hheld : s'.holder = s.holder := congrArg DmaView.holder hview
  exact ⟨hheld.trans h.1, hview ▸ h.2⟩

theorem Mine.stable_of {P : DmaView → Prop} {p : Prop} :
    DmaStable e request t fun s => p → Mine t P s :=
  fun s s' hi hi' hr h hp => Mine.stable s s' hi hi' hr (h hp)

theorem Mine.stable_written {P : DmaView → Prop} : DmaStable e request t
    fun s => Mine t P s ∧ HoldsOrCleared chain s.transfer.engine.descBuffer :=
  fun s s' hi hi' hr h => ⟨Mine.stable s s' hi hi' hr h.1, (hr h.1.1).2 chain h.2⟩

/-- A call of the thread that works on the request: the rest is what it does to the view. -/
theorem DmaSafe.perform {P : DmaView → Prop} {Q : o.Res → DmaView → Prop} (ho : o.GoesOn)
    (h : Mine t P s)
    (hpost : ∀ s r s', s.transfer.wdf.request = request → P s.view →
      DmaWorld.act e t o s r = some s' → Q r s'.view) :
    DmaSafe e request t o.perform (fun r => Mine t (Q r)) s := by
  refine Safe.perform _ Mine.stable (fun _ => Mine.stable) h fun s r s' hi hp _ ha => ?_
  obtain ⟨hi', hheld', -⟩ := hi.goesOn hp.1 ho ha
  exact ⟨hi', fun u hne => DmaRely.of_held hp.1 hne, hheld', hpost s r s' hi.requests hp.2 ha⟩

/-- The calls that the view does not show. -/
def TransferOp.Unseen : TransferOp → Prop
  | .engineStart | .engineStop | .engineStatus => False
  | o => o.silent = true

theorem TransferOp.Unseen.goesOn (ho : o.Unseen) : o.GoesOn := by
  cases o with
  | engineStart => cases ho
  | complete _ _ _ => cases ho
  | _ => trivial

theorem TransferOp.Unseen.view (ho : o.Unseen) (h : DmaWorld.act e t o s r = some s') :
    s'.view = s.view := by
  obtain ⟨hengine, hwdf, hsg, hmoved, hholder⟩ := DmaWorld.act_eq_some.mp h
  have hsilent : o.silent = true := by
    cases o with
    | engineStart | engineStop | engineStatus => cases ho
    | _ => exact ho
  have hsg' : s'.sg = s.sg := by
    cases o with
    | engineStart | engineStop | engineStatus => cases ho
    | _ => exact (Option.some.inj hsg).symm
  have hholder' : s'.holder = s.holder := by
    rw [hholder]
    cases o with
    | engineStart | complete _ _ _ => cases ho
    | _ => rfl
  have hrun : s'.transfer.engine.run = s.transfer.engine.run :=
    EngineSide.act_keeps ho.goesOn (fun heq => by subst heq; cases ho) hengine
  unfold DmaWorld.view
  rw [hholder', WdfSide.act_silent hsilent hwdf, hsg', hmoved, hrun]

/-- Those that write no descriptors: they can at most clear them. -/
def TransferOp.Harmless : TransferOp → Prop
  | .writeDescriptors _ => False
  | o => o.Unseen

theorem TransferOp.Harmless.unseen (ho : o.Harmless) : o.Unseen := by
  cases o with
  | writeDescriptors _ => cases ho
  | _ => exact ho

theorem TransferOp.Harmless.buffer {a a' : EngineSide} (ho : o.Harmless)
    (h : a.act t o r = some a') (hholds : HoldsOrCleared chain a.descBuffer) :
    HoldsOrCleared chain a'.descBuffer := by
  cases o with
  | writeDescriptors _ => cases ho
  | clearDescriptors => cases h; exact HoldsOrCleared.clear
  | getRequest caller => cases caller <;> cases h <;> exact hholds
  | poll | numDescriptors =>
    simp only [EngineSide.act] at h
    split at h
    · cases h; exact hholds
    · cases h
  | stuck => cases h
  | _ => cases h; exact hholds

theorem Running.of_view (hview : s'.view = s.view)
    (hbuffer : ∀ chain, HoldsOrCleared chain s.transfer.engine.descBuffer →
      HoldsOrCleared chain s'.transfer.engine.descBuffer)
    (h : Running e req id past sgList chain n s) : Running e req id past sgList chain n s' := by
  have hwdf : s'.transfer.wdf = s.transfer.wdf := congrArg DmaView.wdf hview
  have hsg : s'.sg = s.sg := congrArg DmaView.sg hview
  have hmoved : s'.moved = s.moved := congrArg DmaView.moved hview
  exact ⟨hwdf ▸ h.underWay, h.programmed, hbuffer chain h.buffer, hsg ▸ h.progress,
    hmoved ▸ h.moved⟩

theorem DmaInv.of_view (hi : DmaInv e request s) (hview : s'.view = s.view)
    (hpoll : s'.transfer.engine.poll = s.transfer.engine.poll)
    (hbuffer : ∀ chain, HoldsOrCleared chain s.transfer.engine.descBuffer →
      HoldsOrCleared chain s'.transfer.engine.descBuffer) : DmaInv e request s' := by
  have hwdf : s'.transfer.wdf = s.transfer.wdf := congrArg DmaView.wdf hview
  have hsg : s'.sg = s.sg := congrArg DmaView.sg hview
  have hmoved : s'.moved = s.moved := congrArg DmaView.moved hview
  have hrun : s'.transfer.engine.run = s.transfer.engine.run := congrArg DmaView.run hview
  have hholder : s'.holder = s.holder := congrArg DmaView.holder hview
  refine ⟨hpoll.trans hi.poll, hwdf ▸ hi.requests, ?_, ?_, hwdf ▸ hi.earlier, hwdf ▸ hi.once, ?_⟩
  · rw [hmoved, hwdf]
    exact hi.truthful
  · rw [hmoved, hwdf]
    exact hi.fresh
  · have hphase := hi.phase
    unfold DmaWorld.Phase at hphase ⊢
    rw [hholder]
    split at hphase
    · rwa [hsg, hrun, hwdf]
    · rwa [hsg, hwdf]
    · obtain ⟨id, past, sgList, chain, n, hrunning⟩ := hphase
      exact ⟨id, past, sgList, chain, n, hrunning.of_view hview hbuffer⟩

/-- A harmless call can be made by any thread at any time. -/
theorem DmaInv.harmless (hi : DmaInv e request s) (ho : o.Harmless)
    (h : DmaWorld.act e t o s r = some s') :
    DmaInv e request s' ∧ ∀ u, DmaRely u s s' := by
  have hview := ho.unseen.view h
  have hengine := (DmaWorld.act_eq_some.mp h).1
  have hbuffer : ∀ chain, HoldsOrCleared chain s.transfer.engine.descBuffer →
      HoldsOrCleared chain s'.transfer.engine.descBuffer := fun _ => ho.buffer hengine
  exact ⟨hi.of_view hview (EngineSide.act_poll hengine) hbuffer, fun u _ => ⟨hview, hbuffer⟩⟩

theorem DmaSafe.harmless (ho : o.Harmless) :
    DmaSafe e request t o.perform (fun _ _ => True) s := by
  refine Safe.perform (fun _ => True) (Stable.const _) (fun _ => Stable.const _) trivial
    fun s r s' hi _ _ ha => ?_
  obtain ⟨hi', hu⟩ := hi.harmless ho ha
  exact ⟨hi', fun u _ => hu u, trivial⟩

/-- The engine is in interrupt mode. -/
theorem DmaSafe.poll :
    DmaSafe e request t TransferOp.poll.perform (fun poll _ => poll = false) s := by
  refine Safe.perform (fun _ => True) (Stable.const _) (fun _ => Stable.const _) trivial
    fun s r s' hi _ _ ha => ?_
  obtain ⟨hi', hu⟩ := hi.harmless (o := .poll) rfl ha
  refine ⟨hi', fun u _ => hu u, ?_⟩
  have hengine := (DmaWorld.act_eq_some.mp ha).1
  simp only [EngineSide.act] at hengine
  split at hengine
  · next hr => exact hr.trans hi.poll
  · cases hengine

theorem DmaSafe.done {α : Type} {a : α} : DmaSafe e request t (.ret a) (fun _ _ => True) s :=
  Safe.ret (Stable.const _) trivial

theorem DmaSafe.written {P : DmaView → Prop} (ho : o.Harmless)
    (h : Mine t P s ∧ HoldsOrCleared chain s.transfer.engine.descBuffer) :
    DmaSafe e request t o.perform
      (fun _ s => Mine t P s ∧ HoldsOrCleared chain s.transfer.engine.descBuffer) s := by
  refine Safe.perform _ Mine.stable_written (fun _ => Mine.stable_written) h
    fun s r s' hi hp _ ha => ?_
  obtain ⟨hi', hu⟩ := hi.harmless ho ha
  have hview := ho.unseen.view ha
  refine ⟨hi', fun u _ => hu u, ⟨?_, ?_⟩, ho.buffer (DmaWorld.act_eq_some.mp ha).1 hp.2⟩
  · exact (congrArg DmaView.holder hview).trans hp.1.1
  · rw [hview]
    exact hp.1.2

end Xadma
