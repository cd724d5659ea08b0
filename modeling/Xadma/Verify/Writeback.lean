import Xadma.Theory.RelyGuarantee
import Xadma.Sys.TransferQueue
import Xadma.Verify.DescriptorBuffer

/-!
# The count in the writeback buffer

A fragment that is started with an empty buffer is polled for with its own count. The buffer is
emptied by `EngineProcessTransfer` only: a fragment that is started before that, by a request in
several fragments or behind a request that was given up, finds what the one before it has left.
-/

namespace Xadma

open Threads

abbrev QueueLabel := Label TransferOp TransferOp.Res Unit QueueEvent QueueCall

/-- Each time the engine was started the buffer was zero and `numDescriptors` right, and it was
cleared only when the final count had been seen. -/
structure QueueWorld.Fresh (s : QueueWorld) : Prop where
  zero : s.stale = false
  counted : s.miscounted = false
  kept : s.clearedEarly = false

/-- The engine is started only when the fragment before was taken to its end. -/
def startsFinished (s : QueueWorld) : QueueLabel → Bool
  | .call _ .engineStart _ => !s.unfinished
  | _ => true

structure QueueInv (s : QueueWorld) : Prop where
  poll : s.transfer.engine.poll = true
  clean : s.unfinished = false → s.writeback = 0 ∧ s.transfer.engine.run = false
  fresh : s.Fresh

/-- The hardware writes to the buffer. -/
structure QueueRely (_ : Unit) (s s' : QueueWorld) : Prop where
  transfer : s'.transfer = s.transfer
  counted : s'.counted = s.counted
  unfinished : s'.unfinished = s.unfinished

abbrev QueueSafe (e : TransferEngine) {α : Type} (p : TransferProg α)
    (Q : α → QueueWorld → Prop) (s : QueueWorld) : Prop :=
  Safe (queueThreads e) (fun s l => startsFinished s l = true) QueueInv QueueRely () p Q s

abbrev QueueStable (P : QueueWorld → Prop) : Prop := Stable QueueInv QueueRely () P

variable {e : TransferEngine} {s s' : QueueWorld} {o : TransferOp} {r : o.Res}
  {P : QueueWorld → Prop} {sgList : ScatterGatherList} {expected : BitVec 32} {bound id : Nat}

/-! ## Calls that the buffer does not depend on -/

def TransferOp.Plain : TransferOp → Prop
  | .completedDescCount | .engineStart | .clearWriteback => False
  | _ => True

theorem TransferOp.Plain.act (ho : o.Plain) (h : s.act o r = some s') :
    ∃ w, TransferWorld.act s.running o s.transfer r = some w ∧ s' = { s with transfer := w } := by
  cases o with
  | completedDescCount | engineStart | clearWriteback => exact ho.elim
  | _ =>
    simp only [QueueWorld.act, Option.map_eq_some_iff] at h
    obtain ⟨w, hw, rfl⟩ := h
    exact ⟨w, hw, rfl⟩

/-- No such call starts the engine. -/
theorem TransferOp.Plain.engine {t : TransferThread} {s s' : EngineSide} (ho : o.Plain)
    (h : s.act t o r = some s') : s'.poll = s.poll ∧ (s'.run = s.run ∨ s'.run = false) := by
  cases o with
  | completedDescCount | engineStart | clearWriteback => exact ho.elim
  | poll | numDescriptors =>
    simp only [EngineSide.act] at h
    split at h
    · cases h
      exact ⟨rfl, .inl rfl⟩
    · cases h
  | engineStop =>
    cases h
    exact ⟨rfl, .inr rfl⟩
  | stuck => cases h
  | getRequest caller =>
    cases caller <;> cases h <;> exact ⟨rfl, .inl rfl⟩
  | _ =>
    cases h
    exact ⟨rfl, .inl rfl⟩

theorem QueueInv.plain (hi : QueueInv s) (ho : o.Plain) (h : s.act o r = some s') :
    QueueInv s' ∧ s'.counted = s.counted ∧ s'.unfinished = s.unfinished := by
  obtain ⟨w, hw, rfl⟩ := ho.act h
  obtain ⟨hpoll, hrun⟩ := ho.engine (TransferWorld.act_eq_some.mp hw).1
  refine ⟨⟨hpoll.trans hi.poll, fun hdone => ?_, hi.fresh.zero, hi.fresh.counted, hi.fresh.kept⟩,
    rfl, rfl⟩
  obtain ⟨hzero, hstopped⟩ := hi.clean hdone
  exact ⟨hzero, hrun.elim (fun h => h.trans hstopped) fun h => h⟩

/-- The rule for such a call. -/
theorem QueueSafe.plain {Q : o.Res → QueueWorld → Prop} (ho : o.Plain) (hP : QueueStable P)
    (hQ : ∀ r, QueueStable (Q r)) (hs : P s)
    (hstep : ∀ s r w, QueueInv s → P s → TransferWorld.act s.running o s.transfer r = some w →
      Q r { s with transfer := w }) : QueueSafe e o.perform Q s := by
  apply Safe.perform P hP hQ hs
  intro s r s' hi hs _ h
  obtain ⟨w, hw, rfl⟩ := ho.act h
  exact ⟨(hi.plain ho h).1, fun u hu => absurd rfl hu, hstep s r w hi hs hw⟩

theorem QueueSafe.plain_all {α : Type} {p : TransferProg α} (hp : p.All TransferOp.Plain) :
    QueueSafe e p (fun _ _ => True) s := by
  apply Safe.all (Stable.const True) hp trivial
  intro o ho s r s' hi _ _ h
  exact ⟨(hi.plain ho h).1, fun u hu => absurd rfl hu, trivial⟩

/-! ## `XDMA_EngineProgramDma` -/

/-- The fragment under way. -/
def OnFragment (sgList : ScatterGatherList) (s : QueueWorld) : Prop :=
  s.transfer.wdf.current = some sgList

theorem OnFragment.stable : QueueStable (OnFragment sgList) := by
  intro s s' _ _ hr h
  unfold OnFragment
  rw [hr.transfer]
  exact h

/-- `numDescriptors` is the number of descriptors of the fragment under way. -/
def FragmentCounted (s : QueueWorld) : Prop :=
  s.transfer.wdf.current.map (fun sgList => BitVec.ofNat 32 sgList.elements.length) =
    some s.transfer.engine.numDescriptors

theorem FragmentCounted.stable : QueueStable FragmentCounted := by
  intro s s' _ _ hr h
  unfold FragmentCounted
  rw [hr.transfer]
  exact h

def Unfinished (s : QueueWorld) : Prop := s.unfinished = true

theorem Unfinished.stable : QueueStable Unfinished := fun _ _ _ _ hr h => hr.unfinished.trans h

/-- The calls before the engine is started leave the fragment as it is. -/
def TransferOp.Programs : TransferOp → Prop
  | .getRequest .programDma | .getParameters _ | .getBytesTransferred => True
  | .writeDescriptors _ | .storeFirstDescAdj _ | .poll | .storeNumDescriptors _ => True
  | _ => False

theorem TransferOp.Programs.plain (ho : o.Programs) : o.Plain := by
  cases o with
  | completedDescCount | engineStart | clearWriteback => exact ho.elim
  | _ => exact trivial

theorem TransferOp.Programs.current {t : TransferThread} {s s' : WdfSide} (ho : o.Programs)
    (h : s.act t o r = some s') : s'.current = s.current := by
  cases o with
  | getRequest caller =>
    cases caller with
    | processTransfer => exact ho.elim
    | programDma =>
      simp only [WdfSide.act] at h
      split at h
      · cases h
        rfl
      · cases h
  | getParameters request =>
    cases request with
    | none => cases h
    | some id =>
      simp only [WdfSide.act] at h
      split at h
      · cases h
        rfl
      · cases h
  | getBytesTransferred =>
    simp only [WdfSide.act] at h
    split at h
    · cases h
      rfl
    · cases h
  | writeDescriptors | storeFirstDescAdj | poll | storeNumDescriptors =>
    cases h
    rfl
  | _ => exact ho.elim

theorem programs_queueSafe (ho : o.Programs) (hs : OnFragment sgList s) :
    QueueSafe e o.perform (fun _ => OnFragment sgList) s := by
  apply QueueSafe.plain ho.plain OnFragment.stable (fun _ => OnFragment.stable) hs
  intro s r w _ hs hw
  exact (ho.current (TransferWorld.act_eq_some.mp hw).2).trans hs

theorem storeNumDescriptors_queueSafe (hs : OnFragment sgList s) :
    QueueSafe e (TransferOp.storeNumDescriptors
      (BitVec.ofNat 32 sgList.elements.length)).perform (fun _ => FragmentCounted) s := by
  apply QueueSafe.plain (o := .storeNumDescriptors _) trivial OnFragment.stable
    (fun _ => FragmentCounted.stable) hs
  rintro s r ⟨engine, wdf⟩ _ hs hw
  obtain ⟨hengine, hwdf⟩ := TransferWorld.act_eq_some.mp hw
  have hcurrent : wdf.current = some sgList :=
    (TransferOp.Programs.current (o := .storeNumDescriptors _) trivial hwdf).trans hs
  cases hengine
  unfold FragmentCounted
  simp only [hcurrent, Option.map_some]

/-- The buffer is empty when the engine is started for a counted fragment. -/
theorem engineStart_queueSafe (hs : FragmentCounted s) :
    QueueSafe e TransferOp.engineStart.perform (fun _ => Unfinished) s := by
  apply Safe.perform _ FragmentCounted.stable (fun _ => Unfinished.stable) hs
  intro s r s' hi hs hok h
  have hdone : s.unfinished = false := by simpa [startsFinished] using hok
  have hcounted : s.transfer.wdf.current.map
      (fun sgList => BitVec.ofNat 32 sgList.elements.length) =
        some s.transfer.engine.numDescriptors := hs
  simp only [queueThreads, QueueWorld.act, Option.map_eq_some_iff] at h
  obtain ⟨⟨engine, wdf⟩, hw, rfl⟩ := h
  obtain ⟨hengine, -⟩ := TransferWorld.act_eq_some.mp hw
  cases hengine
  refine ⟨⟨hi.poll, fun h => Bool.noConfusion h, ?_, ?_, hi.fresh.kept⟩,
    fun u hu => absurd rfl hu, rfl⟩
  · simp [hi.fresh.zero, (hi.clean hdone).1]
  · simp [hi.fresh.counted, hcounted]

theorem xdmaEngineProgramDma_queueSafe (hs : OnFragment sgList s) :
    QueueSafe e (xdmaEngineProgramDma e sgList) (fun _ => Unfinished) s := by
  refine (programs_queueSafe (o := .getRequest .programDma) trivial hs).bind fun request s hs => ?_
  refine (programs_queueSafe (o := .getParameters request) trivial hs).bind fun offset s hs => ?_
  refine (programs_queueSafe (o := .getBytesTransferred) trivial hs).bind fun bytes s hs => ?_
  cases programChain e.engine e.direction (startOffset e.width offset bytes) sgList with
  | none =>
    apply QueueSafe.plain (o := .stuck) trivial OnFragment.stable (fun _ => Unfinished.stable) hs
    rintro s r ⟨engine, wdf⟩ _ _ hw
    cases (TransferWorld.act_eq_some.mp hw).1
  | some descs =>
    refine (programs_queueSafe (o := .writeDescriptors descs) trivial hs).bind fun _ s hs => ?_
    refine (programs_queueSafe (o := .storeFirstDescAdj _) trivial hs).bind fun _ s hs => ?_
    apply Safe.bind (Q := fun poll s => poll = true ∧ OnFragment sgList s)
    · apply QueueSafe.plain (o := .poll) trivial OnFragment.stable
        (fun _ => (Stable.const _).and OnFragment.stable) hs
      intro s r w hi hs hw
      obtain ⟨hengine, hwdf⟩ := TransferWorld.act_eq_some.mp hw
      simp only [EngineSide.act] at hengine
      split at hengine
      · next hpoll =>
        exact ⟨hpoll.trans hi.poll,
          (TransferOp.Programs.current (o := .poll) trivial hwdf).trans hs⟩
      · cases hengine
    · rintro poll s ⟨rfl, hs⟩
      exact (storeNumDescriptors_queueSafe hs).bind fun _ s hs => engineStart_queueSafe hs

/-! ## `EnginePollTransfer` -/

/-- The loop is left without an error only when the count is there. -/
theorem finalCount_of_left {value : BitVec 32} (herror : ¬ value &&& xdmaWbErrMask ≠ 0)
    (h : ¬ expected ≠ if value &&& xdmaWbCountMask > expected then expected ||| xdmaWbErrMask
      else value &&& xdmaWbCountMask) : finalCount expected value = true := by
  rw [not_not] at h herror
  simp only [finalCount, Bool.and_eq_true, beq_iff_eq]
  refine ⟨herror, ?_⟩
  split at h
  · next hgt =>
    -- the error bit is above every count
    have hbit : 2 ^ 31 ≤ expected.toNat := by
      rw [h, BitVec.toNat_or]
      exact Nat.right_le_or
    have hcount : (value &&& xdmaWbCountMask).toNat < 2 ^ 31 := by
      rw [BitVec.toNat_and]
      exact Nat.and_le_right.trans_lt (by decide)
    have hlt : expected.toNat < (value &&& xdmaWbCountMask).toNat := hgt
    omega
  · exact h.symm

/-- The fragment was polled for to its end. -/
def Counted (s : QueueWorld) : Prop := s.counted = true ∧ s.unfinished = true

theorem Counted.stable : QueueStable Counted := fun _ _ _ _ hr h =>
  ⟨hr.counted.trans h.1, hr.unfinished.trans h.2⟩

/-- The count that is waited for is that of the fragment. -/
def Awaiting (expected : BitVec 32) (s : QueueWorld) : Prop :=
  s.transfer.engine.numDescriptors = expected ∧ s.unfinished = true

theorem Awaiting.stable : QueueStable (Awaiting expected) := by
  intro s s' _ _ hr h
  refine ⟨?_, hr.unfinished.trans h.2⟩
  rw [hr.transfer]
  exact h.1

/-- A value that was read, and what it was recorded for. -/
def ValueRead (expected value : BitVec 32) (s : QueueWorld) : Prop :=
  Awaiting expected s ∧ (finalCount expected value = true → Counted s)

theorem ValueRead.stable {value : BitVec 32} : QueueStable (ValueRead expected value) :=
  fun s s' hi hi' hr h => ⟨Awaiting.stable s s' hi hi' hr h.1, fun hfinal =>
    Counted.stable s s' hi hi' hr (h.2 hfinal)⟩

theorem completedDescCount_queueSafe (hs : Awaiting expected s) :
    QueueSafe e TransferOp.completedDescCount.perform (ValueRead expected) s := by
  apply Safe.perform _ Awaiting.stable (fun _ => ValueRead.stable) hs
  intro s r s' hi hs _ h
  simp only [queueThreads, QueueWorld.act] at h
  split at h
  · obtain ⟨⟨engine, wdf⟩, hw, rfl⟩ := Option.map_eq_some_iff.mp h
    obtain ⟨hengine, -⟩ := TransferWorld.act_eq_some.mp hw
    cases hengine
    refine ⟨⟨hi.poll, hi.clean, hi.fresh.zero, hi.fresh.counted, hi.fresh.kept⟩,
      fun u hu => absurd rfl hu, ⟨hs.1, hs.2⟩, fun hfinal => ⟨?_, hs.2⟩⟩
    simp [hs.1, hfinal]
  · cases h

theorem awaitWriteback_queueSafe (hs : Awaiting expected s) :
    QueueSafe e (awaitWriteback expected bound)
      (fun status s => ntSuccess status = true → Counted s) s := by
  have hpost : ∀ status, QueueStable fun s => ntSuccess status = true → Counted s :=
    fun status s s' hi hi' hr h hsuccess => Counted.stable s s' hi hi' hr (h hsuccess)
  have herror : ntSuccess statusInternalError ≠ true := by decide
  induction bound generalizing s with
  | zero =>
    refine (QueueSafe.plain_all (p := TransferOp.stuck.perform)
      (Prog.All.perform trivial)).bind fun _ s _ => ?_
    exact Safe.ret (hpost _) fun h => absurd h herror
  | succ bound ih =>
    refine (completedDescCount_queueSafe hs).bind fun value s ⟨hs, hfinal⟩ => ?_
    split
    · exact Safe.ret (hpost _) fun h => absurd h herror
    · next hvalue =>
      by_cases hleft : expected ≠ if value &&& xdmaWbCountMask > expected then
          expected ||| xdmaWbErrMask else value &&& xdmaWbCountMask
      · rw [if_pos hleft]
        exact ih hs
      · rw [if_neg hleft]
        exact Safe.ret (hpost _) fun _ => hfinal (finalCount_of_left hvalue hleft)

/-- Behind a count that was seen the engine is not started again: a fragment is still under way. -/
theorem counted_queueSafe {α : Type} {p : TransferProg α}
    (hp : p.All fun o => o.Plain ∨ o = .engineStart) (hs : Counted s) :
    QueueSafe e p (fun _ => Counted) s := by
  apply Safe.all Counted.stable hp hs
  rintro o (ho | rfl) s r s' hi hs hok h
  · obtain ⟨hi', hcounted, hunfinished⟩ := hi.plain ho h
    exact ⟨hi', fun u hu => absurd rfl hu, hcounted.trans hs.1, hunfinished.trans hs.2⟩
  · simp [startsFinished, hs.2] at hok

theorem clearWriteback_queueSafe (hs : Counted s) :
    QueueSafe e TransferOp.clearWriteback.perform (fun _ _ => True) s := by
  apply Safe.perform _ Counted.stable (fun _ => Stable.const True) hs
  intro s r s' hi hs _ h
  simp only [queueThreads, QueueWorld.act, Option.map_eq_some_iff] at h
  obtain ⟨⟨engine, wdf⟩, hw, rfl⟩ := h
  obtain ⟨hengine, -⟩ := TransferWorld.act_eq_some.mp hw
  cases hengine
  refine ⟨⟨hi.poll, fun hstopped => ⟨rfl, hstopped⟩, hi.fresh.zero, hi.fresh.counted, ?_⟩,
    fun u hu => absurd rfl hu, trivial⟩
  simp [hi.fresh.kept, hs.1]

theorem xdmaEngineProgramDma_calls :
    (xdmaEngineProgramDma e sgList).All fun o => o.Plain ∨ o = .engineStart := by
  refine Prog.All.bind (Prog.All.perform (.inl trivial)) fun request => ?_
  refine Prog.All.bind (Prog.All.perform (.inl trivial)) fun offset => ?_
  refine Prog.All.bind (Prog.All.perform (.inl trivial)) fun bytes => ?_
  split
  · exact Prog.All.perform (.inl trivial)
  · refine Prog.All.bind (Prog.All.perform (.inl trivial)) fun _ => ?_
    refine Prog.All.bind (Prog.All.perform (.inl trivial)) fun _ => ?_
    refine Prog.All.bind (Prog.All.perform (.inl trivial)) fun poll => ?_
    refine Prog.All.bind (Prog.All.when (Prog.All.perform (.inl trivial))) fun _ => ?_
    exact Prog.All.perform (.inr rfl)

theorem processStatus_calls {request : Nat} {engineStatus : BitVec 32} :
    (processStatus e request engineStatus).All fun o => o.Plain ∨ o = .engineStart := by
  unfold processStatus
  split
  · refine Prog.All.bind (Prog.All.bind (Prog.All.perform (.inl trivial)) fun completed => ?_)
      fun completed => ?_
    · cases completed with
      | done status => exact trivial
      | more sgList => exact Prog.All.bind xdmaEngineProgramDma_calls fun _ => trivial
    · refine Prog.All.bind (Prog.All.perform (.inl trivial)) fun bytes => ?_
      split
      · refine Prog.All.bind (Prog.All.perform (.inl trivial)) fun _ => ?_
        refine Prog.All.bind (Prog.All.perform (.inl trivial)) fun status => ?_
        exact Prog.All.perform (.inl trivial)
      · exact trivial
  · refine Prog.All.bind (Prog.All.perform (.inl trivial)) fun _ => ?_
    refine Prog.All.bind (Prog.All.perform (.inl trivial)) fun _ => ?_
    exact Prog.All.perform (.inl trivial)

theorem engineProcessTransfer_queueSafe (hs : Counted s) :
    QueueSafe e (engineProcessTransfer e) (fun _ _ => True) s := by
  refine (counted_queueSafe (p := (TransferOp.getRequest .processTransfer).perform)
    (Prog.All.perform (.inl trivial)) hs).bind fun request s hs => ?_
  cases request with
  | none => exact fun _ _ => trivial
  | some request =>
    refine (counted_queueSafe (p := TransferOp.engineStatus.perform)
      (Prog.All.perform (.inl trivial)) hs).bind fun engineStatus s hs => ?_
    refine (counted_queueSafe (p := TransferOp.engineStop.perform)
      (Prog.All.perform (.inl trivial)) hs).bind fun _ s hs => ?_
    refine (counted_queueSafe processStatus_calls hs).bind fun _ s hs => ?_
    refine (counted_queueSafe (p := TransferOp.clearDescriptors.perform)
      (Prog.All.perform (.inl trivial)) hs).bind fun _ s hs => ?_
    refine (counted_queueSafe (p := TransferOp.poll.perform)
      (Prog.All.perform (.inl trivial)) hs).bind fun poll s hs => ?_
    exact Safe.when (Stable.const True) trivial fun _ => clearWriteback_queueSafe hs

theorem enginePollTransfer_queueSafe (hs : Unfinished s) :
    QueueSafe e (enginePollTransfer e bound) (fun _ _ => True) s := by
  apply Safe.bind (Q := fun expected => Awaiting expected)
  · apply QueueSafe.plain (o := .numDescriptors) trivial Unfinished.stable
      (fun _ => Awaiting.stable) hs
    rintro s r ⟨engine, wdf⟩ _ hs hw
    have hengine := (TransferWorld.act_eq_some.mp hw).1
    simp only [EngineSide.act] at hengine
    split at hengine
    · next heq =>
      cases hengine
      exact ⟨heq.symm, hs⟩
    · cases hengine
  · intro expected s hs
    refine (awaitWriteback_queueSafe hs).bind fun status s hs => ?_
    split
    · next hsuccess =>
      exact (engineProcessTransfer_queueSafe (hs hsuccess)).bind fun _ s _ _ _ => trivial
    · exact fun _ _ => trivial

theorem errExit_plain {status : NtStatus} : (errExit id status).All TransferOp.Plain := by
  refine Prog.All.bind (Prog.All.perform trivial) fun _ => ?_
  exact Prog.All.perform trivial

/-- What `WdfDmaTransactionExecute` comes to before the first fragment is programmed. -/
def Executed : Except NtStatus ScatterGatherList → QueueWorld → Prop
  | .error status, _ => ntSuccess status = false
  | .ok sgList, s => OnFragment sgList s

theorem Executed.stable {started : Except NtStatus ScatterGatherList} :
    QueueStable (Executed started) := by
  cases started with
  | error status => exact Stable.const _
  | ok sgList => exact OnFragment.stable

theorem WdfSide.executeAct_executed {t : TransferThread} {wdf : WdfSide}
    {started : Except NtStatus ScatterGatherList}
    (h : wdf.executeAct t started = some s.transfer.wdf) : Executed started s := by
  cases started with
  | error status =>
    simp only [WdfSide.executeAct] at h
    split at h
    · cases h
    · next hfail => exact Bool.eq_false_of_not_eq_true hfail
  | ok sgList =>
    simp only [WdfSide.executeAct] at h
    split at h
    · split at h
      · exact (congrArg WdfSide.current (Option.some.inj h)).symm
      · cases h
    · cases h

theorem execute_queueSafe : QueueSafe e TransferOp.execute.perform Executed s := by
  apply QueueSafe.plain (o := .execute) (P := fun _ => True) trivial (Stable.const True)
    (fun _ => Executed.stable) trivial
  rintro s r ⟨engine, wdf⟩ _ _ hw
  have hwdf : s.transfer.wdf.executeAct s.running r = some wdf :=
    (TransferWorld.act_eq_some.mp hw).2
  exact WdfSide.executeAct_executed hwdf

/-- The first fragment: it is programmed when the framework has set it up. -/
theorem wdfDmaTransactionExecute_queueSafe :
    QueueSafe e (wdfDmaTransactionExecute e)
      (fun status s => ntSuccess status = true → Unfinished s) s := by
  have hpost : ∀ status, QueueStable fun s => ntSuccess status = true → Unfinished s :=
    fun status s s' hi hi' hr h hsuccess => Unfinished.stable s s' hi hi' hr (h hsuccess)
  refine execute_queueSafe.bind fun started s hs => ?_
  cases started with
  | error status =>
    have hfail : ntSuccess status = false := hs
    refine Safe.ret (hpost status) fun h => ?_
    rw [hfail] at h
    cases h
  | ok sgList =>
    refine (xdmaEngineProgramDma_queueSafe hs).bind fun _ s hs => ?_
    exact Safe.ret (hpost _) fun _ => hs

theorem evtIoDma_queueSafe : QueueSafe e (evtIoDma e id bound) (fun _ _ => True) s := by
  refine (QueueSafe.plain_all (p := (TransferOp.initializeUsingRequest id).perform)
    (Prog.All.perform trivial)).bind fun status s _ => ?_
  split
  · refine (QueueSafe.plain_all (p := (TransferOp.markCancelableEx id).perform)
      (Prog.All.perform trivial)).bind fun status s _ => ?_
    split
    · refine wdfDmaTransactionExecute_queueSafe.bind fun status s hs => ?_
      split
      · next hsuccess =>
        apply Safe.bind (Q := fun _ => Unfinished)
        · apply QueueSafe.plain (o := .poll) trivial Unfinished.stable
            (fun _ => Unfinished.stable) (hs hsuccess)
          exact fun s r w _ hs _ => hs
        · intro poll s hs
          apply Safe.when (Stable.const True) trivial
          intro _
          exact (enginePollTransfer_queueSafe hs).bind fun _ s _ _ _ => trivial
      · exact QueueSafe.plain_all errExit_plain
    · exact QueueSafe.plain_all errExit_plain
  · exact QueueSafe.plain_all errExit_plain

theorem evtCancelDma_plain : (evtCancelDma id).All TransferOp.Plain := by
  refine Prog.All.bind (Prog.All.perform trivial) fun _ => ?_
  refine Prog.All.bind (Prog.All.perform trivial) fun _ => ?_
  refine Prog.All.bind (Prog.All.perform trivial) fun _ => ?_
  refine Prog.All.bind (Prog.All.perform trivial) fun _ => ?_
  exact Prog.All.perform trivial

/-! ## Every run -/

section
variable {descBuffer : Nat → DmaDescriptor} {request : Nat → DmaRequest}

/-- As long as the engine is started only when the fragment before was taken to its end, every
fragment is polled for with its own count. -/
theorem writeback_fresh (c : Config TransferOp TransferOp.Res QueueWorld Unit)
    (h : (queueThreads e).Reach (fun s l => startsFinished s l = true)
      (queueConfig descBuffer request) c) : c.state.Fresh := by
  refine (Reach.safe (I := QueueInv) (R := QueueRely) (Q := fun _ _ => True) ?_ ?_ ?_ ?_ h).1.fresh
  · exact ⟨rfl, fun _ => ⟨rfl, rfl⟩, rfl, rfl, rfl⟩
  · exact fun t => Safe.ret (Stable.const True) trivial
  · rintro ⟨value⟩ s s' hi _ henv
    simp only [queueThreads] at henv
    split at henv
    · next hrun =>
      cases henv
      refine ⟨⟨hi.poll, fun hdone => ?_, hi.fresh.zero, hi.fresh.counted, hi.fresh.kept⟩,
        fun _ => ⟨rfl, rfl, rfl⟩⟩
      rw [(hi.clean hdone).2] at hrun
      cases hrun
    · cases henv
  · intro t a s s' p hi _ _ hstart
    obtain ⟨⟨transfer, q⟩, hbase, heq⟩ := Option.map_eq_some_iff.mp hstart
    cases heq
    have hinv : ∀ wdf : WdfSide, QueueInv { s with
        transfer := { s.transfer with wdf := wdf }, running := a.thread s.transfer } := fun _ =>
      ⟨hi.poll, hi.clean, hi.fresh.zero, hi.fresh.counted, hi.fresh.kept⟩
    obtain ⟨id, bound, -, -, -, -, rfl, rfl⟩ | ⟨ht, -⟩ | ⟨id, -, -, -, -, -, rfl, rfl⟩ :=
      transferThreads_start_cases hbase
    · rw [evtIo_eq]
      exact ⟨hinv _, fun u hu => absurd rfl hu, evtIoDma_queueSafe⟩
    · cases a <;> cases ht
    · exact ⟨hinv _, fun u hu => absurd rfl hu, QueueSafe.plain_all evtCancelDma_plain⟩

end

/-! ## Requests one after the other -/

/-- `XDMA_EngineProgramDma` in poll mode, for a fragment of the request `id`. -/
def programPolledSteps (id : Nat) (sgList : ScatterGatherList) (bytes : Nat) : List QueueLabel :=
  [.call () (.getRequest .programDma) (some id), .call () (.getParameters (some id)) 0,
    .call () .getBytesTransferred bytes,
    .call () (.writeDescriptors ((programChain sampleEngine.engine .writeToDevice
      (startOffset .w64 0 bytes) sgList).getD [])) (),
    .call () (.storeFirstDescAdj (firstDescAdj sampleEngine.engine 1)) (),
    .call () .poll true, .call () (.storeNumDescriptors 1) (), .call () .engineStart ()]

/-- The request `id` is presented, its first fragment is started and polled for, and
`EngineProcessTransfer` stops the engine. -/
def polledSteps (id : Nat) : List QueueLabel :=
  [.start () (.present 1), .call () (.initializeUsingRequest id) 0,
    .call () (.markCancelableEx id) 0, .call () .execute (.ok sampleRequest.first)] ++
  programPolledSteps id sampleRequest.first 0 ++
  [.call () .poll true, .call () .numDescriptors 1, .env (.writeback 1),
    .call () .completedDescCount 1, .call () (.getRequest .processTransfer) (some id),
    .call () .engineStatus 0, .call () .engineStop ()]

/-- The request was the only fragment, and is completed. -/
def completedSteps (id : Nat) : List QueueLabel :=
  [.call () .dmaCompleted (.done statusSuccess), .call () .getBytesTransferred 0x40,
    .call () (.unmarkCancelable id) statusSuccess, .call () .release statusSuccess,
    .call () (.complete id statusSuccess 0x40) (), .call () .clearDescriptors (),
    .call () .poll true, .call () .clearWriteback ()]

/-- Two requests of one fragment each. -/
theorem writeback_fresh_twice :
    ∃ c, (queueThreads sampleEngine).Reach (fun s l => startsFinished s l = true)
        (queueConfig (fun _ => .zero) fun _ => shortRequest) c ∧
      c.state.transfer.wdf.presented = 2 ∧ c.state.counted = true ∧ c.state.Fresh := by
  have hrun : ∃ c, (queueThreads sampleEngine).Reach (fun s l => startsFinished s l = true)
      (queueConfig (fun _ => .zero) fun _ => shortRequest) c ∧
      (c.state.transfer.wdf.presented == 2 && c.state.counted) = true :=
    Reach.exists_of_run (polledSteps 0 ++ completedSteps 0 ++ polledSteps 1)
      (fun s : QueueWorld => s.transfer.wdf.presented == 2 && s.counted) (by decide)
  obtain ⟨c, hreach, hdone⟩ := hrun
  rw [Bool.and_eq_true, beq_iff_eq] at hdone
  exact ⟨c, hreach, hdone.1, hdone.2, writeback_fresh c hreach⟩

/-- The second fragment of a request is started with the count of the first one in the buffer. -/
theorem writeback_not_fresh :
    ¬ ∀ c, (queueThreads sampleEngine).Reach (fun _ _ => True)
      (queueConfig (fun _ => .zero) fun _ => sampleRequest) c → c.state.Fresh := by
  intro hall
  have hrun : ∃ c, (queueThreads sampleEngine).Reach (fun _ _ => True)
      (queueConfig (fun _ => .zero) fun _ => sampleRequest) c ∧ c.state.stale = true :=
    Reach.exists_of_run (polledSteps 0 ++
      [.call () .dmaCompleted (.more (.single ⟨0x3000, 0x40⟩))] ++
      programPolledSteps 0 (.single ⟨0x3000, 0x40⟩) 0x40) QueueWorld.stale (by decide)
  obtain ⟨c, hreach, hstale⟩ := hrun
  rw [(hall c hreach).zero] at hstale
  cases hstale

end Xadma
