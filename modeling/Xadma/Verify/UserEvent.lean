import Xadma.Theory.RelyGuarantee
import Xadma.Sys.UserEvent

/-!
# What a read of a user event answers

The event is pulsed and never stays signalled, so that a read answers for the events of its own
wait: it returns TRUE if there was one, and an event before the wait is not remembered.
-/

namespace Xadma

open Threads

abbrev UserEventLabel := Label UserEventOp UserEventOp.Res Unit Unit UserEventStart

structure UserEventInv (s : UserEventWorld) : Prop where
  unsignalled : s.signalled = false
  woken : s.waiting = true → (s.woken = true ↔ 0 < s.heard)
  answered : ∀ read ∈ s.reads, ∀ value, read.value = some value →
    (value = true ↔ 0 < read.heard)

/-- The handler counts for a wait that has begun only. -/
structure UserEventRely (_ : Unit) (s s' : UserEventWorld) : Prop where
  waiting : s'.waiting = s.waiting
  heard : s.waiting = false → s'.heard = s.heard

abbrev UserEventSafe {α : Type} (p : UserEventProg α) (Q : α → UserEventWorld → Prop)
    (s : UserEventWorld) : Prop :=
  Safe userEventThreads (fun _ _ => True) UserEventInv UserEventRely () p Q s

abbrev UserEventStable (P : UserEventWorld → Prop) : Prop :=
  Stable UserEventInv UserEventRely () P

variable {s s' : UserEventWorld} {o : UserEventOp} {r : o.Res}

theorem UserEventInv.handleUserEvent (hi : UserEventInv s) :
    UserEventInv s.handleUserEvent ∧ ∀ u, UserEventRely u s s.handleUserEvent := by
  refine ⟨⟨rfl, fun hwaiting => ?_, hi.answered⟩, fun _ => ⟨rfl, fun hno => ?_⟩⟩
  · have hwaiting : s.waiting = true := hwaiting
    simp [UserEventWorld.handleUserEvent, hwaiting]
  · simp [UserEventWorld.handleUserEvent, hno]

/-- The wait is over, and `value` says whether an event came. -/
def Answer (value : Bool) (s : UserEventWorld) : Prop :=
  s.waiting = false ∧ (value = true ↔ 0 < s.heard)

theorem Answer.stable {value : Bool} : UserEventStable (Answer value) := by
  rintro s s' - - hr ⟨hwaiting, hvalue⟩
  refine ⟨hr.waiting.trans hwaiting, ?_⟩
  rw [hr.heard hwaiting]
  exact hvalue

theorem waiting_stable : UserEventStable fun s => s.waiting = true :=
  fun _ _ _ _ hr h => hr.waiting.trans h

theorem UserEventSafe.perform {P : UserEventWorld → Prop} {Q : o.Res → UserEventWorld → Prop}
    (hP : UserEventStable P) (hQ : ∀ r, UserEventStable (Q r)) (h : P s)
    (hstep : ∀ s r s', UserEventInv s → P s → UserEventWorld.act o s r = some s' →
      UserEventInv s' ∧ Q r s') :
    UserEventSafe o.perform Q s := by
  refine Safe.perform P hP hQ h fun s r s' hi hp _ ha => ?_
  obtain ⟨hi', hq⟩ := hstep s r s' hi hp ha
  exact ⟨hi', fun u hu => absurd rfl hu, hq⟩

/-- Nobody waits. -/
def NotWaiting (s : UserEventWorld) : Prop := s.waiting = false

theorem NotWaiting.stable : UserEventStable NotWaiting :=
  fun _ _ _ _ hr h => hr.waiting.trans h

/-- The read returns without a value, or with the one that answers for its wait. -/
theorem complete_userEventSafe {status : NtStatus} {value : Option Bool}
    {P : UserEventWorld → Prop} (hP : UserEventStable P) (h : P s)
    (hnot : ∀ s, P s → NotWaiting s)
    (hanswer : ∀ s v, P s → value = some v → Answer v s) :
    UserEventSafe (UserEventOp.complete status value).perform (fun _ => NotWaiting) s := by
  apply UserEventSafe.perform hP (fun _ => NotWaiting.stable) h
  intro s r s' hi hp ha
  cases ha
  refine ⟨⟨hi.unsignalled, fun hyes => ?_, fun read hread v hv => ?_⟩, hnot s hp⟩
  · exact absurd ((hnot s hp).symm.trans hyes) Bool.false_ne_true
  · rcases List.mem_append.mp hread with hread | hread
    · exact hi.answered read hread v hv
    · rw [List.mem_singleton.mp hread] at hv ⊢
      exact (hanswer s v hp hv).2

theorem fail_userEventSafe {status : NtStatus} (h : NotWaiting s) :
    UserEventSafe (UserEventOp.complete status none).perform (fun _ => NotWaiting) s := by
  apply complete_userEventSafe NotWaiting.stable h
  · exact fun _ hnot => hnot
  · rintro s v - ⟨⟩

theorem clearEvent_userEventSafe (h : NotWaiting s) :
    UserEventSafe UserEventOp.clearEvent.perform (fun _ => NotWaiting) s := by
  apply UserEventSafe.perform NotWaiting.stable (fun _ => NotWaiting.stable) h
  intro s r s' hi hp ha
  cases ha
  exact ⟨⟨rfl, hi.woken, hi.answered⟩, hp⟩

theorem beginWait_userEventSafe (h : NotWaiting s) :
    UserEventSafe UserEventOp.beginWait.perform (fun _ s => s.waiting = true) s := by
  apply UserEventSafe.perform NotWaiting.stable (fun _ => waiting_stable) h
  intro s r s' hi hp ha
  cases ha
  refine ⟨⟨hi.unsignalled, fun _ => ?_, hi.answered⟩, rfl⟩
  -- the event is not signalled when the wait begins
  rw [hi.unsignalled]
  exact ⟨fun h => Bool.noConfusion h, fun h => absurd h (Nat.lt_irrefl 0)⟩

theorem endWait_userEventSafe (h : s.waiting = true) :
    UserEventSafe UserEventOp.endWait.perform
      (fun status : NtStatus => Answer (status != statusTimeout)) s := by
  apply UserEventSafe.perform waiting_stable (fun _ => Answer.stable) h
  intro s r s' hi hp ha
  have hwoken := hi.woken hp
  by_cases hstatus : r = if s.woken then statusSuccess else statusTimeout
  · rw [UserEventWorld.act, if_pos hstatus] at ha
    cases ha
    refine ⟨⟨hi.unsignalled, fun hyes => Bool.noConfusion hyes, hi.answered⟩, rfl, ?_⟩
    rw [hstatus, ← hwoken]
    cases s.woken <;> decide
  · rw [UserEventWorld.act, if_neg hstatus] at ha
    cases ha

theorem skip_userEventSafe {value : Bool} (h : Answer value s)
    (hskip : ∀ s r s', UserEventWorld.act o s r = some s' → s' = s) :
    UserEventSafe o.perform (fun _ => Answer value) s := by
  apply UserEventSafe.perform Answer.stable (fun _ => Answer.stable) h
  intro s r s' hi hp ha
  rw [hskip s r s' ha]
  exact ⟨hi, hp⟩

theorem evtReadUserEvent_safe (length : Nat) (h : NotWaiting s) :
    UserEventSafe (evtReadUserEvent length) (fun _ => NotWaiting) s := by
  unfold evtReadUserEvent
  split
  · exact fail_userEventSafe h
  · refine (clearEvent_userEventSafe h).bind fun _ s h => ?_
    refine (beginWait_userEventSafe h).bind fun _ s h => ?_
    refine (endWait_userEventSafe h).bind fun status s h => ?_
    have hretrieve : ∀ s r s', UserEventWorld.act .retrieveOutputMemory s r = some s' → s' = s :=
      fun s r s' ha => (Option.some.inj ha).symm
    refine (skip_userEventSafe h hretrieve).bind fun outputMem s h => ?_
    split
    · exact fail_userEventSafe h.1
    · split
      · exact fail_userEventSafe h.1
      · have hcopy : ∀ s r s',
            UserEventWorld.act (.copyFromBuffer (status != statusTimeout)) s r = some s' → s' = s :=
          fun s r s' ha => (Option.some.inj ha).symm
        refine (skip_userEventSafe h hcopy).bind fun copied s h => ?_
        split
        · exact fail_userEventSafe h.1
        · apply complete_userEventSafe Answer.stable h
          · exact fun _ h => h.1
          · rintro s v h ⟨⟩
            exact h

theorem evtReadUserEvent_true_iff {c : Config UserEventOp UserEventOp.Res UserEventWorld Unit}
    (h : userEventThreads.Reach (fun _ _ => True) userEventConfig c) :
    ∀ read ∈ c.state.reads, ∀ value, read.value = some value →
      (value = true ↔ 0 < read.heard) := by
  have hinv : UserEventInv c.state := by
    refine (Reach.safe (I := UserEventInv) (R := UserEventRely) (Q := fun _ => NotWaiting)
      ?_ ?_ ?_ ?_ h).1
    · exact ⟨rfl, fun hno => Bool.noConfusion hno, fun _ hread => nomatch hread⟩
    · exact fun _ => Safe.ret NotWaiting.stable rfl
    · intro e s s' hi _ hs
      cases hs
      exact hi.handleUserEvent
    · rintro ⟨⟩ ⟨length⟩ s s' p hi hidle - hs
      cases hs
      exact ⟨hi, fun u hu => absurd rfl hu, evtReadUserEvent_safe length hidle⟩
  exact hinv.answered

/-! ## Two reads -/

/-- A read of one byte, with what happens during its wait. -/
def readSteps (during : List UserEventLabel) (status : NtStatus) : List UserEventLabel :=
  [.start () (.read 1), .call () .clearEvent (), .call () .beginWait ()] ++ during ++
    [.call () .endWait status, .call () .retrieveOutputMemory (statusSuccess, 1),
      .call () (.copyFromBuffer (status != statusTimeout)) statusSuccess,
      .call () (.complete statusSuccess (some (status != statusTimeout))) ()]

theorem evtReadUserEvent_true_heard : ∃ c,
    userEventThreads.Reach (fun _ _ => True) userEventConfig c ∧
      ⟨0, 1, some true⟩ ∈ c.state.reads ∧ (true = true ↔ 0 < 1) := by
  have hrun : ∃ c, userEventThreads.Reach (fun _ _ => True) userEventConfig c ∧
      c.state.reads.contains ⟨0, 1, some true⟩ = true :=
    Reach.exists_of_run (readSteps [.env ()] statusSuccess)
      (fun s : UserEventWorld => s.reads.contains ⟨0, 1, some true⟩) (by decide)
  obtain ⟨c, hc, hread⟩ := hrun
  have hmem := List.contains_iff_mem.mp hread
  exact ⟨c, hc, hmem, evtReadUserEvent_true_iff hc _ hmem true rfl⟩

/-- An event between two reads: the second one waits until its time is up. -/
theorem evtReadUserEvent_forgets : ∃ c,
    userEventThreads.Reach (fun _ _ => True) userEventConfig c ∧
      c.state.reads = [⟨0, 1, some true⟩, ⟨1, 0, some false⟩] ∧
      ¬ ∀ read ∈ c.state.reads, 0 < read.missed → read.value = some true := by
  have hrun : ∃ c, userEventThreads.Reach (fun _ _ => True) userEventConfig c ∧
      (c.state.reads == [⟨0, 1, some true⟩, ⟨1, 0, some false⟩]) = true :=
    Reach.exists_of_run (readSteps [.env ()] statusSuccess ++ [.env ()] ++
      readSteps [] statusTimeout)
      (fun s : UserEventWorld => s.reads == [⟨0, 1, some true⟩, ⟨1, 0, some false⟩]) (by decide)
  obtain ⟨c, hc, hreads⟩ := hrun
  have hreads := eq_of_beq hreads
  refine ⟨c, hc, hreads, fun hall => ?_⟩
  have hmem : (⟨1, 0, some false⟩ : UserEventRead) ∈ c.state.reads := by
    rw [hreads]
    exact List.mem_cons_of_mem _ List.mem_cons_self
  cases hall _ hmem Nat.zero_lt_one

end Xadma
