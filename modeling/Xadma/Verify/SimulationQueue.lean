import Xadma.Theory.History
import Xadma.Theory.RelyGuarantee
import Xadma.Avsadma.SimulationThreads
import Xadma.Verify.CaptureDescriptors

/-!
# The accounting of the simulated hardware

The counters, the list and the lookaside list stay in step: the transitions of the pin start the
hardware only while the lookaside list is not there and stop it only while it is. What
`FillScatterGatherBuffers` reports does not depend on the list.
-/

namespace Xadma

namespace Capture

open Threads HardwareSimulation

/-! ## The lookaside list -/

/-- What may be done: a list is initialized when there is none, and deleted when all its blocks are
back. -/
def LookasideEvent.step : Option (List Nat) → LookasideEvent → Option (Option (List Nat))
  | none, .init => some (some [])
  | some held, .block e => (Ledger.step held e).map some
  | some [], .delete => some none
  | _, _ => none

/-- The blocks that are out behind a trace, from a list or none. -/
def lookasideRun : Option (List Nat) → List LookasideEvent → Option (Option (List Nat))
  | held, [] => some held
  | held, e :: es => (LookasideEvent.step held e).bind fun held => lookasideRun held es

theorem lookasideRun_append (held : Option (List Nat)) (es es' : List LookasideEvent) :
    lookasideRun held (es ++ es') =
      (lookasideRun held es).bind fun held => lookasideRun held es' := by
  induction es generalizing held with
  | nil => rfl
  | cons e es ih =>
    rw [List.cons_append, lookasideRun, lookasideRun, Option.bind_assoc]
    congr 1
    exact funext ih

/-- The blocks are returned in the order in which they are held. -/
theorem lookasideRun_releases (blocks : List Nat) :
    lookasideRun (some blocks) (blocks.map fun b => .block (.release b)) = some (some []) := by
  induction blocks with
  | nil => rfl
  | cons b blocks ih =>
    rw [List.map_cons, lookasideRun, LookasideEvent.step, Ledger.step,
      if_pos List.mem_cons_self, List.erase_cons_head]
    exact ih

/-! ## The accounting -/

/-- `live` tells whether the lookaside list is there. -/
structure AccountedAs (live : Bool) (s : HardwareSimulation) : Prop where
  queued : s.scatterGatherMappingsQueued.toNat = s.scatterGatherMappings.length
  bytes : s.scatterGatherBytesQueued = (s.scatterGatherMappings.map SgEntry.byteCount).sum
  lookaside : lookasideRun none s.lookaside =
    some (if live then some (s.scatterGatherMappings.map SgEntry.block) else none)
  empty : live = false → s.scatterGatherMappings = []
  sound : s.corrupted = false

def Accounted (s : HardwareSimulation) : Prop := ∃ live, AccountedAs live s

variable {live : Bool} {s s' : HardwareSimulation}

theorem accountedAs_created : AccountedAs false created :=
  ⟨rfl, rfl, rfl, fun _ => rfl, rfl⟩

theorem AccountedAs.start (h : AccountedAs false s) (imageSize : BitVec 32) (scratch : Bool) :
    AccountedAs scratch (s.start imageSize scratch).1 := by
  have hempty := h.empty rfl
  have hbytes : s.scatterGatherBytesQueued = 0 := by
    rw [h.bytes, hempty]
    rfl
  cases scratch with
  | false => exact ⟨rfl, hbytes, h.lookaside, fun _ => rfl, h.sound⟩
  | true =>
    refine ⟨rfl, hbytes, ?_, fun _ => rfl, h.sound⟩
    change lookasideRun none (s.lookaside ++ [.init]) = _
    rw [lookasideRun_append, h.lookaside]
    rfl

theorem AccountedAs.program (h : AccountedAs true s) (allocated : Option Nat)
    (hallocated : s.mayAllocate allocated = true) (clone : Nat) (buffer : BitVec 64)
    (mappings : Nat → KsMapping) (mappingsCount : BitVec 32) :
    AccountedAs true
      (s.programScatterGatherMappings allocated clone buffer mappings mappingsCount).1 := by
  cases allocated with
  | none => exact h
  | some block =>
    refine ⟨queued_program h.queued hallocated .., ?_, ?_, nofun, h.sound⟩
    · simp [programScatterGatherMappings, h.bytes]
    · simp only [programScatterGatherMappings]
      rw [lookasideRun_append, h.lookaside]
      simp [lookasideRun, LookasideEvent.step, Ledger.step]

theorem AccountedAs.releases (h : AccountedAs live s) :
    lookasideRun none
        (s.lookaside ++ s.scatterGatherMappings.map fun e => .block (.release e.block)) =
      some (if live then some [] else none) := by
  rw [lookasideRun_append, h.lookaside]
  cases live with
  | false =>
    rw [h.empty rfl]
    rfl
  | true =>
    have hreleases := lookasideRun_releases (s.scatterGatherMappings.map SgEntry.block)
    rw [List.map_map] at hreleases
    exact hreleases

theorem AccountedAs.filled (h : AccountedAs live s) : AccountedAs live s.filled := by
  refine ⟨rfl, ?_, ?_, fun _ => rfl, h.sound⟩
  · simp [HardwareSimulation.filled, h.bytes]
  · simp [HardwareSimulation.filled, h.releases]

theorem freeLoop_eq (h : s.scatterGatherMappingsQueued.toNat = s.scatterGatherMappings.length) :
    freeLoop s.scatterGatherMappingsQueued.toNat s = { s with
      scatterGatherMappings := []
      scatterGatherMappingsQueued := 0
      lookaside :=
        s.lookaside ++ s.scatterGatherMappings.map fun e => .block (.release e.block) } := by
  obtain ⟨entries, hentries⟩ : ∃ entries, s.scatterGatherMappings = entries := ⟨_, rfl⟩
  induction entries generalizing s with
  | nil =>
    rw [hentries, List.length_nil] at h
    have hqueued : s.scatterGatherMappingsQueued = 0 := BitVec.eq_of_toNat_eq h
    cases s
    cases hentries
    cases hqueued
    simp [freeLoop]
  | cons entry rest ih =>
    rw [hentries, List.length_cons] at h
    have hleft := toNat_left h
    rw [h, freeLoop, hentries]
    let s' : HardwareSimulation := { s with
      scatterGatherMappings := rest
      scatterGatherMappingsQueued := BitVec.ofNat 32 rest.length }
    have hrest := ih (s := s'.freeEntry entry) hleft rfl
    rw [show (s'.freeEntry entry).scatterGatherMappingsQueued.toNat = rest.length from hleft]
      at hrest
    refine hrest.trans ?_
    simp [s', freeEntry]

theorem AccountedAs.finishStop (h : AccountedAs true s) : AccountedAs false s.finishStop := by
  have hloop := freeLoop_eq (s := { s with hardwareState := .stopped, synthesisBuffer := false })
    h.queued
  rw [HardwareSimulation.finishStop, hloop]
  refine ⟨rfl, rfl, ?_, fun _ => rfl, h.sound⟩
  simp only
  rw [lookasideRun_append, h.releases]
  rfl

/-- Nothing that is accounted for changes. -/
structure SameQueue (s s' : HardwareSimulation) : Prop where
  mappings : s'.scatterGatherMappings = s.scatterGatherMappings
  queued : s'.scatterGatherMappingsQueued = s.scatterGatherMappingsQueued
  bytes : s'.scatterGatherBytesQueued = s.scatterGatherBytesQueued
  lookaside : s'.lookaside = s.lookaside
  corrupted : s'.corrupted = s.corrupted

theorem SameQueue.accountedAs (hs : SameQueue s s') (h : AccountedAs live s) :
    AccountedAs live s' := by
  obtain ⟨hmappings, hqueued, hbytes, hlookaside, hcorrupted⟩ := hs
  constructor
  · rw [hqueued, hmappings, h.queued]
  · rw [hbytes, hmappings, h.bytes]
  · rw [hlookaside, hmappings, h.lookaside]
  · rw [hmappings]
    exact h.empty
  · rw [hcorrupted, h.sound]

theorem signalStop_sameQueue (s : HardwareSimulation) : SameQueue s s.signalStop := by
  unfold signalStop
  split <;> exact ⟨rfl, rfl, rfl, rfl, rfl⟩

theorem countSkipped_sameQueue (status : NtStatus) (s : HardwareSimulation) :
    SameQueue s (s.countSkipped status) := by
  unfold countSkipped
  split <;> exact ⟨rfl, rfl, rfl, rfl, rfl⟩

/-! ## Passes -/

variable {mappings : Nat → Nat → KsMapping} {w w' : SimWorld}

/-- The object behind `FakeHardware`. -/
def passed (s : HardwareSimulation) : HardwareSimulation :=
  if s.hardwareState = .running then (s.filled.countSkipped s.fillStatus).signalStop
  else s.signalStop

theorem exec_fakeHardware (mappings : Nat → Nat → KsMapping) (d : Sgdma)
    (h : s.scatterGatherMappingsQueued.toNat = s.scatterGatherMappings.length) :
    ∃ d', Prog.exec Sgdma.act Sgdma.answer (s.fakeHardware mappings) d =
      some (passed s, d') := by
  unfold fakeHardware passed
  split
  · refine ⟨d.programAll (s.scatterGatherMappings.map (SgEntry.ksMapping mappings)), ?_⟩
    rw [Prog.exec_bind, exec_fillScatterGatherBuffers d h]
    rfl
  · exact ⟨d, rfl⟩

theorem AccountedAs.passed (h : AccountedAs live s) : AccountedAs live (passed s) := by
  unfold Capture.passed
  split
  · exact (signalStop_sameQueue _).accountedAs
      ((countSkipped_sameQueue ..).accountedAs h.filled)
  · exact (signalStop_sameQueue s).accountedAs h

/-- A pass changes the object and the device only. -/
theorem fakeHardware_eq (h : AccountedAs live w.sim) (hw : w.fakeHardware mappings = some w') :
    ∃ d', w' = { w with sim := Capture.passed w.sim, sgdma := d' } := by
  obtain ⟨d', hd'⟩ := exec_fakeHardware mappings w.sgdma h.queued
  rw [SimWorld.fakeHardware, hd'] at hw
  cases hw
  exact ⟨d', rfl⟩

/-! ## The pin -/

/-- The lookaside list is there while the pin did something to the hardware, which is not running
below `KSSTATE_RUN`. -/
structure PinSettled (ksState : KsState) (members : PinMembers) : Prop where
  run : ksState = .run → members.hardwareState ≠ .stopped
  below : ksState ≠ .run → members.hardwareState ≠ .running

/-- The pin did something to the hardware. -/
def PinMembers.started (members : PinMembers) : Bool := members.hardwareState ≠ .stopped

/-- What a transition goes by. -/
structure At (live : Bool) (ksState : KsState) (members : PinMembers) (w : SimWorld) : Prop where
  accounted : AccountedAs live w.sim
  ksState : w.ksState = ksState
  members : w.members = members

def SimAccounted (w : SimWorld) : Prop := Accounted w.sim

/-- A pass keeps what the pin goes by. -/
def PassRely (_ : SimThread) (w w' : SimWorld) : Prop :=
  ∀ live ksState members, At live ksState members w → At live ksState members w'

abbrev SimSafe {α : Type} (p : SimProg α) (Q : α → SimWorld → Prop) (w : SimWorld) : Prop :=
  Safe simulationThreads (fun _ _ => True) SimAccounted PassRely .pin p Q w

variable {ksState : KsState} {members : PinMembers}

theorem at_stable : Stable SimAccounted PassRely .pin (At live ksState members) :=
  fun _ _ _ _ hr h => hr _ _ _ h

theorem no_other (u : SimThread) (hu : u ≠ .pin) (w w' : SimWorld) : PassRely u w w' := by
  cases u
  exact absurd rfl hu

/-- The calls that leave the queue and the pin alone. -/
def SimOp.Neutral : SimOp → Prop
  | .start _ | .finishStop | .programScatterGatherMappings .. | .storeState .. => False
  | _ => True

theorem simAct_eq {o : SimOp} {r : o.Res} (h : SimWorld.act o w r = some w') :
    o.possible r w = true ∧ w' = o.effect r w := by
  unfold SimWorld.act at h
  split at h
  · next hpossible => exact ⟨hpossible, (Option.some.inj h).symm⟩
  · cases h

theorem SimOp.Neutral.sameQueue {o : SimOp} {r : o.Res} (ho : o.Neutral) (s : HardwareSimulation) :
    SameQueue s (o.simAfter r s) := by
  cases o with
  | start | finishStop | programScatterGatherMappings | storeState => exact ho.elim
  | unpause =>
    change SameQueue s s.unpause
    unfold HardwareSimulation.unpause
    split <;> exact ⟨rfl, rfl, rfl, rfl, rfl⟩
  | _ => exact ⟨rfl, rfl, rfl, rfl, rfl⟩

theorem SimOp.Neutral.at {o : SimOp} {r : o.Res} (ho : o.Neutral)
    (h : At live ksState members w) : At live ksState members (o.effect r w) := by
  refine ⟨(ho.sameQueue w.sim).accountedAs h.accounted, ?_, ?_⟩
  · rw [← h.ksState]
    cases o with
    | storeState => exact ho.elim
    | _ => rfl
  · rw [← h.members]
    cases o with
    | storeState => exact ho.elim
    | _ => rfl

/-- The rule for one call of the pin. -/
theorem call_safe {o : SimOp} {P : SimWorld → Prop} {Q : o.Res → SimWorld → Prop}
    (hP : Stable SimAccounted PassRely .pin P)
    (hQ : ∀ r, Stable SimAccounted PassRely .pin (Q r)) (hw : P w)
    (hstep : ∀ w r, o.possible r w = true → P w →
      SimAccounted (o.effect r w) ∧ Q r (o.effect r w)) :
    SimSafe o.perform Q w := by
  apply Safe.perform P hP hQ hw
  intro w r w' _ hw _ hact
  have hact : SimWorld.act o w r = some w' := hact
  obtain ⟨hpossible, rfl⟩ := simAct_eq hact
  obtain ⟨haccounted, hq⟩ := hstep w r hpossible hw
  exact ⟨haccounted, fun u hu => no_other u hu w _, hq⟩

theorem neutral_safe {α : Type} {p : SimProg α} (hp : p.All SimOp.Neutral)
    (h : At live ksState members w) :
    SimSafe p (fun _ => At live ksState members) w := by
  apply Safe.all at_stable hp h
  intro o ho w r w' _ hw _ hact
  have hact : SimWorld.act o w r = some w' := hact
  obtain ⟨-, rfl⟩ := simAct_eq hact
  have hw' := ho.at (r := r) hw
  exact ⟨⟨live, hw'.accounted⟩, fun u hu => no_other u hu w _, hw'⟩

theorem perform_neutral {o : SimOp} (ho : o.Neutral) : o.perform.All SimOp.Neutral :=
  Prog.All.perform ho

theorem waitStopped_neutral : waitStopped.All SimOp.Neutral := by
  apply (Prog.All.perform trivial).bind
  intro hardwareState
  split
  · apply (Prog.All.perform trivial).bind
    intro _
    exact (Prog.All.perform trivial).bind fun _ => trivial
  · exact trivial

theorem simulationPause_neutral (pausing : Bool) :
    (simulationPause pausing).All SimOp.Neutral := by
  cases pausing with
  | true =>
    apply waitStopped_neutral.bind
    intro waited
    exact (Prog.All.when (Prog.All.perform trivial)).bind fun _ => trivial
  | false => exact (Prog.All.perform trivial).bind fun _ => trivial

variable {imageSize : BitVec 32} {toState : KsState}

theorem PinSettled.of_below {p : PinMembers} (hstate : ksState ≠ .run)
    (h : p.hardwareState ≠ .running) : PinSettled ksState p :=
  ⟨fun hrun => absurd hrun hstate, fun _ => h⟩

theorem started_of_eq {p : PinMembers} (h : p.hardwareState = members.hardwareState) :
    p.started = members.started := by
  unfold PinMembers.started
  rw [h]

/-- The transition has ended with a status and the members. -/
structure Ended (toState ksState : KsState) (members : PinMembers) (r : NtStatus × PinMembers)
    (w : SimWorld) : Prop where
  here : At r.2.started ksState members w
  settled : PinSettled (ksState.after toState r.1) r.2

theorem ended_stable (r : NtStatus × PinMembers) :
    Stable SimAccounted PassRely .pin (Ended toState ksState members r) :=
  fun w w' hi hi' hr h => ⟨at_stable w w' hi hi' hr h.here, h.settled⟩

theorem stopIfStarted_safe (h : At members.started ksState members w) :
    SimSafe (stopIfStarted (simulationCalls imageSize) members)
      (fun p w => At false ksState members w ∧ p.hardwareState = .stopped) w := by
  have hstable (p : PinMembers) : Stable SimAccounted PassRely .pin fun w =>
      At false ksState members w ∧ p.hardwareState = .stopped :=
    at_stable.and (Stable.const _)
  unfold stopIfStarted
  split
  · next hstarted =>
    rw [show members.started = true from decide_eq_true hstarted] at h
    apply Safe.bind (Q := fun _ => At false ksState members)
    · refine (neutral_safe waitStopped_neutral h).bind fun _ w hw => ?_
      apply Safe.bind (Q := fun _ => At false ksState members)
      · apply call_safe at_stable (fun _ => at_stable) hw
        intro w _ _ hw
        have haccounted := hw.accounted.finishStop
        exact ⟨⟨_, haccounted⟩, haccounted, hw.ksState, hw.members⟩
      · exact fun _ w hw => Safe.ret at_stable hw
    · exact fun _ w hw => Safe.ret (hstable _) ⟨hw, rfl⟩
  · next hstopped =>
    have hstopped := not_not.mp hstopped
    have hdead : members.started = false := by simp [PinMembers.started, hstopped]
    rw [hdead] at h
    exact Safe.ret (hstable members) ⟨h, hstopped⟩

theorem releaseIfAcquired_safe {p : PinMembers} (h : At live ksState members w) :
    SimSafe (releaseIfAcquired (simulationCalls imageSize) p)
      (fun p' w => At live ksState members w ∧ p'.hardwareState = p.hardwareState) w := by
  have hstable (p' : PinMembers) : Stable SimAccounted PassRely .pin fun w =>
      At live ksState members w ∧ p'.hardwareState = p.hardwareState :=
    at_stable.and (Stable.const _)
  unfold releaseIfAcquired
  split
  · have hclock : (simulationCalls imageSize).releaseClock.All SimOp.Neutral :=
      perform_neutral trivial
    have hrelease : (simulationCalls imageSize).releaseHardwareResources.All SimOp.Neutral :=
      perform_neutral trivial
    refine (neutral_safe hclock.when h).bind fun _ w hw => ?_
    refine (neutral_safe hrelease hw).bind fun _ w hw => ?_
    exact Safe.ret (hstable _) ⟨hw, rfl⟩
  · exact Safe.ret (hstable p) ⟨h, rfl⟩

theorem cleanupReferences_neutral :
    (simulationCalls imageSize).cleanupReferences.All SimOp.Neutral :=
  (Prog.All.perform trivial).bind fun _ => trivial

theorem acquireResources_safe (h : At members.started .stop members w)
    (hsettled : PinSettled .stop members) :
    SimSafe (acquireResources (simulationCalls imageSize) members)
      (Ended .acquire .stop members) w := by
  have hended (status : NtStatus) (p : PinMembers) (w : SimWorld)
      (hp : p.hardwareState = members.hardwareState) (hw : At members.started .stop members w) :
      Ended .acquire .stop members (status, p) w := by
    refine ⟨?_, PinSettled.of_below ?_ ?_⟩
    · rwa [started_of_eq hp]
    · unfold KsState.after
      split <;> decide
    · rw [hp]
      exact hsettled.below (by decide)
  have hacquire : (simulationCalls imageSize).acquireHardwareResources.All SimOp.Neutral :=
    perform_neutral trivial
  have hclock : (simulationCalls imageSize).getReferenceClock.All SimOp.Neutral :=
    perform_neutral trivial
  refine (neutral_safe hacquire h).bind fun status w hw => ?_
  split
  · refine (neutral_safe hclock hw).bind fun clock w hw => ?_
    exact Safe.ret (ended_stable _) (hended status _ w rfl hw)
  · exact Safe.ret (ended_stable _) (hended status _ w rfl hw)

/-- The pin enters the state if the call succeeded, and the lookaside list is then there. -/
theorem ended_enter {state : HardwareState} {status : NtStatus} (hstate : state ≠ .stopped)
    (hrun : toState = .run ∨ state ≠ .running) (hsettled : PinSettled ksState members)
    (h : At (members.enter state status).started ksState members w) :
    Ended toState ksState members (status, members.enter state status) w := by
  refine ⟨h, ?_⟩
  unfold KsState.after PinMembers.enter
  split
  · exact ⟨fun _ => hstate, fun hbelow => hrun.resolve_left hbelow⟩
  · exact hsettled

theorem started_enter {state : HardwareState} {status : NtStatus} (hstate : state ≠ .stopped)
    (hstarted : members.started = true) : (members.enter state status).started = true := by
  unfold PinMembers.enter
  split
  · exact decide_eq_true hstate
  · exact hstarted

/-- The transitions that stop the hardware end below `KSSTATE_RUN`. -/
theorem ended_stopped {p : PinMembers} (hto : toState ≠ .run) (hfrom : ksState ≠ .run)
    (status : NtStatus) (hp : p.hardwareState = .stopped) (h : At false ksState members w) :
    Ended toState ksState members (status, p) w := by
  refine ⟨?_, PinSettled.of_below ?_ ?_⟩
  · rwa [show p.started = false by simp [PinMembers.started, hp]]
  · unfold KsState.after
    split
    · exact hto
    · exact hfrom
  · rw [hp]
    decide

/-- The hardware is started from rest, and runs exactly if that succeeds. -/
theorem start_safe (hstopped : members.hardwareState = .stopped)
    (hsettled : PinSettled ksState members) (h : At members.started ksState members w) :
    SimSafe ((simulationCalls imageSize).start >>= fun status =>
        return (status, members.enter .running status)) (Ended .run ksState members) w := by
  have hdead : members.started = false := by simp [PinMembers.started, hstopped]
  have henter (status : NtStatus) :
      (members.enter .running status).started = ntSuccess status := by
    unfold PinMembers.enter
    cases ntSuccess status with
    | true => rfl
    | false => exact hdead
  rw [hdead] at h
  apply Safe.bind (Q := fun status => At (ntSuccess status) ksState members)
  · apply call_safe at_stable (fun _ => at_stable) h
    intro w status _ hw
    have haccounted := hw.accounted.start imageSize (ntSuccess status)
    exact ⟨⟨_, haccounted⟩, haccounted, hw.ksState, hw.members⟩
  · intro status w hw
    apply Safe.ret (ended_stable _)
    apply ended_enter (by decide) (.inl rfl) hsettled
    rwa [henter]

theorem setState_safe (hadjacent : ksState.adjacent toState = true)
    (hsettled : PinSettled ksState members) (h : At members.started ksState members w) :
    SimSafe (members.setState (simulationCalls imageSize) toState ksState)
      (Ended toState ksState members) w := by
  have hcleanup : (simulationCalls imageSize).cleanupReferences.All SimOp.Neutral :=
    cleanupReferences_neutral
  cases toState with
  | stop =>
    have hfrom : ksState ≠ .run := by
      rintro rfl
      cases hadjacent
    refine (stopIfStarted_safe h).bind fun p w ⟨hw, hp⟩ => ?_
    refine (neutral_safe hcleanup hw).bind fun status w hw => ?_
    refine (releaseIfAcquired_safe hw).bind fun p' w ⟨hw, hp'⟩ => ?_
    exact Safe.ret (ended_stable _) (ended_stopped (by decide) hfrom status (hp'.trans hp) hw)
  | acquire =>
    simp only [PinMembers.setState]
    split
    · next hstop =>
      subst hstop
      exact acquireResources_safe h hsettled
    · have hfrom : ksState ≠ .run := by
        rintro rfl
        cases hadjacent
      refine (stopIfStarted_safe h).bind fun p w ⟨hw, hp⟩ => ?_
      refine (neutral_safe hcleanup hw).bind fun status w hw => ?_
      exact Safe.ret (ended_stable _) (ended_stopped (by decide) hfrom status hp hw)
  | pause =>
    simp only [PinMembers.setState]
    split
    · next hrun =>
      have hstarted : members.started = true := decide_eq_true (hsettled.run hrun)
      refine (neutral_safe (simulationPause_neutral true) h).bind fun status w hw => ?_
      apply Safe.ret (ended_stable _)
      apply ended_enter (by decide) (.inr (by decide)) hsettled
      rwa [started_enter (by decide) hstarted, ← hstarted]
    · next hbelow =>
      have hafter : ksState.after .pause statusSuccess ≠ .run := by
        change KsState.pause ≠ .run
        decide
      exact Safe.ret (ended_stable _) ⟨h, .of_below hafter (hsettled.below hbelow)⟩
  | run =>
    have hfrom : ksState ≠ .run := by
      rintro rfl
      cases hadjacent
    simp only [PinMembers.setState]
    split
    · next hpaused =>
      have hstarted : members.started = true := by simp [PinMembers.started, hpaused]
      refine (neutral_safe (simulationPause_neutral false) h).bind fun status w hw => ?_
      apply Safe.ret (ended_stable _)
      apply ended_enter (by decide) (.inl rfl) hsettled
      rwa [started_enter (by decide) hstarted, ← hstarted]
    · next hpaused =>
      -- the pin did nothing to the hardware
      have hstopped : members.hardwareState = .stopped := by
        have := hsettled.below hfrom
        cases hstate : members.hardwareState with
        | stopped => rfl
        | paused => exact absurd hstate hpaused
        | running => exact absurd hstate this
      exact start_safe hstopped hsettled h

/-- The pin is between two of its routines. -/
structure PinIdle (w : SimWorld) : Prop where
  here : At w.members.started w.ksState w.members w
  settled : PinSettled w.ksState w.members

theorem pinIdle_stable : Stable SimAccounted PassRely .pin PinIdle := by
  intro w w' _ _ hr h
  have h' := hr _ _ _ h.here
  constructor
  · rw [h'.members, h'.ksState]
    exact h'
  · rw [h'.members, h'.ksState]
    exact h.settled

theorem changeKsState_safe (hadjacent : w.ksState.adjacent toState = true) (h : PinIdle w) :
    SimSafe (changeKsState imageSize toState w.ksState w.members) (fun _ => PinIdle) w := by
  refine (setState_safe hadjacent h.settled h.here).bind fun r w' hended => ?_
  apply call_safe (ended_stable r) (fun _ => pinIdle_stable) hended
  intro w _ _ hended
  have haccounted := hended.here.accounted
  exact ⟨⟨_, haccounted⟩, ⟨haccounted, rfl, rfl⟩, hended.settled⟩

theorem process_safe (calls : List ProgramMappings) (hrun : w.ksState = .run) (h : PinIdle w) :
    SimSafe (Prog.forEach calls ProgramMappings.perform) (fun _ => PinIdle) w := by
  have hstarted : w.members.started = true := decide_eq_true (h.settled.run hrun)
  have hhere := h.here
  rw [hstarted] at hhere
  have hstable : Stable SimAccounted PassRely .pin (At true w.ksState w.members) := at_stable
  have hloop : SimSafe (Prog.forEach calls ProgramMappings.perform)
      (fun _ => At true w.ksState w.members) w := by
    apply Safe.forEach (fun _ => At true w.ksState w.members) hstable hhere
    intro call calls w' hw'
    apply Safe.bind (Q := fun _ => At true w.ksState w.members)
    · apply call_safe hstable (fun _ => hstable) hw'
      intro w allocated hallocated hw
      have haccounted := hw.accounted.program allocated hallocated call.clone call.buffer
        (fun i => call.mappings.getD i default) call.mappingsCount
      exact ⟨⟨_, haccounted⟩, haccounted, hw.ksState, hw.members⟩
    · exact fun _ w'' hw'' => Safe.ret hstable hw''
  refine hloop.mono fun _ w' hw' => ⟨?_, ?_⟩
  · rw [hw'.members, hw'.ksState, hstarted]
    exact hw'
  · rw [hw'.members, hw'.ksState]
    exact h.settled

theorem pinIdle_created (d : Sgdma) : PinIdle (.created d) := by
  have hstopped : PinMembers.created.hardwareState ≠ .running := by decide
  exact ⟨⟨accountedAs_created, rfl, rfl⟩, .of_below (by decide : KsState.stop ≠ .run) hstopped⟩

/-- The queue is accounted for in every state that is reached. -/
theorem reach_accounted {d : Sgdma} {c : SimConfig}
    (h : simulationThreads.Reach (fun _ _ => True) (simConfig d) c) : Accounted c.state.sim := by
  refine (Reach.safe (I := SimAccounted) (R := PassRely) (Q := fun _ => PinIdle)
    ⟨false, accountedAs_created⟩ (fun t => ?_) ?_ ?_ h).1
  · cases t
    exact Safe.ret pinIdle_stable (pinIdle_created d)
  · rintro ⟨mappings⟩ w w' ⟨live, hlive⟩ _ hpass
    have hw' (live : Bool) (h : AccountedAs live w.sim) :
        AccountedAs live w'.sim ∧ w'.members = w.members ∧ w'.ksState = w.ksState := by
      obtain ⟨d', rfl⟩ := fakeHardware_eq h hpass
      exact ⟨h.passed, rfl, rfl⟩
    refine ⟨⟨live, (hw' live hlive).1⟩, fun _ live ksState members hhere => ?_⟩
    obtain ⟨haccounted, hmembers, hksState⟩ := hw' live hhere.accounted
    exact ⟨haccounted, hksState.trans hhere.ksState, hmembers.trans hhere.members⟩
  · intro t a w w' p hi hidle _ hstart
    cases t
    cases a with
    | setState toState imageSize =>
      simp only [simulationThreads, SimThread.start] at hstart
      split at hstart
      · next hadjacent =>
        cases hstart
        exact ⟨hi, fun u hu => no_other u hu _ _, changeKsState_safe hadjacent hidle⟩
      · cases hstart
    | process calls =>
      simp only [simulationThreads, SimThread.start] at hstart
      split at hstart
      · next hrun =>
        cases hstart
        exact ⟨hi, fun u hu => no_other u hu _ _, process_safe calls hrun hidle⟩
      · cases hstart

/-! ## Skipped frames -/

/-- The passes since the last start that found nothing to fill. -/
def unfilledPasses : History SimOp SimOp.Res SimWorld SimThread PassEvent SimAction (BitVec 32)
    where
  call := fun _ op _ _ n =>
    match op with
    | .start _ => 0
    | _ => n
  env := fun _ w n =>
    if w.sim.hardwareState = .running ∧ w.sim.scatterGatherMappings = [] then n + 1 else n
  start := fun _ _ _ n => n

/-- The status of a pass tells whether it fills a frame. -/
def ReportsRight (s : HardwareSimulation) : Prop :=
  s.scatterGatherMappings = [] ↔ s.imageSize ≠ 0

instance (s : HardwareSimulation) : Decidable (ReportsRight s) :=
  inferInstanceAs (Decidable (_ ↔ _))

/-- It does so in every pass of a run. -/
def passReportsRight (x : SimWorld × BitVec 32) :
    Label SimOp SimOp.Res SimThread PassEvent SimAction → Prop
  | .env (.fakeHardware _) => x.1.sim.hardwareState = .running → ReportsRight x.1.sim
  | .call .. | .start .. => True

theorem fillStatus_failure_iff (s : HardwareSimulation) :
    ntSuccess s.fillStatus = false ↔ s.imageSize ≠ 0 := by
  unfold fillStatus
  split
  · next h => exact iff_of_true (by decide) h
  · next h => exact iff_of_false (by decide) h

/-- A pass counts a skipped frame when its status is a failure. -/
theorem passed_numFramesSkipped (s : HardwareSimulation) :
    (passed s).numFramesSkipped =
      if s.hardwareState = .running ∧ s.imageSize ≠ 0 then s.numFramesSkipped + 1
      else s.numFramesSkipped := by
  have hsignal (s : HardwareSimulation) :
      s.signalStop.numFramesSkipped = s.numFramesSkipped := by
    unfold signalStop
    split <;> rfl
  unfold passed
  by_cases hrunning : s.hardwareState = .running
  · rw [if_pos hrunning, hsignal]
    by_cases hsize : s.imageSize ≠ 0
    · rw [if_pos ⟨hrunning, hsize⟩, countSkipped, (fillStatus_failure_iff s).mpr hsize]
      rfl
    · have hsuccess := mt (fillStatus_failure_iff s).mp hsize
      rw [if_neg (fun h => hsize h.2), countSkipped, if_pos (eq_true_of_ne_false hsuccess)]
      rfl
  · rw [if_neg hrunning, hsignal, if_neg fun h => hrunning h.1]

/-- What the loop of `Stop` changes. -/
theorem freeLoop_frame (left : Nat) (s : HardwareSimulation) :
    ∃ mappings queued lookaside corrupted, freeLoop left s = { s with
      scatterGatherMappings := mappings
      scatterGatherMappingsQueued := queued
      lookaside := lookaside
      corrupted := corrupted } := by
  induction left generalizing s with
  | zero => exact ⟨_, _, _, _, rfl⟩
  | succ left ih =>
    unfold freeLoop
    split
    · exact ⟨_, _, _, _, rfl⟩
    · obtain ⟨mappings, queued, lookaside, corrupted, h⟩ := ih _
      exact ⟨mappings, queued, lookaside, corrupted, h⟩

theorem simAfter_numFramesSkipped (o : SimOp) (r : o.Res) (w : SimWorld) :
    (o.simAfter r w.sim).numFramesSkipped =
      unfilledPasses.call .pin o r w w.sim.numFramesSkipped := by
  cases o with
  | start imageSize =>
    change (w.sim.start imageSize (ntSuccess r)).1.numFramesSkipped = 0
    unfold HardwareSimulation.start
    split <;> rfl
  | unpause =>
    change w.sim.unpause.numFramesSkipped = w.sim.numFramesSkipped
    unfold HardwareSimulation.unpause
    split <;> rfl
  | finishStop =>
    change w.sim.finishStop.numFramesSkipped = w.sim.numFramesSkipped
    obtain ⟨_, _, _, _, h⟩ := freeLoop_frame w.sim.scatterGatherMappingsQueued.toNat
      { w.sim with hardwareState := .stopped, synthesisBuffer := false }
    rw [HardwareSimulation.finishStop, h]
  | programScatterGatherMappings =>
    cases r <;> rfl
  | _ => rfl

/-- Where every pass reports right, the skipped frames are the passes that filled nothing. -/
theorem reach_numFramesSkipped {d : Sgdma}
    {c : Config SimOp SimOp.Res (SimWorld × BitVec 32) SimThread}
    (h : (simulationThreads.withHistory unfilledPasses).Reach passReportsRight
      ⟨(.created d, 0), fun _ => .ret ()⟩ c) :
    c.state.1.sim.numFramesSkipped = c.state.2 := by
  have hstrong := Reach.strengthen (fun x => Accounted x.1.sim)
    (fun c hc => reach_accounted (hc.forget fun _ _ _ => trivial)) h
  refine Reach.invariant (fun x => x.1.sim.numFramesSkipped = x.2) rfl ?_ ?_ ?_ hstrong
  · rintro ⟨⟩ op r x y hx _ hact
    obtain ⟨hw, hn⟩ := withHistory_act hact
    obtain ⟨-, hy⟩ := simAct_eq hw
    rw [hy, hn, ← hx]
    exact simAfter_numFramesSkipped op r x.1
  · rintro ⟨mappings⟩ x y hx ⟨hright, live, haccounted⟩ henv
    obtain ⟨hw, hn⟩ := withHistory_env henv
    obtain ⟨d', hy⟩ := fakeHardware_eq haccounted hw
    have hcond : (x.1.sim.hardwareState = .running ∧ x.1.sim.imageSize ≠ 0) ↔
        (x.1.sim.hardwareState = .running ∧ x.1.sim.scatterGatherMappings = []) :=
      and_congr_right fun hrunning => (hright hrunning).symm
    rw [hy, passed_numFramesSkipped, hn, hx]
    simp only [unfilledPasses, hcond]
  · intro t a x y p hx _ hstart
    obtain ⟨hw, hn⟩ := withHistory_start hstart
    have hsame : y.1 = x.1 := by
      cases t
      cases a <;>
      · simp only [simulationThreads, SimThread.start] at hw
        split at hw
        · exact (congrArg Prod.fst (Option.some.inj hw)).symm
        · cases hw
    rw [hsame, hn, hx]
    rfl

theorem simulation_queue_accounted (d : Sgdma) :
    (∀ c, simulationThreads.Reach (fun _ _ => True) (simConfig d) c →
      Accounted c.state.sim ∧
      ∀ mappings, ∃ sim' status d',
        Prog.exec Sgdma.act Sgdma.answer (c.state.sim.fillScatterGatherBuffers mappings)
          c.state.sgdma = some ((sim', status), d') ∧
        ((ntSuccess status = false ↔ c.state.sim.scatterGatherMappings = []) ↔
          (c.state.sim.scatterGatherMappings = [] ↔ c.state.sim.imageSize ≠ 0))) ∧
    ∀ c, (simulationThreads.withHistory unfilledPasses).Reach passReportsRight
        ⟨(.created d, 0), fun _ => .ret ()⟩ c →
      c.state.1.sim.numFramesSkipped = c.state.2 := by
  refine ⟨fun c h => ?_, fun c => reach_numFramesSkipped⟩
  obtain ⟨live, haccounted⟩ := reach_accounted h
  refine ⟨⟨live, haccounted⟩, fun mappings => ?_⟩
  refine ⟨_, _, _, exec_fillScatterGatherBuffers c.state.sgdma haccounted.queued, ?_⟩
  rw [fillStatus_failure_iff]
  exact ⟨Iff.symm, Iff.symm⟩

instance (x : SimWorld × BitVec 32) (l : Label SimOp SimOp.Res SimThread PassEvent SimAction) :
    Decidable (passReportsRight x l) :=
  match l with
  | .env (.fakeHardware _) => inferInstanceAs (Decidable (_ → _))
  | .call .. | .start .. => inferInstanceAs (Decidable True)

/-- The pin is taken to `KSSTATE_RUN`, in RGB24. -/
def toRun {E : Type} : List (Label SimOp SimOp.Res SimThread E SimAction) :=
  let acquired : PinMembers := ⟨⟨.stopped, true⟩, true⟩
  [.start .pin (.setState .acquire 6220800),
    .call .pin .acquireHardwareResources (statusSuccess : NtStatus),
    .call .pin .getReferenceClock (statusSuccess : NtStatus),
    .call .pin (.storeState .acquire acquired) (),
    .start .pin (.setState .pause 6220800),
    .call .pin (.storeState .pause acquired) (),
    .start .pin (.setState .run 6220800),
    .call .pin (.start 6220800) (statusSuccess : NtStatus),
    .call .pin (.storeState .run ⟨⟨.running, true⟩, true⟩) ()]

/-- The mappings of a frame hold an image in RGB24. -/
def frameMappings : List KsMapping := [⟨0x1000000, 0x300000⟩, ⟨0x2000000, 0x300000⟩]

/-- The mappings of a frame are programmed for its clone. -/
def programFrame {E : Type} : List (Label SimOp SimOp.Res SimThread E SimAction) :=
  [.start .pin (.process [⟨0, 0, frameMappings, 2⟩]),
    .call .pin (.programScatterGatherMappings 0 0 frameMappings 2) (some 0 : Option Nat)]

def frameMapping (_ i : Nat) : KsMapping := frameMappings.getD i default

/-- A run with its history begins. -/
def unfilledConfig : Config SimOp SimOp.Res (SimWorld × BitVec 32) SimThread :=
  ⟨(.created idleSgdma, 0), fun _ => .ret ()⟩

/-- A pass that finds nothing to fill is counted, and a frame is queued behind it. -/
theorem simulation_queue_accounted_queued :
    ∃ c, (simulationThreads.withHistory unfilledPasses).Reach passReportsRight unfilledConfig c ∧
      Accounted c.state.1.sim ∧
      c.state.1.sim.scatterGatherMappings = [⟨0, 0, 0, 2⟩] ∧
      c.state.2 = 1 ∧ c.state.1.sim.numFramesSkipped = c.state.2 := by
  have hrun : ∃ c,
      (simulationThreads.withHistory unfilledPasses).Reach passReportsRight unfilledConfig c ∧
      decide (c.state.1.sim.scatterGatherMappings = [⟨0, 0, 0, 2⟩] ∧ c.state.2 = 1) = true :=
    Reach.exists_of_run (toRun ++ .env (.fakeHardware frameMapping) :: programFrame)
      (fun x : SimWorld × BitVec 32 =>
        x.1.sim.scatterGatherMappings = [⟨0, 0, 0, 2⟩] ∧ x.2 = 1) (by decide)
  obtain ⟨c, hc, hend⟩ := hrun
  obtain ⟨hqueued, hunfilled⟩ := of_decide_eq_true hend
  have hall := simulation_queue_accounted idleSgdma
  exact ⟨c, hc, (hall.1 _ (hc.forget fun _ _ _ => trivial)).1, hqueued, hunfilled, hall.2 c hc⟩

/-- A pass that programs the mappings of a frame is counted as skipped. -/
theorem simulation_counts_filled_as_skipped :
    ∃ c, (simulationThreads.withHistory unfilledPasses).Reach (fun _ _ => True) unfilledConfig c ∧
      c.state.1.sgdma.written = [0, 1] ∧ c.state.2 = 0 ∧ c.state.1.sim.numFramesSkipped = 1 := by
  have hrun : ∃ c,
      (simulationThreads.withHistory unfilledPasses).Reach (fun _ _ => True) unfilledConfig c ∧
      decide (c.state.1.sgdma.written = [0, 1] ∧ c.state.2 = 0 ∧
        c.state.1.sim.numFramesSkipped = 1) = true :=
    Reach.exists_of_run (toRun ++ programFrame ++ [.env (.fakeHardware frameMapping)])
      (fun x : SimWorld × BitVec 32 =>
        x.1.sgdma.written = [0, 1] ∧ x.2 = 0 ∧ x.1.sim.numFramesSkipped = 1) (by decide)
  obtain ⟨c, hc, hskipped⟩ := hrun
  exact ⟨c, hc, of_decide_eq_true hskipped⟩

end Capture

end Xadma
