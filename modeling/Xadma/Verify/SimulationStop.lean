import Xadma.Verify.SimulationQueue

/-!
# Waiting for the simulated hardware

Nothing that the code schedules queues the DPC that calls `FakeHardware`, so the event is never set
and a pin that leaves `KSSTATE_RUN` waits for good.
-/

namespace Xadma

namespace Capture

open Threads

abbrev ScheduledLabel := Label SimOp SimOp.Res SimThread ScheduledEvent SimAction

/-- The pin waits in `Pause` or `Stop`. -/
def Waiting (c : SimConfig) : Prop := ∃ k, c.thread .pin = .call .waitHardwareEvent k

/-- A step of the timer, of a DPC or of the service routine. -/
def ofOthers : ScheduledLabel → Prop
  | .env _ => True
  | .call .. | .start .. => False

/-- Steps of the others lead to the event being set. -/
def Wakes (c : SimConfig) : Prop :=
  ∃ c', scheduledThreads.Reach (fun _ => ofOthers) c c' ∧ c'.state.sim.hardwareEvent = true

def DeadlockFree (c : SimConfig) : Prop := Waiting c → Wakes c

/-- No transition begins while the hardware runs. -/
def beginsStill (w : SimWorld) : ScheduledLabel → Prop
  | .start _ (.setState ..) => w.sim.hardwareState ≠ .running
  | .start _ (.process _) | .call .. | .env _ => True

variable {d : Sgdma} {c c' : SimConfig} {w w' : SimWorld} {α β : Type}

/-! ## The event -/

/-- The event is not set, and the DPC that would set it is not queued. -/
structure NoEvent (w : SimWorld) : Prop where
  event : w.sim.hardwareEvent = false
  videoDpc : w.videoDpc = false

theorem NoEvent.effect (h : NoEvent w) (o : SimOp) (r : o.Res) : NoEvent (o.effect r w) := by
  refine ⟨?_, h.videoDpc⟩
  have hevent := h.event
  cases o with
  | start imageSize =>
    change (w.sim.start imageSize (ntSuccess r)).1.hardwareEvent = false
    unfold HardwareSimulation.start
    split <;> exact hevent
  | unpause =>
    change w.sim.unpause.hardwareEvent = false
    unfold HardwareSimulation.unpause
    split <;> exact hevent
  | finishStop =>
    change w.sim.finishStop.hardwareEvent = false
    obtain ⟨_, _, _, _, h⟩ := freeLoop_frame w.sim.scatterGatherMappingsQueued.toNat
      { w.sim with hardwareState := .stopped, synthesisBuffer := false }
    rw [HardwareSimulation.finishStop, h]
    exact hevent
  | programScatterGatherMappings => cases r <;> exact hevent
  | waitHardwareEvent => rfl
  | _ => exact hevent

/-- What is scheduled leaves the event and the state of the hardware alone. -/
theorem NoEvent.scheduled (h : NoEvent w) {e : ScheduledEvent} (he : e.step w = some w') :
    NoEvent w' ∧ w'.sim.hardwareState = w.sim.hardwareState := by
  cases e with
  | timer =>
    simp only [ScheduledEvent.step] at he
    split at he
    · cases he
      exact ⟨⟨h.event, h.videoDpc⟩, rfl⟩
    · cases he
  | isrFakeDpc =>
    simp only [ScheduledEvent.step] at he
    split at he
    · cases he
      exact ⟨⟨h.event, h.videoDpc⟩, rfl⟩
    · cases he
  | interrupt =>
    cases he
    exact ⟨h, rfl⟩
  | videoDpc mappings =>
    rw [ScheduledEvent.step, h.videoDpc] at he
    cases he
  | admaDpc =>
    simp only [ScheduledEvent.step] at he
    split at he
    · cases he
      exact ⟨⟨h.event, h.videoDpc⟩, rfl⟩
    · cases he

theorem SimThread.start_eq {t : SimThread} {a : SimAction} {p : SimProg Unit}
    (h : t.start a w = some (w', p)) : w' = w := by
  cases t
  cases a with
  | setState | process =>
    simp only [SimThread.start] at h
    split at h
    · exact (congrArg Prod.fst (Option.some.inj h)).symm
    · cases h

theorem reach_noEvent {ok : SimWorld → ScheduledLabel → Prop}
    (h : scheduledThreads.Reach ok c c') (hc : NoEvent c.state) : NoEvent c'.state := by
  refine Reach.invariant NoEvent hc ?_ ?_ ?_ h
  · intro t o r w w' hw _ hact
    have hact : SimWorld.act o w r = some w' := hact
    obtain ⟨-, rfl⟩ := simAct_eq hact
    exact hw.effect o r
  · exact fun e w w' hw _ he => (hw.scheduled he).1
  · intro t a w w' p hw _ hstart
    obtain rfl := SimThread.start_eq hstart
    exact hw

/-! ## A pin that waits -/

/-- It does so in every state that is reached from there. -/
theorem waiting_forever (hc : NoEvent c.state) {k : Unit → SimProg Unit}
    (hwait : c.thread .pin = .call .waitHardwareEvent k)
    (h : scheduledThreads.Reach (fun _ _ => True) c c') : c'.thread = c.thread := by
  induction h with
  | refl => rfl
  | @step c₁ c₂ l hreach _ hstep ih =>
    have hevent := (reach_noEvent hreach hc).event
    cases l with
    | call t o r =>
      obtain ⟨k', w, hk, hact, rfl⟩ := step_call_eq hstep
      cases t
      rw [ih, hwait] at hk
      cases hk
      have hact : SimWorld.act .waitHardwareEvent c₁.state r = some w := hact
      have hset : c₁.state.sim.hardwareEvent = true := (simAct_eq hact).1
      rw [hevent] at hset
      cases hset
    | env e =>
      obtain ⟨w, _, rfl⟩ := step_env_eq hstep
      exact ih
    | start t a =>
      obtain ⟨w, p, hidle, _, rfl⟩ := step_start_eq hstep
      cases t
      rw [ih, hwait] at hidle
      cases hidle

theorem not_wakes (hc : NoEvent c.state) : ¬ Wakes c := by
  rintro ⟨c', h, hset⟩
  rw [(reach_noEvent h hc).event] at hset
  cases hset

/-! ## Transitions while the hardware is still -/

/-- The routine does not wait: it asks for the state of the hardware only while that is known not to
run (`still`), which is no longer so when it was started. -/
def Calm : Bool → SimProg α → Prop
  | _, .ret _ => True
  | still, .call o k =>
    match o, k with
    | .waitHardwareEvent, _ => False
    | .readHardwareState, k =>
      still = true ∧ ∀ r : HardwareState, r ≠ .running → Calm still (k r)
    | .start _, k | .unpause, k => ∀ r, Calm false (k r)
    | _, k => ∀ r, Calm still (k r)

/-- The calls that neither wait nor ask for the state of the hardware. -/
def SimOp.Steady : SimOp → Prop
  | .waitHardwareEvent | .readHardwareState => False
  | _ => True

variable {still : Bool} {p : SimProg α} {f : α → SimProg β}

theorem Calm.of_steady (h : p.All SimOp.Steady) (still : Bool) : Calm still p := by
  induction p generalizing still with
  | ret a => exact trivial
  | call o k ih =>
    cases o with
    | waitHardwareEvent | readHardwareState => exact h.1.elim
    | _ => exact fun r => ih r (h.2 r) _

theorem Calm.bind (h : Calm still p) (hf : ∀ a, (f a).All SimOp.Steady) :
    Calm still (p >>= f) := by
  induction p generalizing still with
  | ret a => exact Calm.of_steady (hf a) still
  | call o k ih =>
    cases o with
    | waitHardwareEvent => exact h.elim
    | readHardwareState => exact ⟨h.1, fun r hr => ih r (h.2 r hr)⟩
    | _ => exact fun r => ih r (h r)

theorem waitStopped_calm : Calm true waitStopped := by
  refine ⟨rfl, fun r hr => ?_⟩
  change Calm true (if r = HardwareState.running then _ else _ : SimProg Bool)
  rw [if_neg hr]
  exact trivial

theorem simulationPause_calm (pausing : Bool) : Calm true (simulationPause pausing) := by
  cases pausing with
  | true =>
    apply waitStopped_calm.bind
    intro waited
    exact (Prog.All.when (Prog.All.perform trivial)).bind fun _ => trivial
  | false =>
    have hunpause : (simulationPause false).All SimOp.Steady :=
      (Prog.All.perform trivial).bind fun _ => trivial
    exact Calm.of_steady hunpause true

theorem simulationStop_calm : Calm true simulationStop := by
  apply waitStopped_calm.bind
  intro _
  exact (Prog.All.perform trivial).bind fun _ => trivial

variable {imageSize : BitVec 32}

theorem stopIfStarted_calm (members : PinMembers) :
    Calm true (stopIfStarted (simulationCalls imageSize) members) := by
  unfold stopIfStarted
  split
  · exact simulationStop_calm.bind fun _ => trivial
  · exact trivial

theorem setState_calm (toState fromState : KsState) (members : PinMembers) :
    Calm true (members.setState (simulationCalls imageSize) toState fromState) := by
  have hcleanup : ((simulationCalls imageSize).cleanupReferences).All SimOp.Steady :=
    (Prog.All.perform trivial).bind fun _ => trivial
  cases toState with
  | stop =>
    apply (stopIfStarted_calm members).bind
    intro members
    apply hcleanup.bind
    intro _
    have hrelease : (releaseIfAcquired (simulationCalls imageSize) members).All SimOp.Steady :=
      releaseIfAcquired_all (Prog.All.perform trivial) (Prog.All.perform trivial) members
    exact hrelease.bind fun _ => trivial
  | acquire =>
    simp only [PinMembers.setState]
    split
    · have hacquire : (acquireResources (simulationCalls imageSize) members).All SimOp.Steady :=
        acquireResources_all (Prog.All.perform trivial) (Prog.All.perform trivial) members
      exact Calm.of_steady hacquire true
    · apply (stopIfStarted_calm members).bind
      intro _
      exact hcleanup.bind fun _ => trivial
  | pause =>
    simp only [PinMembers.setState]
    split
    · exact (simulationPause_calm true).bind fun _ => trivial
    · exact trivial
  | run =>
    simp only [PinMembers.setState]
    split
    · exact (simulationPause_calm false).bind fun _ => trivial
    · have hstart : ((simulationCalls imageSize).start >>= fun status =>
          (return (status, members.enter .running status) : SimProg _)).All SimOp.Steady :=
        (Prog.All.perform trivial).bind fun _ => trivial
      exact Calm.of_steady hstart true

theorem changeKsState_calm (toState fromState : KsState) (members : PinMembers) :
    Calm true (changeKsState imageSize toState fromState members) :=
  (setState_calm toState fromState members).bind fun _ => Prog.All.perform trivial

theorem process_calm (calls : List ProgramMappings) (still : Bool) :
    Calm still (Prog.forEach calls ProgramMappings.perform) := by
  apply Calm.of_steady
  apply Prog.All.forEach
  intro call
  exact (Prog.All.perform trivial).bind fun _ => trivial

/-- Only `Start` and `Pause (FALSE)` make the hardware run. -/
theorem simAfter_still {o : SimOp} {k : o.Res → SimProg α} (h : Calm still (.call o k))
    {r : o.Res} (hr : o.possible r w = true)
    (hstill : still = true → w.sim.hardwareState ≠ .running) :
    ∃ still', (still' = true → (o.simAfter r w.sim).hardwareState ≠ .running) ∧
      Calm still' (k r) := by
  cases o with
  | waitHardwareEvent => exact h.elim
  | readHardwareState =>
    have hr : r = w.sim.hardwareState := of_decide_eq_true hr
    exact ⟨still, hstill, h.2 r (hr ▸ hstill h.1)⟩
  | start | unpause => exact ⟨false, fun hs => absurd hs Bool.false_ne_true, h r⟩
  | setPaused =>
    refine ⟨still, fun _ => ?_, h r⟩
    change HardwareState.paused ≠ .running
    decide
  | finishStop =>
    refine ⟨still, fun _ => ?_, h r⟩
    change w.sim.finishStop.hardwareState ≠ .running
    obtain ⟨_, _, _, _, hloop⟩ := freeLoop_frame w.sim.scatterGatherMappingsQueued.toNat
      { w.sim with hardwareState := .stopped, synthesisBuffer := false }
    rw [HardwareSimulation.finishStop, hloop]
    change HardwareState.stopped ≠ .running
    decide
  | programScatterGatherMappings clone buffer mappings mappingsCount =>
    refine ⟨still, fun hs => ?_, h r⟩
    cases r <;> exact hstill hs
  | _ => exact ⟨still, hstill, h r⟩

/-- While no transition begins with the hardware running, no pin comes to wait. -/
theorem reach_not_waiting
    (h : scheduledThreads.Reach beginsStill (simConfig d) c) : ¬ Waiting c := by
  have hcalm : NoEvent c.state ∧ ∃ still,
      (still = true → c.state.sim.hardwareState ≠ .running) ∧ Calm still (c.thread .pin) := by
    induction h with
    | refl => exact ⟨⟨rfl, rfl⟩, false, nofun, trivial⟩
    | @step c c' l _ hl hstep ih =>
      obtain ⟨hevent, still, hstill, hcalm⟩ := ih
      cases l with
      | call t o r =>
        obtain ⟨k, w, hk, hact, rfl⟩ := step_call_eq hstep
        cases t
        rw [hk] at hcalm
        have hact : SimWorld.act o c.state r = some w := hact
        obtain ⟨hpossible, rfl⟩ := simAct_eq hact
        obtain ⟨still', hstill', hcalm'⟩ := simAfter_still hcalm hpossible hstill
        refine ⟨hevent.effect o r, still', hstill', ?_⟩
        simpa using hcalm'
      | env e =>
        obtain ⟨w, he, rfl⟩ := step_env_eq hstep
        obtain ⟨hevent', hstate⟩ := hevent.scheduled he
        exact ⟨hevent', still, fun hs => hstate ▸ hstill hs, hcalm⟩
      | start t a =>
        obtain ⟨w, p, _, hstart, rfl⟩ := step_start_eq hstep
        obtain rfl := SimThread.start_eq hstart
        cases t
        refine ⟨hevent, ?_⟩
        cases a with
        | setState toState imageSize =>
          refine ⟨true, fun _ => hl, ?_⟩
          have hstart : SimThread.start .pin (.setState toState imageSize) c.state =
            some (c.state, p) := hstart
          simp only [SimThread.start] at hstart
          split at hstart
          · cases hstart
            simpa using changeKsState_calm toState c.state.ksState c.state.members
          · cases hstart
        | process calls =>
          refine ⟨still, hstill, ?_⟩
          have hstart : SimThread.start .pin (.process calls) c.state = some (c.state, p) := hstart
          simp only [SimThread.start] at hstart
          split at hstart
          · cases hstart
            simpa using process_calm calls still
          · cases hstart
  rintro ⟨k, hk⟩
  obtain ⟨_, still, _, hcalm⟩ := hcalm
  rw [hk] at hcalm
  exact hcalm

/-- A pin that waits does so for good, and none comes to wait unless a transition begins with the
hardware running. -/
theorem simulation_stop_wakes_when_still (d : Sgdma) :
    (∀ c, scheduledThreads.Reach (fun _ _ => True) (simConfig d) c →
      (DeadlockFree c ↔ ¬ Waiting c) ∧
      (Waiting c → ∀ c', scheduledThreads.Reach (fun _ _ => True) c c' →
        c'.thread = c.thread)) ∧
    ∀ c, scheduledThreads.Reach beginsStill (simConfig d) c → DeadlockFree c := by
  refine ⟨fun c h => ?_, fun c h hwait => absurd hwait (reach_not_waiting h)⟩
  have hevent : NoEvent c.state := reach_noEvent h ⟨rfl, rfl⟩
  refine ⟨⟨fun hfree hwait => not_wakes hevent (hfree hwait),
    fun hwait hw => absurd hw hwait⟩, ?_⟩
  rintro ⟨k, hwait⟩ c' h'
  exact waiting_forever hevent hwait h'

instance (w : SimWorld) (l : ScheduledLabel) : Decidable (beginsStill w l) :=
  match l with
  | .start _ (.setState ..) => inferInstanceAs (Decidable (_ ≠ _))
  | .start _ (.process _) | .call .. | .env _ => inferInstanceAs (Decidable True)

/-- The pin is in `KSSTATE_RUN` and the timer has expired. -/
theorem simulation_stop_wakes_in_run :
    ∃ c, scheduledThreads.Reach beginsStill (simConfig idleSgdma) c ∧
      c.state.ksState = .run ∧ DeadlockFree c ∧ ¬ Waiting c := by
  have hrun : ∃ c, scheduledThreads.Reach beginsStill (simConfig idleSgdma) c ∧
      decide (c.state.ksState = .run) = true :=
    Reach.exists_of_run (toRun ++ [.env .timer, .env .isrFakeDpc])
      (fun w : SimWorld => w.ksState = .run) (by decide)
  obtain ⟨c, hc, hstate⟩ := hrun
  have hall := simulation_stop_wakes_when_still idleSgdma
  have hfree := hall.2 c hc
  exact ⟨c, hc, of_decide_eq_true hstate, hfree,
    (hall.1 c (hc.mono fun _ _ _ => trivial)).1.mp hfree⟩

/-- The pin goes back to `KSSTATE_PAUSE`. -/
def pauseLabels : List ScheduledLabel :=
  toRun ++ [.start .pin (.setState .pause 6220800),
    .call .pin .readHardwareState HardwareState.running,
    .call .pin .setStopHardware ()]

theorem simulation_pause_never_wakes :
    ∃ c, scheduledThreads.Reach (fun _ _ => True) (simConfig idleSgdma) c ∧ ¬ DeadlockFree c := by
  obtain ⟨c, hrun, hwait⟩ : ∃ c,
      scheduledThreads.run (fun _ _ => True) (simConfig idleSgdma) pauseLabels = some c ∧
        Waiting c := ⟨_, rfl, _, rfl⟩
  have hc : scheduledThreads.Reach (fun _ _ => True) (simConfig idleSgdma) c :=
    Reach.refl.run hrun
  have hevent : NoEvent c.state := reach_noEvent hc ⟨rfl, rfl⟩
  exact ⟨c, hc, fun hfree => not_wakes hevent (hfree hwait)⟩

end Capture

end Xadma
