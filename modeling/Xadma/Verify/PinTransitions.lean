import Xadma.Avsadma.PinOwnership
import Xadma.Verify.CaptureInterrupt

/-!
# The transitions of a pin on the device

`PinMembers.setState` leaves open what it calls and hands the members of the pin on; the device
model has the members in the device and the calls of the Cyclone build. With these calls in the
place of the open ones, a transition that runs alone does the same in both.
-/

namespace Xadma

namespace Capture

/-! ## The calls of a pin on the device -/

/-- The calls of a pin as the Cyclone build carries them out. The stream pointers and the clock are
not members of the device. -/
def PinOp.onDevice (pin : Nat) (clock : NtStatus) : (o : PinOp) → CaptureProg o.Res
  | .compareExchangePins => CaptureOp.compareExchangePins.perform
  | .createImageSynth => CaptureOp.createImageSynth.perform
  | .setCaptureSink => (CaptureOp.setCaptureSink pin).perform
  | .clearCaptureSink => CaptureOp.clearCaptureSink.perform
  | .exchangePins => CaptureOp.exchangePins.perform
  | .start => Capture.start
  | .pause pausing => Capture.pause pausing
  | .stop => Capture.stop
  | .getReferenceClock => return clock
  | .setVideoInfoHeader | .deleteImageSynth | .clearVideoInfoHeader | .cleanupReferences
  | .releaseClock => return ()
  | .storeState _ members => do
    (CaptureOp.setHardwareState pin members.hardwareState).perform
    (CaptureOp.setAcquiredResources pin members.acquiredResources).perform

/-- What `SetState` calls in the Cyclone build. -/
def deviceCalls (pin : Nat) (clock : NtStatus) : PinCalls CaptureOp CaptureOp.Res where
  acquireHardwareResources := acquireHardwareResources pin
  releaseHardwareResources := releaseHardwareResources
  start := start
  pause := pause
  stop := stop
  cleanupReferences := return statusSuccess
  getReferenceClock := return clock
  releaseClock := return ()

section
variable {Op Op' : Type} {Res : Op → Type} {Res' : Op' → Type}
variable (h : (op : Op) → Prog Op' Res' (Res op))

def PinCalls.expand (calls : PinCalls Op Res) : PinCalls Op' Res' where
  acquireHardwareResources := calls.acquireHardwareResources.expand h
  releaseHardwareResources := calls.releaseHardwareResources.expand h
  start := calls.start.expand h
  pause := fun pausing => (calls.pause pausing).expand h
  stop := calls.stop.expand h
  cleanupReferences := calls.cleanupReferences.expand h
  getReferenceClock := calls.getReferenceClock.expand h
  releaseClock := calls.releaseClock.expand h

variable (calls : PinCalls Op Res) (p : PinMembers)

theorem stopIfStarted_expand :
    (stopIfStarted calls p).expand h = stopIfStarted (calls.expand h) p := by
  unfold stopIfStarted
  split
  · exact Prog.expand_bind ..
  · rfl

theorem releaseIfAcquired_expand :
    (releaseIfAcquired calls p).expand h = releaseIfAcquired (calls.expand h) p := by
  unfold releaseIfAcquired
  split
  · rw [Prog.expand_bind, Prog.expand_when]
    congr 1
    funext _
    exact Prog.expand_bind ..
  · rfl

theorem acquireResources_expand :
    (acquireResources calls p).expand h = acquireResources (calls.expand h) p := by
  unfold acquireResources
  rw [Prog.expand_bind]
  congr 1
  funext status
  split
  · exact Prog.expand_bind ..
  · rfl

theorem setState_expand (toState fromState : KsState) :
    (p.setState calls toState fromState).expand h =
      p.setState (calls.expand h) toState fromState := by
  cases toState with
  | stop =>
    simp only [PinMembers.setState, Prog.expand_bind, stopIfStarted_expand,
      releaseIfAcquired_expand]
    rfl
  | acquire =>
    simp only [PinMembers.setState]
    split
    · exact acquireResources_expand h calls p
    · simp only [Prog.expand_bind, stopIfStarted_expand]
      rfl
  | pause =>
    simp only [PinMembers.setState]
    split
    · exact Prog.expand_bind ..
    · rfl
  | run =>
    simp only [PinMembers.setState]
    split <;> exact Prog.expand_bind ..

end

variable {pin : Nat} {clock : NtStatus}

theorem acquirePinResources_expand :
    acquirePinResources.expand (PinOp.onDevice pin clock) = acquireHardwareResources pin := by
  unfold acquirePinResources acquireHardwareResources
  rw [Prog.expand_bind, PinOp.perform, Prog.expand_perform]
  congr 1
  funext old
  split
  · change (Prog.perform PinOp.createImageSynth >>= _ : PinProg NtStatus).expand _ = _
    rw [Prog.expand_bind, Prog.expand_perform]
    congr 1
    funext status
    split <;> rfl
  · rfl

theorem ownedCalls_expand :
    ownedCalls.expand (PinOp.onDevice pin clock) = deviceCalls pin clock := by
  unfold PinCalls.expand ownedCalls deviceCalls
  rw [acquirePinResources_expand]
  simp only [PinOp.perform, Prog.expand_perform, PinOp.onDevice]
  rfl

/-! ## The members beside the device -/

variable {env : (op : CaptureOp) → op.Res} {d : CaptureDevice} {x : CapturePin} {α β : Type}

/-- A routine that runs alone. -/
def alone (env : (op : CaptureOp) → op.Res) (p : CaptureProg α) (d : CaptureDevice) :
    Option (α × CaptureDevice) :=
  p.exec CaptureOp.act (answer env) d

theorem alone_bind (p : CaptureProg α) (f : α → CaptureProg β) :
    alone env (p >>= f) d = (alone env p d).bind fun y => alone env (f y.1) y.2 :=
  Prog.exec_bind p f d

theorem look_setPin {op : CaptureOp} (hop : op.sparesPins = true) :
    op.look (d.setPin pin x) = op.look d := by
  cases op <;> first | rfl | cases hop

theorem act_setPin {op : CaptureOp} (hop : op.sparesPins = true) (r : op.Res) :
    op.act (d.setPin pin x) r = (op.act d r).map fun d' => d'.setPin pin x := by
  have hvalid : op.valid (d.setPin pin x) = op.valid d := by
    cases op <;> rfl
  have heffect : op.effect r (d.setPin pin x) = (op.effect r d).setPin pin x := by
    cases op with
    | readPin | setHardwareState | setAcquiredResources => cases hop
    | mapIoSpace => cases r <;> rfl
    | writeSimulation field => cases field <;> rfl
    | unmapIoSpace bar =>
      have hbar : (d.setPin pin x).bar bar = d.bar bar := rfl
      simp only [CaptureOp.effect, CaptureDevice.unmapBar, hbar]
      cases d.bar bar <;> rfl
    | compareExchangePins =>
      simp only [CaptureOp.effect]
      split <;> rfl
    | _ => rfl
  unfold CaptureOp.act
  rw [hvalid, heffect]
  split <;> rfl

theorem alone_setPin {p : CaptureProg α} (hp : p.All fun op => op.sparesPins = true) :
    alone env p (d.setPin pin x) = (alone env p d).map fun y => (y.1, y.2.setPin pin x) := by
  induction p generalizing d with
  | ret a => rfl
  | call op k ih =>
    have hanswer : answer env op (d.setPin pin x) = answer env op d := by
      unfold answer
      rw [look_setPin hp.1]
    rw [alone, Prog.exec_call, hanswer, act_setPin hp.1, alone, Prog.exec_call]
    cases op.act d (answer env op d) with
    | none => rfl
    | some d' => exact ih _ (hp.2 _)

/-- What goes on behind it. -/
theorem alone_setPin_bind {p : CaptureProg α} (hp : p.All fun op => op.sparesPins = true)
    (f : α → CaptureProg β) :
    alone env (p >>= f) (d.setPin pin x) =
      (alone env p d).bind fun y => alone env (f y.1) (y.2.setPin pin x) := by
  rw [alone_bind, alone_setPin hp, Option.bind_map]
  rfl

theorem setPin_setPin (x' : CapturePin) :
    (d.setPin pin x).setPin pin x' = d.setPin pin x' := by
  simp [CaptureDevice.setPin]

theorem setPin_pin (pin : Nat) (d : CaptureDevice) : d.setPin pin (d.pin pin) = d := by
  simp [CaptureDevice.setPin]

theorem pin_setPin : (d.setPin pin x).pin pin = x := Function.update_self ..

theorem alone_readPin (f : CapturePin → CaptureProg β) :
    alone env ((CaptureOp.readPin pin).perform >>= f) (d.setPin pin x) =
      alone env (f x) (d.setPin pin x) :=
  Prog.exec_perform_bind (pin_setPin (d := d)) rfl

theorem alone_setHardwareState (state : HardwareState) (f : Unit → CaptureProg β) :
    alone env ((CaptureOp.setHardwareState pin state).perform >>= f) (d.setPin pin x) =
      alone env (f ()) (d.setPin pin { x with hardwareState := state }) := by
  apply Prog.exec_perform_bind rfl
  change some ((d.setPin pin x).setPin pin
    { (d.setPin pin x).pin pin with hardwareState := state }) = _
  rw [setPin_setPin, pin_setPin]

theorem alone_setAcquiredResources (acquired : Bool) (f : Unit → CaptureProg β) :
    alone env ((CaptureOp.setAcquiredResources pin acquired).perform >>= f) (d.setPin pin x) =
      alone env (f ()) (d.setPin pin { x with acquiredResources := acquired }) := by
  apply Prog.exec_perform_bind rfl
  change some ((d.setPin pin x).setPin pin
    { (d.setPin pin x).pin pin with acquiredResources := acquired }) = _
  rw [setPin_setPin, pin_setPin]

theorem alone_stopHardware (p : PinMembers) (f : Unit → CaptureProg β) :
    alone env (stopHardware pin >>= f) (d.setPin pin p.toCapturePin) =
      (alone env (stopIfStarted (deviceCalls pin clock) p) d).bind fun y =>
        alone env (f ()) (y.2.setPin pin y.1.toCapturePin) := by
  rw [stopHardware, Prog.bind_assoc, alone_readPin]
  unfold Prog.when stopIfStarted
  split
  · rw [Prog.bind_assoc, alone_setPin_bind (all_sparesPins stop_all), alone_bind,
      Option.bind_assoc]
    congr 1
    funext y
    exact alone_setHardwareState ..
  · rfl

/-- The state of the hardware behind a call of the device. -/
theorem alone_enter (state : HardwareState) (p : PinMembers) (status : NtStatus) :
    alone env (do
        Prog.when (ntSuccess status = true) (CaptureOp.setHardwareState pin state).perform
        return status) (d.setPin pin p.toCapturePin) =
      some (status, d.setPin pin (p.enter state status).toCapturePin) := by
  unfold Prog.when PinMembers.enter
  split
  · exact alone_setHardwareState ..
  · rfl

theorem alone_release (p : PinMembers) :
    alone env (do
        Prog.when (p.acquiredResources = true) (do
          releaseHardwareResources
          (CaptureOp.setAcquiredResources pin false).perform)
        return statusSuccess) (d.setPin pin p.toCapturePin) =
      (alone env (releaseIfAcquired (deviceCalls pin clock) p) d).map fun y =>
        (statusSuccess, y.2.setPin pin y.1.toCapturePin) := by
  unfold Prog.when releaseIfAcquired
  split
  · rw [Prog.bind_assoc, alone_setPin_bind (all_sparesPins releaseHardwareResources_all)]
    -- the clock is not a member of the device
    have hclock : Prog.when (p.clock = true) (deviceCalls pin clock).releaseClock = .ret () :=
      ite_self _
    rw [hclock]
    change _ = (alone env (releaseHardwareResources >>= _) d).map _
    rw [alone_bind, Option.map_bind]
    congr 1
    funext y
    exact alone_setAcquiredResources ..
  · rfl

theorem alone_setState (clock : NtStatus) (toState fromState : KsState) (p : PinMembers) :
    alone env (setState pin toState fromState) (d.setPin pin p.toCapturePin) =
      (alone env (p.setState (deviceCalls pin clock) toState fromState) d).map fun y =>
        (y.1.1, y.2.setPin pin y.1.2.toCapturePin) := by
  cases toState with
  | stop =>
    simp only [setState, PinMembers.setState]
    rw [alone_stopHardware, alone_bind, Option.map_bind]
    congr 1
    funext y
    obtain ⟨p, d⟩ := y
    change alone env ((CaptureOp.readPin pin).perform >>= _) (d.setPin pin p.toCapturePin) = _
    rw [alone_readPin, alone_release]
    change _ = (alone env (releaseIfAcquired (deviceCalls pin clock) p >>= _) d).map _
    rw [alone_bind, Option.map_bind]
    exact Option.map_eq_bind
  | acquire =>
    simp only [setState, PinMembers.setState]
    split
    · rw [acquireResources, alone_setPin_bind (all_sparesPins acquireHardwareResources_all),
        alone_bind, Option.map_bind]
      congr 1
      funext y
      obtain ⟨status, d⟩ := y
      simp only
      rw [alone_setAcquiredResources]
      cases hstatus : ntSuccess status <;> simp only [Function.comp_apply, hstatus] <;> rfl
    · rw [alone_stopHardware, alone_bind, Option.map_bind]
      rfl
  | pause =>
    simp only [setState, PinMembers.setState]
    split
    · rw [alone_setPin_bind (all_sparesPins (pause_all true)), alone_bind,
        Option.map_bind]
      congr 1
      funext y
      obtain ⟨status, d⟩ := y
      exact alone_enter ..
    · rfl
  | run =>
    simp only [setState, PinMembers.setState]
    rw [alone_readPin, alone_setPin_bind (all_sparesPins (startHardwareFrom_all _))]
    have hstart : startHardwareFrom p.hardwareState =
        if p.hardwareState = .paused then pause false else start := by
      cases p.hardwareState <;> rfl
    rw [hstart]
    split
    all_goals
      change _ = (alone env (_ >>= _) d).map _
      rw [alone_bind, Option.map_bind]
      congr 1
      funext y
      obtain ⟨status, d⟩ := y
      exact alone_enter ..

theorem alone_storeState (ksState : KsState) (p : PinMembers) :
    alone env (PinOp.onDevice pin clock (.storeState ksState p)) d =
      some ((), d.setPin pin p.toCapturePin) := by
  rw [← setPin_pin pin d]
  change alone env ((CaptureOp.setHardwareState pin p.hardwareState).perform >>= fun _ =>
    (CaptureOp.setAcquiredResources pin p.acquiredResources).perform >>= fun _ => .ret ()) _ = _
  rw [alone_setHardwareState, alone_setAcquiredResources, setPin_setPin]
  rfl

/-- A transition of the pin, with its calls carried out by the device, is that of the device. -/
theorem changePinState_onDevice (toState fromState : KsState) (p : PinMembers)
    (hp : d.pin pin = p.toCapturePin) :
    alone env ((changePinState toState fromState p).expand (PinOp.onDevice pin clock)) d =
      alone env (changeState pin toState fromState) d := by
  have hself : d.setPin pin p.toCapturePin = d := by
    rw [← hp]
    exact setPin_pin pin d
  have hchange : alone env (changeState pin toState fromState) (d.setPin pin p.toCapturePin) =
      (alone env (p.setState (deviceCalls pin clock) toState fromState) d).map fun y =>
        ((), y.2.setPin pin y.1.2.toCapturePin) := by
    rw [changeState, alone_bind, alone_setState clock, Option.bind_map]
    exact Option.map_eq_bind.symm
  rw [hself] at hchange
  rw [hchange, changePinState, Prog.expand_bind, setState_expand, ownedCalls_expand, alone_bind,
    Option.map_eq_bind]
  congr 1
  funext y
  obtain ⟨⟨status, members⟩, d⟩ := y
  change alone env ((PinOp.storeState _ members).perform.expand _) d = _
  rw [PinOp.perform, Prog.expand_perform]
  exact alone_storeState ..

end Capture

end Xadma
