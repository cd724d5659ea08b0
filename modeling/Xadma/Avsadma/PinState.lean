import Xadma.Avsadma.CaptureDevice

/-!
# The transitions of a capture pin (`avsadma/capture.cpp`)

`CCapturePin::SetState` calls the device, cleans up the stream pointers and gets and releases the
clock. What these calls are is left open (`PinCalls`); the members that it reads and writes are
passed on. Frame counters and times are left out.
-/

namespace Xadma

namespace Capture

structure PinMembers extends CapturePin where
  /-- `m_Clock` is not `NULL`. -/
  clock : Bool
  deriving DecidableEq, Repr

/-- A pin as it is created. -/
def PinMembers.created : PinMembers := ⟨⟨.stopped, false⟩, false⟩

/-- What `SetState` calls, over the calls `Op` of a world. -/
structure PinCalls (Op : Type) (Res : Op → Type) where
  acquireHardwareResources : Prog Op Res NtStatus
  releaseHardwareResources : Prog Op Res Unit
  start : Prog Op Res NtStatus
  pause (pausing : Bool) : Prog Op Res NtStatus
  stop : Prog Op Res NtStatus
  cleanupReferences : Prog Op Res NtStatus
  getReferenceClock : Prog Op Res NtStatus
  releaseClock : Prog Op Res Unit

section
variable {Op : Type} {Res : Op → Type} (calls : PinCalls Op Res)

/-- Stop the hardware if the pin did anything to it. The status is asserted only. -/
def stopIfStarted (p : PinMembers) : Prog Op Res PinMembers :=
  if p.hardwareState ≠ .stopped then do
    let _ ← calls.stop
    return { p with hardwareState := .stopped }
  else return p

/-- Release what an owner has. -/
def releaseIfAcquired (p : PinMembers) : Prog Op Res PinMembers :=
  if p.acquiredResources then do
    Prog.when (p.clock = true) calls.releaseClock
    calls.releaseHardwareResources
    return { p with clock := false, acquiredResources := false }
  else return p

def acquireResources (p : PinMembers) : Prog Op Res (NtStatus × PinMembers) := do
  let status ← calls.acquireHardwareResources
  if ntSuccess status then do
    let clock ← calls.getReferenceClock
    return (status, { p with acquiredResources := true, clock := ntSuccess clock })
  else return (status, { p with acquiredResources := false })

/-- The hardware is in `state` if the call succeeded. -/
def PinMembers.enter (p : PinMembers) (state : HardwareState) (status : NtStatus) : PinMembers :=
  if ntSuccess status then { p with hardwareState := state } else p

def PinMembers.setState (toState fromState : KsState) (p : PinMembers) :
    Prog Op Res (NtStatus × PinMembers) :=
  match toState with
  | .stop => do
    let p ← stopIfStarted calls p
    let status ← calls.cleanupReferences
    let p ← releaseIfAcquired calls p
    return (status, p)
  | .acquire =>
    if fromState = .stop then acquireResources calls p
    else do
      let p ← stopIfStarted calls p
      let status ← calls.cleanupReferences
      return (status, p)
  | .pause =>
    if fromState = .run then do
      let status ← calls.pause true
      return (status, p.enter .paused status)
    else return (statusSuccess, p)
  | .run => do
    let status ← if p.hardwareState = .paused then calls.pause false else calls.start
    return (status, p.enter .running status)

variable {calls} {P : Op → Prop}

theorem stopIfStarted_all (hstop : calls.stop.All P) (p : PinMembers) :
    (stopIfStarted calls p).All P := by
  unfold stopIfStarted
  split
  · exact hstop.bind fun _ => trivial
  · exact trivial

theorem releaseIfAcquired_all (hclock : calls.releaseClock.All P)
    (hrelease : calls.releaseHardwareResources.All P) (p : PinMembers) :
    (releaseIfAcquired calls p).All P := by
  unfold releaseIfAcquired
  split
  · apply hclock.when.bind
    intro _
    exact hrelease.bind fun _ => trivial
  · exact trivial

theorem acquireResources_all (hacquire : calls.acquireHardwareResources.All P)
    (hclock : calls.getReferenceClock.All P) (p : PinMembers) :
    (acquireResources calls p).All P := by
  apply hacquire.bind
  intro status
  split
  · exact hclock.bind fun _ => trivial
  · exact trivial

end

/-! ## The calls one by one -/

inductive SetStateCall
  | acquireHardwareResources
  | releaseHardwareResources
  | start
  | pause (pausing : Bool)
  | stop
  | cleanupReferences
  | getReferenceClock
  | releaseClock
  deriving DecidableEq, Repr

abbrev SetStateCall.Res : SetStateCall → Type
  | .releaseHardwareResources | .releaseClock => Unit
  | _ => NtStatus

abbrev SetStateProg := Prog SetStateCall SetStateCall.Res

def SetStateCall.perform (o : SetStateCall) : SetStateProg o.Res := Prog.perform o

/-- Every call is one step. -/
def pinCalls : PinCalls SetStateCall SetStateCall.Res where
  acquireHardwareResources := SetStateCall.acquireHardwareResources.perform
  releaseHardwareResources := SetStateCall.releaseHardwareResources.perform
  start := SetStateCall.start.perform
  pause := fun pausing => (SetStateCall.pause pausing).perform
  stop := SetStateCall.stop.perform
  cleanupReferences := SetStateCall.cleanupReferences.perform
  getReferenceClock := SetStateCall.getReferenceClock.perform
  releaseClock := SetStateCall.releaseClock.perform

/-! ## The states of the pin -/

/-- Their order, from `KSSTATE_STOP` on. -/
def KsState.level : KsState → Nat
  | stop => 0
  | acquire => 1
  | pause => 2
  | run => 3

/-- The transitions that a pin receives. -/
def KsState.adjacent (fromState toState : KsState) : Bool :=
  fromState.level + 1 = toState.level || toState.level + 1 = fromState.level

/-- The pin stays where it is when the transition fails. -/
def KsState.after (fromState toState : KsState) (status : NtStatus) : KsState :=
  if ntSuccess status then toState else fromState

end Capture

end Xadma
