import Xadma.Theory.Prog
import Xadma.Avsadma.PinState

/-!
# The pins of one device (`avsadma/capture.cpp`, `avsadma/device.cpp`)

Any number of pins take their transitions at the same time. What they share is the capture device:
its count of the pins with resources, its capture sink, its video info header and its image
synthesizer, and the hardware behind `Start`, `Pause` and `Stop`, which may fail in either build.
-/

namespace Xadma

namespace Capture

/-! ## Calls -/

/-- The calls of a pin. What a pin does to its own members takes effect when it stores them, at the
end of `SetState`. -/
inductive PinOp
  | compareExchangePins
  | setVideoInfoHeader
  | deleteImageSynth
  | createImageSynth
  | setCaptureSink
  | clearVideoInfoHeader
  | clearCaptureSink
  | exchangePins
  | start
  | pause (pausing : Bool)
  | stop
  | cleanupReferences
  | getReferenceClock
  | releaseClock
  | storeState (ksState : KsState) (members : PinMembers)
  deriving DecidableEq

abbrev PinOp.Res : PinOp → Type
  | .compareExchangePins => Nat
  | .createImageSynth | .start | .pause _ | .stop | .getReferenceClock => NtStatus
  | _ => Unit

abbrev PinProg := Prog PinOp PinOp.Res

def PinOp.perform (o : PinOp) : PinProg o.Res := Prog.perform o

def releasePinResources : PinProg Unit := do
  PinOp.deleteImageSynth.perform
  PinOp.clearVideoInfoHeader.perform
  PinOp.clearCaptureSink.perform
  PinOp.exchangePins.perform

/-- The synthesizer is not created when the format is another or memory is short. -/
def acquirePinResources : PinProg NtStatus := do
  let old : Nat ← PinOp.compareExchangePins.perform
  if old = 0 then do
    PinOp.setVideoInfoHeader.perform
    PinOp.deleteImageSynth.perform
    let status : NtStatus ← PinOp.createImageSynth.perform
    if ntSuccess status then do
      PinOp.setCaptureSink.perform
      return status
    else do
      releasePinResources
      return status
  else return statusSharingViolation

def ownedCalls : PinCalls PinOp PinOp.Res where
  acquireHardwareResources := acquirePinResources
  releaseHardwareResources := releasePinResources
  start := PinOp.start.perform
  pause := fun pausing => (PinOp.pause pausing).perform
  stop := PinOp.stop.perform
  cleanupReferences := do
    PinOp.cleanupReferences.perform
    return statusSuccess
  getReferenceClock := PinOp.getReferenceClock.perform
  releaseClock := PinOp.releaseClock.perform

/-- A transition of a pin. -/
def changePinState (toState fromState : KsState) (members : PinMembers) : PinProg Unit := do
  let (status, members) ← members.setState ownedCalls toState fromState
  (PinOp.storeState (fromState.after toState status) members).perform

/-! ## The world -/

structure OwnedPin where
  ksState : KsState
  members : PinMembers
  /-- How many clones the pin holds. -/
  clones : Nat

def OwnedPin.created : OwnedPin := ⟨.stop, .created, 0⟩

/-- The members of the device that belong to the owner, by the pin that they come from. -/
structure OwnerMembers where
  captureSink : Option Nat
  videoInfoHeader : Option Nat
  imageSynth : Option Nat
  deriving DecidableEq, Repr

structure OwnershipWorld where
  pinsWithResources : Nat
  device : OwnerMembers
  pins : Nat → OwnedPin
  /-- The pin that exchanged the count for 1 and not yet for 0. -/
  owner : Option Nat
  /-- A pin made a call to the hardware or to the members of the device and was not the owner. -/
  trespassed : Bool

def OwnershipWorld.created : OwnershipWorld :=
  ⟨0, ⟨none, none, none⟩, fun _ => .created, none, false⟩

namespace PinOp

/-- The calls that only the owner may make. -/
def touches : PinOp → Bool
  | compareExchangePins | cleanupReferences | getReferenceClock | releaseClock
  | storeState .. => false
  | _ => true

/-- The count is read as it is. -/
def possible (w : OwnershipWorld) : (o : PinOp) → o.Res → Bool
  | compareExchangePins, old => old = w.pinsWithResources
  | _, _ => true

def pinsAfter (pinsWithResources : Nat) : PinOp → Nat
  | compareExchangePins => if pinsWithResources = 0 then 1 else pinsWithResources
  | exchangePins => 0
  | _ => pinsWithResources

def ownerAfter (n pinsWithResources : Nat) (owner : Option Nat) : PinOp → Option Nat
  | compareExchangePins => if pinsWithResources = 0 then some n else owner
  | exchangePins => none
  | _ => owner

def deviceAfter (n : Nat) (d : OwnerMembers) : (o : PinOp) → o.Res → OwnerMembers
  | setVideoInfoHeader, _ => { d with videoInfoHeader := some n }
  | deleteImageSynth, _ => { d with imageSynth := none }
  | createImageSynth, status => if ntSuccess status then { d with imageSynth := some n } else d
  | setCaptureSink, _ => { d with captureSink := some n }
  | clearVideoInfoHeader, _ => { d with videoInfoHeader := none }
  | clearCaptureSink, _ => { d with captureSink := none }
  | _, _ => d

def pinAfter (p : OwnedPin) : PinOp → OwnedPin
  | cleanupReferences => { p with clones := 0 }
  | storeState ksState members => { p with ksState := ksState, members := members }
  | _ => p

/-- What a call of pin `n` does. -/
def effect (n : Nat) (o : PinOp) (r : o.Res) (w : OwnershipWorld) : OwnershipWorld where
  pinsWithResources := o.pinsAfter w.pinsWithResources
  device := o.deviceAfter n w.device r
  pins := Function.update w.pins n (o.pinAfter (w.pins n))
  owner := o.ownerAfter n w.pinsWithResources w.owner
  trespassed := w.trespassed || o.touches && decide (w.owner ≠ some n)

end PinOp

def OwnershipWorld.act (n : Nat) (o : PinOp) (w : OwnershipWorld) (r : o.Res) :
    Option OwnershipWorld :=
  if o.possible w r then some (o.effect n r w) else none

/-- What comes from outside the transitions. -/
inductive CloneEvent
  | process (pin clones : Nat)
  | completeMappings (pin clones : Nat)

def OwnershipWorld.setClones (n clones : Nat) (w : OwnershipWorld) : OwnershipWorld :=
  let p := { w.pins n with clones := clones }
  { w with pins := Function.update w.pins n p }

/-- A pin clones in `KSSTATE_RUN` only, and may lose clones at any time. -/
def CloneEvent.step : CloneEvent → OwnershipWorld → Option OwnershipWorld
  | process n clones, w =>
    if (w.pins n).ksState = .run then some (w.setClones n ((w.pins n).clones + clones)) else none
  | completeMappings n clones, w => some (w.setClones n ((w.pins n).clones - clones))

def ownershipThreads : Threads PinOp PinOp.Res OwnershipWorld Nat CloneEvent KsState where
  act := OwnershipWorld.act
  env := CloneEvent.step
  start := fun n toState w =>
    let p := w.pins n
    if p.ksState.adjacent toState then some (w, changePinState toState p.ksState p.members)
    else none

abbrev OwnershipConfig := Config PinOp PinOp.Res OwnershipWorld Nat

def ownershipConfig : OwnershipConfig := ⟨.created, fun _ => .ret ()⟩

end Capture

end Xadma
