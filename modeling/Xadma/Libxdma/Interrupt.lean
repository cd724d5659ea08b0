import Xadma.Theory.Prog
import Xadma.Libxdma.DmaEngine

/-!
# Line and single MSI interrupts (`libxdma/interrupt.c`)

`EvtInterruptIsr` records what fired and queues `EvtInterruptDpc`, which walks over the engines and
the user events without the interrupt lock and at the end takes the lock to enable what it finds
recorded and clear the record. The ISR runs between any two steps of the DPC outside the lock.
-/

namespace Xadma

def xdmaMaxNumChannels : Nat := 4
def xdmaMaxUserIrq : Nat := 16

/-- An engine as the DPC finds it: `engines[channel][dir]`. -/
structure EngineSlot where
  dir : DirToDev
  channel : Nat
  deriving DecidableEq, Repr

/-- The engines in the order of the two loops of the DPC. -/
def engineSlots : List EngineSlot :=
  [DirToDev.h2c, DirToDev.c2h].flatMap fun dir =>
    (List.range xdmaMaxNumChannels).map fun channel => ⟨dir, channel⟩

/-- The turn of an engine in these loops. -/
def EngineSlot.turn (e : EngineSlot) : Nat :=
  match e.dir with
  | .h2c => e.channel
  | .c2h => xdmaMaxNumChannels + e.channel

/-- The user events come after the engines. -/
def userTurn (i : Nat) : Nat := 2 * xdmaMaxNumChannels + i

structure EngineIrq where
  enabled : Bool
  irqBitMask : BitVec 32
  deriving DecidableEq

/-- The interrupt context and registers; below the queue, what is only recorded for the proofs. -/
structure IrqWorld where
  engine : EngineSlot → EngineIrq
  /-- `userEvents[i].work != NULL` -/
  userWork : Nat → Bool
  channelIntEnable : BitVec 32
  userIntEnable : BitVec 32
  channelIrqPending : BitVec 32
  userIrqPending : BitVec 32
  lockHeld : Bool
  dpcQueued : Nat
  /-- The turn that the DPC has not passed yet. -/
  next : Nat
  /-- The recorded bits whose work routine or handler has not run since. -/
  channelOwed : BitVec 32
  userOwed : BitVec 32
  /-- A bit was cleared while it was owed. -/
  forgotten : Bool

/-! ## The DPC -/

inductive IrqOp
  | engineEnabled (e : EngineSlot)
  | channelIrqPending (e : EngineSlot)
  | engineWork (e : EngineSlot)
  | userIrqPending (i : Nat)
  | userWorkSet (i : Nat)
  | userWork (i : Nat)
  | acquireLock
  | enableChannelInts
  | clearChannelIrqPending
  | enableUserInts
  | clearUserIrqPending
  | releaseLock
  deriving DecidableEq, Repr

abbrev IrqOp.Res : IrqOp → Type
  | .engineEnabled _ | .channelIrqPending _ | .userIrqPending _ | .userWorkSet _ => Bool
  | _ => Unit

abbrev IrqProg := Prog IrqOp IrqOp.Res

def IrqOp.perform (op : IrqOp) : IrqProg op.Res := Prog.perform op

def serviceEngine (e : EngineSlot) : IrqProg Unit := do
  let enabled : Bool ← (IrqOp.engineEnabled e).perform
  if enabled then
    let pending : Bool ← (IrqOp.channelIrqPending e).perform
    if pending then
      (IrqOp.engineWork e).perform

def serviceUserEvent (i : Nat) : IrqProg Unit := do
  let pending : Bool ← (IrqOp.userIrqPending i).perform
  if pending then
    let registered : Bool ← (IrqOp.userWorkSet i).perform
    if registered then
      (IrqOp.userWork i).perform

def evtInterruptDpc : IrqProg Unit := do
  Prog.forEach engineSlots serviceEngine
  Prog.forEach (List.range xdmaMaxUserIrq) serviceUserEvent
  IrqOp.acquireLock.perform
  IrqOp.enableChannelInts.perform
  IrqOp.clearChannelIrqPending.perform
  IrqOp.enableUserInts.perform
  IrqOp.clearUserIrqPending.perform
  IrqOp.releaseLock.perform

namespace IrqWorld

/-- A test of the DPC: its answer is what the state says, and the turn passes on a no. -/
def test (s : IrqWorld) (value answer : Bool) : Option IrqWorld :=
  if answer = value then
    some (if answer then s else { s with next := s.next + 1 })
  else none

def act : (op : IrqOp) → IrqWorld → op.Res → Option IrqWorld
  | .engineEnabled e, s, r => s.test (s.engine e).enabled r
  | .channelIrqPending e, s, r =>
    s.test (s.channelIrqPending &&& (s.engine e).irqBitMask != 0) r
  | .engineWork e, s, _ =>
    some { s with
      next := s.next + 1
      channelOwed := s.channelOwed &&& ~~~ (s.engine e).irqBitMask }
  | .userIrqPending i, s, r => s.test (s.userIrqPending &&& bitN i != 0) r
  | .userWorkSet i, s, r => s.test (s.userWork i) r
  | .userWork i, s, _ =>
    some { s with next := s.next + 1, userOwed := s.userOwed &&& ~~~ (bitN i) }
  | .acquireLock, s, _ => some { s with lockHeld := true }
  | .enableChannelInts, s, _ =>
    some { s with channelIntEnable := s.channelIntEnable ||| s.channelIrqPending }
  | .clearChannelIrqPending, s, _ =>
    some { s with
      channelIrqPending := 0
      channelOwed := 0
      forgotten := s.forgotten || s.channelOwed != 0 }
  | .enableUserInts, s, _ =>
    some { s with userIntEnable := s.userIntEnable ||| s.userIrqPending }
  | .clearUserIrqPending, s, _ =>
    some { s with
      userIrqPending := 0
      userOwed := 0
      forgotten := s.forgotten || s.userOwed != 0 }
  -- whatever is recorded from here on is for the next DPC
  | .releaseLock, s, _ => some { s with lockHeld := false, next := 0 }

end IrqWorld

/-! ## The ISR -/

/-- What happens next to the DPC: an interrupt, with the sources that are raised, and the writes of
`EngineEnableInterrupt`, `EngineDisableInterrupt` and their like to the enable registers. -/
inductive IrqEvent
  | isr (channel user : BitVec 32)
  | setChannelIntEnable (value : BitVec 32)
  | setUserIntEnable (value : BitVec 32)
  deriving DecidableEq, Repr

namespace IrqWorld

/-- `EvtInterruptIsr`, which runs under the interrupt lock. The request registers show the raised
sources that are enabled. -/
def evtInterruptIsr (s : IrqWorld) (channel user : BitVec 32) : Option IrqWorld :=
  if s.lockHeld then none
  else
    let chIrq := channel &&& s.channelIntEnable
    let userIrq := user &&& s.userIntEnable
    some { s with
      channelIrqPending := s.channelIrqPending ||| chIrq
      channelIntEnable := s.channelIntEnable &&& ~~~ chIrq
      userIrqPending := s.userIrqPending ||| userIrq
      userIntEnable := s.userIntEnable &&& ~~~ userIrq
      dpcQueued := if chIrq = 0 ∧ userIrq = 0 then s.dpcQueued else s.dpcQueued + 1
      channelOwed := s.channelOwed ||| chIrq
      userOwed := s.userOwed ||| userIrq }

def env : IrqEvent → IrqWorld → Option IrqWorld
  | .isr channel user, s => s.evtInterruptIsr channel user
  | .setChannelIntEnable value, s => some { s with channelIntEnable := value }
  | .setUserIntEnable value, s => some { s with userIntEnable := value }

end IrqWorld

/-- One interrupt object: its DPC runs once for each time it was queued, and one run has ended when
the next one begins. In `irqMaskThreads` they overlap. -/
def irqThreads : Threads IrqOp IrqOp.Res IrqWorld Unit IrqEvent Unit where
  act := fun _ op s r => IrqWorld.act op s r
  env := IrqWorld.env
  start := fun _ _ s =>
    if s.dpcQueued = 0 then none
    else some ({ s with dpcQueued := s.dpcQueued - 1 }, evtInterruptDpc)

/-- The device is set up and nothing has fired. -/
def IrqWorld.init (engine : EngineSlot → EngineIrq) (userWork : Nat → Bool)
    (channelIntEnable userIntEnable : BitVec 32) : IrqWorld where
  engine := engine
  userWork := userWork
  channelIntEnable := channelIntEnable
  userIntEnable := userIntEnable
  channelIrqPending := 0
  userIrqPending := 0
  lockHeld := false
  dpcQueued := 0
  next := 0
  channelOwed := 0
  userOwed := 0
  forgotten := false

/-! ## The masks

What is disabled and what is recorded, when the request registers may show anything. -/

namespace IrqWorld

/-- `EvtInterruptEnable`; a write to a W1S register sets the bits that are written. -/
def evtInterruptEnable (s : IrqWorld) : IrqWorld :=
  { s with
    channelIntEnable := s.channelIntEnable ||| 0xFFFFFFFF
    userIntEnable := s.userIntEnable ||| 0xFFFFFFFF }

/-- `EvtInterruptIsr` with what it reads from the request registers. `WdfInterruptQueueDpcForIsr`
queues a run of the DPC; `again` says whether it does when one is queued already. -/
def serviceRequest (s : IrqWorld) (chIrq userIrq : BitVec 32) (again : Bool) : Option IrqWorld :=
  if s.lockHeld then none
  else some { s with
    channelIrqPending := s.channelIrqPending ||| chIrq
    channelIntEnable := s.channelIntEnable &&& ~~~ chIrq
    userIrqPending := s.userIrqPending ||| userIrq
    userIntEnable := s.userIntEnable &&& ~~~ userIrq
    dpcQueued :=
      if chIrq = 0 ∧ userIrq = 0 then s.dpcQueued
      else if 0 < s.dpcQueued ∧ again = false then s.dpcQueued
      else s.dpcQueued + 1
    channelOwed := s.channelOwed ||| chIrq
    userOwed := s.userOwed ||| userIrq }

/-- `evtInterruptIsr` is the case that the request registers show enabled sources only. -/
theorem evtInterruptIsr_eq (s : IrqWorld) (channel user : BitVec 32) :
    s.evtInterruptIsr channel user =
      s.serviceRequest (channel &&& s.channelIntEnable) (user &&& s.userIntEnable) true := by
  simp [evtInterruptIsr, serviceRequest]

end IrqWorld

structure IrqRequest where
  chIrq : BitVec 32
  userIrq : BitVec 32
  again : Bool
  deriving DecidableEq, Repr

/-- The ISR and the DPC, which once it runs can be queued again and run on another processor: `T`
are the processors. The interrupt lock has one holder. -/
def irqMaskThreads (T : Type) : Threads IrqOp IrqOp.Res IrqWorld T IrqRequest Unit where
  act := fun _ op s r =>
    if op = .acquireLock ∧ s.lockHeld = true then none else IrqWorld.act op s r
  env := fun e s => s.serviceRequest e.chIrq e.userIrq e.again
  start := fun _ _ s =>
    if s.dpcQueued = 0 then none
    else some ({ s with dpcQueued := s.dpcQueued - 1 }, evtInterruptDpc)

end Xadma
