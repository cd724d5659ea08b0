import Xadma.Theory.Prog
import Xadma.Libxdma.EngineProbe

/-!
# One interrupt for each source (`libxdma/interrupt.c`)

With MSI-X and multi-message MSI each source has an interrupt object of its own, with its own lock
and its own DPC. The ISR masks the source and queues the DPC, which calls the work routine of the
engine or the handler of the user event and unmasks the source. At any time `EvtDeviceFileCreate`
unmasks the engine of the file, or masks it in poll mode.
-/

namespace Xadma

/-- The objects of `SetupUserInterrupt` and `SetupChannelInterrupt`. -/
inductive MessageObject
  | user (eventId : Nat)
  | channel (index : Nat)
  deriving DecidableEq, Repr

/-- The contexts and the registers; below the queues, what is only recorded for the proofs. `T` are
the processors that run the DPCs. -/
structure MessageWorld (T : Type) where
  /-- `irqBitMask` of `engine` in the context of `channelInterrupts[index]`. -/
  irqBitMask : Nat → Option (BitVec 32)
  /-- `poll` of this engine. -/
  poll : Nat → Bool
  /-- `userEvents[i].work != NULL` -/
  userWork : Nat → Bool
  channelIntEnable : BitVec 32
  userIntEnable : BitVec 32
  lockHeld : MessageObject → Bool
  dpcQueued : MessageObject → Nat
  /-- Who runs the DPC of the object and has not unmasked its source yet. -/
  serving : MessageObject → List T
  /-- Who is in the work routine. -/
  working : MessageObject → List T
  /-- The interrupt has fired and the work routine has not begun since. -/
  owed : MessageObject → Bool

/-! ## The DPCs -/

inductive MessageOp
  | workSet (o : MessageObject)
  /-- The work routine is called, and returns. -/
  | work (o : MessageObject)
  | workDone (o : MessageObject)
  | acquireLock (o : MessageObject)
  /-- `EngineEnableInterrupt`, and the write to `userIntEnableW1S`. -/
  | enable (o : MessageObject)
  | releaseLock (o : MessageObject)
  deriving DecidableEq, Repr

abbrev MessageOp.Res : MessageOp → Type
  | .workSet _ => Bool
  | _ => Unit

abbrev MessageProg := Prog MessageOp MessageOp.Res

def MessageOp.perform (op : MessageOp) : MessageProg op.Res := Prog.perform op

/-- The end that both DPCs have. -/
def reenable (o : MessageObject) : MessageProg Unit := do
  (MessageOp.acquireLock o).perform
  (MessageOp.enable o).perform
  (MessageOp.releaseLock o).perform

def evtChannelInterruptDpc (index : Nat) : MessageProg Unit := do
  (MessageOp.work (.channel index)).perform
  (MessageOp.workDone (.channel index)).perform
  reenable (.channel index)

def evtUserInterruptDpc (eventId : Nat) : MessageProg Unit := do
  let registered : Bool ← (MessageOp.workSet (.user eventId)).perform
  Prog.when (registered = true) do
    (MessageOp.work (.user eventId)).perform
    (MessageOp.workDone (.user eventId)).perform
  reenable (.user eventId)

def evtMessageDpc : MessageObject → MessageProg Unit
  | .user eventId => evtUserInterruptDpc eventId
  | .channel index => evtChannelInterruptDpc index

namespace MessageWorld

variable {T : Type}

/-! ## The registers -/

/-- The bits of the source in its register. -/
def bits (s : MessageWorld T) : MessageObject → BitVec 32
  | .user eventId => bitN eventId
  | .channel index => (s.irqBitMask index).getD 0

def enabled (s : MessageWorld T) (o : MessageObject) : Bool :=
  match o with
  | .user _ => s.userIntEnable &&& s.bits o != 0
  | .channel _ => s.channelIntEnable &&& s.bits o != 0

/-- A write to the W1S register. -/
def setEnable (s : MessageWorld T) (o : MessageObject) : MessageWorld T :=
  match o with
  | .user _ => { s with userIntEnable := s.userIntEnable ||| s.bits o }
  | .channel _ => { s with channelIntEnable := s.channelIntEnable ||| s.bits o }

/-- A write to the W1C register. -/
def clearEnable (s : MessageWorld T) (o : MessageObject) : MessageWorld T :=
  match o with
  | .user _ => { s with userIntEnable := s.userIntEnable &&& ~~~ s.bits o }
  | .channel _ => { s with channelIntEnable := s.channelIntEnable &&& ~~~ s.bits o }

/-! ## The calls -/

/-- Whether there is something to call: the work routine of an engine always is. -/
def registered (s : MessageWorld T) : MessageObject → Bool
  | .user eventId => s.userWork eventId
  | .channel _ => true

variable [DecidableEq T]

def act (t : T) : (op : MessageOp) → MessageWorld T → op.Res → Option (MessageWorld T)
  | .workSet o, s, r => if r = s.registered o then some s else none
  | .work o, s, _ =>
    some { s with
      working := Function.update s.working o (t :: s.working o)
      owed := Function.update s.owed o false }
  | .workDone o, s, _ =>
    some { s with working := Function.update s.working o ((s.working o).erase t) }
  | .acquireLock o, s, _ =>
    if s.lockHeld o then none else some { s with lockHeld := Function.update s.lockHeld o true }
  | .enable o, s, _ =>
    some { s.setEnable o with serving := Function.update s.serving o ((s.serving o).erase t) }
  | .releaseLock o, s, _ => some { s with lockHeld := Function.update s.lockHeld o false }

end MessageWorld

/-! ## The interrupts -/

inductive MessageEvent
  /-- The ISR; `again` says whether a DPC that is queued is queued once more. -/
  | isr (o : MessageObject) (again : Bool)
  /-- A file is opened on the engine with this number. -/
  | fileCreate (index : Nat)
  deriving DecidableEq, Repr

namespace MessageWorld

variable {T : Type}

/-- `EvtChannelInterruptIsr` and `EvtUserInterruptIsr`, which run under the lock of their object.
The device raises a message for an enabled source only. -/
def evtMessageIsr (s : MessageWorld T) (o : MessageObject) (again : Bool) :
    Option (MessageWorld T) :=
  if s.lockHeld o ∨ s.enabled o = false then none
  else some { s.clearEnable o with
    dpcQueued := Function.update s.dpcQueued o
      (if 0 < s.dpcQueued o ∧ again = false then s.dpcQueued o else s.dpcQueued o + 1)
    owed := Function.update s.owed o true }

/-- What `EvtDeviceFileCreate` does to the interrupt of the engine. -/
def evtDeviceFileCreate (s : MessageWorld T) (index : Nat) : MessageWorld T :=
  if s.poll index then s.clearEnable (.channel index) else s.setEnable (.channel index)

def env : MessageEvent → MessageWorld T → Option (MessageWorld T)
  | .isr o again, s => s.evtMessageIsr o again
  | .fileCreate index, s => some (s.evtDeviceFileCreate index)

end MessageWorld

/-- The DPC of an object runs once for each time it was queued, on any processor. -/
def messageThreads (T : Type) [DecidableEq T] :
    Threads MessageOp MessageOp.Res (MessageWorld T) T MessageEvent MessageObject where
  act := fun t op s r => MessageWorld.act t op s r
  env := MessageWorld.env
  start := fun t o s =>
    if s.dpcQueued o = 0 then none
    else some ({ s with
      dpcQueued := Function.update s.dpcQueued o (s.dpcQueued o - 1)
      serving := Function.update s.serving o (t :: s.serving o) }, evtMessageDpc o)

abbrev MessageConfig (T : Type) := Config MessageOp MessageOp.Res (MessageWorld T) T

/-- The interrupts of a device that is open, enabled as `EvtChannelInterruptEnable` and
`EvtUserInterruptEnable` do it. -/
def messageConfig (T : Type) (d : Probe.Device) (userWork : Nat → Bool)
    (channelIntEnable userIntEnable : BitVec 32) : MessageConfig T :=
  ⟨{ irqBitMask := fun index => (d.context index).map fun slot => (d.engine slot).irqBitMask
     poll := fun index => (d.context index).any fun slot => (d.engine slot).poll
     userWork := userWork
     channelIntEnable := channelIntEnable
     userIntEnable := userIntEnable
     lockHeld := fun _ => false
     dpcQueued := fun _ => 0
     serving := fun _ => []
     working := fun _ => []
     owed := fun _ => false }, fun _ => .ret ()⟩

end Xadma
