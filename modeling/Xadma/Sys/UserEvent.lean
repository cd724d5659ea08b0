import Xadma.Theory.Prog
import Xadma.Libxdma.Reg

/-!
# Reading a user event (`sys/file_io.c`)

`EvtReadUserEvent` clears the event and waits for it; `HandleUserEvent`, which the DPC of the user
interrupt calls, pulses it. The client (`exe/user_event/user_event.cpp`) reads one event node again
and again.
-/

namespace Xadma

def sizeofBoolean : Nat := 1

inductive UserEventOp
  | clearEvent
  /-- The two ends of `KeWaitForSingleObject`. -/
  | beginWait
  | endWait
  /-- With the size of the buffer. -/
  | retrieveOutputMemory
  | copyFromBuffer (eventValue : Bool)
  /-- The read returns, with a value if it succeeds. -/
  | complete (status : NtStatus) (value : Option Bool)
  deriving DecidableEq, Repr

abbrev UserEventOp.Res : UserEventOp → Type
  | .endWait | .copyFromBuffer _ => NtStatus
  | .retrieveOutputMemory => NtStatus × Nat
  | _ => Unit

abbrev UserEventProg := Prog UserEventOp UserEventOp.Res

def UserEventOp.perform (o : UserEventOp) : UserEventProg o.Res := Prog.perform o

/-- A failure is returned to `EvtIoRead`, which completes the request with it. -/
def evtReadUserEvent (length : Nat) : UserEventProg Unit :=
  if length ≠ sizeofBoolean then (UserEventOp.complete statusInvalidParameter none).perform
  else do
    UserEventOp.clearEvent.perform
    UserEventOp.beginWait.perform
    let status : NtStatus ← UserEventOp.endWait.perform
    let eventValue := status != statusTimeout
    let outputMem : NtStatus × Nat ← UserEventOp.retrieveOutputMemory.perform
    if !ntSuccess outputMem.1 then (UserEventOp.complete outputMem.1 none).perform
    else if outputMem.2 ≠ sizeofBoolean then
      (UserEventOp.complete statusInvalidParameter none).perform
    else do
      let status : NtStatus ← (UserEventOp.copyFromBuffer eventValue).perform
      if !ntSuccess status then (UserEventOp.complete status none).perform
      else (UserEventOp.complete status (some eventValue)).perform

/-- A read that has returned. -/
structure UserEventRead where
  /-- The events between the return of the read before and the wait of this one. -/
  missed : Nat
  /-- Those while it waited. -/
  heard : Nat
  value : Option Bool
  deriving DecidableEq, Repr

/-- The event and its waiter; below `woken`, what is only recorded for the proofs. -/
structure UserEventWorld where
  signalled : Bool
  waiting : Bool
  /-- The wait is satisfied. -/
  woken : Bool
  /-- The events since the last read returned for which nobody waited. -/
  unheard : Nat
  missed : Nat
  heard : Nat
  reads : List UserEventRead
  deriving DecidableEq, Repr

namespace UserEventWorld

def act : (o : UserEventOp) → UserEventWorld → o.Res → Option UserEventWorld
  | .clearEvent, s, _ => some { s with signalled := false }
  | .beginWait, s, _ =>
    some { s with waiting := true, woken := s.signalled, missed := s.unheard, heard := 0 }
  -- the time is up at any time
  | .endWait, s, status =>
    if status = if s.woken then statusSuccess else statusTimeout then
      some { s with waiting := false, woken := false }
    else none
  | .retrieveOutputMemory, s, _ => some s
  | .copyFromBuffer _, s, _ => some s
  | .complete _ value, s, _ =>
    some { s with
      unheard := 0
      missed := 0
      heard := 0
      reads := s.reads ++ [⟨s.missed, s.heard, value⟩] }

/-- `KePulseEvent` satisfies a wait that has begun and leaves the event reset. -/
def handleUserEvent (s : UserEventWorld) : UserEventWorld :=
  { s with
    signalled := false
    woken := s.woken || s.waiting
    unheard := if s.waiting then s.unheard else s.unheard + 1
    heard := if s.waiting then s.heard + 1 else s.heard }

end UserEventWorld

inductive UserEventStart
  | read (length : Nat)
  deriving DecidableEq, Repr

/-- The client reads, and the only other step is the handler of the event. -/
def userEventThreads :
    Threads UserEventOp UserEventOp.Res UserEventWorld Unit Unit UserEventStart where
  act := fun _ o s r => UserEventWorld.act o s r
  env := fun _ s => some s.handleUserEvent
  start := fun _ (.read length) s => some (s, evtReadUserEvent length)

/-- `KeInitializeEvent` has left the event reset. -/
def userEventConfig : Config UserEventOp UserEventOp.Res UserEventWorld Unit :=
  ⟨⟨false, false, false, 0, 0, 0, []⟩, fun _ => .ret ()⟩

end Xadma
