import Xadma.Avsadma.CapturePin

/-!
# The status register of the dispatcher (`avsadma/device.cpp`, `avsadma/hwsim.h`)

Either service routine reads the register and, when the IRQ bit is set, writes it back. As the
header documents, writing a 1 to the IRQ bit clears it, and the other bits are unaffected by writes.

The invocations exclude each other here, as those of one interrupt object do. Those of two messages
may overlap, and `CapturePin` lets them, because the pointers must hold for all of them. Here two
that overlap could both see one completion however they acknowledge it, which is not what is asked
about the write.
-/

namespace Xadma

namespace Capture

/-- `AdmaInterruptHandler` has the text of `AdmaInterruptMessageService`. -/
def interruptHandler (traced : Bool) : CaptureProg Bool := interruptMessageService traced

/-- The two routines that `IoConnectInterruptEx` is given. -/
inductive ServiceRoutine
  | handler
  | messageService
  deriving DecidableEq, Repr

def ServiceRoutine.routine (traced : Bool) : ServiceRoutine → CaptureProg Bool
  | handler => interruptHandler traced
  | messageService => interruptMessageService traced

def ServiceRoutine.invoke (traced : Bool) (s : ServiceRoutine) : CaptureProg Unit := do
  let _ : Bool ← s.routine traced
  CaptureOp.returnFromIsr.perform

/-- What a write makes of the register. -/
def writeStatus (status value : BitVec 32) : BitVec 32 := status &&& ~~~ (value &&& csrIrqSetMask)

/-- The register; below it, what is only recorded for the proofs. -/
structure StatusWorld where
  status : BitVec 32
  /-- The other bits, as the hardware reported them last. -/
  reported : BitVec 32
  completions : Nat
  /-- The invocations that saw the IRQ bit set. -/
  seen : Nat
  /-- The one that is under way has seen it. -/
  saw : Bool
  /-- A completion arrived since. -/
  arrived : Bool
  /-- An invocation that saw the bit returned with no completion since. -/
  unanswered : Bool
  /-- One did, and the bit was still set. -/
  leftSet : Bool
  deriving DecidableEq, Repr

/-- A register that may already show a completion. -/
def StatusWorld.initial (status : BitVec 32) : StatusWorld where
  status := status
  reported := status &&& ~~~ csrIrqSetMask
  completions := if status &&& csrIrqSetMask = 0 then 0 else 1
  seen := 0
  saw := false
  arrived := false
  unanswered := false
  leftSet := false

inductive StatusEvent
  /-- A transfer is complete. -/
  | completion
  /-- The other bits change. -/
  | report (value : BitVec 32)
  deriving DecidableEq, Repr

namespace StatusWorld

def env : StatusEvent → StatusWorld → Option StatusWorld
  | .completion, w =>
    some { w with
      status := w.status ||| csrIrqSetMask
      completions := w.completions + 1
      arrived := true }
  | .report value, w =>
    some { w with
      status := w.status &&& csrIrqSetMask ||| value &&& ~~~ csrIrqSetMask
      reported := value &&& ~~~ csrIrqSetMask }

/-- The invocation sees the IRQ bit set, for the first time. -/
def see (w : StatusWorld) (reg : BitVec 32) : StatusWorld :=
  if reg &&& csrIrqSetMask ≠ 0 ∧ w.saw = false then
    { w with saw := true, seen := w.seen + 1, arrived := false }
  else w

def returnFromIsr (w : StatusWorld) : StatusWorld :=
  { w with
    saw := false
    unanswered := w.unanswered || w.saw && !w.arrived
    leftSet := w.leftSet || w.saw && !w.arrived && decide (w.status &&& csrIrqSetMask ≠ 0) }

/-- The answers to the calls that have nothing to do with the register are free. -/
def act : (op : CaptureOp) → StatusWorld → op.Res → Option StatusWorld
  | .readReg .csr 0, w, reg => if reg = w.status then some (w.see reg) else none
  | .writeReg .csr 0 value, w, _ => some { w with status := writeStatus w.status value }
  | .returnFromIsr, w, _ => some w.returnFromIsr
  | _, w, _ => some w

end StatusWorld

def statusThreads (traced : Bool) :
    Threads CaptureOp CaptureOp.Res StatusWorld Unit StatusEvent ServiceRoutine where
  act := fun _ => StatusWorld.act
  env := StatusWorld.env
  start := fun _ s w => some (w, s.invoke traced)

abbrev StatusLabel := Label CaptureOp CaptureOp.Res Unit StatusEvent ServiceRoutine

def statusConfig (status : BitVec 32) : Config CaptureOp CaptureOp.Res StatusWorld Unit :=
  ⟨.initial status, fun _ => .ret ()⟩

end Capture

end Xadma
