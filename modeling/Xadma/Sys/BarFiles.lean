import Xadma.Theory.Memory
import Xadma.Theory.Prog
import Xadma.Sys.FileIo

/-!
# BAR requests side by side (`sys/file_io.c`, `sys/driver.c`)

The entry queue presents requests in parallel, so the register accesses of one request go on next to
those of the others. The user BAR and the bypass BAR behave as memory here. The control BAR is left
out: what is read of its registers is not what was written to them.
-/

namespace Xadma

/-- A read or write request to the file of the user or the bypass BAR, with what its memory holds
when it is presented. -/
structure BarRequest (w : PointerWidth) (ι : Type) where
  driver : Driver
  write : Bool
  devType : DevNodeType
  isMemory : devType = .user ∨ devType = .bypass
  bar : ι
  request : IoRequest w
  memory : List (BitVec 8)
  length : memory.length = request.length.toNat

/-- The register access of one unit, and the call that completes a request. -/
inductive BarOp (w : PointerWidth)
  | readRegister (id : Nat) (addr : BitVec w.bits) (size place : Nat)
  | writeRegister (id : Nat) (addr : BitVec w.bits) (size place : Nat)
  | complete (id : Nat) (status : NtStatus) (information : Nat)
  deriving DecidableEq

abbrev BarOp.Res {w : PointerWidth} : BarOp w → Type
  | _ => Unit

abbrev BarProg (w : PointerWidth) := Prog (BarOp w) BarOp.Res

variable {w : PointerWidth} {ι T : Type}

def BarOp.perform (op : BarOp w) : BarProg w Unit := Prog.perform op

/-! ## The routines -/

/-- `READ_REGISTER_BUFFER_*` and `WRITE_REGISTER_BUFFER_*`, unit by unit. -/
def registerBuffer (write : Bool) (id : Nat) (a : RegisterAccess w) : BarProg w Unit :=
  Prog.forEach (List.range a.count) fun k =>
    let addr := a.addr + BitVec.ofNat w.bits (a.size * k)
    if write then (BarOp.writeRegister id addr a.size (a.size * k)).perform
    else (BarOp.readRegister id addr a.size (a.size * k)).perform

/-- What `EvtIoRead` or `EvtIoWrite` makes of the request. -/
def BarRequest.outcome (bars : ι → Bar w) (q : BarRequest w ι) : IoOutcome w :=
  let file : FileContext w := ⟨q.devType, bars q.bar⟩
  if q.write then evtIoWrite q.driver file q.request else evtIoRead q.driver file q.request

def evtIoBar (bars : ι → Bar w) (q : BarRequest w ι) (id : Nat) : BarProg w Unit := do
  Prog.forEach (q.outcome bars).accesses (registerBuffer q.write id)
  match (q.outcome bars).completed with
  | some (status, information) => (BarOp.complete id status information).perform
  | none => .ret ()

/-! ## The entry queue -/

/-- How a request ended, and what its memory held then. -/
structure BarCompletion where
  id : Nat
  status : NtStatus
  information : Nat
  data : List (BitVec 8)
  deriving DecidableEq, Repr

/-- The BARs and the request memories; `working` and `completions` are only recorded for the proofs.
`T` are the threads of the framework. -/
structure BarWorld (w : PointerWidth) (T : Type) where
  memory : Memory w.bits (BitVec 8)
  buffer : Nat → List (BitVec 8)
  presented : Nat
  /-- The request on which a thread works. -/
  working : T → Option Nat
  completions : List BarCompletion

variable [DecidableEq T]

def BarWorld.act (t : T) : BarOp w → BarWorld w T → BarWorld w T
  | .readRegister id addr size place, s =>
    let data := s.memory.load addr size
    { s with buffer := Function.update s.buffer id (splice (s.buffer id) place data) }
  | .writeRegister id addr size place, s =>
    { s with memory := s.memory.store addr (((s.buffer id).drop place).take size) }
  | .complete id status information, s =>
    { s with
      working := Function.update s.working t none
      completions := s.completions ++ [⟨id, status, information, s.buffer id⟩] }

/-- `WdfIoQueueDispatchParallel`: a thread may take up the next request whatever the others do. -/
def barThreads (T : Type) [DecidableEq T] (bars : ι → Bar w) (requests : Nat → BarRequest w ι) :
    Threads (BarOp w) BarOp.Res (BarWorld w T) T Empty Nat where
  act := fun t op s _ => some (s.act t op)
  env := fun e _ => e.elim
  start := fun t id s =>
    if id = s.presented then
      some ({ s with
        buffer := Function.update s.buffer id (requests id).memory
        presented := id + 1
        working := Function.update s.working t (some id) }, evtIoBar bars (requests id) id)
    else none

def barConfig (T : Type) (memory : Memory w.bits (BitVec 8)) :
    Config (BarOp w) BarOp.Res (BarWorld w T) T :=
  ⟨⟨memory, fun _ => [], 0, fun _ => none, []⟩, fun _ => .ret ()⟩

end Xadma
