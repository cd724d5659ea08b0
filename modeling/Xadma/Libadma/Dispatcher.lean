import Mathlib.Logic.Function.Basic
import Xadma.Libadma.Engine

/-!
# The dispatcher of the Cyclone build (`libadma/adma_engine.c`, `ADMA_Driver/driver.c`)

`EngineCreate` gives the engines of both directions the same dispatcher and the same translation
registers. Each engine has a sequential queue of its own, which calls `ADMA_EngineProgramDma` for
the fragments of its requests, and nothing orders the calls of one queue against those of the other.
The dispatcher executes the committed descriptors in the order in which it got them.
-/

namespace Xadma

namespace Dispatcher

/-- The words that give a descriptor its meaning. -/
inductive Word
  | a2pAddrLo0
  | a2pAddrHi0
  | readAddress
  | writeAddress
  | transferLength
  deriving DecidableEq, Repr

/-- What is programmed of the translation entry, which outlives the call that programs it. -/
def entryPart (written : Word → Option (BitVec 32)) : Word → Option (BitVec 32)
  | .a2pAddrLo0 => written .a2pAddrLo0
  | .a2pAddrHi0 => written .a2pAddrHi0
  | .readAddress | .writeAddress | .transferLength => none

end Dispatcher

open Dispatcher (Word)

def AdmaRegs.word (s : AdmaRegs) : Word → BitVec 32
  | .a2pAddrLo0 => s.a2pAddrLo0
  | .a2pAddrHi0 => s.a2pAddrHi0
  | .readAddress => s.port.readAddress
  | .writeAddress => s.port.writeAddress
  | .transferLength => s.port.transferLength

/-- The word that an access writes, and its value. -/
def AdmaOp.writes : AdmaOp → Option (Word × BitVec 32)
  | .writeA2pAddrLo0 value => some (.a2pAddrLo0, value)
  | .writeA2pAddrHi0 value => some (.a2pAddrHi0, value)
  | .writeReadAddress value => some (.readAddress, value)
  | .writeWriteAddress value => some (.writeAddress, value)
  | .writeTransferLength value => some (.transferLength, value)
  | _ => none

/-- The entry that a call programs. -/
def ProgramCall.entry (call : ProgramCall) (a2pMask : BitVec 32) : Word → Option (BitVec 32)
  | .a2pAddrLo0 => some (call.sgList.a2pAddrLo0 a2pMask)
  | .a2pAddrHi0 => some call.sgList.a2pAddrHi0
  | _ => none

namespace Dispatcher

/-! ## The queues -/

inductive Op
  /-- An access made for a call. -/
  | access (call : ProgramCall) (o : AdmaOp)
  /-- The call returns. -/
  | leaveProgramDma
  deriving DecidableEq

abbrev Op.Res : Op → Type
  | .access _ o => o.Res
  | .leaveProgramDma => Unit

abbrev DispatcherProg := Prog Op Op.Res

/-- A fragment of a request of one of the queues. -/
def programFragment (a2pMask : BitVec 32) (call : ProgramCall) : DispatcherProg Unit := do
  (admaEngineProgramDma .cyclone4 a2pMask call).mapOp (.access call) fun _ r => r
  Prog.perform Op.leaveProgramDma

/-- `EvtIoWriteDma` is the callback of the H2C queue, `EvtIoReadDma` that of the C2H queue. -/
def dmaDirection : DirToDev → WdfDmaDirection
  | .h2c => .writeToDevice
  | .c2h => .readFromDevice

/-! ## The device -/

/-- The registers; below them, what is only recorded for the proofs. -/
structure World where
  regs : AdmaRegs
  /-- The calls that were made. -/
  calls : List ProgramCall
  /-- What the call under way on a queue has programmed and still needs. -/
  written : DirToDev → Word → Option (BitVec 32)
  /-- The committed descriptors that are not executed yet, with the call of each. -/
  pending : List (ModularSgdmaDescriptor × ProgramCall)

namespace World

/-- What a call needs when it has made an access: a GO write is done with the words of the port. -/
def need (written : Word → Option (BitVec 32)) (o : AdmaOp) : Word → Option (BitVec 32) :=
  match o, o.writes with
  | .writeControl _, _ => entryPart written
  | _, some (word, value) => Function.update written word (some value)
  | _, none => written

def act (queue : DirToDev) : (o : Op) → World → o.Res → Option World
  | .access call o, s, r =>
    (AdmaRegs.act o s.regs r).map fun regs =>
      { s with
        regs := regs
        written := Function.update s.written queue (need (s.written queue) o)
        pending := s.pending ++
          (regs.committed.drop s.regs.committed.length).map fun descriptor => (descriptor, call) }
  | .leaveProgramDma, s, _ =>
    some { s with written := Function.update s.written queue fun _ => none }

/-- The dispatcher executes the next descriptor. -/
def execute (s : World) : Option World :=
  match s.pending with
  | [] => none
  | _ :: pending => some { s with pending := pending }

end World

inductive Env
  | execute
  deriving DecidableEq, Repr

/-- The queues of the two engines, and the dispatcher. -/
def dispatcherThreads (a2pMask : BitVec 32) :
    Threads Op Op.Res World DirToDev Env ProgramCall where
  act := World.act
  env := fun .execute s => s.execute
  start queue call s :=
    if call.direction = dmaDirection queue then
      some ({ s with calls := s.calls ++ [call] }, programFragment a2pMask call)
    else none

def dispatcherConfig (regs : AdmaRegs) : Config Op Op.Res World DirToDev :=
  ⟨⟨{ regs with committed := [] }, [], fun _ _ => none, []⟩, fun _ => .ret ()⟩

end Dispatcher

end Xadma
