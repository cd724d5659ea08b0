import Xadma.Theory.SideBySide
import Xadma.Device.ScatterGather

/-!
# The engines of a device next to each other

Each engine has a queue, a transaction, a descriptor buffer and a DPC of its own. What the engines
share are the memories at both ends, where one of them makes a transfer at a time. The descriptor
buffers are apart from the memory that requests are made for.
-/

namespace Xadma

inductive MemorySide
  | host
  | card
  deriving DecidableEq, Repr

def Memories.side (m : Memories) : MemorySide → Memory 64 (BitVec 8)
  | .host => m.host
  | .card => m.card

structure DmaCompletion (ι : Type) where
  engine : ι
  id : Nat
  result : NtStatus × Nat

/-- What the engines share; below `memories`, what is only recorded for the proofs. -/
structure SharedMemories (ι : Type) where
  memories : Memories
  /-- The requests in the order in which they are completed. -/
  completed : List (DmaCompletion ι)

/-- The request that was presented last, until it is completed. -/
def DmaWorld.underWay (s : DmaWorld) : Option Nat :=
  match s.transfer.wdf.presented with
  | 0 => none
  | id + 1 => if (s.transfer.wdf.completions id).isEmpty then some id else none

/-- The transfers that an engine makes in a step. -/
def SgLabel.transfers (direction : WdfDmaDirection) (s : DmaWorld) : SgLabel → List Transfer
  | .env .execute => (s.sg.execute direction).elim [] Prod.snd
  | _ => []

/-- The request that is completed in a step. -/
def SgLabel.completes : SgLabel → Option (Nat × NtStatus × Nat)
  | .call _ (.complete id status information) _ => some (id, status, information)
  | _ => none

variable {ι : Type}

abbrev DmaConfig := Config TransferOp TransferOp.Res DmaWorld TransferThread

abbrev ParallelState (ι : Type) := (ι → DmaConfig) × SharedMemories ι

/-- What a step of an engine does to what the engines share. -/
def SharedMemories.step (e : ι → TransferEngine) (i : ι) (l : SgLabel) (c : DmaConfig)
    (x : SharedMemories ι) : SharedMemories ι where
  memories :=
    runTransfers (e i).direction (SgLabel.transfers (e i).direction c.state l) x.memories
  completed := x.completed ++ ((SgLabel.completes l).map fun r => ⟨i, r.1, r.2⟩).toList

def parallelEngines [DecidableEq ι] (e : ι → TransferEngine) :
    Machine (ParallelState ι) (ι × SgLabel) :=
  Machine.sideBySide (fun i => (dmaThreads (e i)).machine) (SharedMemories.step e)

/-- Engines that have had no request yet. -/
def parallelState (descBuffer : ι → Nat → DmaDescriptor) (request : ι → Nat → DmaRequest)
    (m : Memories) : ParallelState ι :=
  (fun i => dmaConfig (descBuffer i) (request i), ⟨m, []⟩)

end Xadma
