import Xadma.Libxdma.Transfer

/-!
# The queue of an engine in poll mode (`sys/driver.c`)

The queue is sequential and its callbacks are serialized, `EvtCancelDma` among them. With the engine
comes its writeback buffer, which the hardware writes to while the engine runs.
-/

namespace Xadma

/-- An engine with its queue; below `writeback`, what is only recorded for the proofs. -/
structure QueueWorld where
  transfer : TransferWorld
  /-- Whose callback the queue runs. -/
  running : TransferThread
  /-- `completedDescCount` of the writeback buffer. -/
  writeback : BitVec 32
  /-- The engine was started, and the buffer has not been cleared with the engine stopped since. -/
  unfinished : Bool
  /-- `EnginePollTransfer` has seen the final count since the engine was started. -/
  counted : Bool
  /-- The engine was started while the buffer was not zero. -/
  stale : Bool
  /-- It was started while `numDescriptors` was not the number of descriptors of the fragment. -/
  miscounted : Bool
  /-- The buffer was cleared before the final count was seen. -/
  clearedEarly : Bool

/-- The count is there, and no error bit. -/
def finalCount (expected value : BitVec 32) : Bool :=
  value &&& xdmaWbErrMask == 0 && value &&& xdmaWbCountMask == expected

namespace QueueWorld

def act : (o : TransferOp) → QueueWorld → o.Res → Option QueueWorld
  | .completedDescCount, s, r =>
    if r = s.writeback then
      (TransferWorld.act s.running .completedDescCount s.transfer r).map fun transfer =>
        { s with
          transfer := transfer
          counted := s.counted || finalCount s.transfer.engine.numDescriptors r }
    else none
  | .engineStart, s, r =>
    (TransferWorld.act s.running .engineStart s.transfer r).map fun transfer =>
      { s with
        transfer := transfer
        unfinished := true
        counted := false
        stale := s.stale || s.writeback != 0
        miscounted := s.miscounted || s.transfer.wdf.current.map
          (fun sgList => BitVec.ofNat 32 sgList.elements.length) !=
            some s.transfer.engine.numDescriptors }
  | .clearWriteback, s, r =>
    (TransferWorld.act s.running .clearWriteback s.transfer r).map fun transfer =>
      { s with
        transfer := transfer
        writeback := 0
        unfinished := s.transfer.engine.run
        clearedEarly := s.clearedEarly || !s.counted }
  | o, s, r =>
    (TransferWorld.act s.running o s.transfer r).map fun transfer => { s with transfer := transfer }

end QueueWorld

/-- The hardware writes a count or an error. -/
inductive QueueEvent
  | writeback (value : BitVec 32)
  deriving DecidableEq, Repr

inductive QueueCall
  | present (bound : Nat)
  | cancel (id : Nat)
  deriving DecidableEq, Repr

/-- The thread that a callback is of. -/
def QueueCall.thread (s : TransferWorld) : QueueCall → TransferThread
  | .present _ => .dispatch s.wdf.presented
  | .cancel id => .cancel id

def QueueCall.transferCall : QueueCall → TransferCall
  | .present bound => .present bound
  | .cancel _ => .cancel

/-- One callback at a time. -/
def queueThreads (e : TransferEngine) :
    Threads TransferOp TransferOp.Res QueueWorld Unit QueueEvent QueueCall where
  act := fun _ o s r => QueueWorld.act o s r
  env := fun (.writeback value) s =>
    if s.transfer.engine.run then some { s with writeback := value } else none
  start := fun _ a s =>
    ((transferThreads e).start (a.thread s.transfer) a.transferCall s.transfer).map fun x =>
      ({ s with transfer := x.1, running := a.thread s.transfer }, x.2)

/-- The engine is in poll mode, its writeback buffer is zero, and it has had no request yet. -/
def queueConfig (descBuffer : Nat → DmaDescriptor) (request : Nat → DmaRequest) :
    Config TransferOp TransferOp.Res QueueWorld Unit :=
  ⟨{  transfer := .idle true descBuffer request
      running := .dpc
      writeback := 0
      unfinished := false
      counted := false
      stale := false
      miscounted := false
      clearedEarly := false }, fun _ => .ret ()⟩

end Xadma
