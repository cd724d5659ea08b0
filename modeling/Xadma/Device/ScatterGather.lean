import Xadma.Theory.Memory
import Xadma.Device.Descriptors
import Xadma.Libxdma.Transfer

/-!
# The scatter-gather engine next to the driver

The engine is in interrupt mode. It begins with the first descriptor when its RUN bit is set. It
fetches descriptors ahead of those it executes, so that what the driver does to the descriptor
buffer shows or does not show. It stops behind a descriptor with the STOP bit, at one without the
magic and on an error of its own, and requests an interrupt. The DPC runs once for each interrupt
that the engine requests, one run at a time. No client cancels a request: `EvtCancelDma` does not
run.
-/

namespace Xadma

/-! ## Memory -/

/-- The memories at both ends of a transfer. -/
structure Memories where
  host : Memory 64 (BitVec 8)
  card : Memory 64 (BitVec 8)

/-- A transfer of an engine in incremental mode. -/
def Transfer.run (direction : WdfDmaDirection) (t : Transfer) (m : Memories) : Memories :=
  match direction with
  | .writeToDevice =>
    { m with card := m.card.store t.deviceAddr (m.host.load t.hostAddr t.length.toNat) }
  | .readFromDevice =>
    { m with host := m.host.store t.hostAddr (m.card.load t.deviceAddr t.length.toNat) }

def runTransfers (direction : WdfDmaDirection) (ts : List Transfer) (m : Memories) : Memories :=
  ts.foldl (fun m t => t.run direction m) m

/-! ## The engine -/

def DmaDescriptor.valid (desc : DmaDescriptor) : Bool :=
  desc.control &&& 0xFFFF0000#32 == xdmaDescMagic

def DmaDescriptor.stops (desc : DmaDescriptor) : Bool := desc.control &&& xdmaDescStopBit != 0

def DmaDescriptor.completes (desc : DmaDescriptor) : Bool :=
  desc.control &&& xdmaDescCompletedBit != 0

structure SgEngine where
  busy : Bool
  /-- Where the next descriptor is fetched from, unless the last one has been. -/
  next : Option (BitVec 64)
  /-- The descriptors that are fetched and not executed. -/
  fetched : List DmaDescriptor
  /-- The status register without its busy bit. -/
  status : BitVec 32
  /-- An interrupt is requested. -/
  interrupt : Bool

namespace SgEngine

def idle : SgEngine := ⟨false, none, [], 0, false⟩

def statusRegister (s : SgEngine) : BitVec 32 :=
  if s.busy then s.status ||| xdmaBusyBit else s.status

def start (base : BitVec 64) (s : SgEngine) : SgEngine :=
  { s with busy := true, next := some base, fetched := [] }

def stop (s : SgEngine) : SgEngine := { s with busy := false, next := none, fetched := [] }

/-- The engine stops by itself. -/
def finish (bits : BitVec 32) (s : SgEngine) : SgEngine :=
  { s.stop with status := s.status ||| bits, interrupt := true }

/-- The descriptor at an address of the buffer. -/
def descriptorAt (base : BitVec 64) (descBuffer : Nat → DmaDescriptor) (addr : BitVec 64) :
    Option DmaDescriptor :=
  let off := (addr - base).toNat
  if off % 32 = 0 ∧ off + 32 ≤ descBufferSize then some (descBuffer (off / 32)) else none

def fetch (base : BitVec 64) (descBuffer : Nat → DmaDescriptor) (s : SgEngine) : Option SgEngine :=
  if s.busy then do
    let addr ← s.next
    let desc ← descriptorAt base descBuffer addr
    return { s with
      fetched := s.fetched ++ [desc]
      next := if desc.valid && !desc.stops then some desc.nextAddr else none }
  else none

/-- The engine behind the next descriptor, and the transfer that was made for it. -/
def execute (direction : WdfDmaDirection) (s : SgEngine) : Option (SgEngine × List Transfer) :=
  if s.busy then
    match s.fetched with
    | [] => none
    | desc :: rest =>
      if !desc.valid then some (s.finish xdmaMagicStoppedBit, [])
      else
        let bits := if desc.completes then xdmaDescriptorCompletedBit else 0
        if desc.stops then
          some (s.finish (xdmaDescriptorStoppedBit ||| bits), [desc.transfer direction])
        else
          some ({ s with
            fetched := rest
            status := s.status ||| bits
            interrupt := s.interrupt || desc.completes }, [desc.transfer direction])
  else none

/-- An error on the bus or in the engine. -/
def fail (bits : BitVec 32) (s : SgEngine) : Option SgEngine :=
  if s.busy ∧ bits &&& xdmaStatExpectedZero ≠ 0 then some (s.finish bits) else none

/-- The accesses to its registers. A RUN bit that is set already does not start it again. -/
def act (base : BitVec 64) (run : Bool) : (o : TransferOp) → SgEngine → o.Res → Option SgEngine
  | .engineStart, s, _ => some (if run then s else s.start base)
  | .engineStop, s, _ => some s.stop
  | .engineStatus, s, r => if r = s.statusRegister then some { s with status := 0 } else none
  | _, s, _ => some s

end SgEngine

/-! ## The threads -/

/-- Who works on the request that the queue waits for. -/
inductive Holder
  | nobody
  | thread (t : TransferThread)
  | engine
  deriving DecidableEq, Repr

/-- The driver, the framework and the engine; below `sg`, what is only recorded for the proofs. -/
structure DmaWorld where
  transfer : TransferWorld
  sg : SgEngine
  /-- The transfers that were made since each request was presented, up to the next one. -/
  moved : Nat → List Transfer
  holder : Holder

namespace DmaWorld

/-- The request is over with its completion, and with the engine once that is started. -/
def holderAfter (s : DmaWorld) : TransferOp → Holder
  | .engineStart => .engine
  | .complete .. => .nobody
  | _ => s.holder

def act (e : TransferEngine) (t : TransferThread) (o : TransferOp) (s : DmaWorld) (r : o.Res) :
    Option DmaWorld := do
  let transfer ← TransferWorld.act t o s.transfer r
  let sg ← s.sg.act e.engine.descBuffer.logical s.transfer.engine.run o r
  return { s with transfer := transfer, sg := sg, holder := s.holderAfter o }

/-- The engine has made transfers for the request presented last. -/
def move (s : DmaWorld) (ts : List Transfer) : DmaWorld :=
  let id := s.transfer.wdf.presented - 1
  { s with moved := Function.update s.moved id (s.moved id ++ ts) }

end DmaWorld

inductive SgEvent
  | fetch
  | execute
  | fail (bits : BitVec 32)
  deriving DecidableEq, Repr

def DmaWorld.env (e : TransferEngine) : SgEvent → DmaWorld → Option DmaWorld
  | .fetch, s =>
    (s.sg.fetch e.engine.descBuffer.logical s.transfer.engine.descBuffer).map fun sg =>
      { s with sg := sg }
  | .execute, s => (s.sg.execute e.direction).map fun x => { s with sg := x.1 }.move x.2
  | .fail bits, s => (s.sg.fail bits).map fun sg => { s with sg := sg }

/-- The queue presents requests, and the DPC runs for an interrupt of the engine. -/
def DmaWorld.begin (e : TransferEngine) (t : TransferThread) (a : TransferCall) (s : DmaWorld) :
    Option (DmaWorld × TransferProg Unit) := do
  let (transfer, p) ← (transferThreads e).start t a s.transfer
  match t with
  | .dispatch _ => return ({ s with transfer := transfer, holder := .thread t }, p)
  | .dpc =>
    if s.sg.interrupt then
      return ({ s with
        transfer := transfer
        sg := { s.sg with interrupt := false }
        holder := .thread .dpc }, p)
    else none
  | .cancel _ => none

abbrev SgLabel := Label TransferOp TransferOp.Res TransferThread SgEvent TransferCall

def dmaThreads (e : TransferEngine) :
    Threads TransferOp TransferOp.Res DmaWorld TransferThread SgEvent TransferCall where
  act := fun t o s r => DmaWorld.act e t o s r
  env := DmaWorld.env e
  start := DmaWorld.begin e

/-- An engine in interrupt mode that has had no request yet. -/
def dmaConfig (descBuffer : Nat → DmaDescriptor) (request : Nat → DmaRequest) :
    Config TransferOp TransferOp.Res DmaWorld TransferThread :=
  ⟨⟨.idle false descBuffer request, .idle, fun _ => [], .nobody⟩, fun _ => .ret ()⟩

end Xadma
