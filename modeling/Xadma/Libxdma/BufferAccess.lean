import Xadma.Theory.Prog
import Xadma.Libxdma.DmaEngine

/-!
# Accesses to the buffers of an engine (`libxdma/dma_engine.c`)

The routines that index the descriptor buffer, the result buffer and the table of blocks without a
comparison with their sizes. Every access is a call, with the index that the source computes.
-/

namespace Xadma

namespace BufferAccess

/-- The bytes `EngineCreateRingBuffer` allocates for the results. -/
def resultBufferSize : Nat := (xdmaMaxTransferSize / pageSize + 2) * sizeofDmaDescriptor

inductive BufferOp
  | writeDescriptor (i : Nat) (desc : DmaDescriptor)
  | readDescriptor (i : Nat)
  | clearResult (i : Nat)
  /-- `ring.mdl[i]`, for the physical address of the block. -/
  | mdlAddress (i : Nat)
  deriving DecidableEq

abbrev BufferOp.Res : BufferOp → Type
  | .readDescriptor _ => DmaDescriptor
  | .mdlAddress _ => BitVec 64
  | _ => Unit

abbrev BufferProg := Prog BufferOp BufferOp.Res

def BufferOp.perform (o : BufferOp) : BufferProg o.Res := Prog.perform o

/-- The index of an access is inside what was allocated. -/
def BufferOp.Inside : BufferOp → Prop
  | .writeDescriptor i _ | .readDescriptor i => (i + 1) * sizeofDmaDescriptor ≤ descBufferSize
  | .clearResult i => (i + 1) * sizeofDmaDescriptor ≤ resultBufferSize
  | .mdlAddress i => i < xdmaRingNumBlocks

/-! ## Common to both routines -/

/-- The loop of `OptimizeDescriptors` over the `left` descriptors from `i` on. -/
def optimizeFrom (adjMax adjTotal : BitVec 32) :
    (left i : Nat) → (nextAdjMax : BitVec 32) → BufferProg Unit
  | 0, _, _ => .ret ()
  | left + 1, i, nextAdjMax => do
    let desc : DmaDescriptor ← (BufferOp.readDescriptor i).perform
    (BufferOp.writeDescriptor i
      (desc.orAdj (nextAdjOf adjTotal (BitVec.ofNat 32 i) nextAdjMax desc))).perform
    optimizeFrom adjMax adjTotal left (i + 1)
      (if nextAdjMax ≠ 0 then nextAdjMax - 1#32 else adjMax)

def optimizeBuffer (engine : XdmaEngine) (numDesc : Nat) : BufferProg Unit :=
  optimizeFrom engine.adjMax (BitVec.ofNat 32 numDesc - 1#32) numDesc 0 (engine.adjMax - 1#32)

/-- The loop over `DumpDescriptor`. -/
def dumpDescriptors (numDesc : Nat) : BufferProg Unit :=
  Prog.forEach (List.range numDesc) fun i => do
    let _ : DmaDescriptor ← (BufferOp.readDescriptor i).perform
    return ()

/-! ## `XDMA_EngineProgramDma` -/

/-- The loop over the elements that are left, the first of which is for descriptor `i`. `false` is
a division by zero in the alignment check. -/
def fillDescriptors (engine : XdmaEngine) (direction : WdfDmaDirection) :
    Nat → BitVec 64 → BitVec 64 → List SgElement → BufferProg Bool
  | _, _, _, [] => return true
  | i, deviceOffset, descBufferLA, e :: rest => do
    let descBufferLA := descBufferLA + BitVec.ofNat 64 sizeofDmaDescriptor
    (BufferOp.writeDescriptor i
      (programDesc engine direction deviceOffset descBufferLA rest.isEmpty e)).perform
    let desc : DmaDescriptor ← (BufferOp.readDescriptor i).perform
    match descriptorIsAligned engine desc with
    | none => return false
    | some _ =>
      fillDescriptors engine direction (i + 1) (nextOffset engine deviceOffset e) descBufferLA rest

def xdmaEngineProgramDma (engine : XdmaEngine) (direction : WdfDmaDirection)
    (deviceOffset : BitVec 64) (es : List SgElement) : BufferProg Bool := do
  let filled ← fillDescriptors engine direction 0 deviceOffset engine.descBuffer.logical es
  if filled then do
    optimizeBuffer engine es.length
    dumpDescriptors es.length
    return true
  else return false

/-! ## The ring -/

/-- The loop over the `left` blocks from block `i` on. The alignment check is made on the first
descriptor. -/
def fillRing (engine : XdmaEngine) :
    (left i : Nat) → (resultBufferLA nextDescLA : BitVec 64) → BufferProg Bool
  | 0, _, _, _ => return true
  | left + 1, i, resultBufferLA, nextDescLA => do
    let dst : BitVec 64 ← (BufferOp.mdlAddress i).perform
    let nextDescLA := nextDescLA + BitVec.ofNat 64 sizeofDmaDescriptor
    (BufferOp.writeDescriptor i (ringDesc resultBufferLA nextDescLA dst)).perform
    let desc : DmaDescriptor ← (BufferOp.readDescriptor 0).perform
    match descriptorIsAligned engine desc with
    | none => return false
    | some _ =>
      fillRing engine left (i + 1) (resultBufferLA + BitVec.ofNat 64 sizeofDmaDescriptor) nextDescLA

/-- Make the descriptor list circular. -/
def closeLast (engine : XdmaEngine) : BufferProg Unit := do
  let last : DmaDescriptor ← (BufferOp.readDescriptor (xdmaRingNumBlocks - 1)).perform
  let base := engine.descBuffer.logical
  (BufferOp.writeDescriptor (xdmaRingNumBlocks - 1)
    { last with nextLo := lowPart base, nextHi := highPart base }).perform

def engineRingProgramDma (engine : XdmaEngine) (results : BitVec 64) : BufferProg Bool := do
  let filled ← fillRing engine xdmaRingNumBlocks 0 results engine.descBuffer.logical
  if filled then do
    closeLast engine
    optimizeBuffer engine xdmaRingNumBlocks
    dumpDescriptors xdmaRingNumBlocks
    return true
  else return false

def engineClearDmaResults : BufferProg Unit :=
  Prog.forEach (List.range xdmaRingNumBlocks) fun i => (BufferOp.clearResult i).perform

/-! ## Running them -/

/-- What the buffer holds, and the addresses of the blocks. -/
structure BufferMemory where
  descriptor : Nat → DmaDescriptor
  block : Nat → BitVec 64

namespace BufferMemory

def write (m : BufferMemory) (i : Nat) (desc : DmaDescriptor) : BufferMemory :=
  { m with descriptor := Function.update m.descriptor i desc }

@[simp] theorem write_self (m : BufferMemory) (i : Nat) (desc : DmaDescriptor) :
    (m.write i desc).descriptor i = desc :=
  Function.update_self ..

theorem write_of_ne {i k : Nat} (hk : k ≠ i) (m : BufferMemory) (desc : DmaDescriptor) :
    (m.write i desc).descriptor k = m.descriptor k :=
  Function.update_of_ne hk ..

def act : (o : BufferOp) → BufferMemory → o.Res → Option BufferMemory
  | .writeDescriptor i desc, m, _ => some (m.write i desc)
  | .readDescriptor _, m, _ | .clearResult _, m, _ | .mdlAddress _, m, _ => some m

def answer : (o : BufferOp) → BufferMemory → o.Res
  | .readDescriptor i, m => m.descriptor i
  | .mdlAddress i, m => m.block i
  | .writeDescriptor .., _ | .clearResult _, _ => ()

end BufferMemory

end BufferAccess

end Xadma
