import Xadma.Libadma.Engine

/-!
# The descriptor table and what is programmed into it (`libadma/adma_engine.h`)

The table is behind the status words in the common buffer of an engine. The DMA enabler of
`ADMA_DeviceOpen` limits a fragment by its bytes, not by its elements.
-/

namespace Xadma

def admaMaxTransferSize : Nat := admaMaxDescriptorNum.toNat * pageSize

/-- `sizeof(ADMA_DESCRIPTOR)`: five words and three reserved ones. -/
def sizeofAdmaDescriptor : Nat := 32

/-- `sizeof(ADMA_RESULT)`: a status word for each descriptor. -/
def sizeofAdmaResult : Nat := admaMaxDescriptorNum.toNat * 4

def admaDescriptorOffset : Nat := 0x200

/-- The bytes `EngineCreateDescriptorBuffer` allocates. -/
def admaDescBufferSize : Nat := sizeofAdmaResult + admaMaxDescriptorNum.toNat * sizeofAdmaDescriptor

/-- What the DMA enabler lets through: at most `ADMA_MAX_TRANSFER_SIZE` bytes of a virtually
contiguous buffer, from any byte of a page on. Its pages are anywhere in host memory, and an element
holds one or more of them that are next to each other there. -/
structure AdmaFragment extends SgList where
  byteOffset : Nat
  byteOffset_lt : byteOffset < pageSize
  admitted : totalLength elements ≤ admaMaxTransferSize
  lengths : ∀ e ∈ elements, e.length ≠ 0
  addresses : ∀ i (hi : i < elements.length), elements[i].address.toNat % pageSize =
    (byteOffset + totalLength (elements.take i)) % pageSize
  /-- An element begins with a page, but for the first. -/
  cuts : ∀ i, 0 < i → i < elements.length →
    (byteOffset + totalLength (elements.take i)) % pageSize = 0

/-- A write to the table. -/
structure SlotWrite where
  slot : BitVec 32
  descriptor : AdmaDescriptor
  deriving DecidableEq

def AdmaOp.slotWrite? : AdmaOp → Option SlotWrite
  | .writeDescriptor id descriptor => some ⟨id, descriptor⟩
  | _ => none

/-- The slots that a call of the Arria 10 build fills, in order, and with what. -/
def ProgramCall.slotWrites (call : ProgramCall) (a2pMask lastPtr : BitVec 32) (s : AdmaRegs) :
    List SlotWrite :=
  (Prog.trace AdmaRegs.act (AdmaRegs.answer lastPtr)
    (admaEngineProgramDma .arria10 a2pMask call) s).filterMap AdmaOp.slotWrite?

end Xadma
