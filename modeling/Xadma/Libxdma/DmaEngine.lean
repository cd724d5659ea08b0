import Xadma.Libxdma.Reg

/-!
# The DMA engine and its descriptors (`libxdma/dma_engine.h`)
-/

namespace Xadma

inductive DirToDev
  | h2c
  | c2h
  deriving DecidableEq, Repr

/-- The direction the framework passes to `XDMA_EngineProgramDma`. -/
inductive WdfDmaDirection
  | readFromDevice
  | writeToDevice
  deriving DecidableEq, Repr

/-- The C field is an enumeration that `IOCTL_XDMA_ADDRMODE_SET` assigns from an unchecked `ULONG`,
so that it may hold a value of neither mode. -/
inductive AddressMode
  | contiguous
  | fixed
  | other (raw : BitVec 32)
  deriving DecidableEq, Repr

inductive EngineType
  | mm
  | st
  deriving DecidableEq, Repr

@[ext] structure DmaDescriptor where
  control : BitVec 32
  numBytes : BitVec 32
  srcAddrLo : BitVec 32
  srcAddrHi : BitVec 32
  dstAddrLo : BitVec 32
  dstAddrHi : BitVec 32
  nextLo : BitVec 32
  nextHi : BitVec 32
  deriving DecidableEq, Repr

namespace DmaDescriptor

/-- What `RtlZeroMemory` leaves. -/
def zero : DmaDescriptor := ⟨0, 0, 0, 0, 0, 0, 0, 0⟩

def srcAddr (desc : DmaDescriptor) : BitVec 64 := desc.srcAddrHi ++ desc.srcAddrLo
def dstAddr (desc : DmaDescriptor) : BitVec 64 := desc.dstAddrHi ++ desc.dstAddrLo
def nextAddr (desc : DmaDescriptor) : BitVec 64 := desc.nextHi ++ desc.nextLo

/-- The adjacency field, between the flags and the magic. -/
def nextAdj (desc : DmaDescriptor) : BitVec 32 := (desc.control >>> 8) &&& 0xFF#32

def orAdj (desc : DmaDescriptor) (adj : BitVec 32) : DmaDescriptor :=
  { desc with control := desc.control ||| (adj <<< 8) }

@[simp] theorem orAdj_nextAddr (desc : DmaDescriptor) (adj : BitVec 32) :
    (desc.orAdj adj).nextAddr = desc.nextAddr := rfl

end DmaDescriptor

/-- One element of a `SCATTER_GATHER_LIST`. -/
structure SgElement where
  address : BitVec 64
  length : BitVec 32
  deriving DecidableEq, Repr

def totalLength (es : List SgElement) : Nat := (es.map fun e => e.length.toNat).sum

/-- The number of pages that `XDMA_MAX_TRANSFER_SIZE` bytes touch at most, whatever their offset
in the first page. -/
def sgMaxElements : Nat := xdmaMaxTransferSize / pageSize + 1

/-- A list as the DMA enabler hands it over: not empty, and at most one element for each page. -/
structure ScatterGatherList where
  elements : List SgElement
  nonempty : elements ≠ []
  admitted : elements.length ≤ sgMaxElements
  deriving DecidableEq

/-- Memory that the device reaches: it starts at `logical` and does not wrap. -/
structure CommonBuffer (size : Nat) where
  logical : BitVec 64
  inRange : logical.toNat + size ≤ 2 ^ 64
  deriving DecidableEq

/-- `SIZE_T` is 32 bits wide in the Win32 builds and 64 in the x64 ones. -/
inductive PointerWidth
  | w32
  | w64
  deriving DecidableEq, Repr

/-- The cast of a 64-bit value to `SIZE_T` and back. -/
def sizeT : PointerWidth → BitVec 64 → BitVec 64
  | .w32, x => (lowPart x).setWidth 64
  | .w64, x => x

/-- What `XDMA_EngineProgramDma` and `EngineRingProgramDma` read of an engine. -/
structure XdmaEngine where
  /-- Config register; PCIe encodes request sizes of 128 to 4096 bytes as 0 to 5. -/
  pcieMRRS : BitVec 32
  pcieMRRS_le : pcieMRRS.toNat ≤ 5
  pcieWidth : BitVec 32
  alignAddr : BitVec 32
  alignLength : BitVec 32
  type : EngineType
  addressMode : AddressMode
  descBuffer : CommonBuffer descBufferSize
  deriving DecidableEq

/-- `EngineCreateDescriptorBuffer` gives the hardware the start address of the buffer. -/
def XdmaEngine.firstDescLo (engine : XdmaEngine) : BitVec 32 := lowPart engine.descBuffer.logical

/-! ## Alignment -/

/-- The outer `none` is a division by zero. The answer is only traced by the callers. -/
def descriptorIsAligned (engine : XdmaEngine) (desc : DmaDescriptor) : Option Bool :=
  match engine.addressMode with
  | .fixed =>
    let dataPathWidth := (1#32 <<< (6#32 + engine.pcieWidth)) / 8#32
    let addrMask := dataPathWidth - 1#32
    some !((desc.dstAddrLo &&& addrMask) != (desc.srcAddrLo &&& addrMask))
  | .contiguous | .other _ =>
    if engine.alignAddr = 0 ∨ engine.alignLength = 0 then none
    else
      let dstAddrMisaligned := desc.dstAddrLo % engine.alignAddr != 0#32
      let lengthMisaligned := desc.numBytes % engine.alignLength != 0#32
      let srcAddrMisaligned := desc.srcAddrLo % engine.alignAddr != 0#32
      some !(dstAddrMisaligned || lengthMisaligned || srcAddrMisaligned)

/-- The moduli of the alignment check are not zero where it divides. -/
def XdmaEngine.Divides (engine : XdmaEngine) : Prop :=
  engine.addressMode = .fixed ∨ engine.alignAddr ≠ 0 ∧ engine.alignLength ≠ 0

theorem descriptorIsAligned_isSome (engine : XdmaEngine) (desc : DmaDescriptor) :
    (descriptorIsAligned engine desc).isSome = true ↔ engine.Divides := by
  unfold descriptorIsAligned XdmaEngine.Divides
  cases engine.addressMode <;> simp

/-! ## Descriptor fetches -/

/-- The largest number of descriptors from the one at `addrLo` on that stay in its 4 KB page,
less one. -/
def adjTo4k (addrLo : BitVec 32) : BitVec 32 :=
  (0x1000#32 - (addrLo &&& 0xFFF#32)) / 32#32 - 1#32

/-- The largest number of descriptors in one read request, less one. -/
def XdmaEngine.adjMax (engine : XdmaEngine) : BitVec 32 :=
  let mrrsBytes := 1#32 <<< (engine.pcieMRRS + 7#32)
  mrrsBytes / 32#32 - 1#32

/-- The adjacency that `OptimizeDescriptors` ors into descriptor `i`. -/
def nextAdjOf (adjTotal i nextAdjMax : BitVec 32) (desc : DmaDescriptor) : BitVec 32 :=
  let nextAdjTotal := if i ≠ adjTotal then adjTotal - (i + 1#32) else 0#32
  let nextAdjTo4k := adjTo4k desc.nextLo
  let nextAdj := if nextAdjTotal < nextAdjMax then nextAdjTotal else nextAdjMax
  if nextAdj > nextAdjTo4k then nextAdjTo4k else nextAdj

/-- The loop of `OptimizeDescriptors` from descriptor `i` on. -/
def optimizeLoop (adjMax adjTotal : BitVec 32) :
    BitVec 32 → BitVec 32 → List DmaDescriptor → List DmaDescriptor
  | _, _, [] => []
  | i, nextAdjMax, desc :: rest =>
    desc.orAdj (nextAdjOf adjTotal i nextAdjMax desc) ::
      optimizeLoop adjMax adjTotal (i + 1#32)
        (if nextAdjMax ≠ 0 then nextAdjMax - 1#32 else adjMax) rest

/-- The number of additional descriptors of the first fetch, for `firstDescAdj`. -/
def firstDescAdj (engine : XdmaEngine) (numDesc : BitVec 32) : BitVec 32 :=
  let adjTotal := numDesc - 1#32
  let firstAdj := if adjTotal < engine.adjMax then adjTotal else engine.adjMax
  if adjTo4k engine.firstDescLo < firstAdj then adjTo4k engine.firstDescLo else firstAdj

def optimizeDescriptors (engine : XdmaEngine) (desc : List DmaDescriptor) : List DmaDescriptor :=
  let numDesc := BitVec.ofNat 32 desc.length
  optimizeLoop engine.adjMax (numDesc - 1#32) 0#32 (engine.adjMax - 1#32) desc

/-! ## `XDMA_EngineProgramDma` -/

/-- The device address that `XDMA_EngineProgramDma` starts a fragment from: the `DeviceOffset` of
the request and the bytes the transaction has transferred already. -/
def startOffset (w : PointerWidth) (deviceOffset : BitVec 64) (bytesTransferred : Nat) :
    BitVec 64 :=
  sizeT w deviceOffset + BitVec.ofNat 64 bytesTransferred

/-- The control word of a descriptor before `OptimizeDescriptors`. -/
def descControl (engine : XdmaEngine) (last : Bool) : BitVec 32 :=
  if last then
    let control := xdmaDescMagic ||| (xdmaDescStopBit ||| xdmaDescCompletedBit)
    if engine.type = .st then control ||| xdmaDescEopBit else control
  else xdmaDescMagic

/-- The descriptor that an iteration of `XDMA_EngineProgramDma` writes. `descBufferLA` has been
moved on to the next descriptor already. -/
def programDesc (engine : XdmaEngine) (direction : WdfDmaDirection)
    (deviceOffset descBufferLA : BitVec 64) (last : Bool) (e : SgElement) : DmaDescriptor :=
  let hostAddrLo := lowPart e.address
  let hostAddrHi := highPart e.address
  let deviceAddrLo := lowPart (limitTo32 deviceOffset)
  let deviceAddrHi := lowPart (limitTo32 (deviceOffset.sshiftRight 32))
  { control := descControl engine last
    numBytes := e.length
    srcAddrLo := if direction = .writeToDevice then hostAddrLo else deviceAddrLo
    srcAddrHi := if direction = .writeToDevice then hostAddrHi else deviceAddrHi
    dstAddrLo := if direction = .writeToDevice then deviceAddrLo else hostAddrLo
    dstAddrHi := if direction = .writeToDevice then deviceAddrHi else hostAddrHi
    nextLo := if last then 0#32 else lowPart descBufferLA
    nextHi := if last then 0#32 else highPart descBufferLA }

/-- The running `deviceOffset` after an element. -/
def nextOffset (engine : XdmaEngine) (deviceOffset : BitVec 64) (e : SgElement) : BitVec 64 :=
  if engine.addressMode = .contiguous then deviceOffset + e.length.setWidth 64 else deviceOffset

/-- The loop of `XDMA_EngineProgramDma` over the elements that are left, with the running values of
`deviceOffset` and `descBufferLA`. -/
def programLoop (engine : XdmaEngine) (direction : WdfDmaDirection) :
    BitVec 64 → BitVec 64 → List SgElement → Option (List DmaDescriptor)
  | _, _, [] => some []
  | deviceOffset, descBufferLA, e :: rest => do
    let descBufferLA := descBufferLA + BitVec.ofNat 64 sizeofDmaDescriptor
    let desc := programDesc engine direction deviceOffset descBufferLA rest.isEmpty e
    let _ ← descriptorIsAligned engine desc
    let descs ← programLoop engine direction (nextOffset engine deviceOffset e) descBufferLA rest
    return desc :: descs

/-- The chain `XDMA_EngineProgramDma` builds for one fragment. -/
def programChain (engine : XdmaEngine) (direction : WdfDmaDirection) (deviceOffset : BitVec 64)
    (sgList : ScatterGatherList) : Option (List DmaDescriptor) := do
  let descs ← programLoop engine direction deviceOffset engine.descBuffer.logical sgList.elements
  return optimizeDescriptors engine descs

/-! ## `EngineRingProgramDma` -/

/-- The descriptor that an iteration of `EngineRingProgramDma` writes for the block at `dst`. -/
def ringDesc (resultBufferLA nextDescLA dst : BitVec 64) : DmaDescriptor :=
  { control := xdmaDescMagic ||| xdmaDescEopBit ||| xdmaDescCompletedBit
    numBytes := BitVec.ofNat 32 xdmaRingBlockSize
    -- the hardware writes the result of the transfer to the source address
    srcAddrLo := lowPart resultBufferLA
    srcAddrHi := highPart resultBufferLA
    dstAddrLo := lowPart dst
    dstAddrHi := highPart dst
    nextLo := lowPart nextDescLA
    nextHi := highPart nextDescLA }

/-- The loop of `EngineRingProgramDma` over the physical addresses of the blocks that are left.
`first` is `descriptor[0]` once it is written: the alignment check is always made on it. -/
def ringLoop (engine : XdmaEngine) :
    Option DmaDescriptor → BitVec 64 → BitVec 64 → List (BitVec 64) → Option (List DmaDescriptor)
  | _, _, _, [] => some []
  | first, resultBufferLA, nextDescLA, dst :: rest => do
    let nextDescLA := nextDescLA + BitVec.ofNat 64 sizeofDmaDescriptor
    let desc := ringDesc resultBufferLA nextDescLA dst
    let descriptor := first.getD desc
    let _ ← descriptorIsAligned engine descriptor
    let descs ← ringLoop engine (some descriptor)
      (resultBufferLA + BitVec.ofNat 64 sizeofDmaDescriptor) nextDescLA rest
    return desc :: descs

/-- Make the descriptor list circular. -/
def closeRing (base : BitVec 64) (descs : List DmaDescriptor) : List DmaDescriptor :=
  descs.modify (descs.length - 1) fun last =>
    { last with nextLo := lowPart base, nextHi := highPart base }

/-- The ring `EngineRingProgramDma` builds for its result buffer and its data blocks. -/
def ringChain (engine : XdmaEngine) (results : BitVec 64) (blocks : List (BitVec 64)) :
    Option (List DmaDescriptor) := do
  let descs ← ringLoop engine none results engine.descBuffer.logical blocks
  return optimizeDescriptors engine (closeRing engine.descBuffer.logical descs)

end Xadma
