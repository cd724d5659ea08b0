import Xadma.Theory.Word

/-!
# Register bits and masks (`libxdma/reg.h`, `libxdma/dma_engine.c`)

The constants the modelled routines read, under their names in the source.
-/

namespace Xadma

def bitN (n : Nat) : BitVec 32 := 1#32 <<< n

def limitTo32 (x : BitVec 64) : BitVec 64 := x &&& 0x00000000FFFFFFFF#64

@[simp] theorem lowPart_limitTo32 (x : BitVec 64) : lowPart (limitTo32 x) = lowPart x :=
  lowPart_and_mask x

/-! ## Engine status register -/

def xdmaBusyBit : BitVec 32 := bitN 0
def xdmaDescriptorStoppedBit : BitVec 32 := bitN 1
def xdmaDescriptorCompletedBit : BitVec 32 := bitN 2
def xdmaAlignMismatchBit : BitVec 32 := bitN 3
def xdmaMagicStoppedBit : BitVec 32 := bitN 4
def xdmaFetchStoppedBit : BitVec 32 := bitN 5
def xdmaStatReadError : BitVec 32 := 0x1f#32 * bitN 9
def xdmaStatDescriptorError : BitVec 32 := 0x1f#32 * bitN 19

def xdmaEngineStoppedOk : BitVec 32 := 0#32

def xdmaStatExpectedZero : BitVec 32 :=
  xdmaBusyBit ||| xdmaMagicStoppedBit ||| xdmaFetchStoppedBit ||| xdmaAlignMismatchBit |||
    xdmaStatReadError ||| xdmaStatDescriptorError

/-! ## Descriptor control word and result word -/

def xdmaDescMagic : BitVec 32 := 0xAD4B0000#32
def xdmaDescStopBit : BitVec 32 := bitN 0
def xdmaDescCompletedBit : BitVec 32 := bitN 1
def xdmaDescEopBit : BitVec 32 := bitN 4

def xdmaResultEopBit : BitVec 32 := bitN 0

/-! ## Poll mode writeback word -/

def xdmaWbCountMask : BitVec 32 := 0x00ffffff#32
def xdmaWbErrMask : BitVec 32 := bitN 31

/-! ## Sizes -/

def pageSize : Nat := 4096
def xdmaMaxTransferSize : Nat := 8 * 1024 * 1024
def xdmaRingNumBlocks : Nat := 258
def xdmaRingBlockSize : Nat := pageSize

/-- `sizeof(DMA_DESCRIPTOR)` and `sizeof(DMA_RESULT)`: eight packed 32-bit words. -/
def sizeofDmaDescriptor : Nat := 32

/-- The bytes `EngineCreateDescriptorBuffer` allocates. -/
def descBufferSize : Nat := (xdmaMaxTransferSize / pageSize + 2) * sizeofDmaDescriptor

/-! ## `NTSTATUS` -/

abbrev NtStatus := BitVec 32

/-- `NT_SUCCESS`: the status is not negative. -/
def ntSuccess (status : NtStatus) : Bool := !status.msb

def statusSuccess : NtStatus := 0#32
def statusTimeout : NtStatus := 0x00000102#32
def statusInvalidParameter : NtStatus := 0xC000000D#32
def statusInvalidDeviceRequest : NtStatus := 0xC0000010#32
def statusBufferTooSmall : NtStatus := 0xC0000023#32
def statusInternalError : NtStatus := 0xC00000E5#32
def statusCancelled : NtStatus := 0xC0000120#32

end Xadma
