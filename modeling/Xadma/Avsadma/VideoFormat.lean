import Xadma.Avsadma.CaptureDevice

/-!
# Formats and frames of the capture pin (`avsadma/capture.cpp`, `avsadma/device.cpp`)

`DispatchSetFormat` accepts a connection format for one of the two data ranges of the pin, and the
allocator is then told that a frame has `biSizeImage` bytes. In the Cyclone build `ProcessC4` lets
the common buffer be copied into the next frame.
-/

namespace Xadma

def statusPending : NtStatus := 0x00000103
def statusNoMatch : NtStatus := 0xC0000272
def statusInvalidDeviceState : NtStatus := 0xC0000184

namespace Capture

/-! ## Formats -/

def dmaxX : BitVec 32 := 1920
def dmaxY : BitVec 32 := 1080

/-- What the driver reads of a `KS_BITMAPINFOHEADER`. `biWidth` and `biHeight` are signed. -/
structure BitmapInfoHeader where
  biSize : BitVec 32
  biWidth : BitVec 32
  biHeight : BitVec 32
  biBitCount : BitVec 16
  biCompression : BitVec 32
  biSizeImage : BitVec 32
  deriving DecidableEq, Repr

/-- `Pin->ConnectionFormat`. The header is there when the specifier and the size say so. -/
structure ConnectionFormat where
  /-- The specifier is `KSDATAFORMAT_SPECIFIER_VIDEOINFO`. -/
  videoInfo : Bool
  formatSize : BitVec 32
  bmiHeader : BitmapInfoHeader
  deriving DecidableEq, Repr

/-- `sizeof(KS_DATAFORMAT_VIDEOINFOHEADER)`, and the offset of the video info header in it. -/
def sizeofDataFormat : BitVec 32 := 152
def videoInfoHeaderOffset : BitVec 32 := 64

/-- `KS_SIZE_VIDEOHEADER`. -/
def ksSizeVideoHeader (h : BitmapInfoHeader) : BitVec 32 := h.biSize + 48

def ksBiRgb : BitVec 32 := 0
def fourccYuy2 : BitVec 32 := 0x32595559

def sizeofBitmapInfoHeader : BitVec 32 := 40

/-- The default formats in the two data ranges. -/
def formatRGB24Bpp : BitmapInfoHeader where
  biSize := sizeofBitmapInfoHeader
  biWidth := dmaxX
  biHeight := dmaxY
  biBitCount := 24
  biCompression := ksBiRgb
  biSizeImage := dmaxX * dmaxY * 3

def formatYUY2 : BitmapInfoHeader where
  biSize := sizeofBitmapInfoHeader
  biWidth := dmaxX
  biHeight := dmaxY
  biBitCount := 16
  biCompression := fourccYuy2
  biSizeImage := dmaxX * dmaxY * 2

def capturePinDataRanges : List BitmapInfoHeader := [formatYUY2, formatRGB24Bpp]

/-- The product, if it did not overflow. -/
def multiplyCheckOverflow (a b : BitVec 32) : Option (BitVec 32) :=
  let ab := a * b
  if a = 0 ∨ ab / a = b then some ab else none

/-- The bytes of the rows, if they can be counted. -/
def imageSize (h : BitmapInfoHeader) : Option (BitVec 32) := do
  let size ← multiplyCheckOverflow h.biWidth h.biHeight.abs
  multiplyCheckOverflow size ((h.biBitCount / 8).setWidth 32)

/-- A change of the format of a pin that exists. -/
structure FormatChange where
  deviceState : KsState
  /-- `CaptureVideoInfoHeader` finds the memory. -/
  captured : Bool
  deriving DecidableEq, Repr

/-- `DispatchSetFormat` for a format that fits: also change it, if there is an old one. -/
def setFormat : Option FormatChange → NtStatus
  | none => statusSuccess
  | some change =>
    if change.deviceState = .stop then
      if change.captured then statusSuccess else statusInsufficientResources
    else statusInvalidDeviceState

def dispatchSetFormat (f : ConnectionFormat) (range : BitmapInfoHeader)
    (change : Option FormatChange) : NtStatus :=
  if f.videoInfo = true ∧ sizeofDataFormat ≤ f.formatSize then
    let videoHeaderSize := ksSizeVideoHeader f.bmiHeader
    let dataFormatSize := videoInfoHeaderOffset + videoHeaderSize
    if videoHeaderSize < f.bmiHeader.biSize ∨ dataFormatSize < videoHeaderSize ∨
        f.formatSize < dataFormatSize then statusInvalidParameter
    else if f.bmiHeader.biWidth ≠ range.biWidth ∨ f.bmiHeader.biHeight ≠ range.biHeight ∨
        f.bmiHeader.biCompression ≠ range.biCompression then statusNoMatch
    else
      match imageSize f.bmiHeader with
      | none => statusInvalidParameter
      | some size =>
        if f.bmiHeader.biSizeImage < size then statusInvalidParameter else setFormat change
  else statusNoMatch

/-! ## Frames -/

/-- The frame whose address is in `BufferVirtual`, that variable, and the common buffer. -/
inductive MemObject
  | streamBuffer
  | bufferVirtual
  | videoBuffer
  deriving DecidableEq, Repr

structure Pointer where
  object : MemObject
  offset : Nat
  deriving DecidableEq, Repr

/-- What `RtlCopyMemory` is called with. -/
structure MemCopy where
  dst : Pointer
  src : Pointer
  length : BitVec 32
  deriving DecidableEq, Repr

/-- `m_VideoBufferSize` behind `SetupDma`, which gives up before it sets it if there is no DMA
adapter. -/
def setupVideoBuffer (adapter : Bool) : BitVec 32 := if adapter then dmaxX * dmaxY * 3 else 0

/-- `CopyVideoCommonBuffer`: the copy it makes and the length it returns. -/
def copyVideoCommonBuffer (videoBufferSize : BitVec 32) (buffer : Pointer) : MemCopy × BitVec 32 :=
  (⟨buffer, ⟨.videoBuffer, 0⟩, videoBufferSize⟩, videoBufferSize)

/-- What the driver sees of a `KSSTREAM_HEADER`. -/
structure StreamHeader where
  /-- `Data` is not `NULL`. -/
  data : Bool
  dataUsed : BitVec 32
  presentationTime : BitVec 64
  optionsFlags : BitVec 32
  deriving DecidableEq, Repr

/-- `KSSTREAM_HEADER_OPTIONSF_TIMEVALID` and `KSSTREAM_HEADER_OPTIONSF_DURATIONVALID`. -/
def timeAndDurationValid : BitVec 32 := 0x10 ||| 0x20

/-- Time stamp a frame if there is a clock. -/
def StreamHeader.stamp (h : StreamHeader) : Option (BitVec 64) → StreamHeader
  | some time => { h with presentationTime := time, optionsFlags := timeAndDurationValid }
  | none => { h with presentationTime := 0 }

/-- What a call of `ProcessC4` does: the status, the header of the leading edge, the copies, and
whether the frame is ejected. -/
structure Processed where
  status : NtStatus
  header : Option StreamHeader
  copies : List MemCopy
  ejected : Bool
  deriving DecidableEq, Repr

def processC4 (videoBufferSize : BitVec 32) (clock : Option (BitVec 64)) :
    Option StreamHeader → Processed
  | none => ⟨statusPending, none, [], false⟩
  | some h =>
    if h.data = false then ⟨statusPending, some h, [], false⟩
    else
      -- the argument is the address of the variable
      let copied := copyVideoCommonBuffer videoBufferSize ⟨.bufferVirtual, 0⟩
      let h := ({ h with dataUsed := copied.2 } : StreamHeader).stamp clock
      ⟨statusPending, some h, [copied.1], true⟩

end Capture

end Xadma
