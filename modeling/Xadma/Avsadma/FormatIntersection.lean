import Xadma.Avsadma.VideoFormat

/-!
# Format negotiation (`avsadma/capture.cpp`)

Before a pin is created its client asks for the intersection of its data range with one of the
pin's, first for the size of the format alone, then for the format. `DispatchSetFormat` then gets
what was handed out.
-/

namespace Xadma

def statusBufferOverflow : NtStatus := 0x80000005

namespace Capture

/-- What the handler reads of a `KS_DATARANGE_VIDEO`. -/
structure DataRangeVideo where
  /-- The specifier is `KSDATAFORMAT_SPECIFIER_VIDEOINFO`. -/
  videoInfo : Bool
  formatSize : BitVec 32
  bFixedSizeSamples : BitVec 32
  bTemporalCompression : BitVec 32
  streamDescriptionFlags : BitVec 32
  memoryAllocationFlags : BitVec 32
  configCaps : List (BitVec 8)
  bmiHeader : BitmapInfoHeader
  deriving DecidableEq, Repr

/-- `sizeof(KS_DATARANGE_VIDEO)`, and the offset of the video info header in it. -/
def sizeofDataRangeVideo : BitVec 32 := 296
def dataRangeHeaderOffset : BitVec 32 := 208

/-- `KS_DIBSIZE`: the rows are padded to 32 bits. -/
def ksDibSize (h : BitmapInfoHeader) : BitVec 32 :=
  let widthBytes := ((h.biWidth * h.biBitCount.setWidth 32 + 31) &&& ~~~ 31) / 8
  if h.biHeight.slt 0 then -(widthBytes * h.biHeight) else widthBytes * h.biHeight

/-- Adjacent bytes of the buffer for the format. -/
structure DataAccess where
  offset : Nat
  length : Nat
  deriving DecidableEq, Repr

/-- The status, `*DataSize` if it is stored, the format that is in the buffer then, and what was
touched of the buffer. -/
structure Intersection where
  status : NtStatus
  dataSize : Option (BitVec 32)
  format : Option ConnectionFormat
  accesses : List DataAccess
  deriving DecidableEq, Repr

/-- The part of the header up to `biSizeImage`. -/
def headerRead : BitVec 32 := 24

/-- `behind` is what the buffer holds for a header that is not copied to its end. -/
def intersectHandler (caller descriptor : DataRangeVideo) (bufferSize : BitVec 32)
    (behind : BitmapInfoHeader) : Intersection :=
  if caller.videoInfo = true ∧ sizeofDataRangeVideo ≤ caller.formatSize then
    if caller.bFixedSizeSamples ≠ descriptor.bFixedSizeSamples ∨
        caller.bTemporalCompression ≠ descriptor.bTemporalCompression ∨
        caller.streamDescriptionFlags ≠ descriptor.streamDescriptionFlags ∨
        caller.memoryAllocationFlags ≠ descriptor.memoryAllocationFlags ∨
        caller.configCaps ≠ descriptor.configCaps then ⟨statusNoMatch, none, none, []⟩
    else
      let videoHeaderSize := ksSizeVideoHeader caller.bmiHeader
      let dataRangeSize := dataRangeHeaderOffset + videoHeaderSize
      if videoHeaderSize < caller.bmiHeader.biSize ∨ dataRangeSize < videoHeaderSize ∨
          caller.formatSize < dataRangeSize then ⟨statusInvalidParameter, none, none, []⟩
      else
        let dataFormatSize := videoInfoHeaderOffset + videoHeaderSize
        if bufferSize = 0 then ⟨statusBufferOverflow, some dataFormatSize, none, []⟩
        else if bufferSize < dataFormatSize then ⟨statusBufferTooSmall, none, none, []⟩
        else
          let header := if headerRead ≤ caller.bmiHeader.biSize then caller.bmiHeader else behind
          -- the format, its size, the header, what `KS_DIBSIZE` reads, and the size of the image
          ⟨statusSuccess, some dataFormatSize,
            some ⟨descriptor.videoInfo, dataFormatSize,
              { header with biSizeImage := ksDibSize header }⟩,
            [⟨0, 64⟩, ⟨0, 4⟩, ⟨64, videoHeaderSize.toNat⟩, ⟨116, 4⟩, ⟨120, 4⟩, ⟨126, 2⟩, ⟨132, 4⟩,
              ⟨8, 4⟩]⟩
  else ⟨statusNoMatch, none, none, []⟩

end Capture

end Xadma
