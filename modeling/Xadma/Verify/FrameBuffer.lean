import Xadma.Avsadma.VideoFormat

/-!
# What is copied into a frame

A format that is accepted leaves room for its rows. The copy goes by the size of the common buffer
instead, and to the address of the variable that holds the address of the frame.
-/

namespace Xadma

namespace Capture

variable {a b ab : BitVec 32} {f : ConnectionFormat} {range : BitmapInfoHeader}
  {change : Option FormatChange} {clock : Option (BitVec 64)}

/-! ## Formats that are accepted -/

theorem multiplyCheckOverflow_eq_some (h : multiplyCheckOverflow a b = some ab) :
    ab.toNat = a.toNat * b.toNat := by
  simp only [multiplyCheckOverflow] at h
  split at h
  · next hcheck =>
    cases h
    rw [BitVec.toNat_mul]
    rcases hcheck with rfl | hdiv
    · simp
    · have hnat : a.toNat * b.toNat % 2 ^ 32 / a.toNat = b.toNat := by
        rw [← BitVec.toNat_mul, ← BitVec.toNat_udiv]
        exact congrArg BitVec.toNat hdiv
      have hle : b.toNat * a.toNat ≤ a.toNat * b.toNat % 2 ^ 32 := by
        conv_lhs => rw [← hnat]
        exact Nat.div_mul_le_self ..
      rw [Nat.mul_comm] at hle
      exact Nat.le_antisymm (Nat.mod_le _ _) hle
  · cases h

/-- What it takes to be accepted. -/
theorem dispatchSetFormat_accepts (h : ntSuccess (dispatchSetFormat f range change) = true) :
    f.bmiHeader.biWidth = range.biWidth ∧ f.bmiHeader.biHeight = range.biHeight ∧
      f.bmiHeader.biCompression = range.biCompression ∧
      ∃ size, imageSize f.bmiHeader = some size ∧ size ≤ f.bmiHeader.biSizeImage := by
  have hno : ntSuccess statusNoMatch = false := by decide
  have hinvalid : ntSuccess statusInvalidParameter = false := by decide
  unfold dispatchSetFormat at h
  simp only at h
  split at h
  · split at h
    · rw [hinvalid] at h
      cases h
    · split at h
      · rw [hno] at h
        cases h
      · next hmatch =>
        split at h
        · rw [hinvalid] at h
          cases h
        · next size hsize =>
          split at h
          · rw [hinvalid] at h
            cases h
          · next hle =>
            simp only [not_or, ne_eq, not_not] at hmatch
            exact ⟨hmatch.1, hmatch.2.1, hmatch.2.2, size, hsize, BitVec.not_lt.mp hle⟩
  · rw [hno] at h
    cases h

/-- The rows of an accepted format fit into its frames. -/
theorem dispatchSetFormat_fits (hrange : range ∈ capturePinDataRanges)
    (h : ntSuccess (dispatchSetFormat f range change) = true) :
    1920 * 1080 * (f.bmiHeader.biBitCount.toNat / 8) ≤ f.bmiHeader.biSizeImage.toNat := by
  obtain ⟨hwidth, hheight, -, size, hsize, hle⟩ := dispatchSetFormat_accepts h
  have hranges : ∀ r ∈ capturePinDataRanges,
      r.biWidth.toNat * r.biHeight.abs.toNat = 1920 * 1080 := by decide
  have hrows := hranges range hrange
  obtain ⟨pixels, hpixels, hsize⟩ := Option.bind_eq_some_iff.mp hsize
  have hbytes : ((f.bmiHeader.biBitCount / 8).setWidth 32).toNat =
      f.bmiHeader.biBitCount.toNat / 8 := by
    simp
    omega
  rw [← hrows, ← hwidth, ← hheight, ← multiplyCheckOverflow_eq_some hpixels, ← hbytes,
    ← multiplyCheckOverflow_eq_some hsize]
  exact hle

/-! ## Frames -/

/-- The frame is filled within its buffer, from within the common buffer, and says so. -/
structure FrameContained (biSizeImage videoBufferSize : BitVec 32) (p : Processed) : Prop where
  writes : ∀ copy ∈ p.copies, ∀ i < copy.length.toNat,
    copy.dst.object = .streamBuffer ∧ copy.dst.offset + i < biSizeImage.toNat
  reads : ∀ copy ∈ p.copies, copy.src.object = .videoBuffer ∧
    copy.src.offset + copy.length.toNat ≤ videoBufferSize.toNat
  dataUsed : ∀ h, p.header = some h → h.dataUsed ≤ biSizeImage

variable {header : StreamHeader} {adapter : Bool}

theorem processC4_eq {videoBufferSize : BitVec 32} (hdata : header.data = true) :
    processC4 videoBufferSize clock (some header) =
      ⟨statusPending,
        some (({ header with dataUsed := videoBufferSize } : StreamHeader).stamp clock),
        [⟨⟨.bufferVirtual, 0⟩, ⟨.videoBuffer, 0⟩, videoBufferSize⟩], true⟩ := by
  rw [processC4, hdata]
  rfl

theorem stamp_dataUsed (header : StreamHeader) :
    (header.stamp clock).dataUsed = header.dataUsed := by
  cases clock <;> rfl

/-- A frame is contained when nothing is copied at all. -/
theorem processC4_contained_iff (adapter : Bool) (biSizeImage : BitVec 32)
    (hdata : header.data = true) :
    FrameContained biSizeImage (setupVideoBuffer adapter)
      (processC4 (setupVideoBuffer adapter) clock (some header)) ↔ adapter = false := by
  rw [processC4_eq hdata]
  constructor
  · intro h
    cases adapter with
    | false => rfl
    | true =>
      have hwrite := h.writes _ (List.mem_singleton_self _) 0 (by decide)
      cases hwrite.1
  · rintro rfl
    refine ⟨?_, ?_, ?_⟩
    · intro copy hcopy i hi
      rw [List.mem_singleton] at hcopy
      subst hcopy
      exact absurd hi (Nat.not_lt_zero i)
    · intro copy hcopy
      rw [List.mem_singleton] at hcopy
      subst hcopy
      exact ⟨rfl, le_rfl⟩
    · intro h hh
      rw [← Option.some.inj hh, stamp_dataUsed]
      exact BitVec.le_def.mpr (Nat.zero_le _)

/-- An accepted format leaves room for its rows, but what `ProcessC4` copies goes elsewhere. -/
theorem frame_contained_iff (hrange : range ∈ capturePinDataRanges)
    (haccepted : ntSuccess (dispatchSetFormat f range change) = true)
    (hdata : header.data = true) :
    1920 * 1080 * (f.bmiHeader.biBitCount.toNat / 8) ≤ f.bmiHeader.biSizeImage.toNat ∧
      (FrameContained f.bmiHeader.biSizeImage (setupVideoBuffer adapter)
        (processC4 (setupVideoBuffer adapter) clock (some header)) ↔ adapter = false) :=
  ⟨dispatchSetFormat_fits hrange haccepted, processC4_contained_iff adapter _ hdata⟩

/-- A connection in the default format of a data range. -/
def ConnectionFormat.default (h : BitmapInfoHeader) : ConnectionFormat :=
  ⟨true, sizeofDataFormat, h⟩

def emptyFrame : StreamHeader := ⟨true, 0, 0, 0⟩

theorem frame_contained_without_adapter :
    1920 * 1080 * 3 ≤ formatRGB24Bpp.biSizeImage.toNat ∧
      FrameContained formatRGB24Bpp.biSizeImage 0 (processC4 0 none (some emptyFrame)) := by
  have haccepted :
      ntSuccess (dispatchSetFormat (.default formatRGB24Bpp) formatRGB24Bpp none) = true := by
    decide
  have hdata : emptyFrame.data = true := rfl
  exact (frame_contained_iff (by decide) haccepted hdata).imp_right fun h =>
    (h : FrameContained _ (setupVideoBuffer false) _ ↔ _).mpr rfl

/-- Both default formats are accepted. 6220800 bytes go to the variable in either one, and in the
YUY2 format the frame says that it has more bytes than it has. -/
theorem frame_not_contained :
    (∀ h ∈ capturePinDataRanges,
      ntSuccess (dispatchSetFormat (.default h) h none) = true ∧
      (processC4 (setupVideoBuffer true) none (some emptyFrame)).copies =
        [⟨⟨.bufferVirtual, 0⟩, ⟨.videoBuffer, 0⟩, 6220800⟩] ∧
      ¬ FrameContained h.biSizeImage (setupVideoBuffer true)
        (processC4 (setupVideoBuffer true) none (some emptyFrame))) ∧
    (processC4 (setupVideoBuffer true) none (some emptyFrame)).header =
      some { emptyFrame with dataUsed := 6220800 } ∧
    formatYUY2.biSizeImage = 4147200 := by
  refine ⟨fun h hh => ⟨?_, by decide, fun hcontained => ?_⟩, by decide, by decide⟩
  · revert h
    decide
  · cases (processC4_contained_iff true _ rfl).mp hcontained

end Capture

end Xadma
