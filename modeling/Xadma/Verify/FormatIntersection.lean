import Xadma.Theory.Word
import Xadma.Verify.FrameBuffer
import Xadma.Avsadma.FormatIntersection

/-!
# What a format is worth that was handed out

The size that is asked for first is enough for the format. Whether `DispatchSetFormat` takes the
format depends on what `IntersectHandler` leaves unchecked: the size of the header, the picture, and
the bits of a pixel, up to where `KS_DIBSIZE` overflows.
-/

namespace Xadma

theorem toNat_and_not_mask {w k : Nat} (x : BitVec w) :
    (x &&& ~~~ BitVec.ofNat w (2 ^ k - 1)).toNat = x.toNat / 2 ^ k * 2 ^ k := by
  apply Nat.eq_of_testBit_eq
  intro i
  rw [← Nat.shiftRight_eq_div_pow, ← Nat.shiftLeft_eq, Nat.testBit_shiftLeft,
    Nat.testBit_shiftRight, BitVec.testBit_toNat, BitVec.testBit_toNat, BitVec.getLsbD_and,
    BitVec.getLsbD_not, BitVec.getLsbD_ofNat, Nat.testBit_two_pow_sub_one]
  by_cases hi : i < w
  · by_cases hk : i < k
    · simp [hi, hk]
    · simp [hi, hk, show k + (i - k) = i by omega]
      omega
  · have hout : x.getLsbD i = false := BitVec.getLsbD_of_ge x i (by omega)
    by_cases hk : i < k
    · simp [hi, hout]
      omega
    · simp [hi, hout, show k + (i - k) = i by omega]

namespace Capture

variable {a b ab : BitVec 32} {f : ConnectionFormat} {range h : BitmapInfoHeader}
  {caller descriptor : DataRangeVideo} {bufferSize n : BitVec 32} {behind : BitmapInfoHeader}

theorem multiplyCheckOverflow_eq_some_iff :
    multiplyCheckOverflow a b = some ab ↔ a * b = ab ∧ a.toNat * b.toNat < 2 ^ 32 := by
  constructor
  · intro h
    have hprod := multiplyCheckOverflow_eq_some h
    have hlt := ab.isLt
    rw [hprod] at hlt
    refine ⟨BitVec.eq_of_toNat_eq ?_, hlt⟩
    rw [BitVec.toNat_mul, hprod, Nat.mod_eq_of_lt hlt]
  · rintro ⟨rfl, hlt⟩
    unfold multiplyCheckOverflow
    refine if_pos ?_
    by_cases ha : a = 0
    · exact .inl ha
    · right
      have hpos := BitVec.toNat_pos_of_ne_zero ha
      apply BitVec.eq_of_toNat_eq
      rw [BitVec.toNat_udiv, BitVec.toNat_mul, Nat.mod_eq_of_lt hlt, Nat.mul_div_cancel_left _ hpos]

/-- `DispatchSetFormat` before the pin is created. -/
theorem dispatchSetFormat_iff : dispatchSetFormat f range none = statusSuccess ↔
    (f.videoInfo = true ∧ sizeofDataFormat ≤ f.formatSize) ∧
      ¬ (ksSizeVideoHeader f.bmiHeader < f.bmiHeader.biSize ∨
        videoInfoHeaderOffset + ksSizeVideoHeader f.bmiHeader < ksSizeVideoHeader f.bmiHeader ∨
        f.formatSize < videoInfoHeaderOffset + ksSizeVideoHeader f.bmiHeader) ∧
      (f.bmiHeader.biWidth = range.biWidth ∧ f.bmiHeader.biHeight = range.biHeight ∧
        f.bmiHeader.biCompression = range.biCompression) ∧
      ∃ size, imageSize f.bmiHeader = some size ∧ size ≤ f.bmiHeader.biSizeImage := by
  have hno : statusNoMatch ≠ statusSuccess := by decide
  have hinvalid : statusInvalidParameter ≠ statusSuccess := by decide
  unfold dispatchSetFormat
  simp only
  split
  · next hvideo =>
    split
    · next hsizes => exact iff_of_false hinvalid fun h => h.2.1 hsizes
    · next hsizes =>
      split
      · next hdims =>
        refine iff_of_false hno fun h => ?_
        rcases hdims with hne | hne | hne
        · exact hne h.2.2.1.1
        · exact hne h.2.2.1.2.1
        · exact hne h.2.2.1.2.2
      · next hdims =>
        simp only [not_or, ne_eq, not_not] at hdims
        split
        · next hnone =>
          refine iff_of_false hinvalid fun h => ?_
          obtain ⟨size, hsize, -⟩ := h.2.2.2
          rw [hnone] at hsize
          cases hsize
        · next size hsize =>
          split
          · next hlt =>
            refine iff_of_false hinvalid fun h => ?_
            obtain ⟨size', hsize', hle⟩ := h.2.2.2
            rw [hsize] at hsize'
            cases hsize'
            exact BitVec.not_lt.mpr hle hlt
          · next hle =>
            exact iff_of_true rfl ⟨hvideo, hsizes, hdims, size, hsize, BitVec.not_lt.mp hle⟩
  · next hvideo => exact iff_of_false hno fun h => hvideo h.1

/-! ## The size of a picture -/

/-- A picture of the size that the pin has. -/
def FullPicture (h : BitmapInfoHeader) : Prop := h.biWidth = dmaxX ∧ h.biHeight = dmaxY

theorem fullPicture_of_mem (h : range ∈ capturePinDataRanges) : FullPicture range := by
  have hall : ∀ r ∈ capturePinDataRanges, r.biWidth = dmaxX ∧ r.biHeight = dmaxY := by decide
  exact hall range h

theorem imageSize_iff (hpicture : FullPicture h) {size : BitVec 32} :
    imageSize h = some size ↔ size.toNat = 2073600 * (h.biBitCount.toNat / 8) := by
  have hbytes : ((h.biBitCount / 8).setWidth 32).toNat = h.biBitCount.toNat / 8 := by
    simp
    omega
  have hpixels : multiplyCheckOverflow h.biWidth h.biHeight.abs = some 2073600 := by
    rw [hpicture.1, hpicture.2]
    decide
  have hlt := size.isLt
  unfold imageSize
  rw [hpixels]
  change multiplyCheckOverflow 2073600 _ = some size ↔ _
  rw [multiplyCheckOverflow_eq_some_iff, hbytes]
  constructor
  · rintro ⟨rfl, hbound⟩
    rw [BitVec.toNat_mul, hbytes, Nat.mod_eq_of_lt hbound]
    rfl
  · intro hsize
    have hbound : (2073600 : BitVec 32).toNat * (h.biBitCount.toNat / 8) < 2 ^ 32 :=
      hsize ▸ hlt
    refine ⟨BitVec.eq_of_toNat_eq ?_, hbound⟩
    rw [BitVec.toNat_mul, hbytes, Nat.mod_eq_of_lt hbound, hsize]
    rfl

/-- No row of the picture needs padding. -/
theorem toNat_ksDibSize (hpicture : FullPicture h) :
    (ksDibSize h).toNat = 259200 * h.biBitCount.toNat % 2 ^ 32 := by
  have hbits := h.biBitCount.isLt
  have hsign : h.biHeight.slt 0 = false := by
    rw [hpicture.2]
    decide
  have hrow : (h.biWidth * h.biBitCount.setWidth 32 + 31).toNat =
      1920 * h.biBitCount.toNat + 31 := by
    rw [hpicture.1, BitVec.toNat_add, BitVec.toNat_mul, BitVec.toNat_setWidth]
    simp [dmaxX]
    omega
  have hround : ((h.biWidth * h.biBitCount.setWidth 32 + 31) &&& ~~~ 31).toNat =
      1920 * h.biBitCount.toNat := by
    have hmask := toNat_and_not_mask (k := 5) (h.biWidth * h.biBitCount.setWidth 32 + 31)
    rw [hrow] at hmask
    refine hmask.trans ?_
    omega
  have height : h.biHeight.toNat = 1080 := by rw [hpicture.2]; rfl
  unfold ksDibSize
  simp only [hsign, Bool.false_eq_true, if_false]
  rw [BitVec.toNat_mul, BitVec.toNat_udiv, hround, height]
  change 1920 * h.biBitCount.toNat / 8 * 1080 % 2 ^ 32 = _
  omega

theorem fits_ksDibSize_iff (hpicture : FullPicture h) :
    (∃ size, imageSize h = some size ∧ size ≤ ksDibSize h) ↔ h.biBitCount.toNat ≤ 16570 := by
  have hbits := h.biBitCount.isLt
  have hdib := toNat_ksDibSize hpicture
  constructor
  · rintro ⟨size, hsize, hle⟩
    rw [imageSize_iff hpicture] at hsize
    rw [BitVec.le_def, hsize, hdib] at hle
    have hlt := size.isLt
    by_contra hgt
    have hover : 259200 * h.biBitCount.toNat % 2 ^ 32 = 259200 * h.biBitCount.toNat - 2 ^ 32 := by
      rw [Nat.mod_eq_sub_mod (by omega), Nat.mod_eq_of_lt (by omega)]
    omega
  · intro hle
    have hlt : 2073600 * (h.biBitCount.toNat / 8) < 2 ^ 32 := by omega
    refine ⟨BitVec.ofNat 32 (2073600 * (h.biBitCount.toNat / 8)), ?_, ?_⟩
    · rw [imageSize_iff hpicture, BitVec.toNat_ofNat, Nat.mod_eq_of_lt hlt]
    · rw [BitVec.le_def, hdib, BitVec.toNat_ofNat, Nat.mod_eq_of_lt hlt,
        Nat.mod_eq_of_lt (by omega)]
      omega

/-! ## The two calls -/

/-- What the handler leaves in a buffer that is large enough. -/
def handedOut (caller descriptor : DataRangeVideo) (behind : BitmapInfoHeader) :
    ConnectionFormat :=
  let header := if headerRead ≤ caller.bmiHeader.biSize then caller.bmiHeader else behind
  ⟨descriptor.videoInfo, videoInfoHeaderOffset + ksSizeVideoHeader caller.bmiHeader,
    { header with biSizeImage := ksDibSize header }⟩

/-- The header of the caller ends within its range. -/
structure HeaderFits (caller : DataRangeVideo) : Prop where
  header : ¬ ksSizeVideoHeader caller.bmiHeader < caller.bmiHeader.biSize
  range : ¬ dataRangeHeaderOffset + ksSizeVideoHeader caller.bmiHeader <
    ksSizeVideoHeader caller.bmiHeader

theorem HeaderFits.bound (h : HeaderFits caller) :
    caller.bmiHeader.biSize.toNat + 256 < 2 ^ 32 := by
  obtain ⟨hheader, hrange⟩ := h
  have hsize := caller.bmiHeader.biSize.isLt
  simp only [ksSizeVideoHeader, dataRangeHeaderOffset, BitVec.lt_def, BitVec.toNat_add,
    BitVec.ofNat_eq_ofNat, BitVec.toNat_ofNat] at hheader hrange
  omega

/-- A size that was asked for is enough. -/
theorem intersectHandler_of_size
    (hsize : intersectHandler caller descriptor 0 behind = ⟨statusBufferOverflow, some n, none, []⟩)
    (hn : n ≤ bufferSize) :
    HeaderFits caller ∧ n = videoInfoHeaderOffset + ksSizeVideoHeader caller.bmiHeader ∧
      intersectHandler caller descriptor bufferSize behind =
        ⟨statusSuccess, some n, some (handedOut caller descriptor behind),
          [⟨0, 64⟩, ⟨0, 4⟩, ⟨64, (ksSizeVideoHeader caller.bmiHeader).toNat⟩, ⟨116, 4⟩, ⟨120, 4⟩,
            ⟨126, 2⟩, ⟨132, 4⟩, ⟨8, 4⟩]⟩ := by
  have hno : statusNoMatch ≠ statusBufferOverflow := by decide
  have hinvalid : statusInvalidParameter ≠ statusBufferOverflow := by decide
  unfold intersectHandler at hsize ⊢
  simp only [if_true] at hsize ⊢
  split at hsize
  · next hvideo =>
    split at hsize
    · exact absurd (congrArg Intersection.status hsize) hno
    · next hmatch =>
      split at hsize
      · exact absurd (congrArg Intersection.status hsize) hinvalid
      · next hfits =>
        have hdata := congrArg Intersection.dataSize hsize
        simp only [Option.some.injEq] at hdata
        rw [if_pos hvideo, if_neg hmatch, if_neg hfits, hdata]
        simp only [not_or] at hfits
        have hheader : HeaderFits caller := ⟨hfits.1, hfits.2.1⟩
        have hpos : 0 < n.toNat := by
          have hbound := hheader.bound
          rw [← hdata]
          simp only [ksSizeVideoHeader, videoInfoHeaderOffset, BitVec.toNat_add,
            BitVec.ofNat_eq_ofNat, BitVec.toNat_ofNat]
          omega
        have hne : bufferSize ≠ 0 := by
          rintro rfl
          rw [BitVec.le_def] at hn
          exact absurd (hpos.trans_le hn) (by decide)
        rw [if_neg hne, if_neg (BitVec.not_lt.mpr hn)]
        exact ⟨hheader, rfl, by rw [handedOut, hdata]⟩
  · exact absurd (congrArg Intersection.status hsize) hno

/-- The format that is handed out stays within the buffer exactly if its header reaches to its
`biSizeImage` or the buffer does. It is taken exactly if the caller has asked for a full header and
the picture of the pin, with so few bits for a pixel that the size of the image can be counted. -/
theorem intersectHandler_negotiates (hvideo : descriptor.videoInfo = true)
    (hrange : descriptor.bmiHeader ∈ capturePinDataRanges)
    (hsize : intersectHandler caller descriptor 0 behind = ⟨statusBufferOverflow, some n, none, []⟩)
    (hn : n ≤ bufferSize) :
    ∃ f accesses, intersectHandler caller descriptor bufferSize behind =
        ⟨statusSuccess, some n, some f, accesses⟩ ∧
      ((∀ a ∈ accesses, a.offset + a.length ≤ bufferSize.toNat) ↔
        headerRead ≤ caller.bmiHeader.biSize ∨ 136 ≤ bufferSize) ∧
      (dispatchSetFormat f descriptor.bmiHeader none = statusSuccess ↔
        sizeofBitmapInfoHeader ≤ caller.bmiHeader.biSize ∧
          caller.bmiHeader.biWidth = descriptor.bmiHeader.biWidth ∧
          caller.bmiHeader.biHeight = descriptor.bmiHeader.biHeight ∧
          caller.bmiHeader.biCompression = descriptor.bmiHeader.biCompression ∧
          caller.bmiHeader.biBitCount.toNat ≤ 16570) := by
  obtain ⟨hheader, hdata, hall⟩ := intersectHandler_of_size hsize hn
  have hbound := hheader.bound
  have hlen : (ksSizeVideoHeader caller.bmiHeader).toNat = caller.bmiHeader.biSize.toNat + 48 := by
    simp only [ksSizeVideoHeader, BitVec.toNat_add, BitVec.ofNat_eq_ofNat, BitVec.toNat_ofNat]
    omega
  have hn' : n.toNat = caller.bmiHeader.biSize.toNat + 112 := by
    rw [hdata, BitVec.toNat_add, hlen]
    simp only [videoInfoHeaderOffset, BitVec.ofNat_eq_ofNat, BitVec.toNat_ofNat]
    omega
  refine ⟨_, _, hall, ?_, ?_⟩
  · have hle := hn
    rw [BitVec.le_def] at hle
    simp only [List.forall_mem_cons, hlen, headerRead, BitVec.le_def, BitVec.ofNat_eq_ofNat,
      BitVec.toNat_ofNat]
    constructor
    · rintro ⟨-, -, -, -, -, -, hlast, -, -⟩
      exact .inr hlast
    · intro hreach
      have hlast : 136 ≤ bufferSize.toNat := by
        rcases hreach with hsize | hsize <;> omega
      exact ⟨by omega, by omega, by omega, by omega, by omega, by omega, by omega, by omega,
        fun _ hnil => nomatch hnil⟩
  · rw [dispatchSetFormat_iff]
    by_cases hfull : sizeofBitmapInfoHeader ≤ caller.bmiHeader.biSize
    · have hcopied : headerRead ≤ caller.bmiHeader.biSize := BitVec.le_trans (by decide) hfull
      have hsizes : ¬ (ksSizeVideoHeader caller.bmiHeader < caller.bmiHeader.biSize ∨
          videoInfoHeaderOffset + ksSizeVideoHeader caller.bmiHeader <
            ksSizeVideoHeader caller.bmiHeader ∨
          videoInfoHeaderOffset + ksSizeVideoHeader caller.bmiHeader <
            videoInfoHeaderOffset + ksSizeVideoHeader caller.bmiHeader) := by
        rw [← hdata, BitVec.lt_def, BitVec.lt_def, BitVec.lt_def]
        omega
      have hformat : sizeofDataFormat ≤ n := by
        rw [BitVec.le_def] at hfull ⊢
        rw [hn']
        exact Nat.add_le_add_right hfull 112
      rw [hdata] at hformat
      simp only [handedOut, if_pos hcopied]
      constructor
      · rintro ⟨-, -, ⟨hwidth, hheight, hcompression⟩, size, himage, hle⟩
        have hpicture := fullPicture_of_mem hrange
        rw [FullPicture, ← hwidth, ← hheight] at hpicture
        exact ⟨hfull, hwidth, hheight, hcompression,
          (fits_ksDibSize_iff hpicture).mp ⟨size, himage, hle⟩⟩
      · rintro ⟨-, hwidth, hheight, hcompression, hbits⟩
        have hpicture := fullPicture_of_mem hrange
        rw [FullPicture, ← hwidth, ← hheight] at hpicture
        exact ⟨⟨hvideo, hformat⟩, hsizes, ⟨hwidth, hheight, hcompression⟩,
          (fits_ksDibSize_iff hpicture).mpr hbits⟩
    · refine iff_of_false (fun h => hfull ?_) fun h => hfull h.1
      have hformat : sizeofDataFormat ≤ n := by
        rw [hdata]
        exact h.1.2
      rw [BitVec.le_def] at hformat ⊢
      rw [hn'] at hformat
      exact Nat.le_of_add_le_add_right (show 40 + 112 ≤ _ from hformat)

/-- A data range of the pin with these default bits for a pixel. -/
def sampleRange (biBitCount : BitVec 16) : DataRangeVideo :=
  ⟨true, 296, 1, 0, 0, 0, List.replicate 128 0, { formatRGB24Bpp with biBitCount := biBitCount }⟩

theorem intersectHandler_negotiates_rgb24 :
    ∃ f accesses, intersectHandler (sampleRange 24) (sampleRange 24) 152 formatYUY2 =
        ⟨statusSuccess, some 152, some f, accesses⟩ ∧
      (∀ a ∈ accesses, a.offset + a.length ≤ 152) ∧
      dispatchSetFormat f (sampleRange 24).bmiHeader none = statusSuccess := by
  have hsize : intersectHandler (sampleRange 24) (sampleRange 24) 0 formatYUY2 =
      ⟨statusBufferOverflow, some 152, none, []⟩ := by decide
  have hvideo : (sampleRange 24).videoInfo = true := rfl
  have hrange : (sampleRange 24).bmiHeader ∈ capturePinDataRanges := by decide
  obtain ⟨f, accesses, hall, hreach, haccept⟩ :=
    intersectHandler_negotiates hvideo hrange hsize (show 152#32 ≤ 152 by decide)
  exact ⟨f, accesses, hall, hreach.mpr (.inr (by decide)),
    haccept.mpr ⟨by decide, rfl, rfl, rfl, by decide⟩⟩

example : (intersectHandler (sampleRange 16571) (sampleRange 24) 152 formatYUY2).format.map
    (dispatchSetFormat · (sampleRange 24).bmiHeader none) = some statusInvalidParameter := by decide

end Capture

end Xadma
