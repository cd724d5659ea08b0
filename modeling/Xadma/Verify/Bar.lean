import Xadma.Sys.FileIo

/-!
# Containment of BAR accesses

The request must fit its BAR. `ReadBarToRequest` and `WriteBarFromRequest` leave that to
`ValidateBarParams`, as their comment says, and nothing calls it.
-/

namespace Xadma

variable {w : PointerWidth}

/-- The device nodes whose file holds a BAR pointer. -/
def DevNodeType.hasBar (t : DevNodeType) : Prop := t = .user ∨ t = .control ∨ t = .bypass

def Bar.contains (b : Bar w) (addr : BitVec w.bits) : Prop :=
  b.bar.toNat ≤ addr.toNat ∧ addr.toNat < b.bar.toNat + b.barLength.toNat

/-- The bytes that the request names, with its offset as a pointer offset, are in the BAR. -/
def IoRequest.fits (request : IoRequest w) (b : Bar w) : Prop :=
  (request.deviceOffset.setWidth w.bits).toNat + request.length.toNat ≤ b.barLength.toNat

/-- Only device memory of the BAR is touched, and a request that does not fit is completed with an
error and touches none. -/
structure Contained (b : Bar w) (request : IoRequest w) (outcome : IoOutcome w) : Prop where
  inside : ∀ a ∈ outcome.accesses, ∀ addr ∈ a.bytes, b.contains addr
  rejected : ¬ request.fits b →
    outcome.accesses = [] ∧ ∃ status info, outcome.completed = some (status, info) ∧
      ntSuccess status = false

variable {b : Bar w} {request : IoRequest w}

theorem barAccess_size (addr length : BitVec w.bits) :
    (barAccess addr length).size * (barAccess addr length).count ≤ length.toNat := by
  unfold barAccess
  have hmod := Nat.mod_le length.toNat (2 ^ 32)
  split
  · exact (Nat.mul_div_le _ _).trans hmod
  · split
    · exact (Nat.mul_div_le _ _).trans hmod
    · rw [Nat.one_mul]
      exact hmod

theorem barAccess_addr (addr length : BitVec w.bits) : (barAccess addr length).addr = addr := by
  unfold barAccess
  split
  · rfl
  · split <;> rfl

/-- An access that fits does not wrap, and stays in the BAR. -/
theorem contains_of_fits (hfits : request.fits b) {addr : BitVec w.bits}
    (haddr : addr ∈ (barAccess (b.bar + request.deviceOffset.setWidth w.bits)
      request.length).bytes) : b.contains addr := by
  obtain ⟨i, hi, rfl⟩ := List.mem_map.mp haddr
  have hlt := (List.mem_range.mp hi).trans_le (barAccess_size _ _)
  have hrange := b.inRange
  unfold IoRequest.fits at hfits
  have hval : (b.bar + request.deviceOffset.setWidth w.bits + BitVec.ofNat w.bits i).toNat =
      b.bar.toNat + (request.deviceOffset.setWidth w.bits).toNat + i := by
    rw [BitVec.toNat_add, BitVec.toNat_add, BitVec.toNat_ofNat, Nat.mod_eq_of_lt (a := i)
      (by omega), Nat.mod_eq_of_lt (a := _ + (request.deviceOffset.setWidth w.bits).toNat)
      (by omega), Nat.mod_eq_of_lt (by omega)]
  rw [barAccess_addr, Bar.contains, hval]
  omega

/-- The two routines are one, seen from the device. -/
theorem writeBarFromRequest_eq (request : IoRequest w) (bar : BitVec w.bits) :
    writeBarFromRequest request bar = readBarToRequest request bar := rfl

theorem Contained.of_error {length : BitVec w.bits} {status : NtStatus}
    (h : ntSuccess status = false) : Contained b request (finishBar length (status, [])) := by
  refine ⟨by simp [finishBar], fun _ => ⟨rfl, status, 0, ?_, h⟩⟩
  simp [finishBar, h]

theorem finishBar_contained_iff :
    Contained b request (finishBar request.length (readBarToRequest request b.bar)) ↔
      request.length = 0 ∨ ntSuccess request.retrieveMemory = false ∨ request.fits b := by
  by_cases hzero : request.length = 0
  · have hread : readBarToRequest request b.bar = (statusInvalidDeviceRequest, []) := by
      simp only [readBarToRequest, if_pos hzero]
    rw [hread]
    exact iff_of_true (.of_error (by decide)) (Or.inl hzero)
  cases hget : ntSuccess request.retrieveMemory with
  | false =>
    have hread : readBarToRequest request b.bar = (request.retrieveMemory, []) := by
      simp only [readBarToRequest, if_neg hzero, hget]
      rfl
    rw [hread]
    exact iff_of_true (.of_error hget) (Or.inr (Or.inl rfl))
  | true =>
    have hread : readBarToRequest request b.bar = (request.retrieveMemory,
        [barAccess (b.bar + request.deviceOffset.setWidth w.bits) request.length]) := by
      simp only [readBarToRequest, if_neg hzero, hget]
      rfl
    rw [hread]
    constructor
    · intro h
      by_contra hno
      have hnil := (h.rejected fun hfits => hno (Or.inr (Or.inr hfits))).1
      cases hnil
    · intro h
      have hfits : request.fits b := (h.resolve_left hzero).resolve_left Bool.noConfusion
      refine ⟨fun a ha addr haddr => ?_, fun hno => absurd hfits hno⟩
      cases List.mem_singleton.mp ha
      exact contains_of_fits hfits haddr

/-- In both drivers and both directions a BAR request is contained only when it is refused for
another reason, or fits anyway. -/
theorem evtIo_contained_iff (driver : Driver) (file : FileContext w) (request : IoRequest w)
    (hbar : file.devType.hasBar) :
    (Contained file.bar request (evtIoRead driver file request) ↔
      request.length = 0 ∨ ntSuccess request.retrieveMemory = false ∨ request.fits file.bar) ∧
    (Contained file.bar request (evtIoWrite driver file request) ↔
      request.length = 0 ∨ ntSuccess request.retrieveMemory = false ∨ request.fits file.bar) := by
  have hread : evtIoRead driver file request =
      finishBar request.length (readBarToRequest request file.bar.bar) := by
    rcases hbar with h | h | h <;> simp [evtIoRead, h]
  have hwrite : evtIoWrite driver file request =
      finishBar request.length (readBarToRequest request file.bar.bar) := by
    rcases hbar with h | h | h <;> simp [evtIoWrite, writeBarFromRequest_eq, h]
  rw [hread, hwrite]
  exact ⟨finishBar_contained_iff, finishBar_contained_iff⟩

/-- A register read of the first word of a user BAR. -/
theorem evtIo_contained_iff_user :
    Contained (w := .w64) ⟨0x10000, 0x1000, by decide⟩ ⟨0, 4, 0, 0, 0⟩
      (evtIoRead .xdma ⟨.user, 0x10000, 0x1000, by decide⟩ ⟨0, 4, 0, 0, 0⟩) :=
  ((evtIo_contained_iff .xdma ⟨.user, 0x10000, 0x1000, by decide⟩ ⟨0, 4, 0, 0, 0⟩
    (Or.inl rfl)).1).mpr (Or.inr (Or.inr (by unfold IoRequest.fits; decide)))

/-- A read of the word behind a BAR of one page succeeds. -/
theorem evtIoRead_outside_bar :
    evtIoRead (w := .w64) .xdma ⟨.user, 0x10000, 0x1000, by decide⟩ ⟨0x1000, 4, 0, 0, 0⟩ =
        ⟨some (statusSuccess, 4), [⟨0x11000, 4, 1⟩]⟩ ∧
      ¬ Contained (w := .w64) ⟨0x10000, 0x1000, by decide⟩ ⟨0x1000, 4, 0, 0, 0⟩
        (evtIoRead .xdma ⟨.user, 0x10000, 0x1000, by decide⟩ ⟨0x1000, 4, 0, 0, 0⟩) := by
  refine ⟨rfl, fun h => ?_⟩
  have hnil := (h.rejected (by unfold IoRequest.fits; decide)).1
  cases hnil

/-! ## The validator -/

/-- What `ValidateBarParams` accepts would fit, were it not for an end that wraps. -/
theorem fits_of_validateBarParams {lengths : List (BitVec 32)} {nBar : Nat}
    (hbar : lengths[nBar]? = some b.barLength)
    (hend : (request.deviceOffset.setWidth w.bits).toNat + request.length.toNat < 2 ^ w.bits)
    (h : ntSuccess (validateBarParams lengths nBar
      (request.deviceOffset.setWidth w.bits) request.length) = true) : request.fits b := by
  unfold validateBarParams at h
  split at h
  · cases h
  · rw [hbar] at h
    simp only at h
    split at h
    · cases h
    · next hlt =>
      rw [BitVec.toNat_add, Nat.mod_eq_of_lt hend] at hlt
      unfold IoRequest.fits
      omega

example : validateBarParams (w := .w64) [0x1000] 0 0xFFFFFFFFFFFFFFFC 8 = statusSuccess := by decide

end Xadma
