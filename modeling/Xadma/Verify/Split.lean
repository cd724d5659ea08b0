import Xadma.Verify.Chain

/-!
# A request in several fragments

The framework cuts the elements of a request into consecutive lists and has
`XDMA_EngineProgramDma` called once for each. The engine starts every fragment behind the bytes that
have been transferred, whatever the address mode.
-/

namespace Xadma

/-- The transfers of the fragments `fs`, the first of which finds `bytesTransferred` bytes done. -/
def programFragments (w : PointerWidth) (engine : XdmaEngine) (direction : WdfDmaDirection)
    (deviceOffset : BitVec 64) : Nat → List ScatterGatherList → Option (List Transfer)
  | _, [] => some []
  | bytesTransferred, sgList :: fs => do
    let descs ← programChain engine direction
      (startOffset w deviceOffset bytesTransferred) sgList
    let ts ← executeChain direction engine.descBuffer.logical descs
    let ts' ← programFragments w engine direction deviceOffset
      (bytesTransferred + totalLength sgList.elements) fs
    return ts ++ ts'

/-- Every way of cutting the elements `es` into fragments makes the same transfers, and in fixed
mode these are all at one device address. -/
def SplitInvariant (w : PointerWidth) (engine : XdmaEngine) (direction : WdfDmaDirection)
    (deviceOffset : BitVec 64) (es : List SgElement) : Prop :=
  ∃ ts, (∀ fs : List ScatterGatherList, fs.flatMap (·.elements) = es →
      programFragments w engine direction deviceOffset 0 fs = some ts) ∧
    (engine.addressMode = .fixed → ∃ addr, ∀ t ∈ ts, t.deviceAddr = addr)

/-- What the fragments come to: each is planned from its own starting offset. -/
def plannedFragments (w : PointerWidth) (mode : AddressMode) (deviceOffset : BitVec 64) :
    Nat → List ScatterGatherList → List Transfer
  | _, [] => []
  | bytesTransferred, sgList :: fs =>
    plannedTransfers mode (startOffset w deviceOffset bytesTransferred) sgList.elements ++
      plannedFragments w mode deviceOffset (bytesTransferred + totalLength sgList.elements) fs

variable {w : PointerWidth} {engine : XdmaEngine} {direction : WdfDmaDirection}
  {deviceOffset offset : BitVec 64} {mode : AddressMode} {bytes : Nat} {e e' : SgElement}
  {es es' : List SgElement} {fs fs' : List ScatterGatherList}

@[simp] theorem totalLength_nil : totalLength [] = 0 := rfl

@[simp] theorem totalLength_cons : totalLength (e :: es) = e.length.toNat + totalLength es := rfl

@[simp] theorem totalLength_append :
    totalLength (es ++ es') = totalLength es + totalLength es' := by
  simp [totalLength]

theorem totalLength_eq_zero (h : ∀ e ∈ es, e.length = 0) : totalLength es = 0 := by
  induction es with
  | nil => rfl
  | cons e es ih =>
    rw [totalLength_cons, h e List.mem_cons_self, ih fun x hx => h x (List.mem_cons_of_mem e hx)]
    rfl

theorem startOffset_add {n : Nat} :
    startOffset w deviceOffset bytes + BitVec.ofNat 64 n =
      startOffset w deviceOffset (bytes + n) := by
  rw [startOffset, startOffset, BitVec.add_assoc, BitVec.ofNat_add]

/-! ## The transfers of a request -/

theorem programFragments_of_divides (hdiv : engine.Divides) :
    programFragments w engine direction deviceOffset bytes fs =
      some (plannedFragments w engine.addressMode deviceOffset bytes fs) := by
  induction fs generalizing bytes with
  | nil => rfl
  | cons sgList fs ih =>
    obtain ⟨descs, hprog⟩ := hdiv.programChain direction (startOffset w deviceOffset bytes) sgList
    simp only [programFragments, hprog, (chainCorrect_of_programChain hprog).moves, ih,
      Option.bind_eq_bind, Option.bind_some, Option.pure_def]
    rfl

theorem divides_of_programFragments {sgList : ScatterGatherList}
    (h : (programFragments w engine direction deviceOffset bytes (sgList :: fs)).isSome = true) :
    engine.Divides := by
  obtain ⟨ts, hts⟩ := Option.isSome_iff_exists.mp h
  simp only [programFragments, Option.bind_eq_bind] at hts
  obtain ⟨descs, hprog, -⟩ := Option.bind_eq_some_iff.mp hts
  exact programChain_isSome.mp (Option.isSome_iff_exists.mpr ⟨descs, hprog⟩)

theorem plannedTransfers_cons_contiguous :
    plannedTransfers .contiguous offset (e :: es) =
      ⟨e.address, offset, e.length⟩ ::
        plannedTransfers .contiguous (offset + BitVec.ofNat 64 e.length.toNat) es := by
  simp only [plannedTransfers, List.mapIdx_cons, deviceAddrAt, List.take_zero, totalLength_nil,
    List.take_succ_cons, totalLength_cons, BitVec.ofNat_add, BitVec.add_assoc]
  simp

theorem plannedTransfers_append_contiguous :
    plannedTransfers .contiguous offset (es ++ es') =
      plannedTransfers .contiguous offset es ++
        plannedTransfers .contiguous (offset + BitVec.ofNat 64 (totalLength es)) es' := by
  induction es generalizing offset with
  | nil => simp [plannedTransfers]
  | cons e es ih =>
    rw [List.cons_append, plannedTransfers_cons_contiguous, ih,
      plannedTransfers_cons_contiguous, totalLength_cons, BitVec.ofNat_add, BitVec.add_assoc]
    rfl

/-- In incremental mode the fragments do not show. -/
theorem plannedFragments_contiguous :
    plannedFragments w .contiguous deviceOffset bytes fs =
      plannedTransfers .contiguous (startOffset w deviceOffset bytes)
        (fs.flatMap (·.elements)) := by
  induction fs generalizing bytes with
  | nil => rfl
  | cons sgList fs ih =>
    rw [plannedFragments, ih, List.flatMap_cons, plannedTransfers_append_contiguous,
      startOffset_add]

theorem plannedFragments_append :
    plannedFragments w mode deviceOffset bytes (fs ++ fs') =
      plannedFragments w mode deviceOffset bytes fs ++
        plannedFragments w mode deviceOffset
          (bytes + totalLength (fs.flatMap (·.elements))) fs' := by
  induction fs generalizing bytes with
  | nil => rfl
  | cons sgList fs ih =>
    simp only [List.cons_append, plannedFragments, ih, List.flatMap_cons, totalLength_append,
      List.append_assoc, Nat.add_assoc]

theorem plannedTransfers_of_ne_contiguous (hm : mode ≠ .contiguous) :
    plannedTransfers mode offset es = es.map fun e => ⟨e.address, offset, e.length⟩ := by
  refine List.mapIdx_eq_iff.mpr fun i => ?_
  cases mode with
  | contiguous => exact absurd rfl hm
  | fixed => simp [deviceAddrAt]
  | other raw => simp [deviceAddrAt]

/-- In the other modes they do not show either while no bytes are counted. -/
theorem plannedFragments_of_zero (hm : mode ≠ .contiguous) (hes : fs.flatMap (·.elements) = es)
    (hzero : ∀ e ∈ es.dropLast, e.length = 0) :
    plannedFragments w mode deviceOffset bytes fs =
      es.map fun e => ⟨e.address, startOffset w deviceOffset bytes, e.length⟩ := by
  induction fs generalizing bytes es with
  | nil =>
    subst hes
    rfl
  | cons sgList fs ih =>
    subst hes
    rw [List.flatMap_cons] at hzero ⊢
    rw [plannedFragments, plannedTransfers_of_ne_contiguous hm, List.map_append]
    congr 1
    by_cases hrest : fs.flatMap (·.elements) = []
    · rw [ih hrest (by simp), hrest]
      rfl
    · rw [List.dropLast_append_of_ne_nil hrest] at hzero
      have htotal : totalLength sgList.elements = 0 :=
        totalLength_eq_zero fun e he => hzero e (List.mem_append_left _ he)
      rw [htotal, Nat.add_zero]
      exact ih rfl fun e he => hzero e (List.mem_append_right _ he)

/-! ## Cuts that show -/

namespace ScatterGatherList

def single (e : SgElement) : ScatterGatherList := ⟨[e], by simp, by simp [sgMaxElements]⟩

def pair (e e' : SgElement) : ScatterGatherList :=
  ⟨[e, e'], by simp, show 2 ≤ sgMaxElements by decide⟩

theorem flatMap_single (es : List SgElement) : (es.map single).flatMap (·.elements) = es := by
  induction es with
  | nil => rfl
  | cons e es ih => rw [List.map_cons, List.flatMap_cons, ih]; rfl

end ScatterGatherList

open ScatterGatherList

theorem exists_behind_of_mem_dropLast (h : e ∈ es.dropLast) :
    ∃ pre e' post, es = pre ++ e :: e' :: post := by
  have hne : es ≠ [] := by
    rintro rfl
    cases h
  obtain ⟨pre, mid, hmid⟩ := List.append_of_mem h
  obtain ⟨e', post, hpost⟩ := List.exists_cons_of_ne_nil
    (List.append_ne_nil_of_right_ne_nil mid (List.cons_ne_nil (es.getLast hne) []))
  refine ⟨pre, e', post, ?_⟩
  calc
    es = es.dropLast ++ [es.getLast hne] := (List.dropLast_append_getLast hne).symm
    _ = pre ++ e :: e' :: post := by rw [hmid, ← hpost, List.append_assoc, List.cons_append]

theorem startOffset_ne {n : BitVec 32} (hn : n ≠ 0) :
    startOffset w deviceOffset (bytes + n.toNat) ≠ startOffset w deviceOffset bytes := by
  intro h
  rw [← startOffset_add] at h
  have h0 : BitVec.ofNat 64 n.toNat = 0#64 := by
    simpa using h
  have := congrArg BitVec.toNat h0
  rw [BitVec.toNat_ofNat, Nat.mod_eq_of_lt (n.isLt.trans (by decide))] at this
  exact hn (BitVec.eq_of_toNat_eq this)

/-- Outside incremental mode a cut behind an element that is not empty moves what follows. -/
theorem length_eq_zero_of_splitInvariant (hdiv : engine.Divides)
    (hm : engine.addressMode ≠ .contiguous)
    (h : SplitInvariant w engine direction deviceOffset es) :
    ∀ e ∈ es.dropLast, e.length = 0 := by
  intro e he
  by_contra hlen
  obtain ⟨pre, e', post, rfl⟩ := exists_behind_of_mem_dropLast he
  obtain ⟨ts, hall, -⟩ := h
  have together := hall (pre.map single ++ pair e e' :: post.map single)
    (by simp only [List.flatMap_append, List.flatMap_cons, flatMap_single]; rfl)
  have apart := hall (pre.map single ++ single e :: single e' :: post.map single)
    (by simp only [List.flatMap_append, List.flatMap_cons, flatMap_single]; rfl)
  rw [programFragments_of_divides hdiv] at together apart
  have hsame := Option.some.inj (together.trans apart.symm)
  rw [plannedFragments_append, plannedFragments_append] at hsame
  have htail := List.append_cancel_left hsame
  simp only [plannedFragments, plannedTransfers_of_ne_contiguous hm, single, pair, List.map_cons,
    List.map_nil, List.cons_append, List.nil_append, List.cons.injEq, Transfer.mk.injEq,
    totalLength_cons, totalLength_nil, Nat.add_zero] at htail
  exact startOffset_ne hlen htail.2.1.2.1.symm

theorem splitInvariant_of_contiguous (hdiv : engine.Divides)
    (hm : engine.addressMode = .contiguous) :
    SplitInvariant w engine direction deviceOffset es := by
  refine ⟨plannedTransfers .contiguous (startOffset w deviceOffset 0) es, ?_, ?_⟩
  · rintro fs rfl
    rw [programFragments_of_divides hdiv, hm, plannedFragments_contiguous]
  · intro hfixed
    cases hm.symm.trans hfixed

theorem splitInvariant_of_zero (hdiv : engine.Divides) (hm : engine.addressMode ≠ .contiguous)
    (hzero : ∀ e ∈ es.dropLast, e.length = 0) :
    SplitInvariant w engine direction deviceOffset es := by
  refine ⟨es.map fun e => ⟨e.address, startOffset w deviceOffset 0, e.length⟩, ?_, ?_⟩
  · intro fs hfs
    rw [programFragments_of_divides hdiv, plannedFragments_of_zero hm hfs hzero]
  · refine fun _ => ⟨startOffset w deviceOffset 0, fun t ht => ?_⟩
    obtain ⟨e, -, rfl⟩ := List.mem_map.mp ht
    rfl

theorem splitInvariant_nil : SplitInvariant w engine direction deviceOffset [] := by
  refine ⟨[], fun fs hfs => ?_, fun _ => ⟨0, by simp⟩⟩
  cases fs with
  | nil => rfl
  | cons sgList fs =>
    rw [List.flatMap_cons] at hfs
    exact absurd (List.append_eq_nil_iff.mp hfs).1 sgList.nonempty

theorem SplitInvariant.divides (h : SplitInvariant w engine direction deviceOffset es) :
    es = [] ∨ engine.Divides := by
  obtain ⟨ts, hall, -⟩ := h
  cases es with
  | nil => exact Or.inl rfl
  | cons e es =>
    have hts := hall (single e :: es.map single) (flatMap_single (e :: es))
    exact Or.inr (divides_of_programFragments (Option.isSome_iff_exists.mpr ⟨ts, hts⟩))

/-- The transfers of a request do not depend on its fragments exactly in incremental mode, and
otherwise when no bytes are counted before its last element. -/
theorem programFragments_splitInvariant_iff (w : PointerWidth) (engine : XdmaEngine)
    (direction : WdfDmaDirection) (deviceOffset : BitVec 64) (es : List SgElement) :
    SplitInvariant w engine direction deviceOffset es ↔
      (es = [] ∨ engine.Divides) ∧
        (engine.addressMode = .contiguous ∨ ∀ e ∈ es.dropLast, e.length = 0) := by
  constructor
  · intro h
    refine ⟨h.divides, or_iff_not_imp_left.mpr fun hm => ?_⟩
    rcases h.divides with rfl | hdiv
    · simp
    · exact length_eq_zero_of_splitInvariant hdiv hm h
  · rintro ⟨rfl | hdiv, hmode⟩
    · exact splitInvariant_nil
    · rcases Classical.em (engine.addressMode = .contiguous) with hm | hm
      · exact splitInvariant_of_contiguous hdiv hm
      · exact splitInvariant_of_zero hdiv hm (hmode.resolve_left hm)

/-- In fixed mode the second of two fragments of one page is written a page behind the first. -/
theorem programFragments_fixed_moves :
    programFragments .w64 (.sample .mm .fixed) .writeToDevice 0x100 0
        [.single ⟨0x2000, 0x1000⟩, .single ⟨0x5000, 0x1000⟩] =
      some [⟨0x2000, 0x100, 0x1000⟩, ⟨0x5000, 0x1100, 0x1000⟩] ∧
    ¬ SplitInvariant .w64 (.sample .mm .fixed) .writeToDevice 0x100
        [⟨0x2000, 0x1000⟩, ⟨0x5000, 0x1000⟩] := by
  refine ⟨by decide, fun ⟨ts, hall, hfixed⟩ => ?_⟩
  have hts := hall [.single ⟨0x2000, 0x1000⟩, .single ⟨0x5000, 0x1000⟩] rfl
  obtain ⟨addr, haddr⟩ := hfixed rfl
  have hval : programFragments .w64 (.sample .mm .fixed) .writeToDevice 0x100 0
      [.single ⟨0x2000, 0x1000⟩, .single ⟨0x5000, 0x1000⟩] =
        some [⟨0x2000, 0x100, 0x1000⟩, ⟨0x5000, 0x1100, 0x1000⟩] := by decide
  cases hval.symm.trans hts
  have hfirst := haddr ⟨0x2000, 0x100, 0x1000⟩ (by simp)
  have hsecond := haddr ⟨0x5000, 0x1100, 0x1000⟩ (by simp)
  exact absurd (hfirst.trans hsecond.symm) (by decide)

end Xadma
