import Xadma.Theory.InOrder
import Xadma.Avsadma.StreamPointer
import Xadma.Verify.CaptureDescriptors

/-!
# The release of the frames

A pass counts the entries that it completes, `CompleteMappings` takes the count for mappings, and
outside x86 it compares bytes, which nobody counts there, with mappings. The frames are released as
they should while every entry is one mapping, on x86, and no mapping is completed, elsewhere.
-/

namespace Xadma

namespace Capture

open InOrder

/-! ## What the release should be -/

/-- The clones are deleted in order. A clone whose mappings were all completed at the last interrupt
is deleted, with their bytes, and another is kept and advanced by what was completed. -/
structure ReleasesRight (w : FrameWorld) : Prop where
  order : w.released.map Release.clone ++ w.clones.map Clone.id = List.range w.frames.length
  released : ∀ r ∈ w.released, ∃ frame, w.frames[r.clone]? = some frame ∧
    w.reported r.clone = frame.mappings.length ∧ r.dataUsed = mappingBytes frame.mappings
  kept : ∀ c ∈ w.clones, ∃ frame, w.frames[c.id]? = some frame ∧
    w.reported c.id < frame.mappings.length ∧
    c.mappings = frame.mappings.drop (w.reported c.id)

/-- The mappings that the clones have left. -/
def remaining (clones : List Clone) : Nat := (clones.map fun c => c.mappings.length).sum

/-- The mappings of the entries. -/
def entryMappings (entries : List SgEntry) : Nat := (entries.map fun e => e.byteCount.toNat).sum

/-- The entries that were completed since the last interrupt have as many mappings as there are
entries, in the 32 bits of the counter and as far as the clones have mappings left; outside x86 they
have none. -/
def countsRight (build : PointerBuild) (w : FrameWorld) : FrameEvent → Prop
  | .interrupt =>
    match build with
    | .x86 =>
      min (w.unreported.length % 2 ^ 32) (remaining w.clones) = entryMappings w.unreported
    | .other => entryMappings w.unreported = 0
  | .clone _ | .program .. | .pass => True

/-! ## The clones that are kept -/

def sizes (frames : List MappedFrame) : List Nat := frames.map fun f => f.mappings.length

variable {frames : List MappedFrame} {frame : MappedFrame} {total k n : Nat}
  {dataUsed dataUsed' : DataUsed} {c : Clone} {clones : List Clone}

theorem remaining_cons (c : Clone) (clones : List Clone) :
    remaining (c :: clones) = c.mappings.length + remaining clones := by
  rw [remaining, List.map_cons, List.sum_cons, remaining]

@[simp] theorem sizes_length (frames : List MappedFrame) : (sizes frames).length = frames.length :=
  List.length_map ..

theorem sizes_concat (frames : List MappedFrame) (frame : MappedFrame) :
    sizes (frames ++ [frame]) = sizes frames ++ [frame.mappings.length] :=
  List.map_append

theorem sizes_getD (h : frames[k]? = some frame) :
    (sizes frames).getD k 0 = frame.mappings.length := by
  rw [sizes, List.getD_eq_getElem?_getD, List.getElem?_map, h]
  rfl

theorem before_length_frames (frames : List MappedFrame) :
    before (sizes frames) frames.length = (sizes frames).sum := by
  rw [← sizes_length frames, before_length]

theorem before_lt_succ (h : frames[k]? = some frame) :
    before (sizes frames) k < before (sizes frames) (k + 1) := by
  rw [before_succ, sizes_getD h]
  exact Nat.lt_add_of_pos_right (List.length_pos_of_ne_nil frame.mapped)

/-- The clone of frame `k`, of which the mappings among the first `total` are completed. -/
structure KeptAt (frames : List MappedFrame) (total : Nat) (dataUsed : DataUsed) (k : Nat)
    (frame : MappedFrame) (c : Clone) : Prop where
  cloned : frames[k]? = some frame
  id : c.id = k
  ofFrame : c.frame = k
  mappings : c.mappings = frame.mappings.drop (done (sizes frames) total k)
  dataUsed : dataUsed k = mappingBytes (frame.mappings.take (done (sizes frames) total k))
  incomplete : total < before (sizes frames) (k + 1)

/-- The clones are those of the frames from `k` on. -/
def KeptFrom (frames : List MappedFrame) (total : Nat) (dataUsed : DataUsed) :
    Nat → List Clone → Prop
  | k, [] => k = frames.length
  | k, c :: clones => (∃ frame, KeptAt frames total dataUsed k frame c) ∧
    KeptFrom frames total dataUsed (k + 1) clones

theorem KeptFrom.le (h : KeptFrom frames total dataUsed k clones) : k ≤ frames.length := by
  cases clones with
  | nil =>
    obtain rfl : k = frames.length := h
    exact le_rfl
  | cons c clones =>
    obtain ⟨⟨frame, hc⟩, -⟩ := h
    exact (List.getElem?_eq_some_iff.mp hc.cloned).1.le

theorem mappingBytes_append (ms ms' : List KsMapping) :
    mappingBytes (ms ++ ms') = mappingBytes ms + mappingBytes ms' := by
  rw [mappingBytes, List.map_append, List.sum_append, mappingBytes, mappingBytes]

/-- Clones of which nothing is completed stay as they are. -/
theorem KeptFrom.untouched {total' : Nat} (h : KeptFrom frames total dataUsed k clones)
    (htotal : total ≤ before (sizes frames) k) (htotal' : total' ≤ before (sizes frames) k)
    (hdata : ∀ j, k ≤ j → dataUsed' j = dataUsed j) :
    KeptFrom frames total' dataUsed' k clones := by
  induction clones generalizing k with
  | nil => exact h
  | cons c clones ih =>
    obtain ⟨⟨frame, hc⟩, hclones⟩ := h
    have hnext := (before_mono (sizes frames) (Nat.le_succ k))
    have hdone : done (sizes frames) total' k = done (sizes frames) total k := by
      rw [done_of_le_before htotal, done_of_le_before htotal']
    refine ⟨⟨frame, hc.cloned, hc.id, hc.ofFrame, ?_, ?_, ?_⟩, ?_⟩
    · rw [hdone]
      exact hc.mappings
    · rw [hdone, hdata k le_rfl]
      exact hc.dataUsed
    · exact htotal'.trans_lt (before_lt_succ hc.cloned)
    · exact ih hclones (htotal.trans hnext) (htotal'.trans hnext) fun j hj => hdata j (by omega)

theorem KeptAt.length (h : KeptAt frames total dataUsed k frame c)
    (hbefore : before (sizes frames) k ≤ total) :
    c.mappings.length = before (sizes frames) (k + 1) - total := by
  have hlt := h.incomplete
  rw [h.mappings, List.length_drop, done, sizes_getD h.cloned]
  rw [before_succ, sizes_getD h.cloned] at hlt ⊢
  omega

theorem Clone.countBytes_of_ne {j : Nat} (build : PointerBuild) (n : Nat) (h : j ≠ c.frame) :
    c.countBytes build n dataUsed j = dataUsed j := by
  cases build with
  | x86 => exact Function.update_of_ne h ..
  | other => rfl

/-- The bytes of the mappings that are completed now join those of the mappings before. -/
theorem KeptAt.countBytes (h : KeptAt frames total dataUsed k frame c) (n : Nat) :
    c.countBytes .x86 n dataUsed c.frame =
      mappingBytes (frame.mappings.take (done (sizes frames) total k + n)) := by
  have htake : c.mappings.take
      (if n > c.mappings.length then c.mappings.length else n) = c.mappings.take n := by
    split
    · next hn => rw [List.take_length, List.take_of_length_le hn.le]
    · rfl
  rw [Clone.countBytes, Function.update_self, htake, h.ofFrame, h.dataUsed, h.mappings,
    List.take_add, mappingBytes_append]

/-- What a completion should come to, for the clones from `k` on. -/
structure CompletedRight (frames : List MappedFrame) (total k : Nat) (c : Completion) : Prop where
  kept : KeptFrom frames total c.dataUsed (k + c.released.length) c.clones
  reached : before (sizes frames) (k + c.released.length) ≤ total
  order : c.released.map Release.clone = List.range' k c.released.length
  bytes : ∀ r ∈ c.released, ∃ frame, frames[r.clone]? = some frame ∧
    r.dataUsed = mappingBytes frame.mappings

theorem CompletedRight.nothing (hkept : KeptFrom frames total dataUsed k clones)
    (hbefore : before (sizes frames) k ≤ total) :
    CompletedRight frames total k ⟨clones, dataUsed, []⟩ :=
  ⟨hkept, hbefore, rfl, nofun⟩

/-- The first clone is deleted, and the rest is completed. -/
theorem CompletedRight.behind {completion : Completion} {bytes : BitVec 32}
    (h : CompletedRight frames total (k + 1) completion) (hframe : frames[k]? = some frame)
    (hid : c.id = k) (hbytes : bytes = mappingBytes frame.mappings) :
    CompletedRight frames total k (completion.behind ⟨c.id, bytes⟩) := by
  have hlength : k + (completion.behind ⟨c.id, bytes⟩).released.length =
      k + 1 + completion.released.length := by
    simp only [Completion.behind, List.length_cons]
    omega
  constructor
  · rw [hlength]
    exact h.kept
  · rw [hlength]
    exact h.reached
  · simp only [Completion.behind, List.map_cons, List.length_cons, List.range'_succ, hid, h.order]
  · intro r hr
    rcases List.mem_cons.mp hr with rfl | hr
    · exact ⟨frame, hid ▸ hframe, hbytes⟩
    · exact h.bytes r hr

/-- A clone of which only `n` mappings are completed is kept without them. -/
theorem KeptAt.advance (h : KeptAt frames total dataUsed k frame c)
    (hbefore : before (sizes frames) k ≤ total) (hn : n < c.mappings.length) (used : BitVec 32) :
    KeptAt frames (total + n) (c.countBytes .x86 n dataUsed) k frame
      (c.advance .x86 n used) := by
  have hlength := h.length hbefore
  have hend : total + n < before (sizes frames) (k + 1) := by omega
  have hdone : done (sizes frames) (total + n) k = done (sizes frames) total k + n := by
    rw [done_add hbefore hend.le, Function.update_self]
  have hbytes := h.countBytes n
  refine ⟨h.cloned, h.id, h.ofFrame, ?_, ?_, hend⟩
  · rw [hdone, ← List.drop_drop, ← h.mappings]
    rfl
  · rw [hdone, ← hbytes, h.ofFrame]

/-- On x86 as many mappings are completed as the count says. -/
theorem completeMappings_x86 (hkept : KeptFrom frames total dataUsed k clones)
    (hbefore : before (sizes frames) k ≤ total) (n : Nat) :
    CompletedRight frames (total + min n (remaining clones)) k
      (completeMappings .x86 n clones dataUsed) := by
  induction clones generalizing total dataUsed k n with
  | nil =>
    cases n with
    | zero => exact .nothing hkept hbefore
    | succ n => exact .nothing hkept hbefore
  | cons c clones ih =>
    cases n with
    | zero =>
      rw [Nat.zero_min]
      exact .nothing hkept hbefore
    | succ n =>
      obtain ⟨⟨frame, hc⟩, hclones⟩ := hkept
      have hlength := hc.length hbefore
      have hlt := hc.incomplete
      have hothers : ∀ j, k + 1 ≤ j → c.countBytes .x86 (n + 1) dataUsed j = dataUsed j := by
        intro j hj
        apply Clone.countBytes_of_ne
        rw [hc.ofFrame]
        omega
      have hbytes := hc.countBytes (n + 1)
      rw [completeMappings]
      split
      · next hcompleted =>
        have hall : c.mappings.length ≤ n + 1 := of_decide_eq_true hcompleted
        have hrest := ih (hclones.untouched hlt.le le_rfl hothers) le_rfl
          (n + 1 - c.mappings.length)
        have htotal : before (sizes frames) (k + 1) +
              min (n + 1 - c.mappings.length) (remaining clones) =
            total + min (n + 1) (remaining (c :: clones)) := by
          rw [remaining_cons]
          omega
        rw [htotal] at hrest
        refine hrest.behind hc.cloned hc.id ?_
        rw [hbytes, List.take_of_length_le]
        have hsize := congrArg List.length hc.mappings
        rw [List.length_drop] at hsize
        omega
      · next hpartial =>
        have hpart : n + 1 < c.mappings.length := by
          simpa [Clone.isCompleted] using hpartial
        have htotal : min (n + 1) (remaining (c :: clones)) = n + 1 := by
          rw [remaining_cons]
          omega
        have hadvanced := hc.advance hbefore hpart
          (c.countBytes .x86 (n + 1) dataUsed c.frame)
        rw [htotal]
        apply CompletedRight.nothing
        · exact ⟨⟨frame, hadvanced⟩, hclones.untouched hlt.le hadvanced.incomplete.le hothers⟩
        · exact hbefore.trans (Nat.le_add_right ..)

/-- Elsewhere no mapping is, where no byte was counted before. -/
theorem completeMappings_other (hkept : KeptFrom frames 0 dataUsed k clones) (n : Nat) :
    completeMappings .other n clones dataUsed = ⟨clones, dataUsed, []⟩ := by
  cases n with
  | zero => cases clones <;> rfl
  | succ n =>
    cases clones with
    | nil => rfl
    | cons c clones =>
      obtain ⟨⟨frame, hc⟩, -⟩ := hkept
      have hdone : done (sizes frames) 0 k = 0 := done_of_le_before (Nat.zero_le _)
      have hbytes : dataUsed c.frame = 0 := by
        rw [hc.ofFrame, hc.dataUsed, hdone]
        rfl
      have hmappings : c.mappings ≠ [] := by
        rw [hc.mappings, hdone, List.drop_zero]
        exact frame.mapped
      have hkeep : ¬ c.mappings.length ≤ 0 := by
        rw [Nat.le_zero, List.length_eq_zero_iff]
        exact hmappings
      simp [completeMappings, Clone.countBytes, Clone.isCompleted, Clone.advance,
        Clone.advanceOffsets, hbytes, hkeep]

/-! ## The queue -/

/-- The job of an entry, and its units. -/
def SgEntry.chunk (entry : SgEntry) : Nat × Nat := (entry.cloneEntry, entry.byteCount.toNat)

theorem completeEntries_eq (entries : List SgEntry) (completed : Nat → Nat) :
    FrameWorld.completeEntries entries completed =
      (entries.map SgEntry.chunk).foldl doChunk completed := by
  rw [FrameWorld.completeEntries, List.foldl_map]
  rfl

/-- `total` mappings were completed at the last interrupt, and those of the entries since
then are by now. -/
structure FrameInv (build : PointerBuild) (total : Nat) (w : FrameWorld) : Prop where
  queued : w.sim.scatterGatherMappingsQueued.toNat = w.sim.scatterGatherMappings.length
  counted : w.sim.numMappingsCompleted =
    w.lastMappingsCompleted + BitVec.ofNat 32 w.unreported.length
  leading : w.leading ≠ [] → w.frames ≠ [] ∧
    before (sizes w.frames) (w.frames.length - 1) + w.leading.length ≤ (sizes w.frames).sum
  entries : ∃ programmed, programmed + w.leading.length = (sizes w.frames).sum ∧
    Follow (sizes w.frames) (total + entryMappings w.unreported)
      (w.sim.scatterGatherMappings.map SgEntry.chunk) programmed
  completed : w.completed = done (sizes w.frames) (total + entryMappings w.unreported)
  reported : w.reported = done (sizes w.frames) total
  kept : KeptFrom w.frames total w.dataUsed w.released.length w.clones
  reached : before (sizes w.frames) w.released.length ≤ total
  order : w.released.map Release.clone = List.range w.released.length
  bytes : ∀ r ∈ w.released, ∃ frame, w.frames[r.clone]? = some frame ∧
    r.dataUsed = mappingBytes frame.mappings
  other : build = .other → total = 0

variable {build : PointerBuild} {w w' : FrameWorld}

theorem frameInv_started (build : PointerBuild) (imageSize : BitVec 32) (d : Sgdma) :
    FrameInv build 0 (.started imageSize d) where
  queued := rfl
  counted := rfl
  leading := fun h => absurd rfl h
  entries := ⟨0, rfl, rfl⟩
  completed := funext fun _ => (Nat.zero_min _).symm
  reported := funext fun _ => (Nat.zero_min _).symm
  kept := rfl
  reached := Nat.le_refl 0
  order := rfl
  bytes := nofun
  other := fun _ => rfl

theorem FrameInv.le_sum (h : FrameInv build total w) :
    total + entryMappings w.unreported ≤ (sizes w.frames).sum := by
  obtain ⟨programmed, hsum, hfollow⟩ := h.entries
  have := hfollow.sum_eq
  omega

/-- A frame that is cloned next has no mapping completed. -/
theorem KeptFrom.concat (h : KeptFrom frames total dataUsed k clones)
    (htotal : total ≤ (sizes frames).sum) (frame : MappedFrame) :
    KeptFrom (frames ++ [frame]) total (Function.update dataUsed frames.length 0) k
      (clones ++ [⟨frames.length, frames.length, frame.mappings⟩]) := by
  have hdone : done (sizes (frames ++ [frame])) total = done (sizes frames) total := by
    rw [sizes_concat, done_concat htotal]
  have hbefore (i : Nat) (hi : i ≤ frames.length) :
      before (sizes (frames ++ [frame])) i = before (sizes frames) i := by
    rw [sizes_concat, before_concat (by simpa using hi)]
  induction clones generalizing k with
  | nil =>
    obtain rfl : k = frames.length := h
    have hlast := before_length_frames frames
    have hnone : done (sizes frames) total frames.length = 0 :=
      done_of_le_before (htotal.trans hlast.ge)
    have hcloned : (frames ++ [frame])[frames.length]? = some frame := by simp
    refine ⟨⟨frame, hcloned, rfl, rfl, ?_, ?_, ?_⟩, by simp [KeptFrom]⟩
    · rw [hdone, hnone]
      rfl
    · rw [hdone, hnone, Function.update_self]
      rfl
    · have hlt := before_lt_succ hcloned
      rw [hbefore _ le_rfl, hlast] at hlt
      exact htotal.trans_lt hlt
  | cons c clones ih =>
    obtain ⟨⟨frame', hc⟩, hclones⟩ := h
    have hk : k < frames.length := (List.getElem?_eq_some_iff.mp hc.cloned).1
    refine ⟨⟨frame', ?_, hc.id, hc.ofFrame, ?_, ?_, ?_⟩, ih hclones⟩
    · rw [List.getElem?_append_left hk]
      exact hc.cloned
    · rw [hdone]
      exact hc.mappings
    · rw [hdone, Function.update_of_ne hk.ne]
      exact hc.dataUsed
    · rw [hbefore _ hk]
      exact hc.incomplete

theorem FrameInv.clone (h : FrameInv build total w) (hstep : w.clone frame = some w') :
    FrameInv build total w' := by
  unfold FrameWorld.clone at hstep
  split at hstep
  · next hleading =>
    cases hstep
    have hsum : (sizes (w.frames ++ [frame])).sum =
        (sizes w.frames).sum + frame.mappings.length := by
      rw [sizes_concat, List.sum_append, List.sum_singleton]
    have hdone {n : Nat} (hn : n ≤ (sizes w.frames).sum) :
        done (sizes (w.frames ++ [frame])) n = done (sizes w.frames) n := by
      rw [sizes_concat, done_concat hn]
    have htotal : total ≤ (sizes w.frames).sum := (Nat.le_add_right ..).trans h.le_sum
    have hlast : before (sizes (w.frames ++ [frame])) w.frames.length = (sizes w.frames).sum := by
      rw [sizes_concat, before_concat (sizes_length _).ge, before_length_frames]
    obtain ⟨programmed, hprogrammed, hfollow⟩ := h.entries
    rw [hleading, List.length_nil, Nat.add_zero] at hprogrammed
    refine ⟨h.queued, h.counted, fun _ => ⟨by simp, ?_⟩, ⟨programmed, ?_, ?_⟩, ?_, ?_, ?_, ?_,
      h.order, ?_, h.other⟩
    · rw [List.length_append, List.length_singleton, Nat.add_sub_cancel, hlast, hsum]
    · rw [hsum, hprogrammed]
    · rw [sizes_concat]
      exact hfollow.concat_size _
    · rw [hdone h.le_sum]
      exact h.completed
    · rw [hdone htotal]
      exact h.reported
    · exact h.kept.concat htotal frame
    · have hle : w.released.length ≤ (sizes w.frames).length := by
        rw [sizes_length]
        exact h.kept.le
      rw [sizes_concat, before_concat hle]
      exact h.reached
    · intro r hr
      obtain ⟨frame', hframe', hbytes⟩ := h.bytes r hr
      exact ⟨frame', by rw [List.getElem?_append_left (List.getElem?_eq_some_iff.mp hframe').1,
        hframe'], hbytes⟩
  · cases hstep

theorem FrameInv.program (h : FrameInv build total w) {allocated : Option Nat}
    {mappingsCount : BitVec 32} (hstep : w.program allocated mappingsCount = some w') :
    FrameInv build total w' := by
  unfold FrameWorld.program at hstep
  split at hstep
  · next hcount =>
    obtain ⟨hleading, hle, hallocated⟩ := hcount
    cases allocated with
    | none =>
      cases hstep
      refine ⟨h.queued, h.counted, ?_, ?_, h.completed, h.reported, h.kept, h.reached, h.order,
        h.bytes, h.other⟩
      · exact h.leading
      · exact h.entries
    | some block =>
      cases hstep
      obtain ⟨hframes, hroom⟩ := h.leading hleading
      obtain ⟨programmed, hprogrammed, hfollow⟩ := h.entries
      have hlength : 0 < w.frames.length := List.length_pos_of_ne_nil hframes
      have hlast : before (sizes w.frames) (w.frames.length - 1 + 1) = (sizes w.frames).sum := by
        rw [Nat.sub_add_cancel hlength, before_length_frames]
      have hqueued := queued_program h.queued hallocated (w.frames.length - 1) w.bufferVirtual
        (fun i => w.leading.getD i default) mappingsCount
      refine ⟨hqueued, h.counted, fun _ => ⟨hframes, ?_⟩,
        ⟨programmed + mappingsCount.toNat, ?_, ?_⟩, h.completed, h.reported, h.kept, h.reached,
        h.order, h.bytes, h.other⟩
      · show before (sizes w.frames) (w.frames.length - 1) +
          (w.leading.drop mappingsCount.toNat).length ≤ (sizes w.frames).sum
        rw [List.length_drop]
        omega
      · show programmed + mappingsCount.toNat + (w.leading.drop mappingsCount.toNat).length =
          (sizes w.frames).sum
        rw [List.length_drop]
        omega
      · have hlt : w.frames.length - 1 < (sizes w.frames).length := by
          rw [sizes_length]
          omega
        have hbefore : before (sizes w.frames) (w.frames.length - 1) ≤ programmed := by omega
        have hend : programmed + mappingsCount.toNat ≤
            before (sizes w.frames) (w.frames.length - 1 + 1) := by omega
        rw [List.map_append]
        exact hfollow.concat hlt hbefore hend
  · cases hstep

theorem entryMappings_append (entries entries' : List SgEntry) :
    entryMappings (entries ++ entries') = entryMappings entries + entryMappings entries' := by
  rw [entryMappings, List.map_append, List.sum_append, entryMappings, entryMappings]

/-- A pass counts its entries. -/
theorem FrameInv.counted_filled (h : FrameInv build total w) :
    w.sim.filled.numMappingsCompleted = w.lastMappingsCompleted +
      BitVec.ofNat 32 (w.unreported ++ w.sim.scatterGatherMappings).length := by
  rw [HardwareSimulation.filled, h.counted, List.length_append, BitVec.ofNat_add, BitVec.add_assoc]

/-- `CompleteMappings` gets the number of the entries. -/
theorem FrameInv.increase (h : FrameInv build total w) :
    w.increase.toNat = w.unreported.length % 2 ^ 32 := by
  rw [FrameWorld.increase, h.counted, BitVec.add_comm, BitVec.add_sub_cancel, BitVec.toNat_ofNat]

theorem FrameInv.pass (h : FrameInv build total w) (hstep : w.pass = some w') :
    FrameInv build total w' := by
  obtain ⟨programmed, hprogrammed, hfollow⟩ := h.entries
  have hsum := hfollow.sum_eq
  have hunits : (w.sim.scatterGatherMappings.map SgEntry.chunk).map Prod.snd =
      w.sim.scatterGatherMappings.map fun e => e.byteCount.toNat := by
    rw [List.map_map]
    rfl
  rw [hunits] at hsum
  unfold FrameWorld.pass at hstep
  rw [exec_fillScatterGatherBuffers w.sgdma h.queued] at hstep
  cases hstep
  have htotal : total + entryMappings (w.unreported ++ w.sim.scatterGatherMappings) =
      programmed := by
    rw [entryMappings_append, ← Nat.add_assoc]
    exact hsum
  refine ⟨rfl, h.counted_filled, h.leading, ⟨programmed, hprogrammed, htotal⟩, ?_, h.reported,
    h.kept, h.reached, h.order, h.bytes, h.other⟩
  · show FrameWorld.completeEntries _ _ = done _ (total + entryMappings (_ ++ _))
    rw [htotal, completeEntries_eq, h.completed, hfollow.foldl_doChunk]

theorem FrameInv.interrupt (h : FrameInv build total w) (hok : countsRight build w .interrupt) :
    FrameInv build (total + entryMappings w.unreported) (w.interrupt build) := by
  have hcompleted : CompletedRight w.frames (total + entryMappings w.unreported) w.released.length
      (completeMappings build w.increase.toNat w.clones w.dataUsed) := by
    cases build with
    | x86 =>
      have hok : min (w.unreported.length % 2 ^ 32) (remaining w.clones) =
        entryMappings w.unreported := hok
      rw [← hok, ← h.increase]
      exact completeMappings_x86 h.kept h.reached _
    | other =>
      have hok : entryMappings w.unreported = 0 := hok
      have hkept := h.kept
      rw [h.other rfl] at hkept
      rw [completeMappings_other hkept, hok]
      exact .nothing h.kept h.reached
  refine ⟨h.queued, ?_, h.leading, h.entries, h.completed, h.completed, ?_, ?_, ?_, ?_, ?_⟩
  · exact (BitVec.add_zero _).symm
  · show KeptFrom _ _ _ (w.released ++ _).length _
    rw [List.length_append]
    exact hcompleted.kept
  · show before _ (w.released ++ _).length ≤ _
    rw [List.length_append]
    exact hcompleted.reached
  · show (w.released ++ _).map _ = List.range (w.released ++ _).length
    rw [List.map_append, List.length_append, h.order, hcompleted.order, List.range_eq_range',
      List.range_eq_range', ← List.range'_append_1, Nat.zero_add]
  · intro r hr
    rcases List.mem_append.mp hr with hr | hr
    · exact h.bytes r hr
    · exact hcompleted.bytes r hr
  · intro hother
    subst hother
    have hok : entryMappings w.unreported = 0 := hok
    rw [h.other rfl, hok]

/-- In a run whose interrupts report right. -/
theorem reach_frameInv {imageSize : BitVec 32} {d : Sgdma}
    (h : (frameMachine build).Reach (countsRight build) (.started imageSize d) w) :
    ∃ total, FrameInv build total w := by
  refine h.invariant (fun w => ∃ total, FrameInv build total w)
    ⟨0, frameInv_started build imageSize d⟩ ?_
  rintro w e w' ⟨total, hw⟩ hok hstep
  cases e with
  | clone frame => exact ⟨total, hw.clone hstep⟩
  | program allocated mappingsCount => exact ⟨total, hw.program hstep⟩
  | pass => exact ⟨total, hw.pass hstep⟩
  | interrupt =>
    cases hstep
    exact ⟨total + entryMappings w.unreported, hw.interrupt hok⟩

theorem KeptFrom.ids (h : KeptFrom frames total dataUsed k clones) :
    List.range k ++ clones.map Clone.id = List.range frames.length := by
  induction clones generalizing k with
  | nil =>
    obtain rfl : k = frames.length := h
    exact List.append_nil _
  | cons c clones ih =>
    obtain ⟨⟨frame, hc⟩, hclones⟩ := h
    rw [← ih hclones, List.map_cons, hc.id, List.range_succ, List.append_assoc]
    rfl

/-- The completed mappings of a clone that is kept are not all of them. -/
theorem KeptFrom.keptAt (h : KeptFrom frames total dataUsed k clones) (hc : c ∈ clones) :
    ∃ frame, KeptAt frames total dataUsed c.id frame c := by
  induction clones generalizing k with
  | nil => cases hc
  | cons c' clones ih =>
    obtain ⟨⟨frame, hc'⟩, hclones⟩ := h
    rcases List.mem_cons.mp hc with rfl | hc
    · exact ⟨frame, hc'.id ▸ hc'⟩
    · exact ih hclones hc

theorem KeptAt.done_lt (h : KeptAt frames total dataUsed k frame c) :
    done (sizes frames) total k < frame.mappings.length := by
  rw [← sizes_getD h.cloned]
  rcases Nat.le_total (before (sizes frames) k) total with hle | hle
  · exact (done_lt_iff hle).mpr h.incomplete
  · rw [done_of_le_before hle, sizes_getD h.cloned]
    exact List.length_pos_of_ne_nil frame.mapped

theorem FrameInv.releasesRight (h : FrameInv build total w) : ReleasesRight w := by
  constructor
  · rw [h.order]
    exact h.kept.ids
  · intro r hr
    obtain ⟨frame, hframe, hbytes⟩ := h.bytes r hr
    have hlt : r.clone < w.released.length := by
      rw [← List.mem_range, ← h.order]
      exact List.mem_map_of_mem hr
    have hall : before (sizes w.frames) (r.clone + 1) ≤ total :=
      (before_mono _ hlt).trans h.reached
    refine ⟨frame, hframe, ?_, hbytes⟩
    rw [h.reported, done_of_before_succ_le hall, sizes_getD hframe]
  · intro c hc
    obtain ⟨frame, hkept⟩ := h.kept.keptAt hc
    rw [h.reported]
    exact ⟨frame, hkept.cloned, hkept.done_lt, hkept.mappings⟩

/-- On both builds, for any programs, passes and interrupts. -/
theorem frames_released_right (build : PointerBuild) (imageSize : BitVec 32) (d : Sgdma)
    {w : FrameWorld}
    (h : (frameMachine build).Reach (countsRight build) (.started imageSize d) w) :
    ReleasesRight w := by
  obtain ⟨total, hw⟩ := reach_frameInv h
  exact hw.releasesRight

instance (build : PointerBuild) (w : FrameWorld) (e : FrameEvent) :
    Decidable (countsRight build w e) :=
  match build, e with
  | .x86, .interrupt => inferInstanceAs (Decidable (_ = _))
  | .other, .interrupt => inferInstanceAs (Decidable (_ = _))
  | _, .clone _ | _, .program .. | _, .pass => inferInstanceAs (Decidable True)

/-- A frame of two mappings, each 4 KB. -/
def twoPages : MappedFrame where
  data := 0x10000
  mappings := [⟨0x4000, 0x1000⟩, ⟨0x6000, 0x1000⟩]
  remaining_lt := by decide
  mapped := List.cons_ne_nil _ _

/-- On x86 a frame that is programmed mapping by mapping is released. -/
theorem frames_released_right_one_by_one :
    ∃ w, (frameMachine .x86).Reach (countsRight .x86) (.started 6220800 idleSgdma) w ∧
      ReleasesRight w ∧ w.released = [⟨0, 0x2000⟩] := by
  have hrun : ∃ w, (frameMachine .x86).Reach (countsRight .x86) (.started 6220800 idleSgdma) w ∧
      decide (w.released = [⟨0, 0x2000⟩]) = true :=
    Machine.Reach.exists_of_run
      [.clone twoPages, .program (some 0) 1, .pass, .interrupt, .program (some 0) 1, .pass,
        .interrupt]
      _ (by decide)
  obtain ⟨w, hw, hreleased⟩ := hrun
  exact ⟨w, hw, frames_released_right .x86 6220800 idleSgdma hw, of_decide_eq_true hreleased⟩

/-- A frame that is programmed and completed as a whole is kept. -/
theorem whole_frame_kept (build : PointerBuild) :
    ∃ w, (frameMachine build).Runs (.started 6220800 idleSgdma) w ∧ ¬ ReleasesRight w := by
  have hrun : ∃ w, (frameMachine build).Runs (.started 6220800 idleSgdma) w ∧
      decide (w.reported 0 = 2 ∧ w.clones.map Clone.id = [0] ∧ sizes w.frames = [2]) = true := by
    apply Machine.Reach.exists_of_run [.clone twoPages, .program (some 0) 2, .pass, .interrupt]
    cases build <;> decide
  obtain ⟨w, hw, hkept⟩ := hrun
  obtain ⟨hreported, hclones, hsizes⟩ := of_decide_eq_true hkept
  refine ⟨w, hw, fun hright => ?_⟩
  obtain ⟨c, hc, hid⟩ : ∃ c ∈ w.clones, c.id = 0 :=
    List.mem_map.mp (hclones ▸ List.mem_singleton_self 0)
  obtain ⟨frame, hframe, hlt, -⟩ := hright.kept c hc
  have hlength := sizes_getD hframe
  rw [hid, hsizes] at hlength
  rw [hid, hreported, ← hlength] at hlt
  exact absurd hlt (by decide)

theorem frames_not_released :
    (∃ w, (frameMachine .x86).Runs (.started 6220800 idleSgdma) w ∧ ¬ ReleasesRight w) ∧
      ∃ w, (frameMachine .other).Runs (.started 6220800 idleSgdma) w ∧ ¬ ReleasesRight w :=
  ⟨whole_frame_kept .x86, whole_frame_kept .other⟩

end Capture

end Xadma
