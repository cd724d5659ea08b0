import Xadma.Theory.Contract
import Xadma.Libxdma.BufferAccess
import Xadma.Sys.RingSession
import Xadma.Verify.FetchPlan
import Xadma.Verify.RingRuns

/-!
# The indices stay inside the buffers

A fragment that the DMA enabler admits touches at most one page more than its bytes fill, and the
descriptor buffer has room for two more. The ring has fewer blocks than either buffer has entries,
and its indices come back to 0 at the last block.
-/

namespace Xadma

open Prog Threads

variable {engine : XdmaEngine} {direction : WdfDmaDirection} {offset base results : BitVec 64}
  {e : SgElement} {es : List SgElement} {i n left : Nat} {adjMax adjTotal nextAdjMax : BitVec 32}

/-! ## Fragments -/

/-- What the DMA enabler lets through: at most `XDMA_MAX_TRANSFER_SIZE` bytes, from any byte of a
page on. -/
structure DmaFragment where
  byteOffset : Nat
  byteOffset_lt : byteOffset < pageSize
  length : Nat
  length_le : length ≤ xdmaMaxTransferSize

/-- The pages that the fragment touches. -/
def DmaFragment.pages (f : DmaFragment) : Nat := (f.byteOffset + f.length + pageSize - 1) / pageSize

theorem DmaFragment.pages_le (f : DmaFragment) : f.pages ≤ sgMaxElements := by
  have hoffset := f.byteOffset_lt
  have hlength := f.length_le
  unfold pages sgMaxElements
  unfold xdmaMaxTransferSize pageSize at *
  omega

namespace BufferAccess

/-! ## Programming a fragment -/

/-- The entries of the descriptor buffer. -/
def descriptorCount : Nat := xdmaMaxTransferSize / pageSize + 2

theorem inside_iff (i : Nat) : (i + 1) * sizeofDmaDescriptor ≤ descBufferSize ↔
    i < descriptorCount :=
  Nat.mul_le_mul_right_iff (by decide)

theorem optimizeFrom_inside (h : i + left ≤ descriptorCount) :
    (optimizeFrom adjMax adjTotal left i nextAdjMax).All BufferOp.Inside := by
  induction left generalizing i nextAdjMax with
  | zero => exact trivial
  | succ left ih =>
    have hi : i < descriptorCount := by omega
    refine All.bind (.perform ((inside_iff i).mpr hi)) fun desc => ?_
    refine All.bind (.perform ((inside_iff i).mpr hi)) fun _ => ?_
    exact ih (by omega)

theorem optimizeBuffer_inside (h : n ≤ descriptorCount) :
    (optimizeBuffer engine n).All BufferOp.Inside :=
  optimizeFrom_inside (by omega)

/-- The rule for a loop over the indices below `n`. -/
theorem forEach_range_inside {body : Nat → BufferProg Unit}
    (h : ∀ i < n, (body i).All BufferOp.Inside) :
    (Prog.forEach (List.range n) body).All BufferOp.Inside := by
  have hall (is : List Nat) (his : ∀ i ∈ is, i < n) :
      (Prog.forEach is body).All BufferOp.Inside := by
    induction is with
    | nil => exact trivial
    | cons i is ih =>
      rw [List.forall_mem_cons] at his
      exact (h i his.1).bind fun _ => ih his.2
  exact hall _ fun i hi => List.mem_range.mp hi

theorem dumpDescriptors_inside (h : n ≤ descriptorCount) :
    (dumpDescriptors n).All BufferOp.Inside :=
  forEach_range_inside fun i hi =>
    All.bind (.perform ((inside_iff i).mpr (hi.trans_le h))) fun _ => trivial

theorem fillDescriptors_inside (h : i + es.length ≤ descriptorCount) :
    (fillDescriptors engine direction i offset base es).All BufferOp.Inside := by
  induction es generalizing i offset base with
  | nil => exact trivial
  | cons e es ih =>
    rw [List.length_cons] at h
    have hi : i < descriptorCount := by omega
    refine All.bind (.perform ((inside_iff i).mpr hi)) fun _ => ?_
    refine All.bind (.perform ((inside_iff i).mpr hi)) fun desc => ?_
    split
    · exact trivial
    · exact ih (by omega)

theorem xdmaEngineProgramDma_inside (h : es.length ≤ descriptorCount) :
    (xdmaEngineProgramDma engine direction offset es).All BufferOp.Inside := by
  refine All.bind (fillDescriptors_inside (by omega)) fun filled => ?_
  split
  · refine All.bind (optimizeBuffer_inside h) fun _ => ?_
    exact All.bind (dumpDescriptors_inside h) fun _ => trivial
  · exact trivial

/-! ## Setting the ring up and clearing it -/

theorem ringNumBlocks_le : xdmaRingNumBlocks ≤ descriptorCount := by decide

theorem fillRing_inside (h : i + left ≤ xdmaRingNumBlocks) :
    (fillRing engine left i results base).All BufferOp.Inside := by
  induction left generalizing i results base with
  | zero => exact trivial
  | succ left ih =>
    have hi : i < xdmaRingNumBlocks := by omega
    have hdescriptor := (inside_iff i).mpr (hi.trans_le ringNumBlocks_le)
    refine All.bind (.perform hi) fun dst => ?_
    refine All.bind (.perform hdescriptor) fun _ => ?_
    refine All.bind (.perform ((inside_iff 0).mpr (by decide))) fun desc => ?_
    split
    · exact trivial
    · exact ih (by omega)

theorem closeLast_inside : (closeLast engine).All BufferOp.Inside := by
  have hlast := (inside_iff (xdmaRingNumBlocks - 1)).mpr (by decide)
  exact All.bind (.perform hlast) fun _ => .perform hlast

theorem engineRingProgramDma_inside :
    (engineRingProgramDma engine results).All BufferOp.Inside := by
  refine All.bind (fillRing_inside (by omega)) fun filled => ?_
  split
  · refine All.bind closeLast_inside fun _ => ?_
    refine All.bind (optimizeBuffer_inside ringNumBlocks_le) fun _ => ?_
    exact All.bind (dumpDescriptors_inside ringNumBlocks_le) fun _ => trivial
  · exact trivial

theorem engineClearDmaResults_inside : engineClearDmaResults.All BufferOp.Inside :=
  forEach_range_inside fun i hi =>
    .perform ((inside_iff i).mpr (hi.trans_le ringNumBlocks_le))

/-! ## The chains that are built in the buffer -/

section
variable {m : BufferMemory}

/-- The memory with `descs` from index `i` on. -/
def BufferMemory.store (m : BufferMemory) : Nat → List DmaDescriptor → BufferMemory
  | _, [] => m
  | i, desc :: descs => (m.write i desc).store (i + 1) descs

theorem store_descriptor {descs : List DmaDescriptor} (h : n < i) :
    (m.store i descs).descriptor n = m.descriptor n := by
  induction descs generalizing i m with
  | nil => rfl
  | cons desc descs ih =>
    rw [BufferMemory.store, ih (Nat.lt_succ_of_lt h), BufferMemory.write_of_ne (Nat.ne_of_lt h)]

theorem write_write (x y : DmaDescriptor) : (m.write i x).write i y = m.write i y := by
  simp [BufferMemory.write]

theorem store_write {descs : List DmaDescriptor} (h : n < i) (x : DmaDescriptor) :
    (m.store i descs).write n x = (m.write n x).store i descs := by
  induction descs generalizing i m with
  | nil => rfl
  | cons desc descs ih =>
    have hcomm : (m.write i desc).write n x = (m.write n x).write i desc := by
      unfold BufferMemory.write
      rw [Function.update_comm (Nat.ne_of_lt h)]
    rw [BufferMemory.store, ih (Nat.lt_succ_of_lt h), hcomm]
    rfl

/-- Reading a descriptor that is in the buffer and writing it back changed. -/
theorem store_modify {descs : List DmaDescriptor} (h : n < descs.length)
    (f : DmaDescriptor → DmaDescriptor) :
    (m.store i descs).write (i + n) (f ((m.store i descs).descriptor (i + n))) =
      m.store i (descs.modify n f) := by
  induction descs generalizing i n m with
  | nil => exact absurd h (Nat.not_lt_zero n)
  | cons desc descs ih =>
    cases n with
    | zero =>
      have hdesc : (m.store i (desc :: descs)).descriptor i = desc := by
        rw [BufferMemory.store, store_descriptor (Nat.lt_succ_self i), BufferMemory.write_self]
      rw [Nat.add_zero, hdesc, BufferMemory.store, store_write (Nat.lt_succ_self i), write_write]
      rfl
    | succ n =>
      rw [List.length_cons, Nat.add_lt_add_iff_right] at h
      have hi : i + (n + 1) = i + 1 + n := by omega
      rw [hi]
      exact ih h

theorem exec_fillDescriptors {descs : List DmaDescriptor}
    (h : programLoop engine direction offset base es = some descs) :
    Prog.exec BufferMemory.act BufferMemory.answer
        (fillDescriptors engine direction i offset base es) m = some (true, m.store i descs) := by
  induction es generalizing i offset base descs m with
  | nil =>
    cases h
    rfl
  | cons e rest ih =>
    rw [programLoop] at h
    simp only [Option.bind_eq_bind, Option.bind_eq_some_iff] at h
    obtain ⟨aligned, haligned, descs', hdescs', hcons⟩ := h
    cases hcons
    have hread (desc : DmaDescriptor) :
        BufferMemory.answer (.readDescriptor i) (m.write i desc) = desc := m.write_self i desc
    rw [fillDescriptors]
    simp only [BufferOp.perform]
    rw [exec_perform_bind rfl rfl, exec_perform_bind (hread _) rfl, haligned]
    exact ih hdescs'

/-- The optimization rewrites the descriptors that are in the buffer. -/
theorem exec_optimizeFrom (descs : List DmaDescriptor) :
    Prog.exec BufferMemory.act BufferMemory.answer
        (optimizeFrom adjMax adjTotal descs.length i nextAdjMax) (m.store i descs) =
      some ((), m.store i
        (optimizeLoop adjMax adjTotal (BitVec.ofNat 32 i) nextAdjMax descs)) := by
  induction descs generalizing i nextAdjMax m with
  | nil => rfl
  | cons desc rest ih =>
    have hread : BufferMemory.answer (.readDescriptor i) (m.store i (desc :: rest)) = desc := by
      rw [BufferMemory.store, BufferMemory.answer, store_descriptor (Nat.lt_succ_self i),
        BufferMemory.write_self]
    have hwrite (x : DmaDescriptor) :
        (m.store i (desc :: rest)).write i x = (m.write i x).store (i + 1) rest := by
      rw [BufferMemory.store, store_write (Nat.lt_succ_self i), write_write]
    rw [List.length_cons, optimizeFrom, optimizeLoop]
    simp only [BufferOp.perform]
    rw [exec_perform_bind hread rfl, exec_perform_bind rfl rfl, hwrite, ih, BitVec.ofNat_add]
    rfl

theorem exec_dumpDescriptors (is : List Nat) :
    Prog.exec BufferMemory.act BufferMemory.answer
      (Prog.forEach is fun i => do
        let _ : DmaDescriptor ← (BufferOp.readDescriptor i).perform
        return ()) m = some ((), m) := by
  induction is with
  | nil => rfl
  | cons i is ih => exact ih

/-- The routine leaves the chain of `programChain` at the start of the buffer. -/
theorem exec_xdmaEngineProgramDma {sgList : ScatterGatherList} {chain : List DmaDescriptor}
    (h : programChain engine direction offset sgList = some chain) :
    Prog.exec BufferMemory.act BufferMemory.answer
      (xdmaEngineProgramDma engine direction offset sgList.elements) m =
        some (true, m.store 0 chain) := by
  unfold programChain at h
  simp only [Option.bind_eq_bind, Option.bind_eq_some_iff] at h
  obtain ⟨descs, hdescs, hchain⟩ := h
  cases hchain
  have hlength : sgList.elements.length = descs.length := (programLoop_getElem? hdescs).1.symm
  rw [xdmaEngineProgramDma, exec_bind, exec_fillDescriptors hdescs, Option.bind_some]
  simp only [if_true]
  rw [exec_bind, hlength, optimizeBuffer, exec_optimizeFrom, Option.bind_some, exec_bind,
    dumpDescriptors, exec_dumpDescriptors]
  rfl

theorem exec_fillRing (first : Option DmaDescriptor) {descs : List DmaDescriptor}
    (hfirst : ∀ desc, (first.getD desc) = if i = 0 then desc else m.descriptor 0)
    (h : ringLoop engine first results base ((List.range' i left).map m.block) = some descs) :
    Prog.exec BufferMemory.act BufferMemory.answer (fillRing engine left i results base) m =
      some (true, m.store i descs) := by
  induction left generalizing i first results base descs m with
  | zero =>
    cases h
    rfl
  | succ left ih =>
    rw [List.range'_succ, List.map_cons, ringLoop] at h
    simp only [Option.bind_eq_bind, Option.bind_eq_some_iff] at h
    obtain ⟨aligned, haligned, descs', hdescs', hcons⟩ := h
    cases hcons
    rw [hfirst] at haligned hdescs'
    have hread (desc : DmaDescriptor) :
        BufferMemory.answer (.readDescriptor 0) (m.write i desc) =
          if i = 0 then desc else m.descriptor 0 := by
      split
      · next hi =>
        subst hi
        exact m.write_self 0 desc
      · next hi => exact BufferMemory.write_of_ne (Ne.symm hi) m desc
    have hmdl : BufferMemory.answer (.mdlAddress i) m = m.block i := rfl
    rw [fillRing]
    simp only [BufferOp.perform]
    rw [exec_perform_bind hmdl rfl, exec_perform_bind rfl rfl, exec_perform_bind (hread _) rfl,
      haligned]
    refine ih (some _) (fun desc => ?_) hdescs'
    rw [Option.getD_some, if_neg (Nat.succ_ne_zero i)]
    exact (hread _).symm

/-- The routine leaves the ring of `ringChain` at the start of the buffer. -/
theorem exec_engineRingProgramDma {chain : List DmaDescriptor}
    (h : ringChain engine results ((List.range' 0 xdmaRingNumBlocks).map m.block) = some chain) :
    Prog.exec BufferMemory.act BufferMemory.answer (engineRingProgramDma engine results) m =
      some (true, m.store 0 chain) := by
  unfold ringChain at h
  simp only [Option.bind_eq_bind, Option.bind_eq_some_iff] at h
  obtain ⟨descs, hdescs, hchain⟩ := h
  cases hchain
  have hlength : descs.length = xdmaRingNumBlocks := by
    simpa using (ringLoop_getElem? hdescs).1
  have hlast : Prog.exec BufferMemory.act BufferMemory.answer (closeLast engine)
      (m.store 0 descs) =
        some ((), m.store 0 (closeRing engine.descBuffer.logical descs)) := by
    have hlt : xdmaRingNumBlocks - 1 < descs.length := by
      rw [hlength]
      decide
    have hmodify := store_modify (i := 0) (m := m) hlt fun last =>
      { last with
        nextLo := lowPart engine.descBuffer.logical
        nextHi := highPart engine.descBuffer.logical }
    rw [Nat.zero_add] at hmodify
    rw [closeRing, hlength, ← hmodify]
    rfl
  have hclosed : (closeRing engine.descBuffer.logical descs).length = xdmaRingNumBlocks := by
    rw [closeRing, List.length_modify, hlength]
  rw [engineRingProgramDma, exec_bind, exec_fillRing none (fun _ => rfl) hdescs,
    Option.bind_some]
  simp only [if_true]
  rw [exec_bind, hlast, Option.bind_some, exec_bind, optimizeBuffer, ← hclosed, exec_optimizeFrom,
    Option.bind_some, exec_bind, dumpDescriptors, exec_dumpDescriptors]
  rfl

end

end BufferAccess

/-! ## The routines of the ring, over every run -/

open BufferAccess (BufferOp resultBufferSize inside_iff ringNumBlocks_le)

/-- The index of an access is inside what was allocated, and those that are stored are of blocks. -/
def RingOp.Inside : RingOp → Prop
  | .status k | .clearStatus k | .length k | .clearLength k =>
    (k + 1) * sizeofDmaDescriptor ≤ resultBufferSize
  | .copyFromBuffer _ k _ => k < xdmaRingNumBlocks
  | .storeTail k | .storeHead k _ => k < xdmaRingNumBlocks
  | _ => True

/-- The indices are those of blocks. -/
def RingOp.AnswerInside : (o : RingOp) → o.Res → Prop
  | .indices _, r => r.1 < xdmaRingNumBlocks ∧ r.2 < xdmaRingNumBlocks
  | _, _ => True

abbrev RingMeets {α : Type} (p : RingProg α) (Q : α → Prop) : Prop :=
  p.Meets RingOp.AnswerInside RingOp.Inside Q

theorem resultInside {k : Nat} (hk : k < xdmaRingNumBlocks) :
    (k + 1) * sizeofDmaDescriptor ≤ resultBufferSize :=
  (inside_iff k).mpr (hk.trans_le ringNumBlocks_le)

theorem engineRingAdvance_lt {k : Nat} (hk : k < xdmaRingNumBlocks) :
    engineRingAdvance k < xdmaRingNumBlocks := by
  unfold engineRingAdvance
  split
  · decide
  · omega

theorem scanResults_inside {bound tail eopCount : Nat} (htail : tail < xdmaRingNumBlocks) :
    RingMeets (scanResults bound tail eopCount) fun r => r.1 < xdmaRingNumBlocks := by
  induction bound generalizing tail eopCount with
  | zero => exact htail
  | succ bound ih =>
    refine Meets.bind (.perform (resultInside htail) fun _ _ => trivial) fun status _ => ?_
    split
    · exact htail
    · refine Meets.bind (.perform (resultInside htail) fun _ _ => trivial) fun status _ => ?_
      refine Meets.bind (.perform (resultInside htail) fun _ _ => trivial) fun _ _ => ?_
      exact ih (engineRingAdvance_lt htail)

theorem engineProcessRing_inside : RingMeets engineProcessRing fun _ => True := by
  refine Meets.bind (.perform trivial fun _ _ => trivial) fun _ _ => ?_
  refine Meets.bind (.perform trivial fun _ h => h) fun indices hindices => ?_
  refine Meets.bind (scanResults_inside hindices.2) fun scan hscan => ?_
  refine Meets.bind (.perform hscan fun _ _ => trivial) fun _ _ => ?_
  refine Meets.bind (.when trivial fun _ => .perform trivial fun _ _ => trivial) fun _ _ => ?_
  refine Meets.bind (.perform trivial fun _ _ => trivial) fun poll _ => ?_
  exact Meets.bind (.when trivial fun _ => .perform trivial fun _ _ => trivial) fun _ _ => trivial

theorem enginePollRing_inside {tries : Nat} : RingMeets (enginePollRing tries) fun _ => True := by
  induction tries with
  | zero => exact trivial
  | succ tries ih =>
    refine Meets.bind (.perform trivial fun _ _ => trivial) fun completed _ => ?_
    split
    · exact trivial
    · refine Meets.bind (Q := fun _ => True) ?_ fun eopCount _ => ?_
      · split
        · exact engineProcessRing_inside
        · exact trivial
      · split
        · exact ih
        · exact trivial

theorem awaitBlocks_inside : RingMeets awaitBlocks fun _ => True := by
  refine Meets.bind (.perform trivial fun _ _ => trivial) fun poll _ => ?_
  split
  · exact Meets.bind enginePollRing_inside fun status _ => trivial
  · exact Meets.bind (.perform trivial fun _ _ => trivial) fun status _ => trivial

/-- A copy leads on to the index of a block. -/
def CopyInside : Except NtStatus RingCopy → Prop
  | .ok c => c.head < xdmaRingNumBlocks
  | .error _ => True

theorem copyBlock_inside {c : RingCopy} (hhead : c.head < xdmaRingNumBlocks) :
    RingMeets (copyBlock c n) CopyInside := by
  refine Meets.bind (.perform hhead fun _ _ => trivial) fun status _ => ?_
  split
  · refine Meets.bind (.perform (resultInside hhead) fun _ _ => trivial) fun _ _ => ?_
    exact engineRingAdvance_lt hhead
  · exact trivial

theorem copyBlocks_inside {tail bound : Nat} {c : RingCopy} (hhead : c.head < xdmaRingNumBlocks) :
    RingMeets (copyBlocks tail bound c) CopyInside := by
  induction bound generalizing c with
  | zero => exact hhead
  | succ bound ih =>
    unfold copyBlocks
    split
    · refine Meets.bind (.perform (resultInside hhead) fun _ _ => trivial) fun length _ => ?_
      split
      · exact Meets.bind (.perform trivial fun _ _ => trivial) fun _ _ => hhead
      · refine Meets.bind (copyBlock_inside hhead) fun result hresult => ?_
        cases result with
        | error status => exact trivial
        | ok c => exact ih hresult
    · exact hhead

theorem engineRingCopyBytesToMemory_inside {length : Nat} :
    RingMeets (engineRingCopyBytesToMemory length) fun _ => True := by
  refine Meets.bind awaitBlocks_inside fun result _ => ?_
  cases result with
  | error status => exact trivial
  | ok status =>
    refine Meets.bind (.perform trivial fun _ h => h) fun indices hindices => ?_
    refine Meets.bind (copyBlocks_inside hindices.1) fun result hresult => ?_
    cases result with
    | error status => exact trivial
    | ok c =>
      refine Meets.bind (.perform (resultInside hresult) fun _ _ => trivial) fun rest _ => ?_
      refine Meets.bind (.when trivial fun _ => .perform trivial fun _ _ => trivial) fun _ _ => ?_
      exact Meets.bind (.perform hresult fun _ _ => trivial) fun _ _ => trivial

theorem evtIoReadEngineRing_inside {length : Nat} :
    RingMeets (evtIoReadEngineRing length) fun _ => True := by
  refine Meets.bind (.perform trivial fun _ _ => trivial) fun status _ => ?_
  split
  · exact Meets.bind engineRingCopyBytesToMemory_inside fun read _ =>
      .perform trivial fun _ _ => trivial
  · exact .perform trivial fun _ _ => trivial

/-- Both indices are those of blocks. -/
def IndicesInside (s : RingSession) : Prop :=
  s.ring.head < xdmaRingNumBlocks ∧ s.ring.tail < xdmaRingNumBlocks

theorem indicesInside_act {s s' : RingSession} {o : RingOp} {r : o.Res} (hi : IndicesInside s)
    (ho : o.Inside) (h : s.act o r = some s') : o.AnswerInside r ∧ IndicesInside s' := by
  unfold RingSession.act at h
  obtain ⟨ring, hring, rfl⟩ := Option.map_eq_some_iff.mp h
  cases o with
  | indices phase =>
    simp only [RingWorld.act] at hring
    split at hring
    · next hr =>
      subst hr
      cases phase with
      | scan | copy => cases hring; exact ⟨hi, hi⟩
    · cases hring
  | storeTail tail => cases hring; exact ⟨trivial, hi.1, ho⟩
  | storeHead head credits => cases hring; exact ⟨trivial, ho, hi.2⟩
  | poll | engineStatus | status | clearStatus | setSignal | clearSignal | waitSignal
  | completedDescCount | clearWriteback | length | clearLength | copyFromBuffer
  | retrieveOutputMemory | complete =>
    refine ⟨trivial, ?_⟩
    simp only [RingWorld.act] at hring
    grind [IndicesInside]

theorem indicesInside_env {s s' : RingSession} {e : SessionEvent} (hi : IndicesInside s)
    (h : RingSession.env e s = some s') : IndicesInside s' := by
  have hzero := ringNumBlocks_pos
  cases e with
  | hardware e =>
    simp only [RingSession.env] at h
    split at h
    · obtain ⟨ring, hring, rfl⟩ := Option.map_eq_some_iff.mp h
      cases e with
      | start | complete | writeback =>
        simp only [RingWorld.env] at hring
        grind [IndicesInside]
    · cases h
  | create handle =>
    simp only [RingSession.env] at h
    split at h
    · cases h
    · cases h
      exact ⟨hzero, hzero⟩
  | cleanup handle =>
    simp only [RingSession.env] at h
    split at h
    · cases h
      exact ⟨hzero, hzero⟩
    · cases h

theorem ringSessions_inside {poll : Bool} {block : Nat → List UInt8}
    {c : Config RingOp RingOp.Res RingSession RingThread}
    (h : ringSessions.Reach (fun _ _ => True) (sessionConfig poll block) c) (t : RingThread) :
    (c.thread t).Meets RingOp.AnswerInside RingOp.Inside fun _ => True := by
  have hzero := ringNumBlocks_pos
  have hidle : RingMeets (.ret ()) fun _ => True := trivial
  refine (Reach.meets (I := IndicesInside) ⟨hzero, hzero⟩ (fun _ => hidle) ?_ ?_ ?_ h).2 t
  · exact fun t o s r s' hi ho ha => indicesInside_act hi ho ha
  · exact fun e s s' hi he => indicesInside_env hi he
  · intro t a s s' p hi hstart
    obtain ⟨x, hx, heq⟩ := Option.map_eq_some_iff.mp hstart
    cases heq
    cases t with
    | dpc =>
      cases a with
      | processRing =>
        simp only [ringThreads] at hx
        split at hx
        · cases hx
        · cases hx
          exact ⟨hi, Meets.bind engineProcessRing_inside fun _ _ => trivial⟩
      | read length => cases hx
    | reader =>
      cases a with
      | processRing => cases hx
      | read length =>
        cases hx
        exact ⟨hi, evtIoReadEngineRing_inside⟩

theorem buffers_not_overrun :
    (∀ (engine : XdmaEngine) (direction : WdfDmaDirection) (deviceOffset : BitVec 64)
      (f : DmaFragment) (es : List SgElement), es.length ≤ f.pages →
      (BufferAccess.xdmaEngineProgramDma engine direction deviceOffset es).All BufferOp.Inside) ∧
    (∀ (engine : XdmaEngine) (results : BitVec 64),
      (BufferAccess.engineRingProgramDma engine results).All BufferOp.Inside) ∧
    BufferAccess.engineClearDmaResults.All BufferOp.Inside ∧
    ∀ (poll : Bool) (block : Nat → List UInt8)
      (c : Config RingOp RingOp.Res RingSession RingThread),
      ringSessions.Reach (fun _ _ => True) (sessionConfig poll block) c →
      ∀ t o k, c.thread t = .call o k → o.Inside := by
  refine ⟨fun engine direction deviceOffset f es hes => ?_, fun engine results => ?_,
    BufferAccess.engineClearDmaResults_inside, fun poll block c h t o k hk => ?_⟩
  · have hmax : sgMaxElements ≤ BufferAccess.descriptorCount := by decide
    exact BufferAccess.xdmaEngineProgramDma_inside (hes.trans (f.pages_le.trans hmax))
  · exact BufferAccess.engineRingProgramDma_inside
  · exact (ringSessions_inside h t).head hk

/-- 8 MB from the last byte of a page on touch 2049 pages, and the scan of a new session begins with
the first result. -/
theorem buffers_not_overrun_unaligned :
    (∃ f : DmaFragment, f.pages = 2049 ∧
      (BufferAccess.xdmaEngineProgramDma (.sample .mm .contiguous) .writeToDevice 0
        (List.replicate 2049 ⟨0x2000, 0x1000⟩)).All BufferOp.Inside) ∧
    ∃ c k, ringSessions.Reach (fun _ _ => True) (sessionConfig false fun _ => []) c ∧
      c.thread .dpc = .call (.status 0) k ∧ (RingOp.status 0).Inside := by
  let f : DmaFragment := ⟨pageSize - 1, by decide, xdmaMaxTransferSize, le_refl _⟩
  have hpages : f.pages = 2049 := by decide
  have hrun : ∃ c, ringSessions.Reach (fun _ _ => True) (sessionConfig false fun _ => []) c ∧
      (match c.thread .dpc with
        | .call op _ => decide (op = .status 0)
        | .ret _ => false) = true :=
    Reach.exists_of_steps [.env (.create 1), .start .dpc .processRing,
      .call .dpc .engineStatus (0 : BitVec 32), .call .dpc (.indices .scan) ((0, 0) : Nat × Nat)] _
      (by decide)
  obtain ⟨c, hreach, hcall⟩ := hrun
  have hall := buffers_not_overrun
  refine ⟨⟨f, hpages, hall.1 _ _ _ f _ ?_⟩, c, ?_⟩
  · rw [List.length_replicate, hpages]
  · cases hthread : c.thread .dpc with
    | ret a => simp [hthread] at hcall
    | call op k =>
      rw [hthread] at hcall
      obtain rfl := of_decide_eq_true hcall
      exact ⟨k, hreach, rfl, hall.2.2.2 _ _ c hreach .dpc _ k hthread⟩

end Xadma
