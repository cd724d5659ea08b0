import Xadma.Verify.BufferBounds

/-!
# The layout of the ring

`EngineRingProgramDma` fills three tables side by side: descriptor `i` has the address of result
`i`, that of block `i` and that of descriptor `i + 1`, and the last one leads back to the first. The
alignment check in the loop is made on the first descriptor every time.
-/

namespace Xadma

open Prog BufferAccess

namespace BufferAccess

variable (engine : XdmaEngine) (results : BitVec 64) (m : BufferMemory)

/-- The index of the descriptor at `addr` in a buffer that starts at `base`. -/
def descriptorAt (base addr : BitVec 64) : Nat := (addr - base).toNat / sizeofDmaDescriptor

/-- The address of the `k`-th descriptor that the device visits. -/
def BufferMemory.visited (m : BufferMemory) (base : BitVec 64) : Nat → BitVec 64
  | 0 => base
  | k + 1 => (m.descriptor (descriptorAt base (m.visited base k))).nextAddr

/-- The tables of the ring: the device visits the descriptors in order and comes back to the first,
and descriptor `i` stands for result `i` and block `i`. -/
structure RingLayout : Prop where
  visited : ∀ k, m.visited engine.descBuffer.logical k =
    descAddr engine.descBuffer.logical (k % xdmaRingNumBlocks)
  source : ∀ i < xdmaRingNumBlocks, (m.descriptor i).srcAddr = descAddr results i
  destination : ∀ i < xdmaRingNumBlocks, (m.descriptor i).dstAddr = m.block i
  length : ∀ i < xdmaRingNumBlocks, (m.descriptor i).numBytes = BitVec.ofNat 32 xdmaRingBlockSize

def BufferOp.read? : BufferOp → Option Nat
  | .readDescriptor i => some i
  | _ => none

/-- The descriptors that the loop hands to `DescriptorIsAligned`; it reads no others. -/
def checkedDescriptors : List Nat :=
  (Prog.trace BufferMemory.act BufferMemory.answer
    (fillRing engine xdmaRingNumBlocks 0 results engine.descBuffer.logical) m).filterMap
      BufferOp.read?

/-- The check is applied to each descriptor. -/
def ChecksEach : Prop := ∀ i < xdmaRingNumBlocks, i ∈ checkedDescriptors engine results m

end BufferAccess

variable {engine : XdmaEngine} {results base la dst : BitVec 64} {m : BufferMemory}
  {first : Option DmaDescriptor} {blocks : List (BitVec 64)} {descs chain : List DmaDescriptor}
  {desc : DmaDescriptor} {i k left : Nat}

/-! ## The descriptors of the loop -/

/-- What a descriptor of the ring transfers. -/
structure RingEntry (results dst : BitVec 64) (desc : DmaDescriptor) : Prop where
  source : desc.srcAddr = results
  destination : desc.dstAddr = dst
  length : desc.numBytes = BitVec.ofNat 32 xdmaRingBlockSize

theorem ringDesc_entry : RingEntry results dst (ringDesc results la dst) :=
  ⟨highPart_append_lowPart results, highPart_append_lowPart dst, rfl⟩

/-- What the alignment check reads of a descriptor. -/
theorem RingEntry.isAligned (h : RingEntry results dst desc) (la : BitVec 64) :
    descriptorIsAligned engine desc = descriptorIsAligned engine (ringDesc results la dst) := by
  have hsrc : desc.srcAddrLo = lowPart results := by
    rw [← h.source, DmaDescriptor.srcAddr, lowPart_append]
  have hdst : desc.dstAddrLo = lowPart dst := by
    rw [← h.destination, DmaDescriptor.dstAddr, lowPart_append]
  simp only [descriptorIsAligned, ringDesc, hsrc, hdst, h.length]

theorem XdmaEngine.Divides.ringLoop (hdiv : engine.Divides) (first : Option DmaDescriptor)
    (results la : BitVec 64) (blocks : List (BitVec 64)) :
    ∃ descs, ringLoop engine first results la blocks = some descs := by
  induction blocks generalizing first results la with
  | nil => exact ⟨[], rfl⟩
  | cons dst rest ih =>
    choose aligned haligned using fun desc =>
      Option.isSome_iff_exists.mp ((descriptorIsAligned_isSome engine desc).mpr hdiv)
    simp only [Xadma.ringLoop, haligned, Option.bind_eq_bind, Option.bind_some,
      Option.bind_eq_some_iff]
    exact ⟨_, _, (ih _ _ _).choose_spec, rfl⟩

/-- Descriptor `k` stands for result `k` and block `k`. -/
theorem ringLoop_entry (h : ringLoop engine first results la blocks = some descs)
    (hdesc : descs[k]? = some desc) :
    ∃ dst, blocks[k]? = some dst ∧ RingEntry (descAddr results k) dst desc := by
  induction blocks generalizing first results la descs k with
  | nil =>
    cases h
    cases hdesc
  | cons dst rest ih =>
    simp only [ringLoop, Option.bind_eq_bind, Option.pure_def] at h
    obtain ⟨aligned, -, h⟩ := Option.bind_eq_some_iff.mp h
    obtain ⟨descs', hdescs', h⟩ := Option.bind_eq_some_iff.mp h
    cases h
    cases k with
    | zero =>
      cases hdesc
      rw [descAddr_zero]
      exact ⟨dst, rfl, ringDesc_entry⟩
    | succ k =>
      obtain ⟨dst', hdst', hentry⟩ := ih hdescs' hdesc
      rw [← descAddr_zero results, ← descAddr_succ, descAddr_descAddr, Nat.add_comm] at hentry
      exact ⟨dst', hdst', hentry⟩

/-! ## The ring -/

theorem RingEntry.orAdj (h : RingEntry results dst desc) (adj : BitVec 32) :
    RingEntry results dst (desc.orAdj adj) := ⟨h.source, h.destination, h.length⟩

/-- Closing the ring changes where the last descriptor leads to. -/
theorem closeRing_entry (h : ringLoop engine none results base blocks = some descs)
    (hdesc : (closeRing la descs)[k]? = some desc) :
    ∃ dst, blocks[k]? = some dst ∧ RingEntry (descAddr results k) dst desc := by
  rw [closeRing, List.getElem?_modify] at hdesc
  obtain ⟨desc₀, hdesc₀, rfl⟩ := Option.map_eq_some_iff.mp hdesc
  obtain ⟨dst, hdst, hentry⟩ := ringLoop_entry h hdesc₀
  refine ⟨dst, hdst, ?_⟩
  split
  · exact ⟨hentry.source, hentry.destination, hentry.length⟩
  · exact hentry

/-- Descriptor `i` of the ring, and the one it leads to. -/
theorem ringChain_entry (h : ringChain engine results blocks = some chain)
    (hlength : blocks.length < 2 ^ 32) (hi : i < blocks.length) :
    ∃ desc, chain[i]? = some desc ∧ RingEntry (descAddr results i) blocks[i] desc ∧
      desc.nextAddr = if i + 1 = blocks.length then engine.descBuffer.logical
        else descAddr engine.descBuffer.logical (i + 1) := by
  unfold ringChain at h
  simp only [Option.bind_eq_bind, Option.bind_eq_some_iff] at h
  obtain ⟨descs, hdescs, hchain⟩ := h
  cases hchain
  have hsame : (closeRing engine.descBuffer.logical descs).length = blocks.length := by
    rw [closeRing, List.length_modify, (ringLoop_getElem? hdescs).1]
  obtain ⟨adj, -, hget⟩ := optimizeDescriptors_getElem? engine (hsame ▸ hlength) (hsame ▸ hi)
  have hdesc := List.getElem?_eq_getElem (hsame ▸ hi :
    i < (closeRing engine.descBuffer.logical descs).length)
  obtain ⟨dst, hdst, hentry⟩ := closeRing_entry hdescs hdesc
  cases (List.getElem?_eq_getElem hi).symm.trans hdst
  refine ⟨_, hget, hentry.orAdj adj, ?_⟩
  rw [DmaDescriptor.orAdj_nextAddr, (closeRing_linked hdescs).next i _ hdesc, hsame]

namespace BufferAccess

theorem store_getElem? {n : Nat} (hdesc : descs[n]? = some desc) :
    (m.store i descs).descriptor (i + n) = desc := by
  induction descs generalizing i n m with
  | nil => cases hdesc
  | cons first rest ih =>
    cases n with
    | zero =>
      cases hdesc
      rw [Nat.add_zero, BufferMemory.store, store_descriptor (Nat.lt_succ_self i),
        BufferMemory.write_self]
    | succ n =>
      have hi : i + (n + 1) = i + 1 + n := by omega
      rw [BufferMemory.store, hi]
      exact ih hdesc

theorem store_block : (m.store i descs).block = m.block := by
  induction descs generalizing i m with
  | nil => rfl
  | cons desc rest ih => exact ih

theorem descriptorAt_descAddr (hi : i < xdmaRingNumBlocks) :
    descriptorAt base (descAddr base i) = i := by
  have hoff : (descAddr base i - base).toNat = 32 * i := by
    have hn : xdmaRingNumBlocks = 258 := rfl
    rw [descAddr, BitVec.add_comm, BitVec.add_sub_cancel, BitVec.toNat_ofNat]
    omega
  rw [descriptorAt, hoff]
  exact Nat.mul_div_cancel_left i (by decide)

/-- The device goes round a closed list. -/
theorem visited_of_next
    (hnext : ∀ i < xdmaRingNumBlocks, (m.descriptor i).nextAddr =
      if i + 1 = xdmaRingNumBlocks then base else descAddr base (i + 1)) (k : Nat) :
    m.visited base k = descAddr base (k % xdmaRingNumBlocks) := by
  induction k with
  | zero => exact (descAddr_zero base).symm
  | succ k ih =>
    have hk : k % xdmaRingNumBlocks < xdmaRingNumBlocks := Nat.mod_lt _ ringNumBlocks_pos
    rw [BufferMemory.visited, ih, descriptorAt_descAddr hk, hnext _ hk,
      ← engineRingAdvance_mod, engineRingAdvance]
    have hlast : k % xdmaRingNumBlocks + 1 = xdmaRingNumBlocks ↔
        k % xdmaRingNumBlocks = xdmaRingNumBlocks - 1 := by omega
    simp only [hlast]
    split
    · exact (descAddr_zero base).symm
    · rfl

/-- The ring that the routine leaves in the buffer. -/
theorem ringLayout_store (h : ringChain engine results
      ((List.range' 0 xdmaRingNumBlocks).map m.block) = some chain) :
    RingLayout engine results (m.store 0 chain) := by
  have hlength : ((List.range' 0 xdmaRingNumBlocks).map m.block).length = xdmaRingNumBlocks := by
    rw [List.length_map, List.length_range']
  have hentry (i : Nat) (hi : i < xdmaRingNumBlocks) :
      RingEntry (descAddr results i) (m.block i) ((m.store 0 chain).descriptor i) ∧
      ((m.store 0 chain).descriptor i).nextAddr =
        if i + 1 = xdmaRingNumBlocks then engine.descBuffer.logical
        else descAddr engine.descBuffer.logical (i + 1) := by
    have hsmall : xdmaRingNumBlocks < 2 ^ 32 := by decide
    rw [← hlength] at hi hsmall
    obtain ⟨desc, hget, hentry, hnext⟩ := ringChain_entry h hsmall hi
    have hdesc : (m.store 0 chain).descriptor (0 + i) = desc := store_getElem? hget
    rw [List.getElem_map, List.getElem_range', Nat.one_mul, Nat.zero_add] at hentry
    rw [hlength] at hnext
    rw [Nat.zero_add] at hdesc
    rw [hdesc]
    exact ⟨hentry, hnext⟩
  exact ⟨visited_of_next fun i hi => (hentry i hi).2, fun i hi => (hentry i hi).1.source,
    fun i hi => (hentry i hi).1.destination.trans (congrFun store_block i).symm,
    fun i hi => (hentry i hi).1.length⟩

theorem RingLayout.entry (h : RingLayout engine results m) (hi : i < xdmaRingNumBlocks) :
    RingEntry (descAddr results i) (m.block i) (m.descriptor i) :=
  ⟨h.source i hi, h.destination i hi, h.length i hi⟩

theorem engineRingProgramDma_layout (hdiv : engine.Divides) (results : BitVec 64)
    (m : BufferMemory) :
    ∃ m', Prog.exec BufferMemory.act BufferMemory.answer (engineRingProgramDma engine results) m =
        some (true, m') ∧ m'.block = m.block ∧ RingLayout engine results m' := by
  obtain ⟨descs, hdescs⟩ := hdiv.ringLoop none results engine.descBuffer.logical
    ((List.range' 0 xdmaRingNumBlocks).map m.block)
  have hchain : ringChain engine results ((List.range' 0 xdmaRingNumBlocks).map m.block) =
      some (optimizeDescriptors engine (closeRing engine.descBuffer.logical descs)) := by
    rw [ringChain, hdescs]
    rfl
  exact ⟨_, exec_engineRingProgramDma hchain, store_block, ringLayout_store hchain⟩

/-! ## The alignment check -/

/-- Every check is made on the first descriptor. -/
theorem fillRing_reads_first :
    (fillRing engine left i results base).All fun o => ∀ k, o.read? = some k → k = 0 := by
  induction left generalizing i results base with
  | zero => exact trivial
  | succ left ih =>
    refine All.bind (.perform fun k hk => by cases hk) fun dst => ?_
    refine All.bind (.perform fun k hk => by cases hk) fun _ => ?_
    refine All.bind (.perform fun k hk => (Option.some.inj hk).symm) fun desc => ?_
    split
    · exact trivial
    · exact ih

theorem not_checksEach : ¬ ChecksEach engine results m := by
  intro h
  obtain ⟨o, ho, hread⟩ := List.mem_filterMap.mp (h 1 (by decide))
  exact absurd (fillRing_reads_first.trace o ho 1 hread) (by decide)

end BufferAccess

/-! ## The slots of the routines -/

/-- A call works on the slot that is next: the scan and the store of the tail on that of the next
completion it has not noted, the copy and the store of the head on that of the next it has not
copied out. -/
def RingOp.InTurn (s : RingWorld) : RingOp → Prop
  | .clearStatus i | .storeTail i => i = s.scanned % xdmaRingNumBlocks
  | .copyFromBuffer _ i _ | .clearLength i | .storeHead i _ => i = s.copied % xdmaRingNumBlocks
  | _ => True

/-- Behind a block that was copied its length is cleared. -/
def RingOp.next? : (o : RingOp) → o.Res → Option RingOp
  | .copyFromBuffer _ i _, (r : NtStatus) => if ntSuccess r then some (.clearLength i) else none
  | _, _ => none

theorem next?_scans (o : RingOp) (ho : o.Scans) (r : o.Res) : o.next? r = none := by
  cases o <;> first | rfl | cases ho

theorem followed_perform {o : RingOp} (h : ∀ r, o.next? r = none) :
    o.perform.Followed RingOp.next? :=
  (All.perform (P := fun o' => ∀ r, o'.next? r = none) h).followed fun _ hop => hop

variable {c : RingCopy} {tail bound length n : Nat}

theorem followed_when {b : Prop} [Decidable b] {p : RingProg Unit}
    (h : p.Followed RingOp.next?) : (Prog.when b p).Followed RingOp.next? := by
  unfold Prog.when
  split
  · exact h
  · exact trivial

theorem copyBlock_followed : (copyBlock c n).Followed RingOp.next? := by
  constructor
  · intro (status : NtStatus) op hnext
    cases hsuccess : ntSuccess status with
    | true =>
      rw [RingOp.next?, if_pos hsuccess] at hnext
      cases hnext
      show Prog.head? (if ntSuccess status = true then _ else _) = _
      rw [if_pos hsuccess]
      rfl
    | false =>
      rw [RingOp.next?, hsuccess] at hnext
      cases hnext
  · intro (status : NtStatus)
    show Prog.Followed _ (if ntSuccess status = true then _ else _)
    split
    · exact (followed_perform fun _ => rfl).bind fun _ => trivial
    · exact trivial

theorem copyBlocks_followed : (copyBlocks tail bound c).Followed RingOp.next? := by
  induction bound generalizing c with
  | zero => exact trivial
  | succ bound ih =>
    unfold copyBlocks
    split
    · refine (followed_perform fun _ => rfl).bind fun length => ?_
      split
      · exact (followed_perform fun _ => rfl).bind fun _ => trivial
      · refine copyBlock_followed.bind fun result => ?_
        cases result with
        | error status => exact trivial
        | ok c => exact ih
    · exact trivial

theorem evtIoReadEngineRing_followed : (evtIoReadEngineRing length).Followed RingOp.next? := by
  refine (followed_perform fun _ => rfl).bind fun status => ?_
  split
  · refine Followed.bind ?_ fun read => followed_perform fun _ => rfl
    refine (awaitBlocks_scans.followed next?_scans).bind fun result => ?_
    cases result with
    | error status => exact trivial
    | ok status =>
      refine (followed_perform fun _ => rfl).bind fun indices => ?_
      refine copyBlocks_followed.bind fun result => ?_
      cases result with
      | error status => exact trivial
      | ok c =>
        refine (followed_perform fun _ => rfl).bind fun rest => ?_
        refine (followed_when (followed_perform fun _ => rfl)).bind fun _ => ?_
        exact (followed_perform fun _ => rfl).bind fun _ => trivial
  · exact followed_perform fun _ => rfl

section
variable {t : RingThread} {s : RingWorld} {Q : Unit → RingWorld → Prop} {o : RingOp}
  {k : o.Res → RingProg Unit}

/-- Two results would change otherwise: that of slot `i` and that of the scan's next slot. -/
theorem clearStatus_inTurn {k : Unit → RingProg Unit} (hi : RingInv s)
    (hsafe : RingSafe t (.call (.clearStatus i) k) Q s) : i = s.scanned % xdmaRingNumBlocks := by
  have hi' := (hsafe s hi .refl () _ rfl rfl).1
  exact hi.status.slot_eq hi'.status hi'.scanned_le hi.completed_lt_scanned.le

theorem clearLength_inTurn {k : Unit → RingProg Unit} (hi : RingInv s)
    (hsafe : RingSafe t (.call (.clearLength i) k) Q s) : i = s.copied % xdmaRingNumBlocks := by
  have hi' := (hsafe s hi .refl () _ rfl rfl).1
  exact hi.length.slot_eq hi'.length hi'.copied_le_completed hi.completed_lt_copied.le

/-- The call of a safe thread whose copies are followed as in the source is in turn. -/
theorem inTurn_of_safe (hi : RingInv s) (hsafe : RingSafe t (.call o k) Q s)
    (hfollowed : (Prog.call o k).Followed RingOp.next?) : o.InTurn s := by
  cases o with
  | clearStatus i => exact clearStatus_inTurn hi hsafe
  | clearLength i => exact clearLength_inTurn hi hsafe
  | storeTail i => exact (hsafe s hi .refl () _ rfl rfl).1.tail_eq
  | storeHead i credits => exact (hsafe s hi .refl () _ rfl rfl).1.head_eq
  | copyFromBuffer offset i n =>
    -- the copy leaves its counter to the clearing of the length behind it
    have hnext := hfollowed.1 statusSuccess _ rfl
    obtain ⟨hi', -, hsafe'⟩ := hsafe s hi .refl statusSuccess _ rfl rfl
    cases hk : k statusSuccess with
    | ret a =>
      rw [hk] at hnext
      cases hnext
    | call op k' =>
      rw [hk] at hnext hsafe'
      cases Option.some.inj hnext
      have hslot := clearLength_inTurn hi' hsafe'
      exact hslot
  | poll | engineStatus | indices | status | setSignal | clearSignal | waitSignal
  | completedDescCount | clearWriteback | length | retrieveOutputMemory | complete => trivial

end

theorem followed_of_start {t : RingThread} {a : RingCall} {s s' : RingWorld} {p : RingProg Unit}
    (h : ringThreads.start t a s = some (s', p)) : p.Followed RingOp.next? := by
  cases t with
  | dpc =>
    cases a with
    | processRing =>
      simp only [ringThreads] at h
      split at h
      · cases h
      · cases h
        exact (engineProcessRing_scans.followed next?_scans).bind fun _ => trivial
    | read length => cases h
  | reader =>
    cases a with
    | processRing => cases h
    | read length =>
      cases h
      exact evtIoReadEngineRing_followed

/-- In every run each call is in turn. -/
theorem inTurn_of_reach {poll : Bool} {head tail : Nat} {block : Nat → List UInt8}
    {c : Config RingOp RingOp.Res RingWorld RingThread} {t : RingThread} {o : RingOp}
    {k : o.Res → RingProg Unit}
    (h : ringThreads.Reach copiesSucceed (ringConfig poll head tail block) c)
    (hcall : c.thread t = .call o k) : o.InTurn c.state := by
  obtain ⟨hi, hsafe⟩ := ringSafe_of_reach ringInv_setup ringSafe_setup h
  have hfollowed : (c.thread t).Followed RingOp.next? :=
    Threads.Reach.thread_invariant (Followed RingOp.next?)
      (show Prog.Followed RingOp.next? ((ringConfig poll head tail block).thread t) from trivial)
      (fun _ _ hk => hk.2) (fun _ _ _ _ hstart => followed_of_start hstart) h
  have ht := hsafe t
  rw [hcall] at ht hfollowed
  exact inTurn_of_safe hi ht hfollowed

theorem engineRingAdvance_iterate (k : Nat) :
    engineRingAdvance^[k] 0 = k % xdmaRingNumBlocks := by
  induction k with
  | zero => rfl
  | succ k ih => rw [Function.iterate_succ_apply', ih, engineRingAdvance_mod]

/-- **The layout of the ring.** The three tables agree for every placement of the buffers and the
blocks, and so do the slots that the hardware, the scan and the reads work on in every run. The
alignment check is never applied to each descriptor. -/
theorem ringLayout_not_checked (engine : XdmaEngine) (results : BitVec 64) (m : BufferMemory) :
    (engine.Divides → ∃ m', Prog.exec BufferMemory.act BufferMemory.answer
      (engineRingProgramDma engine results) m = some (true, m') ∧ m'.block = m.block ∧
        RingLayout engine results m') ∧
    (∀ k, engineRingAdvance^[k] 0 = k % xdmaRingNumBlocks) ∧
    (∀ (poll : Bool) (head tail : Nat) (block : Nat → List UInt8)
      (c : Config RingOp RingOp.Res RingWorld RingThread),
      ringThreads.Reach copiesSucceed (ringConfig poll head tail block) c →
      ∀ t o k, c.thread t = .call o k → o.InTurn c.state) ∧
    ¬ ChecksEach engine results m :=
  ⟨fun hdiv => engineRingProgramDma_layout hdiv results m, engineRingAdvance_iterate,
    fun _ _ _ _ _ h _ _ _ hcall => inTurn_of_reach h hcall, not_checksEach⟩

/-- An engine whose addresses must be multiples of 64 bytes, and blocks one behind the other. -/
def wideEngine : XdmaEngine := { XdmaEngine.sample .st .contiguous with alignAddr := 64 }

def pageBlocks : BufferMemory := ⟨fun _ => .zero, fun i => 0x30000 + BitVec.ofNat 64 (4096 * i)⟩

/-- The DPC has scanned the result of the first block and stores the tail. -/
def firstScan : List RingLabel :=
  [.env .start, .env (.complete xdmaResultEopBit [0]), .start .dpc .processRing,
    .call .dpc .engineStatus (0 : BitVec 32), .call .dpc (.indices .scan) (0, 0),
    .call .dpc (.status 0) xdmaResultEopBit, .call .dpc (.status 0) xdmaResultEopBit,
    .call .dpc (.clearStatus 0) (), .call .dpc (.status 1) (0 : BitVec 32)]

theorem ringLayout_not_checked_wide :
    (∃ m', Prog.exec BufferMemory.act BufferMemory.answer
      (engineRingProgramDma wideEngine 0xFFFFFFE0) pageBlocks = some (true, m') ∧
        m'.block = pageBlocks.block ∧ RingLayout wideEngine 0xFFFFFFE0 m') ∧
    ∃ c, ringThreads.Reach copiesSucceed (ringConfig false 0 0 fun _ => []) c ∧
      (∃ k, c.thread .dpc = .call (.storeTail 1) k) ∧
      (RingOp.storeTail 1).InTurn c.state := by
  have hall := ringLayout_not_checked wideEngine 0xFFFFFFE0 pageBlocks
  refine ⟨hall.1 (.inr (by decide)), ?_⟩
  have hrun : ∃ c, ringThreads.Reach copiesSucceed (ringConfig false 0 0 fun _ => []) c ∧
      decide ((c.thread .dpc).head? = some (.storeTail 1)) = true :=
    Threads.Reach.exists_of_steps firstScan
      (fun c : Config _ _ _ _ => decide ((c.thread .dpc).head? = some (.storeTail 1))) (by decide)
  obtain ⟨c, hc, hhead⟩ := hrun
  obtain ⟨k, hk⟩ := Prog.eq_call_of_head? (of_decide_eq_true hhead)
  exact ⟨c, hc, ⟨k, hk⟩, hall.2.2.1 false 0 0 _ c hc .dpc _ k hk⟩

/-- The second result is not at a multiple of 64 bytes, and nothing checks its descriptor. -/
theorem ringCheck_misses_second :
    ¬ ChecksEach wideEngine 0x20000 pageBlocks ∧
      ∃ m', Prog.exec BufferMemory.act BufferMemory.answer
          (engineRingProgramDma wideEngine 0x20000) pageBlocks = some (true, m') ∧
        descriptorIsAligned wideEngine (m'.descriptor 0) = some true ∧
        descriptorIsAligned wideEngine (m'.descriptor 1) = some false := by
  have hdiv : wideEngine.Divides := .inr (by decide)
  obtain ⟨m', hexec, hblock, hlayout⟩ := engineRingProgramDma_layout hdiv 0x20000 pageBlocks
  refine ⟨not_checksEach, m', hexec, ?_, ?_⟩
  · rw [(hlayout.entry (by decide)).isAligned 0, hblock]
    decide
  · rw [(hlayout.entry (by decide)).isAligned 0, hblock]
    decide

end Xadma
