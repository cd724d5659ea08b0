import Xadma.Verify.DmaRuns

/-!
# What a completed request has done to the memories

In incremental mode the elements of a request are one stretch of the card from its first address on,
in whatever fragments they are transferred. What is written to the card and read back from the same
address is the same, whatever the lists that the framework makes of the two buffers.
-/

namespace Xadma

open Threads

def SgElement.block (el : SgElement) : Block 64 := ⟨el.address, el.length.toNat⟩

/-- The blocks of a list of fragments in the host memory. -/
def hostBlocks (fs : List ScatterGatherList) : List (Block 64) :=
  fs.flatMap fun sgList => sgList.elements.map SgElement.block

/-- The data buffer of a request. -/
def DmaRequest.blocks (req : DmaRequest) : List (Block 64) := hostBlocks req.fragments

/-- The `DeviceOffset` of the request fits into a `SIZE_T` of the build. -/
def DmaRequest.Addressable (e : TransferEngine) (req : DmaRequest) : Prop :=
  e.width = .w64 ∨ req.deviceOffset.toNat < 2 ^ 32

variable {e eh ec : TransferEngine} {m : Memories} {offset : BitVec 64} {es : List SgElement}
  {fs : List ScatterGatherList} {req : DmaRequest} {moved : List Transfer}
  {completions : List (NtStatus × Nat)} {status : NtStatus} {n : Nat}

theorem DmaRequest.Addressable.start (h : req.Addressable e) :
    startOffset e.width req.deviceOffset 0 = req.deviceOffset := by
  rw [startOffset, sizeT_eq_iff.mpr h]
  exact BitVec.add_zero _

/-! ## A list of elements -/

theorem runTransfers_cons {direction : WdfDmaDirection} {x : Transfer} {ts : List Transfer} :
    runTransfers direction (x :: ts) m = runTransfers direction ts (x.run direction m) := rfl

/-- A write stores the elements one behind the other. -/
theorem runTransfers_write :
    runTransfers .writeToDevice (plannedTransfers .contiguous offset es) m =
      { m with card := m.card.store offset (m.host.gather (es.map SgElement.block)) } := by
  induction es generalizing m offset with
  | nil => rfl
  | cons el es ih =>
    rw [plannedTransfers_cons_contiguous, runTransfers_cons, ih, List.map_cons, Memory.gather_cons,
      Memory.store_append, Memory.length_load]
    rfl

theorem total_blocks : Block.total (es.map SgElement.block) = totalLength es := by
  rw [Block.total, List.map_map]
  rfl

/-- A read scatters the stretch of the card over them. -/
theorem runTransfers_read :
    runTransfers .readFromDevice (plannedTransfers .contiguous offset es) m =
      { m with
        host := m.host.scatter (es.map SgElement.block)
          (m.card.load offset (totalLength es)) } := by
  induction es generalizing m offset with
  | nil => rfl
  | cons el es ih =>
    have hlen : (m.card.load offset el.length.toNat).length = el.length.toNat := Memory.length_load
    rw [plannedTransfers_cons_contiguous, runTransfers_cons, ih, List.map_cons, totalLength_cons,
      Memory.load_add, Memory.scatter]
    simp only [SgElement.block, List.take_left' hlen, List.drop_left' hlen]
    rfl

/-! ## The fragments of a request -/

theorem hostBlocks_eq : hostBlocks fs = (fs.flatMap (·.elements)).map SgElement.block := by
  rw [hostBlocks, List.map_flatMap]

theorem total_hostBlocks : Block.total (hostBlocks fs) = fragmentBytes fs := by
  rw [hostBlocks_eq, total_blocks, fragmentBytes_eq]

theorem DmaRequest.planned_contiguous (hmode : e.engine.addressMode = .contiguous) :
    req.planned e fs =
      plannedTransfers .contiguous (startOffset e.width req.deviceOffset 0)
        (fs.flatMap (·.elements)) := by
  rw [planned, hmode, plannedFragments_contiguous]

theorem fragmentBytes_le (hfs : fs <+: req.fragments) :
    fragmentBytes fs ≤ fragmentBytes req.fragments := by
  obtain ⟨rest, hrest⟩ := hfs
  rw [← hrest, fragmentBytes, fragmentBytes, List.map_append, List.sum_append]
  exact Nat.le_add_right _ _

/-- The first fragments are the beginning of the data buffer. -/
theorem gather_prefix (hfs : fs <+: req.fragments) :
    m.host.gather (hostBlocks fs) = (m.host.gather req.blocks).take (fragmentBytes fs) := by
  obtain ⟨rest, hrest⟩ := hfs
  have hblocks : req.blocks = hostBlocks fs ++ hostBlocks rest := by
    rw [DmaRequest.blocks, ← hrest, hostBlocks, List.flatMap_append]
    rfl
  rw [hblocks, Memory.gather, Memory.gather, List.flatMap_append, List.take_left']
  rw [← total_hostBlocks]
  exact Memory.length_gather

/-! ## Completed requests -/

/-- A write that is completed with `n` bytes has stored the first `n` bytes of its buffer to the
card, one behind the other from where the driver starts it, and has changed nothing else. -/
theorem Truthful.write (h : Truthful e req moved completions) (hdir : e.dir = .h2c)
    (hmode : e.engine.addressMode = .contiguous) (hmem : (status, n) ∈ completions)
    (hstatus : ntSuccess status = true) :
    n ≤ fragmentBytes req.fragments ∧ runTransfers e.direction moved m = { m with
      card := m.card.store (startOffset e.width req.deviceOffset 0)
        ((m.host.gather req.blocks).take n) } := by
  obtain ⟨fs, hfs, rfl, rfl⟩ := h.information _ hmem hstatus
  have hdirection : e.direction = .writeToDevice := by rw [TransferEngine.direction, hdir]
  refine ⟨fragmentBytes_le hfs, ?_⟩
  rw [hdirection, DmaRequest.planned_contiguous hmode, runTransfers_write, ← hostBlocks_eq,
    gather_prefix hfs]

/-- A read that is completed with `n` bytes has filled the first `n` bytes of its buffer from the
card and has changed nothing outside of the buffer. -/
theorem Truthful.read (h : Truthful e req moved completions) (hdir : e.dir = .c2h)
    (hmode : e.engine.addressMode = .contiguous) (hmem : (status, n) ∈ completions)
    (hstatus : ntSuccess status = true) (hdisjoint : req.blocks.Pairwise Block.Disjoint) :
    n ≤ fragmentBytes req.fragments ∧
      (runTransfers e.direction moved m).card = m.card ∧
      ((runTransfers e.direction moved m).host.gather req.blocks).take n =
        m.card.load (startOffset e.width req.deviceOffset 0) n ∧
      ∀ a, (∀ b ∈ req.blocks, ¬ InBlock b.start b.length a) →
        (runTransfers e.direction moved m).host a = m.host a := by
  obtain ⟨fs, hfs, rfl, rfl⟩ := h.information _ hmem hstatus
  have hdirection : e.direction = .readFromDevice := by rw [TransferEngine.direction, hdir]
  have hsub : (hostBlocks fs).Sublist req.blocks := by
    obtain ⟨rest, hrest⟩ := hfs
    rw [DmaRequest.blocks, ← hrest, hostBlocks, hostBlocks, List.flatMap_append]
    exact List.sublist_append_left _ _
  rw [hdirection, DmaRequest.planned_contiguous hmode, runTransfers_read, ← hostBlocks_eq,
    ← fragmentBytes_eq]
  refine ⟨fragmentBytes_le hfs, rfl, ?_, fun a ha => ?_⟩
  · rw [← gather_prefix hfs]
    refine Memory.gather_scatter (hdisjoint.sublist hsub) (fun b hb => ?_) ?_
    · rw [hostBlocks_eq] at hb
      obtain ⟨el, -, rfl⟩ := List.mem_map.mp hb
      have := el.length.isLt
      simp only [SgElement.block]
      omega
    · rw [Memory.length_load, total_hostBlocks]
  · exact Memory.scatter_of_not_inBlock fun b hb => ha b (hsub.subset hb)

/-! ## Every run -/

section
variable {buffer buffer' : Nat → DmaDescriptor} {written read : Nat → DmaRequest}
  {cw cr : Config TransferOp TransferOp.Res DmaWorld TransferThread} {j k n' : Nat}
  {status' : NtStatus}

theorem write_of_reach (h : (dmaThreads e).Reach (fun _ _ => True) (dmaConfig buffer written) cw)
    (hdir : e.dir = .h2c) (hmode : e.engine.addressMode = .contiguous)
    (haddr : (written k).Addressable e)
    (hmem : (status, n) ∈ cw.state.transfer.wdf.completions k) (hstatus : ntSuccess status = true)
    (m : Memories) :
    n ≤ fragmentBytes (written k).fragments ∧
      runTransfers e.direction (cw.state.moved k) m = { m with
        card := m.card.store (written k).deviceOffset
          ((m.host.gather (written k).blocks).take n) } := by
  have hwrite := ((dmaInv_of_reach h).truthful k).write hdir hmode hmem hstatus (m := m)
  rwa [haddr.start] at hwrite

theorem read_of_reach (h : (dmaThreads e).Reach (fun _ _ => True) (dmaConfig buffer read) cr)
    (hdir : e.dir = .c2h) (hmode : e.engine.addressMode = .contiguous)
    (haddr : (read k).Addressable e)
    (hmem : (status, n) ∈ cr.state.transfer.wdf.completions k) (hstatus : ntSuccess status = true)
    (hdisjoint : (read k).blocks.Pairwise Block.Disjoint) (m : Memories) :
    n ≤ fragmentBytes (read k).fragments ∧
      (runTransfers e.direction (cr.state.moved k) m).card = m.card ∧
      ((runTransfers e.direction (cr.state.moved k) m).host.gather (read k).blocks).take n =
        m.card.load (read k).deviceOffset n ∧
      ∀ a, (∀ b ∈ (read k).blocks, ¬ InBlock b.start b.length a) →
        (runTransfers e.direction (cr.state.moved k) m).host a = m.host a := by
  have hread := ((dmaInv_of_reach h).truthful k).read hdir hmode hmem hstatus hdisjoint (m := m)
  rwa [haddr.start] at hread

/-- What a write has taken to the card is what a read of as many bytes or fewer brings back, through
any two engines of a build and any two buffers. -/
theorem readBack_of_reach
    (hw : (dmaThreads eh).Reach (fun _ _ => True) (dmaConfig buffer written) cw)
    (hr : (dmaThreads ec).Reach (fun _ _ => True) (dmaConfig buffer' read) cr)
    (heh : eh.dir = .h2c ∧ eh.engine.addressMode = .contiguous)
    (hec : ec.dir = .c2h ∧ ec.engine.addressMode = .contiguous)
    (hwrite : (status, n) ∈ cw.state.transfer.wdf.completions j) (hstatus : ntSuccess status = true)
    (hread : (status', n') ∈ cr.state.transfer.wdf.completions k)
    (hstatus' : ntSuccess status' = true)
    (hwidth : ec.width = eh.width) (haddr : (read k).deviceOffset = (written j).deviceOffset)
    (hdisjoint : (read k).blocks.Pairwise Block.Disjoint) (hle : n' ≤ n) (hn : n ≤ 2 ^ 64)
    (m : Memories) :
    ((runTransfers ec.direction (cr.state.moved k)
      (runTransfers eh.direction (cw.state.moved j) m)).host.gather (read k).blocks).take n' =
        (m.host.gather (written j).blocks).take n' := by
  have hwritten := (dmaInv_of_reach hw).truthful j
  have hfilled := (dmaInv_of_reach hr).truthful k
  obtain ⟨hbytes, hcard⟩ := hwritten.write heh.1 heh.2 hwrite hstatus (m := m)
  obtain ⟨-, -, hback, -⟩ := hfilled.read hec.1 hec.2 hread hstatus' hdisjoint
    (m := runTransfers eh.direction (cw.state.moved j) m)
  have hlen : ((m.host.gather (written j).blocks).take n).length = n := by
    rw [List.length_take, Memory.length_gather, DmaRequest.blocks, total_hostBlocks,
      Nat.min_eq_left hbytes]
  rw [hback, hcard, hwidth, haddr,
    Memory.load_store_take (hle.trans_eq hlen.symm) (hlen.trans_le hn),
    List.take_take, Nat.min_eq_left hle]

end

/-! ## Two runs -/

def readEngine : TransferEngine := { sampleEngine with dir := .c2h }

def readRequest : DmaRequest := ⟨0, .single ⟨0x5000, 0x40⟩, [.single ⟨0x7000, 0x40⟩]⟩

theorem exists_written : ∃ c,
    (dmaThreads sampleEngine).Reach (fun _ _ => True)
      (dmaConfig (fun _ => .zero) fun _ => sampleRequest) c ∧
      (statusSuccess, 0x80) ∈ c.state.transfer.wdf.completions 0 := by
  have hrun : ∃ c, (dmaThreads sampleEngine).Reach (fun _ _ => True)
      (dmaConfig (fun _ => .zero) fun _ => sampleRequest) c ∧
      (c.state.transfer.wdf.completions 0 == [(statusSuccess, 0x80)]) = true :=
    Reach.exists_of_run (raceSteps sampleEngine sampleRequest (.single ⟨0x3000, 0x40⟩))
      (fun s : DmaWorld => s.transfer.wdf.completions 0 == [(statusSuccess, 0x80)]) (by decide)
  obtain ⟨c, hc, h⟩ := hrun
  exact ⟨c, hc, eq_of_beq h ▸ List.mem_singleton_self _⟩

theorem exists_read : ∃ c,
    (dmaThreads readEngine).Reach (fun _ _ => True)
      (dmaConfig (fun _ => .zero) fun _ => readRequest) c ∧
      (statusSuccess, 0x80) ∈ c.state.transfer.wdf.completions 0 := by
  have hrun : ∃ c, (dmaThreads readEngine).Reach (fun _ _ => True)
      (dmaConfig (fun _ => .zero) fun _ => readRequest) c ∧
      (c.state.transfer.wdf.completions 0 == [(statusSuccess, 0x80)]) = true :=
    Reach.exists_of_run (raceSteps readEngine readRequest (.single ⟨0x7000, 0x40⟩))
      (fun s : DmaWorld => s.transfer.wdf.completions 0 == [(statusSuccess, 0x80)]) (by decide)
  obtain ⟨c, hc, h⟩ := hrun
  exact ⟨c, hc, eq_of_beq h ▸ List.mem_singleton_self _⟩

theorem readRequest_disjoint : readRequest.blocks.Pairwise Block.Disjoint := by
  refine List.pairwise_cons.mpr ⟨fun b hb => ?_, List.pairwise_singleton _ _⟩
  cases List.mem_singleton.mp hb
  exact Memory.disjoint_of_le (by decide) (by decide)

theorem write_race : ∃ c,
    (dmaThreads sampleEngine).Reach (fun _ _ => True)
      (dmaConfig (fun _ => .zero) fun _ => sampleRequest) c ∧
      ∀ m, 0x80 ≤ fragmentBytes sampleRequest.fragments ∧
        runTransfers sampleEngine.direction (c.state.moved 0) m = { m with
          card := m.card.store sampleRequest.deviceOffset
            ((m.host.gather sampleRequest.blocks).take 0x80) } := by
  obtain ⟨c, hc, hmem⟩ := exists_written
  exact ⟨c, hc, fun m => write_of_reach hc rfl rfl (.inl rfl) hmem (by decide) m⟩

theorem read_race : ∃ c,
    (dmaThreads readEngine).Reach (fun _ _ => True)
      (dmaConfig (fun _ => .zero) fun _ => readRequest) c ∧
      ∀ m, ((runTransfers readEngine.direction (c.state.moved 0) m).host.gather
        readRequest.blocks).take 0x80 = m.card.load readRequest.deviceOffset 0x80 := by
  obtain ⟨c, hc, hmem⟩ := exists_read
  exact ⟨c, hc, fun m =>
    (read_of_reach hc rfl rfl (.inl rfl) hmem (by decide) readRequest_disjoint m).2.2.1⟩

theorem readBack_race : ∃ cw cr,
    (dmaThreads sampleEngine).Reach (fun _ _ => True)
      (dmaConfig (fun _ => .zero) fun _ => sampleRequest) cw ∧
    (dmaThreads readEngine).Reach (fun _ _ => True)
      (dmaConfig (fun _ => .zero) fun _ => readRequest) cr ∧
      ∀ m, ((runTransfers readEngine.direction (cr.state.moved 0)
        (runTransfers sampleEngine.direction (cw.state.moved 0) m)).host.gather
          readRequest.blocks).take 0x80 = (m.host.gather sampleRequest.blocks).take 0x80 := by
  obtain ⟨cw, hcw, hwrite⟩ := exists_written
  obtain ⟨cr, hcr, hread⟩ := exists_read
  exact ⟨cw, cr, hcw, hcr, fun m => readBack_of_reach hcw hcr ⟨rfl, rfl⟩ ⟨rfl, rfl⟩ hwrite
    (by decide) hread (by decide) rfl rfl readRequest_disjoint (Nat.le_refl _) (by decide) m⟩

end Xadma
