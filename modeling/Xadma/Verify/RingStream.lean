import Xadma.Verify.RingRuns

/-!
# What the ring of a streaming engine guarantees

Whatever the order of the steps, the credits and the blocks of the ring stay accounted for, and no
block is overwritten before it is read. The bytes of the stream come out in order unless a read
stops inside a block: the rest of that block is not kept for the next read.
-/

namespace Xadma

open Threads

/-- The slot that the hardware completes next. -/
def RingWorld.fill (s : RingWorld) : Nat := s.completed % xdmaRingNumBlocks

/-- Every descriptor but one is a credit that the hardware holds (for a block it has begun with or
not), a completed block that is not scanned or a block to be read, and the results are set exactly
in the slots of the completed blocks and of the blocks to be read. -/
structure RingAccounted (s : RingWorld) : Prop where
  credits : s.descCredits + (s.started - s.completed) + (s.completed - s.scanned) +
    ringDist xdmaRingNumBlocks s.head s.tail = xdmaRingNumBlocks - 1
  status : ∀ k < xdmaRingNumBlocks, s.status k ≠ 0 ↔
    ringDist xdmaRingNumBlocks s.tail k < ringDist xdmaRingNumBlocks s.tail s.fill
  length : ∀ k < xdmaRingNumBlocks, s.length k ≠ 0 ↔
    ringDist xdmaRingNumBlocks s.head k < ringDist xdmaRingNumBlocks s.head s.fill

variable {s : RingWorld}

theorem RingInv.head_lt (hi : RingInv s) : s.head < xdmaRingNumBlocks := by
  rw [hi.head_eq]
  exact Nat.mod_lt _ ringNumBlocks_pos

theorem RingInv.tail_lt (hi : RingInv s) : s.tail < xdmaRingNumBlocks := by
  rw [hi.tail_eq]
  exact Nat.mod_lt _ ringNumBlocks_pos

theorem RingInv.released_le_published (hi : RingInv s) : s.released ≤ s.published :=
  hi.released_le.trans hi.copied_le_published

theorem RingInv.published_le_completed (hi : RingInv s) : s.published ≤ s.completed :=
  hi.published_le.trans hi.scanned_le

theorem RingInv.accounted (hi : RingInv s) (hscan : s.scanning = false)
    (hcopy : s.copying = false) : RingAccounted s := by
  have hlt := hi.completed_lt
  have hreleased := hi.released_le_published
  have hpublished := hi.published_le_completed
  have hscanned := hi.scan_done hscan
  have hcopied := (hi.copy_done hcopy).1
  refine ⟨?_, fun k hk => ?_, fun k hk => ?_⟩
  · have hdist : ringDist xdmaRingNumBlocks s.head s.tail = s.published - s.released := by
      rw [hi.head_eq, hi.tail_eq]
      exact ringDist_mod ringNumBlocks_pos hreleased (by omega)
    have hcredits := hi.credits
    have hstarted := hi.completed_le
    rw [hdist, hscanned]
    omega
  · rw [hi.tail_eq, RingWorld.fill, ringDist_mod ringNumBlocks_pos hpublished (by omega)]
    rw [← hscanned]
    exact hi.status.ne_iff ringNumBlocks_pos hk hi.scanned_le (by omega)
  · rw [hi.head_eq, RingWorld.fill,
      ringDist_mod ringNumBlocks_pos (hreleased.trans hpublished) (by omega)]
    rw [← hcopied]
    exact hi.length.ne_iff ringNumBlocks_pos hk hi.copied_le_completed (by omega)

variable {poll : Bool} {head tail : Nat} {block : Nat → List UInt8}
  {c : Config RingOp RingOp.Res RingWorld RingThread}

/-- The hardware gets into a slot only when the block there is copied out. -/
theorem ring_accounted
    (h : ringThreads.Reach copiesSucceed (ringConfig poll head tail block) c) :
    c.state.head < xdmaRingNumBlocks ∧ c.state.tail < xdmaRingNumBlocks ∧
      c.state.started ≤ c.state.delivered + xdmaRingNumBlocks ∧ c.state.overwritten = false ∧
      (c.state.scanning = false → c.state.copying = false → RingAccounted c.state) :=
  have hi := ringInv_of_reach h
  ⟨hi.head_lt, hi.tail_lt, hi.started_le_delivered.le, hi.kept, hi.accounted⟩

/-- Two blocks are completed, and the DPC takes note of both. -/
def twoBlocks (first second : List UInt8) : List RingLabel :=
  [.env .start, .env (.complete 1 first), .env .start, .env (.complete 1 second),
    .start .dpc .processRing, .call .dpc .engineStatus 0, .call .dpc (.indices .scan) (0, 0),
    .call .dpc (.status 0) 1, .call .dpc (.status 0) 1, .call .dpc (.clearStatus 0) (),
    .call .dpc (.status 1) 1, .call .dpc (.status 1) 1, .call .dpc (.clearStatus 1) (),
    .call .dpc (.status 2) 0, .call .dpc (.storeTail 2) (), .call .dpc .setSignal (),
    .call .dpc .poll false]

theorem ring_accounted_two : ∃ c,
    ringThreads.Reach copiesSucceed (ringConfig false 7 9 fun _ => []) c ∧
      c.state.tail = 2 ∧ RingAccounted c.state := by
  have hrun : ∃ c, ringThreads.Reach copiesSucceed (ringConfig false 7 9 fun _ => []) c ∧
      (c.state.tail == 2 && !c.state.scanning && !c.state.copying) = true :=
    Reach.exists_of_run (twoBlocks [1, 2] [3])
      (fun s : RingWorld => s.tail == 2 && !s.scanning && !s.copying) (by decide)
  obtain ⟨c, hc, h⟩ := hrun
  simp only [Bool.and_eq_true, beq_iff_eq, Bool.not_eq_true'] at h
  exact ⟨c, hc, h.1.1, (ring_accounted hc).2.2.2.2 h.1.2 h.2⟩

/-! ## The bytes of the stream -/

/-- Copies succeed, and none follows a copy that took a part of a block. -/
def copyAllowed (s : RingWorld) : RingLabel → Bool
  | .call _ (.copyFromBuffer ..) r => ntSuccess r && !s.cut
  | _ => true

theorem copySucceeds_of_allowed {l : RingLabel} (h : copyAllowed s l = true) :
    copiesSucceed s l := by
  unfold copyAllowed at h
  split at h
  · exact (Bool.and_eq_true_iff.mp h).1
  · next hne =>
    unfold copiesSucceed copySucceeds
    split
    · next t offset k numBytes r => exact absurd rfl (hne t offset k numBytes r)
    · rfl

theorem cutFollowed_of_reach
    (h : ringThreads.Reach (fun s l => copyAllowed s l = true)
      (ringConfig poll head tail block) c) :
    c.state.cutFollowed = false := by
  refine Reach.invariant (fun s => s.cutFollowed = false) rfl ?_ ?_ ?_ h
  · intro t o r s s' hs hok ha
    cases o with
    | copyFromBuffer offset k numBytes =>
      obtain ⟨hr, hcut⟩ := Bool.and_eq_true_iff.mp hok
      simp only [ringThreads, RingWorld.act, hr, if_true, Option.some.injEq] at ha
      rw [← ha]
      simpa [hs] using hcut
    | _ =>
      simp only [ringThreads, RingWorld.act] at ha
      grind
  · intro e s s' hs _ he
    cases e with
    | writeback value => cases he; exact hs
    | _ =>
      simp only [ringThreads, RingWorld.env] at he
      split at he
      · cases he; exact hs
      · cases he
  · intro t a s s' p hs _ hstart
    cases t <;> cases a <;> simp only [ringThreads] at hstart <;> grind

/-- The bytes that were read are a prefix of the bytes received, and no read was completed with more
of them than were copied into its memory. -/
structure StreamInOrder (s : RingWorld) : Prop where
  returned : s.returned <+: s.received.flatten
  stated : s.overstated = false

theorem RingInv.streamInOrder (hi : RingInv s) (h : s.cutFollowed = false) : StreamInOrder s := by
  refine ⟨?_, hi.stated⟩
  calc
    s.returned <+: s.returned ++ s.outputMem := List.prefix_append ..
    _ <+: (s.received.take s.delivered).flatten := hi.stream_cut h
    _ <+: s.received.flatten := by
      conv_rhs => rw [← List.take_append_drop s.delivered s.received, List.flatten_append]
      exact List.prefix_append ..

theorem ring_streamInOrder
    (h : ringThreads.Reach (fun s l => copyAllowed s l = true)
      (ringConfig poll head tail block) c) :
    StreamInOrder c.state :=
  have hi := ringInv_of_reach (h.mono fun _ _ => copySucceeds_of_allowed)
  hi.streamInOrder (cutFollowed_of_reach h)

/-- A read of `length` bytes up to its copy loop, with the head at `head` and the tail at 2. -/
def beginRead (length head : Nat) : List RingLabel :=
  [.start .reader (.read length), .call .reader .retrieveOutputMemory 0, .call .reader .poll false,
    .call .reader .waitSignal 0, .call .reader (.indices .copy) (head, 2)]

def takeBlock (offset k numBytes : Nat) (length : BitVec 32) : List RingLabel :=
  [.call .reader (.length k) length, .call .reader (.copyFromBuffer offset k numBytes) 0,
    .call .reader (.clearLength k) ()]

/-- The end of a read that leaves no block, or one of one byte. -/
def endRead (head credits numBytes : Nat) (left : Bool) : List RingLabel :=
  (if left then [.call .reader (.length head) 1]
    else [.call .reader (.length head) 0, .call .reader .clearSignal ()]) ++
  [.call .reader (.storeHead head credits) (), .call .reader (.complete 0 numBytes) ()]

theorem ring_streamInOrder_two : ∃ c,
    ringThreads.Reach (fun s l => copyAllowed s l = true) (ringConfig false 0 0 fun _ => []) c ∧
      c.state.returned = [1, 2, 3] ∧ StreamInOrder c.state := by
  have hrun : ∃ c,
      ringThreads.Reach (fun s l => copyAllowed s l = true) (ringConfig false 0 0 fun _ => []) c ∧
        (c.state.returned == [1, 2, 3]) = true :=
    Reach.exists_of_run (twoBlocks [1, 2] [3] ++ beginRead 4 0 ++ takeBlock 0 0 2 2 ++
      takeBlock 2 1 1 1 ++ endRead 2 2 3 false)
      (fun s : RingWorld => s.returned == [1, 2, 3]) (by decide)
  obtain ⟨c, hc, h⟩ := hrun
  exact ⟨c, hc, by simpa using h, ring_streamInOrder hc⟩

/-- A read of one byte of a block of two: the next read goes on with the next block. -/
theorem ring_loses_rest_of_block : ∃ c,
    ringThreads.Reach copiesSucceed (ringConfig false 0 0 fun _ => []) c ∧
      c.state.received = [[1, 2], [3]] ∧ c.state.returned = [1, 3] ∧ ¬ StreamInOrder c.state := by
  have hrun : ∃ c, ringThreads.Reach copiesSucceed (ringConfig false 0 0 fun _ => []) c ∧
      (c.state.received == [[1, 2], [3]] && c.state.returned == [1, 3]) = true :=
    Reach.exists_of_run (twoBlocks [1, 2] [3] ++ beginRead 1 0 ++ takeBlock 0 0 1 2 ++
      endRead 1 1 1 true ++ beginRead 1 1 ++ takeBlock 0 1 1 1 ++ endRead 2 1 1 false)
      (fun s : RingWorld => s.received == [[1, 2], [3]] && s.returned == [1, 3]) (by decide)
  obtain ⟨c, hc, h⟩ := hrun
  simp only [Bool.and_eq_true, beq_iff_eq] at h
  refine ⟨c, hc, h.1, h.2, fun horder => ?_⟩
  have hprefix := horder.returned
  rw [h.1, h.2] at hprefix
  exact absurd hprefix (by decide)

end Xadma
