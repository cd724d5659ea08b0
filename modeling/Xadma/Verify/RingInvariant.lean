import Xadma.Theory.RelyGuarantee
import Xadma.Theory.Cyclic
import Xadma.Libxdma.Ring

/-!
# The ring of a streaming engine, over every run

The uses of the ring are counted, and the counters of the hardware, of the scan and of the reader
stay in order within one turn of the ring. What the results hold, and which credits are out, follows
from the counters. The scan and the reader each rely on the other leaving their counters alone.
-/

namespace Xadma

open Threads

/-- The counters in order, and what they say about the ring. -/
structure RingInv (s : RingWorld) : Prop where
  head_eq : s.head = s.released % xdmaRingNumBlocks
  tail_eq : s.tail = s.published % xdmaRingNumBlocks
  released_le : s.released ≤ s.copied
  copied_le : s.copied ≤ s.delivered
  delivered_le : s.delivered ≤ s.published
  published_le : s.published ≤ s.scanned
  scanned_le : s.scanned ≤ s.completed
  completed_le : s.completed ≤ s.started
  credits : s.descCredits + s.started = s.released + (xdmaRingNumBlocks - 1)
  status : Window xdmaRingNumBlocks s.status s.scanned s.completed
  length : Window xdmaRingNumBlocks s.length s.copied s.completed
  block_eq : Stored xdmaRingNumBlocks s.received s.block s.copied
  length_eq : Stored xdmaRingNumBlocks (s.received.map fun bytes => BitVec.ofNat 32 bytes.length)
    s.length s.copied
  received_length : s.received.length = s.completed
  received_size : ∀ bytes ∈ s.received, 1 ≤ bytes.length ∧ bytes.length ≤ xdmaRingBlockSize
  uncopied : Window xdmaRingNumBlocks s.uncopied s.delivered s.completed
  kept : s.overwritten = false
  stated : s.overstated = false
  scan_done : s.scanning = false → s.scanned = s.published
  copy_done : s.copying = false → s.copied = s.released ∧ s.delivered = s.copied
  /-- What was returned and what is in the output memory are the bytes of the blocks copied out. -/
  stream : s.cut = false → s.returned ++ s.outputMem = (s.received.take s.delivered).flatten
  stream_cut : s.cutFollowed = false →
    s.returned ++ s.outputMem <+: (s.received.take s.delivered).flatten

/-- The thread that processes the ring. -/
def scanner (poll : Bool) : RingThread := if poll then .reader else .dpc

structure SameScan (s s' : RingWorld) : Prop where
  scanned : s'.scanned = s.scanned
  published : s'.published = s.published
  scanning : s'.scanning = s.scanning

structure SameCopy (s s' : RingWorld) : Prop where
  released : s'.released = s.released
  copied : s'.copied = s.copied
  delivered : s'.delivered = s.delivered
  copying : s'.copying = s.copying
  outputMem : s'.outputMem = s.outputMem

/-- What a thread relies on: the counters only grow, and those of its own are left alone. -/
structure RingRely (t : RingThread) (s s' : RingWorld) : Prop where
  poll : s'.poll = s.poll
  published_le : s.published ≤ s'.published
  received : s.received <+: s'.received
  scan : t = scanner s.poll → SameScan s s'
  copy : t = .reader → SameCopy s s'

abbrev RingLabel := Label RingOp RingOp.Res RingThread RingEvent RingCall

def copySucceeds : RingLabel → Bool
  | .call _ (.copyFromBuffer ..) r => ntSuccess r
  | _ => true

/-- Copies into the memory of the request succeed. -/
def copiesSucceed (_ : RingWorld) (l : RingLabel) : Prop := copySucceeds l = true

instance (s : RingWorld) (l : RingLabel) : Decidable (copiesSucceed s l) :=
  inferInstanceAs (Decidable (copySucceeds l = true))

variable {s s' : RingWorld} {t u : RingThread}

/-! ## The window of the counters -/

theorem ringNumBlocks_pos : 0 < xdmaRingNumBlocks := by decide

theorem RingInv.started_lt (hi : RingInv s) : s.started < s.released + xdmaRingNumBlocks := by
  have hcredits := hi.credits
  have := ringNumBlocks_pos
  omega

theorem RingInv.completed_lt (hi : RingInv s) : s.completed < s.released + xdmaRingNumBlocks :=
  hi.completed_le.trans_lt hi.started_lt

/-- The blocks that are not copied out fit into one turn of the ring. -/
theorem RingInv.completed_lt_copied (hi : RingInv s) :
    s.completed < s.copied + xdmaRingNumBlocks :=
  hi.completed_lt.trans_le (Nat.add_le_add_right hi.released_le _)

theorem RingInv.copied_le_published (hi : RingInv s) : s.copied ≤ s.published :=
  hi.copied_le.trans hi.delivered_le

theorem RingInv.completed_lt_published (hi : RingInv s) :
    s.completed < s.published + xdmaRingNumBlocks :=
  hi.completed_lt_copied.trans_le (Nat.add_le_add_right hi.copied_le_published _)

/-- So do those that are not scanned. -/
theorem RingInv.completed_lt_scanned (hi : RingInv s) :
    s.completed < s.scanned + xdmaRingNumBlocks :=
  hi.completed_lt_published.trans_le (Nat.add_le_add_right hi.published_le _)

theorem RingInv.delivered_le_completed (hi : RingInv s) : s.delivered ≤ s.completed :=
  hi.delivered_le.trans (hi.published_le.trans hi.scanned_le)

/-- So do those that are completed but not yet copied out. -/
theorem RingInv.started_le_delivered (hi : RingInv s) :
    s.started < s.delivered + xdmaRingNumBlocks :=
  hi.started_lt.trans_le (Nat.add_le_add_right (hi.released_le.trans hi.copied_le) _)

theorem RingInv.copied_le_completed (hi : RingInv s) : s.copied ≤ s.completed :=
  hi.copied_le.trans hi.delivered_le_completed

/-! ## The blocks -/

theorem blockLength_toNat {bytes : List UInt8} (hsize : bytes.length ≤ xdmaRingBlockSize) :
    (BitVec.ofNat 32 bytes.length).toNat = bytes.length := by
  have : xdmaRingBlockSize < 2 ^ 32 := by decide
  rw [BitVec.toNat_ofNat, Nat.mod_eq_of_lt (hsize.trans_lt this)]

theorem blockLength_ne_zero {bytes : List UInt8} (hpos : 1 ≤ bytes.length)
    (hsize : bytes.length ≤ xdmaRingBlockSize) : BitVec.ofNat 32 bytes.length ≠ 0 := by
  intro h0
  have hval := blockLength_toNat hsize
  rw [h0] at hval
  exact absurd hval.symm (Nat.ne_of_gt hpos)

/-- The block that is copied out next, and its length. -/
theorem RingInv.block_copied {bytes : List UInt8} (hi : RingInv s)
    (hbytes : s.received[s.copied]? = some bytes) :
    s.block (s.copied % xdmaRingNumBlocks) = bytes := by
  have hin : s.copied < s.received.length := (List.getElem?_eq_some_iff.mp hbytes).1
  exact Option.some.inj ((hi.block_eq _ le_rfl hin).symm.trans hbytes)

theorem RingInv.length_copied {bytes : List UInt8} (hi : RingInv s)
    (hbytes : s.received[s.copied]? = some bytes) :
    (s.length (s.copied % xdmaRingNumBlocks)).toNat = bytes.length := by
  have hin : s.copied < s.received.length := (List.getElem?_eq_some_iff.mp hbytes).1
  have hget := hi.length_eq s.copied le_rfl (by rwa [List.length_map])
  rw [List.getElem?_map, hbytes] at hget
  rw [← Option.some.inj hget]
  exact blockLength_toNat (hi.received_size bytes (List.mem_of_getElem? hbytes)).2

/-! ## The hardware -/

theorem RingRely.of_same (hpoll : s'.poll = s.poll) (hreceived : s.received <+: s'.received)
    (hscan : SameScan s s') (hcopy : SameCopy s s') : RingRely u s s' :=
  ⟨hpoll, hscan.published.ge, hreceived, fun _ => hscan, fun _ => hcopy⟩

theorem RingInv.start (hi : RingInv s) (h : RingWorld.env .start s = some s') :
    RingInv s' ∧ RingRely u s s' := by
  simp only [RingWorld.env] at h
  split at h
  · next hgo =>
    have hfree : s.uncopied (s.started % xdmaRingNumBlocks) = 0 :=
      hi.uncopied.eq_zero hi.completed_le hi.started_le_delivered hi.delivered_le_completed
    cases h
    refine ⟨{ hi with completed_le := ?_, credits := ?_, kept := ?_ },
      .of_same rfl List.prefix_rfl ⟨rfl, rfl, rfl⟩ ⟨rfl, rfl, rfl, rfl, rfl⟩⟩
    · exact hi.completed_le.trans (Nat.le_succ _)
    · have := hi.credits
      simp only
      omega
    · simp [hi.kept, hfree]
  · cases h

theorem RingInv.complete {status : BitVec 32} {bytes : List UInt8} (hi : RingInv s)
    (h : RingWorld.env (.complete status bytes) s = some s') :
    RingInv s' ∧ RingRely u s s' := by
  simp only [RingWorld.env] at h
  split at h
  · next hgo =>
    obtain ⟨hlt, hstatus, hpos, hsize⟩ := hgo
    have hlen := hi.received_length
    have hcopied := hi.copied_le_completed
    have hwindow := hi.completed_lt_copied
    have hdelivered : s.completed < s.delivered + xdmaRingNumBlocks :=
      hi.completed_le.trans_lt hi.started_le_delivered
    have hfree : s.uncopied (s.completed % xdmaRingNumBlocks) = 0 :=
      hi.uncopied.eq_zero le_rfl hdelivered hi.delivered_le_completed
    have htake : (s.received ++ [bytes]).take s.delivered = s.received.take s.delivered :=
      List.take_append_of_le_length (hlen ▸ hi.delivered_le_completed)
    cases h
    refine ⟨{ hi with
      scanned_le := hi.scanned_le.trans (Nat.le_succ _)
      completed_le := hlt
      status := hi.status.push hi.scanned_le hi.completed_lt_scanned hstatus
      length := hi.length.push hcopied hwindow (blockLength_ne_zero hpos hsize)
      block_eq := ?_
      length_eq := ?_
      received_length := by simp [hlen]
      received_size := ?_
      uncopied := hi.uncopied.push hi.delivered_le_completed hdelivered (Nat.succ_ne_zero _)
      kept := by simp [hi.kept, hfree]
      stream := by simpa only [htake] using hi.stream
      stream_cut := by simpa only [htake] using hi.stream_cut },
      .of_same rfl (List.prefix_append ..) ⟨rfl, rfl, rfl⟩ ⟨rfl, rfl, rfl, rfl, rfl⟩⟩
    · have := hi.block_eq.push (v := bytes) (by omega) (by omega)
      rwa [hlen] at this
    · have := hi.length_eq.push (v := BitVec.ofNat 32 bytes.length)
        (by rw [List.length_map]; omega) (by rw [List.length_map]; omega)
      rw [List.length_map, hlen] at this
      simpa only [List.map_append, List.map_singleton] using this
    · intro b hb
      rcases List.mem_append.mp hb with hb | hb
      · exact hi.received_size b hb
      · cases List.mem_singleton.mp hb
        exact ⟨hpos, hsize⟩
  · cases h

theorem RingInv.env {e : RingEvent} (hi : RingInv s) (h : RingWorld.env e s = some s') :
    RingInv s' ∧ RingRely u s s' := by
  cases e with
  | start => exact hi.start h
  | complete status bytes => exact hi.complete h
  | writeback value =>
    cases h
    exact ⟨{ hi with }, .of_same rfl List.prefix_rfl ⟨rfl, rfl, rfl⟩ ⟨rfl, rfl, rfl, rfl, rfl⟩⟩

/-! ## Steps of the scan -/

theorem engineRingAdvance_mod (i : Nat) :
    engineRingAdvance (i % xdmaRingNumBlocks) = (i + 1) % xdmaRingNumBlocks :=
  next_mod ringNumBlocks_pos

theorem RingInv.scanned_lt (hi : RingInv s) : s.scanned < s.published + xdmaRingNumBlocks :=
  hi.scanned_le.trans_lt hi.completed_lt_published

/-- The scan finds a status in its slot only if the hardware is ahead. -/
theorem RingInv.scanned_lt_completed (hi : RingInv s)
    (h : s.status (s.scanned % xdmaRingNumBlocks) ≠ 0) : s.scanned < s.completed := by
  by_contra hge
  refine h (hi.status.eq_zero (Nat.le_of_not_lt hge) ?_ hi.scanned_le)
  exact Nat.lt_add_of_pos_right ringNumBlocks_pos

theorem RingInv.clearStatus (hi : RingInv s) (hscanning : s.scanning = true)
    (hlt : s.scanned < s.completed) :
    RingInv { s with
      status := Function.update s.status (s.scanned % xdmaRingNumBlocks) 0
      scanned := s.scanned + 1 } :=
  { hi with
    published_le := hi.published_le.trans (Nat.le_succ _)
    scanned_le := hlt
    status := hi.status.pop hi.completed_lt_scanned.le
    scan_done := fun h => by simp [hscanning] at h }

theorem RingInv.storeTail (hi : RingInv s) :
    RingInv { s with
      tail := s.scanned % xdmaRingNumBlocks
      published := s.scanned
      scanning := false } :=
  { hi with
    tail_eq := rfl
    delivered_le := hi.delivered_le.trans hi.published_le
    published_le := le_rfl
    scan_done := fun _ => rfl }

/-! ## Steps of the reader -/

theorem take_succ_flatten {xs : List (List UInt8)} {bytes : List UInt8} {n : Nat}
    (h : xs[n]? = some bytes) : (xs.take (n + 1)).flatten = (xs.take n).flatten ++ bytes := by
  rw [List.take_add_one, h, List.flatten_append]
  simp

/-- A block is copied out behind the bytes of the blocks before it. -/
theorem RingInv.copyFromBuffer {bytes : List UInt8} {n : Nat} (hi : RingInv s)
    (hlt : s.copied < s.published) (hdone : s.delivered = s.copied) (hcopying : s.copying = true)
    (hbytes : s.received[s.copied]? = some bytes) :
    RingInv { s with
      outputMem := s.outputMem.take s.outputMem.length ++
        (s.block (s.copied % xdmaRingNumBlocks)).take n ++
        s.outputMem.drop (s.outputMem.length + n)
      delivered := s.delivered + 1
      uncopied := Function.update s.uncopied (s.copied % xdmaRingNumBlocks) 0
      cut := s.cut || decide (n < (s.length (s.copied % xdmaRingNumBlocks)).toNat)
      cutFollowed := s.cutFollowed || s.cut } := by
  have hblock := hi.block_copied hbytes
  have hlength := hi.length_copied hbytes
  have hmem : s.outputMem.take s.outputMem.length ++ bytes.take n ++
      s.outputMem.drop (s.outputMem.length + n) = s.outputMem ++ bytes.take n := by
    rw [List.take_length, List.drop_of_length_le (Nat.le_add_right ..), List.append_nil]
  have hflat : (s.received.take (s.delivered + 1)).flatten =
      (s.received.take s.delivered).flatten ++ bytes := by
    rw [hdone]
    exact take_succ_flatten hbytes
  exact { hi with
    copied_le := hi.copied_le.trans (Nat.le_succ _)
    delivered_le := by
      simp only [hdone]
      exact hlt
    copy_done := fun h => by simp [hcopying] at h
    uncopied := by
      have hwindow : s.completed ≤ s.delivered + xdmaRingNumBlocks :=
        hi.completed_le.trans hi.started_le_delivered.le
      rw [← hdone]
      exact hi.uncopied.pop hwindow
    stream := fun hcut => by
      rw [Bool.or_eq_false_iff, decide_eq_false_iff_not, hlength] at hcut
      simp only [hblock, hmem, hflat]
      rw [← List.append_assoc, hi.stream hcut.1,
        List.take_of_length_le (l := bytes) (Nat.le_of_not_lt hcut.2)]
    stream_cut := fun hcut => by
      rw [Bool.or_eq_false_iff] at hcut
      simp only [hblock, hmem, hflat]
      rw [← List.append_assoc, hi.stream hcut.2]
      exact (List.prefix_append_right_inj _).mpr (List.take_prefix ..) }

theorem RingInv.clearLength (hi : RingInv s) (hdelivered : s.delivered = s.copied + 1)
    (hcopying : s.copying = true) :
    RingInv { s with
      length := Function.update s.length (s.copied % xdmaRingNumBlocks) 0
      copied := s.copied + 1 } := by
  have hwindow := hi.completed_lt_copied.le
  exact { hi with
    released_le := hi.released_le.trans (Nat.le_succ _)
    copied_le := hdelivered.ge
    length := hi.length.pop hwindow
    block_eq := hi.block_eq.mono (Nat.le_succ _)
    length_eq := hi.length_eq.pop (by rwa [List.length_map, hi.received_length])
    copy_done := fun h => by simp [hcopying] at h }

theorem RingInv.storeHead {credits : Nat} (hi : RingInv s)
    (hcredits : s.released + credits = s.copied) (hdone : s.delivered = s.copied) :
    RingInv { s with
      head := s.copied % xdmaRingNumBlocks
      descCredits := s.descCredits + credits
      released := s.copied
      copying := false } := by
  have hold := hi.credits
  exact { hi with
    head_eq := rfl
    released_le := le_rfl
    credits := by
      simp only
      omega
    copy_done := fun _ => ⟨rfl, hdone⟩ }

theorem RingInv.completeRead (hi : RingInv s) :
    RingInv { s with
      returned := s.returned ++ s.outputMem.take s.outputMem.length
      overstated := s.overstated || decide (s.outputMem.length < s.outputMem.length)
      outputMem := [] } :=
  { hi with
    stated := by simp [hi.stated]
    stream := by simpa using hi.stream
    stream_cut := by simpa using hi.stream_cut }

end Xadma
