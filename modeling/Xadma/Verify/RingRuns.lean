import Xadma.Verify.RingInvariant

/-!
# The routines of the ring

One derivation for each routine, along its text: what its thread knows between two calls, whatever
the hardware and the other thread do there.
-/

namespace Xadma

open Threads

abbrev RingSafe {α : Type} (t : RingThread) (p : RingProg α) (Q : α → RingWorld → Prop)
    (s : RingWorld) : Prop :=
  Safe ringThreads copiesSucceed RingInv RingRely t p Q s

abbrev RingStable (t : RingThread) (P : RingWorld → Prop) : Prop := Stable RingInv RingRely t P

variable {s s' : RingWorld} {t u : RingThread} {P : RingWorld → Prop} {o : RingOp}
  {length tail bound eopCount n : Nat} {c : RingCopy}

/-! ## Calls that touch no counter -/

def RingOp.quiet : RingOp → Prop
  | .poll | .engineStatus | .status _ | .setSignal | .clearSignal | .waitSignal
  | .completedDescCount | .clearWriteback | .length _ => True
  | _ => False

theorem RingRely.refl : RingRely u s s :=
  .of_same rfl List.prefix_rfl ⟨rfl, rfl, rfl⟩ ⟨rfl, rfl, rfl, rfl, rfl⟩

theorem RingOp.quiet.act {r : o.Res} (ho : o.quiet) (hi : RingInv s)
    (h : RingWorld.act o s r = some s') : RingInv s' ∧ RingRely u s s' := by
  have same : ∀ {p : Prop} [Decidable p], (if p then some s else none) = some s' →
      RingInv s' ∧ RingRely u s s' := by
    intro p _ h
    split at h
    · cases h
      exact ⟨hi, .refl⟩
    · cases h
  cases o with
  | poll => exact same h
  | engineStatus =>
    cases h
    exact ⟨hi, .refl⟩
  | status k => exact same h
  | waitSignal => exact same h
  | completedDescCount => exact same h
  | length k => exact same h
  | setSignal =>
    cases h
    exact ⟨{ hi with }, .of_same rfl List.prefix_rfl ⟨rfl, rfl, rfl⟩ ⟨rfl, rfl, rfl, rfl, rfl⟩⟩
  | clearSignal =>
    cases h
    exact ⟨{ hi with }, .of_same rfl List.prefix_rfl ⟨rfl, rfl, rfl⟩ ⟨rfl, rfl, rfl, rfl, rfl⟩⟩
  | clearWriteback =>
    cases h
    exact ⟨{ hi with }, .of_same rfl List.prefix_rfl ⟨rfl, rfl, rfl⟩ ⟨rfl, rfl, rfl, rfl, rfl⟩⟩
  | indices | clearStatus | storeTail | clearLength | copyFromBuffer | storeHead
  | retrieveOutputMemory | complete => exact ho.elim

/-- A quiet call tells what its answer says about the state before it. -/
theorem RingSafe.quiet {Q : o.Res → RingWorld → Prop} (ho : o.quiet) (hP : RingStable t P)
    (hQ : ∀ r, RingStable t (Q r)) (hs : P s)
    (hq : ∀ s r s', RingInv s → P s → RingWorld.act o s r = some s' → Q r s) :
    RingSafe t o.perform Q s := by
  refine Safe.perform P hP hQ hs fun s r s' hi hp _ ha => ?_
  have hi' := (ho.act (u := t) hi ha).1
  exact ⟨hi', fun u _ => (ho.act hi ha).2, hQ r s s' hi hi' (ho.act hi ha).2 (hq s r s' hi hp ha)⟩

theorem RingSafe.skip (ho : o.quiet) (hP : RingStable t P) (hs : P s) :
    RingSafe t o.perform (fun _ => P) s :=
  .quiet ho hP (fun _ => hP) hs fun _ _ _ _ hp _ => hp

/-! ## The scan -/

/-- The thread is in neither phase. -/
structure RingIdle (t : RingThread) (s : RingWorld) : Prop where
  scan : t = scanner s.poll → s.scanning = false
  copy : t = .reader → s.copying = false ∧ s.outputMem = []

/-- The others do not begin a scan. -/
theorem RingRely.scanning_eq (hr : RingRely t s s')
    (h : t = scanner s.poll → s.scanning = false) : t = scanner s'.poll → s'.scanning = false := by
  intro ht
  have ht := ht.trans (congrArg scanner hr.poll)
  rw [(hr.scan ht).scanning]
  exact h ht

theorem RingIdle.stable : RingStable t (RingIdle t) := by
  intro s s' _ _ hr h
  constructor
  · exact hr.scanning_eq h.scan
  · intro ht
    rw [(hr.copy ht).copying, (hr.copy ht).outputMem]
    exact h.copy ht

/-- The thread may process the ring. -/
structure ScanReady (t : RingThread) (s : RingWorld) : Prop where
  thread : t = scanner s.poll
  idle : RingIdle t s

theorem ScanReady.stable : RingStable t (ScanReady t) := fun s s' hi hi' hr h =>
  ⟨h.thread.trans (congrArg scanner hr.poll.symm), RingIdle.stable s s' hi hi' hr h.idle⟩

/-- The thread scans, its next slot is `tail`, and less than `bound` results are left. -/
structure Scanning (t : RingThread) (bound tail : Nat) (s : RingWorld) : Prop where
  thread : t = scanner s.poll
  scanning : s.scanning = true
  tail_eq : s.scanned % xdmaRingNumBlocks = tail
  bound_eq : s.scanned + bound = s.published + xdmaRingNumBlocks
  pos : 0 < bound
  copy : t = .reader → s.copying = false ∧ s.outputMem = []

theorem Scanning.stable : RingStable t (Scanning t bound tail) := by
  intro s s' _ _ hr h
  have hscan := hr.scan h.thread
  refine ⟨h.thread.trans (congrArg scanner hr.poll.symm), ?_, ?_, ?_, h.pos, fun ht => ?_⟩
  · rw [hscan.scanning]
    exact h.scanning
  · rw [hscan.scanned]
    exact h.tail_eq
  · rw [hscan.scanned, hscan.published]
    exact h.bound_eq
  · rw [(hr.copy ht).copying, (hr.copy ht).outputMem]
    exact h.copy ht

theorem RingRely.completed_le (hr : RingRely t s s') (hi : RingInv s) (hi' : RingInv s') :
    s.completed ≤ s'.completed := by
  rw [← hi.received_length, ← hi'.received_length]
  exact hr.received.length_le

/-- A step of the scanning thread, seen from the others. -/
theorem RingRely.of_scan (ht : t = scanner s.poll) (hu : u ≠ t) (hpoll : s'.poll = s.poll)
    (hpub : s.published ≤ s'.published) (hreceived : s'.received = s.received)
    (hcopy : SameCopy s s') : RingRely u s s' :=
  ⟨hpoll, hpub, hreceived ▸ List.prefix_rfl, fun h => absurd (h.trans ht.symm) hu, fun _ => hcopy⟩

/-- The hardware is ahead of the scan. -/
def ScanAhead (t : RingThread) (s : RingWorld) : Prop :=
  s.scanned < s.completed ∧ t = scanner s.poll

theorem ScanAhead.stable : RingStable t (ScanAhead t) := by
  rintro s s' hi hi' hr ⟨hlt, ht⟩
  refine ⟨?_, ht.trans (congrArg scanner hr.poll.symm)⟩
  rw [(hr.scan ht).scanned]
  exact hlt.trans_le (hr.completed_le hi hi')

/-- A result that is set is one of the hardware. -/
theorem status_safe (h : Scanning t bound tail s) :
    RingSafe t (RingOp.status tail).perform
      (fun r s => Scanning t bound tail s ∧ (r ≠ 0 → ScanAhead t s)) s := by
  refine RingSafe.quiet trivial Scanning.stable (fun r => Scanning.stable.and
    fun s s' hi hi' hr hq hne => ScanAhead.stable s s' hi hi' hr (hq hne)) h ?_
  intro s r s' hi hs ha
  refine ⟨hs, fun hne => ⟨hi.scanned_lt_completed ?_, hs.thread⟩⟩
  simp only [RingWorld.act] at ha
  split at ha
  · next heq => rwa [hs.tail_eq, ← heq]
  · cases ha

theorem clearStatus_safe (h : Scanning t (bound + 1) tail s) (hahead : ScanAhead t s) :
    RingSafe t (RingOp.clearStatus tail).perform
      (fun _ => Scanning t bound (engineRingAdvance tail)) s := by
  refine Safe.perform _ (Scanning.stable.and ScanAhead.stable) (fun _ => Scanning.stable)
    ⟨h, hahead⟩ ?_
  rintro s r s' hi ⟨hs, hlt, -⟩ _ ha
  cases ha
  obtain ⟨ht, hscanning, rfl, hbound, -, hcopy⟩ := hs
  have hi' := hi.clearStatus hscanning hlt
  refine ⟨hi', fun u hu => .of_scan ht hu rfl le_rfl rfl ⟨rfl, rfl, rfl, rfl, rfl⟩, ?_⟩
  refine ⟨ht, hscanning, (engineRingAdvance_mod _).symm, ?_, ?_, hcopy⟩
  · simp only
    omega
  · have := hi'.scanned_lt
    simp only at this
    omega

theorem scanResults_safe (h : Scanning t bound tail s) :
    RingSafe t (scanResults bound tail eopCount) (fun r s => ∃ b, Scanning t b r.1 s) s := by
  induction bound generalizing tail eopCount s with
  | zero => exact absurd h.pos (Nat.lt_irrefl 0)
  | succ bound ih =>
    refine (status_safe h).bind fun status s ⟨h, hahead⟩ => ?_
    split
    · exact Safe.ret (fun s s' hi hi' hr ⟨b, hb⟩ => ⟨b, Scanning.stable s s' hi hi' hr hb⟩) ⟨_, h⟩
    · next hne =>
      refine (RingSafe.skip (o := .status tail) trivial (Scanning.stable.and ScanAhead.stable)
        ⟨h, hahead hne⟩).bind fun status s ⟨h, hahead⟩ => ?_
      exact (clearStatus_safe h hahead).bind fun _ s h => ih h

/-- The scan begins at the tail. -/
theorem beginScan_safe (h : ScanReady t s) :
    RingSafe t (RingOp.indices .scan).perform
      (fun r s => Scanning t xdmaRingNumBlocks r.2 s) s := by
  refine Safe.perform _ ScanReady.stable (fun _ => Scanning.stable) h ?_
  intro s r s' hi h _ ha
  simp only [ringThreads, RingWorld.act] at ha
  split at ha
  · next heq =>
    cases ha
    subst heq
    have hdone := hi.scan_done (h.idle.scan h.thread)
    refine ⟨{ hi with scan_done := fun h => by cases h }, fun u hu =>
      .of_scan h.thread hu rfl le_rfl rfl ⟨rfl, rfl, rfl, rfl, rfl⟩, ?_⟩
    exact ⟨h.thread, rfl, by rw [hdone, hi.tail_eq], by rw [hdone], ringNumBlocks_pos,
      h.idle.copy⟩
  · cases ha

theorem storeTail_safe (h : Scanning t bound tail s) :
    RingSafe t (RingOp.storeTail tail).perform (fun _ => ScanReady t) s := by
  refine Safe.perform _ Scanning.stable (fun _ => ScanReady.stable) h ?_
  intro s r s' hi h _ ha
  cases ha
  obtain ⟨ht, hscanning, rfl, -, -, hcopy⟩ := h
  exact ⟨hi.storeTail, fun u hu => .of_scan ht hu rfl hi.published_le rfl
    ⟨rfl, rfl, rfl, rfl, rfl⟩, ht, fun _ => rfl, hcopy⟩

theorem engineProcessRing_safe (h : ScanReady t s) :
    RingSafe t engineProcessRing (fun _ => ScanReady t) s := by
  refine (RingSafe.skip (o := .engineStatus) trivial ScanReady.stable h).bind fun _ s h => ?_
  refine (beginScan_safe h).bind fun indices s h => ?_
  refine (scanResults_safe h).bind fun scan s ⟨b, h⟩ => ?_
  refine (storeTail_safe h).bind fun _ s h => ?_
  refine Safe.bind (Q := fun _ => ScanReady t) ?_ fun _ s h => ?_
  · exact Safe.when ScanReady.stable h fun _ =>
      RingSafe.skip (o := .setSignal) trivial ScanReady.stable h
  refine (RingSafe.skip (o := .poll) trivial ScanReady.stable h).bind fun poll s h => ?_
  refine Safe.bind (Q := fun _ => ScanReady t) ?_ fun _ s h => Safe.ret ScanReady.stable h
  exact Safe.when ScanReady.stable h fun _ =>
    RingSafe.skip (o := .clearWriteback) trivial ScanReady.stable h

/-! ## The reader -/

/-- In poll mode the reader is the one that scans. -/
theorem enginePollRing_safe {tries : Nat} (h : ScanReady t s) :
    RingSafe t (enginePollRing tries) (fun _ => ScanReady t) s := by
  induction tries generalizing s with
  | zero => exact Safe.ret ScanReady.stable h
  | succ tries ih =>
    refine (RingSafe.skip (o := .completedDescCount) trivial ScanReady.stable h).bind
      fun completed s h => ?_
    split
    · exact Safe.ret ScanReady.stable h
    · refine Safe.bind (Q := fun _ => ScanReady t) ?_ fun eopCount s h => ?_
      · split
        · exact engineProcessRing_safe h
        · exact Safe.ret ScanReady.stable h
      · split
        · exact ih h
        · exact Safe.ret ScanReady.stable h

theorem awaitBlocks_safe (h : RingIdle .reader s) :
    RingSafe .reader awaitBlocks (fun _ => RingIdle .reader) s := by
  refine (RingSafe.quiet (o := .poll) (P := RingIdle .reader)
    (Q := fun r s => RingIdle .reader s ∧ s.poll = r) trivial RingIdle.stable
    (fun r => RingIdle.stable.and fun s s' _ _ hr hp => hr.poll.trans hp) h ?_).bind
    fun poll s h => ?_
  · intro s r s' _ h ha
    simp only [RingWorld.act] at ha
    split at ha
    · next heq => exact ⟨h, heq.symm⟩
    · cases ha
  obtain ⟨h, hpoll⟩ := h
  cases poll with
  | true =>
    have hready : ScanReady .reader s := ⟨by rw [hpoll]; rfl, h⟩
    refine (enginePollRing_safe hready).bind fun status s h => ?_
    exact Safe.ret RingIdle.stable h.idle
  | false =>
    refine (RingSafe.skip (o := .waitSignal) trivial RingIdle.stable h).bind
      fun status s h => ?_
    exact Safe.ret RingIdle.stable h

/-- The reader copies: its locals are `c`, its end is `tail` and `length` bytes are asked for. -/
structure Copying (length tail : Nat) (c : RingCopy) (s : RingWorld) : Prop where
  copying : s.copying = true
  scan : RingThread.reader = scanner s.poll → s.scanning = false
  head_eq : s.copied % xdmaRingNumBlocks = c.head
  delivered : s.delivered = s.copied
  credits : s.released + c.numDescProcessed = s.copied
  tail_eq : ∃ p, tail = p % xdmaRingNumBlocks ∧ s.copied ≤ p ∧ p ≤ s.published
  offset : c.offset = s.outputMem.length
  remaining : c.offset + c.numBytesRemaining = length

theorem Copying.stable : RingStable .reader (Copying length tail c) := by
  intro s s' _ _ hr h
  have hcopy := hr.copy rfl
  obtain ⟨p, hp, hcp, hpp⟩ := h.tail_eq
  refine ⟨?_, hr.scanning_eq h.scan, ?_, ?_, ?_, ⟨p, hp, ?_, hpp.trans hr.published_le⟩, ?_,
    h.remaining⟩
  · rw [hcopy.copying]
    exact h.copying
  · rw [hcopy.copied]
    exact h.head_eq
  · rw [hcopy.delivered, hcopy.copied]
    exact h.delivered
  · rw [hcopy.released, hcopy.copied]
    exact h.credits
  · rw [hcopy.copied]
    exact hcp
  · rw [hcopy.outputMem]
    exact h.offset

/-- The block at the head is complete, it has `n` bytes or more, and they fit. -/
structure BlockReady (tail : Nat) (c : RingCopy) (n : Nat) (s : RingWorld) : Prop where
  fits : n ≤ c.numBytesRemaining
  tail_eq : ∃ p, tail = p % xdmaRingNumBlocks ∧ s.copied < p ∧ p ≤ s.published
  bytes : ∃ bytes, s.received[s.copied]? = some bytes ∧ n ≤ bytes.length

theorem BlockReady.stable : RingStable .reader (BlockReady tail c n) := by
  intro s s' _ _ hr h
  have hcopy := hr.copy rfl
  obtain ⟨p, hp, hcp, hpp⟩ := h.tail_eq
  obtain ⟨bytes, hbytes, hn⟩ := h.bytes
  refine ⟨h.fits, ⟨p, hp, ?_, hpp.trans hr.published_le⟩, bytes, ?_, hn⟩
  · rw [hcopy.copied]
    exact hcp
  · rw [hcopy.copied]
    obtain ⟨hlt, rfl⟩ := List.getElem?_eq_some_iff.mp hbytes
    exact List.prefix_iff_getElem?.mp hr.received _ hlt

/-- A step of the reader on the blocks, seen from the other thread. -/
theorem RingRely.of_copy (hu : u ≠ .reader) (hpoll : s'.poll = s.poll)
    (hreceived : s'.received = s.received) (hscan : SameScan s s') : RingRely u s s' :=
  ⟨hpoll, hscan.published.ge, hreceived ▸ List.prefix_rfl, fun _ => hscan, fun h => absurd h hu⟩

/-- The copy loop finds the block at its head complete, with the bytes its length says. -/
theorem Copying.blockReady (hi : RingInv s) (h : Copying length tail c s) (hne : c.head ≠ tail)
    (hn : n ≤ (s.length c.head).toNat) (hfits : n ≤ c.numBytesRemaining) :
    BlockReady tail c n s := by
  obtain ⟨p, hp, hcp, hpp⟩ := h.tail_eq
  have hlt : s.copied < p := by
    refine Nat.lt_of_le_of_ne hcp fun heq => hne ?_
    rw [← h.head_eq, hp, heq]
  have hin : s.copied < s.received.length := by
    have := hi.published_le
    have := hi.scanned_le
    rw [hi.received_length]
    omega
  have hget := hi.length_eq s.copied le_rfl (by rwa [List.length_map])
  rw [List.getElem?_map, List.getElem?_eq_getElem hin, h.head_eq] at hget
  refine ⟨hfits, ⟨p, hp, hlt, hpp⟩, _, List.getElem?_eq_getElem hin, hn.trans ?_⟩
  rw [← Option.some.inj hget, BitVec.toNat_ofNat]
  exact Nat.mod_le _ _

/-- Between the copy of a block and the clearing of its length. -/
structure Copied (length tail : Nat) (c : RingCopy) (n : Nat) (s : RingWorld) : Prop where
  copying : s.copying = true
  scan : RingThread.reader = scanner s.poll → s.scanning = false
  head_eq : s.copied % xdmaRingNumBlocks = c.head
  delivered : s.delivered = s.copied + 1
  credits : s.released + c.numDescProcessed = s.copied
  tail_eq : ∃ p, tail = p % xdmaRingNumBlocks ∧ s.copied < p ∧ p ≤ s.published
  offset : c.offset + n = s.outputMem.length
  remaining : c.offset + c.numBytesRemaining = length
  fits : n ≤ c.numBytesRemaining

theorem Copied.stable : RingStable .reader (Copied length tail c n) := by
  intro s s' _ _ hr h
  have hcopy := hr.copy rfl
  obtain ⟨p, hp, hcp, hpp⟩ := h.tail_eq
  refine ⟨?_, hr.scanning_eq h.scan, ?_, ?_, ?_, ⟨p, hp, ?_, hpp.trans hr.published_le⟩, ?_,
    h.remaining, h.fits⟩
  · rw [hcopy.copying]
    exact h.copying
  · rw [hcopy.copied]
    exact h.head_eq
  · rw [hcopy.delivered, hcopy.copied]
    exact h.delivered
  · rw [hcopy.released, hcopy.copied]
    exact h.credits
  · rw [hcopy.copied]
    exact hcp
  · rw [hcopy.outputMem]
    exact h.offset

/-- What a copy that does not fail leaves. -/
def CopyResult (length tail : Nat) : Except NtStatus RingCopy → RingWorld → Prop
  | .ok c, s => Copying length tail c s
  | .error _, _ => False

theorem CopyResult.stable (r : Except NtStatus RingCopy) :
    RingStable .reader (CopyResult length tail r) := by
  cases r with
  | ok c => exact Copying.stable
  | error status => exact Stable.const False

theorem copyFromBuffer_safe (h : Copying length tail c s) (hblock : BlockReady tail c n s) :
    RingSafe .reader (RingOp.copyFromBuffer c.offset c.head n).perform
      (fun r s => ntSuccess r = true ∧ Copied length tail c n s) s := by
  refine Safe.perform _ (Copying.stable.and BlockReady.stable)
    (fun r => (Stable.const _).and Copied.stable) ⟨h, hblock⟩ ?_
  intro s r s' hi ⟨h, hblock⟩ hok ha
  have hsuccess : ntSuccess r = true := hok
  simp only [ringThreads, RingWorld.act, hsuccess, if_true] at ha
  cases ha
  obtain ⟨p, hp, hcp, hpp⟩ := hblock.tail_eq
  obtain ⟨bytes, hbytes, hn⟩ := hblock.bytes
  rw [← h.head_eq, h.offset]
  refine ⟨hi.copyFromBuffer (hcp.trans_le hpp) h.delivered h.copying hbytes,
    fun u hu => .of_copy hu rfl rfl ⟨rfl, rfl, rfl⟩, hsuccess, ?_⟩
  refine ⟨h.copying, h.scan, h.head_eq, by rw [h.delivered], h.credits, ⟨p, hp, hcp, hpp⟩, ?_,
    h.remaining, hblock.fits⟩
  simp only [hi.block_copied hbytes, h.offset, List.length_append, List.length_take,
    List.length_drop]
  omega

/-- The locals of the copy loop behind a block. -/
theorem clearLength_safe (status : NtStatus) (h : Copied length tail c n s) :
    RingSafe .reader (RingOp.clearLength c.head).perform
      (fun _ => Copying length tail {
        status := status
        head := engineRingAdvance c.head
        numDescProcessed := c.numDescProcessed + 1
        offset := c.offset + n
        numBytesRemaining := c.numBytesRemaining - n }) s := by
  refine Safe.perform _ Copied.stable (fun _ => Copying.stable) h ?_
  intro s r s' hi h _ ha
  cases ha
  obtain ⟨p, hp, hcp, hpp⟩ := h.tail_eq
  rw [← h.head_eq]
  refine ⟨hi.clearLength h.delivered h.copying,
    fun u hu => .of_copy hu rfl rfl ⟨rfl, rfl, rfl⟩, ?_⟩
  refine ⟨h.copying, h.scan, (engineRingAdvance_mod _).symm, h.delivered, ?_,
    ⟨p, hp, hcp, hpp⟩, h.offset, ?_⟩
  · have := h.credits
    simp only
    omega
  · have := h.remaining
    have := h.fits
    simp only
    omega

theorem copyBlock_safe (h : Copying length tail c s ∧ BlockReady tail c n s) :
    RingSafe .reader (copyBlock c n) (CopyResult length tail) s := by
  refine (copyFromBuffer_safe h.1 h.2).bind fun status s ⟨hsuccess, h⟩ => ?_
  rw [if_pos hsuccess]
  exact (clearLength_safe status h).bind fun _ s h => Safe.ret (CopyResult.stable (.ok _)) h

theorem copyBlocks_safe (h : Copying length tail c s) :
    RingSafe .reader (copyBlocks tail bound c) (CopyResult length tail) s := by
  induction bound generalizing c s with
  | zero => exact Safe.ret (CopyResult.stable (.ok c)) h
  | succ bound ih =>
    unfold copyBlocks
    split
    · next hgo =>
      refine (RingSafe.quiet (o := .length c.head) (P := Copying length tail c)
        (Q := fun r s => Copying length tail c s ∧
          BlockReady tail c (min r.toNat c.numBytesRemaining) s) trivial Copying.stable
        (fun r => Copying.stable.and BlockReady.stable) h ?_).bind fun len s h => ?_
      · intro s r s' hi h ha
        simp only [RingWorld.act] at ha
        split at ha
        · next heq =>
          subst heq
          exact ⟨h, h.blockReady hi hgo.1 (Nat.min_le_left ..) (Nat.min_le_right ..)⟩
        · cases ha
      split
      · refine (RingSafe.skip (o := .clearSignal) trivial Copying.stable h.1).bind
          fun _ s h => ?_
        exact Safe.ret (CopyResult.stable (.ok c)) h
      · refine (copyBlock_safe h).bind fun r s h => ?_
        cases r with
        | ok c => exact ih h
        | error status => exact h.elim
    · exact Safe.ret (CopyResult.stable (.ok c)) h

/-- The read is over: `n` bytes are in the memory of the request. -/
structure ReadDone (n : Nat) (s : RingWorld) : Prop where
  scan : RingThread.reader = scanner s.poll → s.scanning = false
  copying : s.copying = false
  outputMem : s.outputMem.length = n

theorem ReadDone.stable : RingStable .reader (ReadDone n) := by
  intro s s' _ _ hr h
  have hcopy := hr.copy rfl
  refine ⟨hr.scanning_eq h.scan, ?_, ?_⟩
  · rw [hcopy.copying]
    exact h.copying
  · rw [hcopy.outputMem]
    exact h.outputMem

theorem RingIdle.readDone (h : RingIdle .reader s) : ReadDone 0 s :=
  ⟨h.scan, (h.copy rfl).1, by rw [(h.copy rfl).2]; rfl⟩

/-- The copy loop begins at the head. -/
theorem beginCopy_safe (length : Nat) (status : NtStatus) (h : RingIdle .reader s) :
    RingSafe .reader (RingOp.indices .copy).perform
      (fun r s => Copying length r.2 ⟨status, r.1, 0, 0, length⟩ s) s := by
  refine Safe.perform _ RingIdle.stable (fun _ => Copying.stable) h ?_
  intro s r s' hi h _ ha
  simp only [ringThreads, RingWorld.act] at ha
  split at ha
  · next heq =>
    cases ha
    subst heq
    obtain ⟨hcopying, hmem⟩ := h.copy rfl
    obtain ⟨hcopied, hdelivered⟩ := hi.copy_done hcopying
    refine ⟨{ hi with copy_done := fun h => by cases h },
      fun u hu => .of_copy hu rfl rfl ⟨rfl, rfl, rfl⟩, rfl, h.scan, ?_, hdelivered, ?_,
      ⟨s.published, hi.tail_eq, hi.copied_le_published, le_rfl⟩, ?_, ?_⟩
    · rw [hi.head_eq, hcopied]
    · simp [hcopied]
    · simp [hmem]
    · simp
  · cases ha

theorem storeHead_safe (h : Copying length tail c s) :
    RingSafe .reader (RingOp.storeHead c.head c.numDescProcessed).perform
      (fun _ => ReadDone (length - c.numBytesRemaining)) s := by
  refine Safe.perform _ Copying.stable (fun _ => ReadDone.stable) h ?_
  intro s r s' hi h _ ha
  cases ha
  rw [← h.head_eq]
  refine ⟨hi.storeHead h.credits h.delivered, fun u hu => .of_copy hu rfl rfl ⟨rfl, rfl, rfl⟩,
    h.scan, rfl, ?_⟩
  have := h.remaining
  have := h.offset
  simp only
  omega

theorem engineRingCopyBytesToMemory_safe (h : RingIdle .reader s) :
    RingSafe .reader (engineRingCopyBytesToMemory length) (fun r => ReadDone r.2) s := by
  refine (awaitBlocks_safe h).bind fun r s h => ?_
  cases r with
  | error status => exact Safe.ret ReadDone.stable h.readDone
  | ok status =>
    refine (beginCopy_safe length status h).bind fun indices s h => ?_
    refine (copyBlocks_safe h).bind fun r s h => ?_
    cases r with
    | error status => exact h.elim
    | ok c =>
      have h : Copying length indices.2 c s := h
      refine (RingSafe.skip (o := .length c.head) trivial Copying.stable h).bind fun rest s h => ?_
      refine Safe.bind (Q := fun _ => Copying length indices.2 c) ?_ fun _ s h => ?_
      · exact Safe.when Copying.stable h fun _ =>
          RingSafe.skip (o := .clearSignal) trivial Copying.stable h
      exact (storeHead_safe h).bind fun _ s h => Safe.ret ReadDone.stable h

theorem complete_safe {status : NtStatus} (h : ReadDone n s) :
    RingSafe .reader (RingOp.complete status n).perform (fun _ => RingIdle .reader) s := by
  refine Safe.perform _ ReadDone.stable (fun _ => RingIdle.stable) h ?_
  intro s r s' hi h _ ha
  cases ha
  rw [← h.outputMem]
  exact ⟨hi.completeRead, fun u hu => .of_copy hu rfl rfl ⟨rfl, rfl, rfl⟩, h.scan,
    fun _ => ⟨h.copying, rfl⟩⟩

theorem evtIoReadEngineRing_safe (h : RingIdle .reader s) :
    RingSafe .reader (evtIoReadEngineRing length) (fun _ => RingIdle .reader) s := by
  refine Safe.bind (Q := fun _ => RingIdle .reader) ?_ fun status s h => ?_
  · refine Safe.perform _ RingIdle.stable (fun _ => RingIdle.stable) h ?_
    intro s r s' hi h _ ha
    -- the memory of the request is empty already
    have hsame : { s with outputMem := [] } = s := by rw [← (h.copy rfl).2]
    simp only [ringThreads, RingWorld.act, hsame, ite_self] at ha
    cases ha
    exact ⟨hi, fun u _ => .refl, h⟩
  split
  · exact (engineRingCopyBytesToMemory_safe h).bind fun r s h => complete_safe h
  · exact complete_safe h.readDone

/-! ## Every run -/

section
variable {poll : Bool} {head tail : Nat} {block : Nat → List UInt8}

theorem ringInv_setup : RingInv (engineRingSetup (.cleared poll head tail block)) where
  head_eq := rfl
  tail_eq := rfl
  released_le := le_rfl
  copied_le := le_rfl
  delivered_le := le_rfl
  published_le := le_rfl
  scanned_le := le_rfl
  completed_le := le_rfl
  credits := rfl
  status := ⟨fun i _ hi => absurd hi (Nat.not_lt_zero i), fun k hk => absurd rfl hk⟩
  length := ⟨fun i _ hi => absurd hi (Nat.not_lt_zero i), fun k hk => absurd rfl hk⟩
  block_eq := fun i _ hi => absurd hi (Nat.not_lt_zero i)
  length_eq := fun i _ hi => absurd hi (Nat.not_lt_zero i)
  received_length := rfl
  received_size := fun bytes hb => by cases hb
  uncopied := ⟨fun i _ hi => absurd hi (Nat.not_lt_zero i), fun k hk => absurd rfl hk⟩
  kept := rfl
  stated := rfl
  scan_done := fun _ => rfl
  copy_done := fun _ => ⟨rfl, rfl⟩
  stream := fun _ => rfl
  stream_cut := fun _ => List.prefix_rfl

/-- Every state that is reached keeps the invariant, and every thread goes on as it should. -/
theorem ringSafe_of_reach {c₀ c : Config RingOp RingOp.Res RingWorld RingThread}
    (hinv : RingInv c₀.state)
    (hsafe : ∀ t, RingSafe t (c₀.thread t) (fun _ => RingIdle t) c₀.state)
    (h : ringThreads.Reach copiesSucceed c₀ c) :
    RingInv c.state ∧ ∀ t, RingSafe t (c.thread t) (fun _ => RingIdle t) c.state := by
  refine Reach.safe hinv hsafe ?_ ?_ h
  · intro e s s' hi _ he
    exact ⟨(hi.env (u := .dpc) he).1, fun u => (hi.env he).2⟩
  · intro t a s s' p hi hq _ hstart
    cases t with
    | dpc =>
      cases a with
      | processRing =>
        simp only [ringThreads] at hstart
        split at hstart
        · cases hstart
        · next hpoll =>
          cases hstart
          have hready : ScanReady .dpc s := ⟨by rw [Bool.eq_false_of_not_eq_true hpoll]; rfl, hq⟩
          exact ⟨hi, fun u _ => .refl, (engineProcessRing_safe hready).bind fun _ s h =>
            Safe.ret RingIdle.stable h.idle⟩
      | read length => cases hstart
    | reader =>
      cases a with
      | processRing => cases hstart
      | read length =>
        cases hstart
        exact ⟨hi, fun u _ => .refl, evtIoReadEngineRing_safe hq⟩

theorem ringSafe_setup (t : RingThread) :
    RingSafe t (.ret ()) (fun _ => RingIdle t) (engineRingSetup (.cleared poll head tail block)) :=
  Safe.ret RingIdle.stable ⟨fun _ => rfl, fun _ => ⟨rfl, rfl⟩⟩

/-- A thread that has returned is idle. -/
theorem ringIdle_of_reach {c : Config RingOp RingOp.Res RingWorld RingThread}
    (h : ringThreads.Reach copiesSucceed (ringConfig poll head tail block) c) :
    RingInv c.state ∧ ∀ t, c.thread t = .ret () → RingIdle t c.state := by
  have hsafe := ringSafe_of_reach ringInv_setup ringSafe_setup h
  refine ⟨hsafe.1, fun t ht => ?_⟩
  have hidle := hsafe.2 t
  rw [ht] at hidle
  exact hidle.idle

theorem ringInv_of_reach {c : Config RingOp RingOp.Res RingWorld RingThread}
    (h : ringThreads.Reach copiesSucceed (ringConfig poll head tail block) c) :
    RingInv c.state :=
  (ringIdle_of_reach h).1

end

/-! ## A read in another system over the same calls -/

/-- The calls of a scan and of the wait for blocks. -/
def RingOp.Scans : RingOp → Prop
  | .poll | .engineStatus | .indices .scan | .status _ | .clearStatus _ | .storeTail _ => True
  | .setSignal | .waitSignal | .completedDescCount | .clearWriteback => True
  | _ => False

theorem scanResults_scans : (scanResults bound tail eopCount).All RingOp.Scans := by
  induction bound generalizing tail eopCount with
  | zero => exact trivial
  | succ bound ih =>
    refine Prog.All.bind (Prog.All.perform trivial) fun status => ?_
    split
    · exact trivial
    · refine Prog.All.bind (Prog.All.perform trivial) fun status => ?_
      exact Prog.All.bind (Prog.All.perform trivial) fun _ => ih

theorem engineProcessRing_scans : engineProcessRing.All RingOp.Scans := by
  refine Prog.All.bind (Prog.All.perform trivial) fun _ => ?_
  refine Prog.All.bind (Prog.All.perform trivial) fun indices => ?_
  refine Prog.All.bind scanResults_scans fun scan => ?_
  refine Prog.All.bind (Prog.All.perform trivial) fun _ => ?_
  refine Prog.All.bind (Prog.All.when (Prog.All.perform trivial)) fun _ => ?_
  refine Prog.All.bind (Prog.All.perform trivial) fun poll => ?_
  exact Prog.All.bind (Prog.All.when (Prog.All.perform trivial)) fun _ => trivial

theorem enginePollRing_scans {tries : Nat} : (enginePollRing tries).All RingOp.Scans := by
  induction tries with
  | zero => exact trivial
  | succ tries ih =>
    refine Prog.All.bind (Prog.All.perform trivial) fun completed => ?_
    split
    · exact trivial
    · refine Prog.All.bind ?_ fun eopCount => ?_
      · split
        · exact engineProcessRing_scans
        · exact trivial
      · split
        · exact ih
        · exact trivial

theorem awaitBlocks_scans : awaitBlocks.All RingOp.Scans := by
  refine Prog.All.bind (Prog.All.perform trivial) fun poll => ?_
  cases poll with
  | false => exact Prog.All.bind (Prog.All.perform trivial) fun _ => trivial
  | true => exact Prog.All.bind enginePollRing_scans fun _ => trivial

/-- The calls of a read behind its wait. -/
def RingOp.Copies : RingOp → Prop
  | .indices .copy | .length _ | .clearSignal => True
  | .copyFromBuffer .. | .clearLength _ | .storeHead .. => True
  | _ => False

theorem copyBlock_copies : (copyBlock c n).All RingOp.Copies := by
  refine Prog.All.bind (Prog.All.perform trivial) fun status => ?_
  split
  · exact Prog.All.bind (Prog.All.perform trivial) fun _ => trivial
  · exact trivial

theorem copyBlocks_copies : (copyBlocks tail bound c).All RingOp.Copies := by
  induction bound generalizing c with
  | zero => exact trivial
  | succ bound ih =>
    unfold copyBlocks
    split
    · refine Prog.All.bind (Prog.All.perform trivial) fun length => ?_
      split
      · exact Prog.All.bind (Prog.All.perform trivial) fun _ => trivial
      · refine Prog.All.bind copyBlock_copies fun result => ?_
        cases result with
        | error status => exact trivial
        | ok c => exact ih
    · exact trivial

section
variable {σ E A : Type} {S : Threads RingOp RingOp.Res σ RingThread E A}
  {ok : σ → Label RingOp RingOp.Res RingThread E A → Prop} {I : σ → Prop}
  {R : RingThread → σ → σ → Prop} {J K Q : σ → Prop} {s : σ}

/-- A read from its wait, the calls behind it and its last call: `J` holds up to the wait and `K`
behind it. -/
theorem Safe.read (hK : Stable I R .reader K)
    (hretrieve : ∀ s, J s →
      Safe S ok I R .reader RingOp.retrieveOutputMemory.perform (fun _ => J) s)
    (hawait : ∀ s, J s → Safe S ok I R .reader awaitBlocks (fun _ => K) s)
    (hcopies : ∀ o : RingOp, o.Copies → ∀ s r s', I s → K s → ok s (.call .reader o r) →
      S.act .reader o s r = some s' → I s' ∧ (∀ u, u ≠ .reader → R u s s') ∧ K s')
    (hcomplete : ∀ status n s, J s ∨ K s →
      Safe S ok I R .reader (RingOp.complete status n).perform (fun _ => Q) s)
    (hs : J s) : Safe S ok I R .reader (evtIoReadEngineRing length) (fun _ => Q) s := by
  refine (hretrieve s hs).bind fun status s hs => ?_
  split
  · apply Safe.bind (Q := fun _ => K)
    · refine (hawait s hs).bind fun result s hs => ?_
      apply Safe.all hK _ hs hcopies
      cases result with
      | error status => exact trivial
      | ok status =>
        refine Prog.All.bind (Prog.All.perform trivial) fun indices => ?_
        refine Prog.All.bind copyBlocks_copies fun result => ?_
        cases result with
        | error status => exact trivial
        | ok c =>
          refine Prog.All.bind (Prog.All.perform trivial) fun rest => ?_
          refine Prog.All.bind (Prog.All.when (Prog.All.perform trivial)) fun _ => ?_
          exact Prog.All.bind (Prog.All.perform trivial) fun _ => trivial
    · exact fun read s hs => hcomplete _ _ s (.inr hs)
  · exact hcomplete _ _ s (.inl hs)

end

end Xadma
