import Mathlib.Algebra.BigOperators.Group.List.Basic
import Mathlib.Data.List.Flatten
import Xadma.Verify.RingStream

/-!
# A copy that fails

The copy loop clears the length of each block it has copied, but the head and the credits are stored
behind the loop, and a copy that fails jumps over that. When it is the first copy of its read,
nothing has changed; behind a block that was copied the read leaves a head whose length is 0.
-/

namespace Xadma

open Threads Relation

abbrev RingConfig := Config RingOp RingOp.Res RingWorld RingThread

/-- The answers to a read that is run alone. `copy i` is the status of copying the `i`-th block of
the stream. -/
def RingWorld.answer (copy : Nat → NtStatus) : (o : RingOp) → RingWorld → o.Res
  | .poll, s => s.poll
  | .indices _, s => (s.head, s.tail)
  | .status k, s => s.status k
  | .length k, s => s.length k
  | .completedDescCount, s => s.completedDescCount
  | .waitSignal, s => if s.completionSignal then statusSuccess else statusTimeout
  | .copyFromBuffer .., s => copy s.delivered
  | .retrieveOutputMemory, _ => statusSuccess
  | .engineStatus, _ => 0
  | .clearStatus _, _ | .storeTail _, _ | .setSignal, _ | .clearSignal, _ | .clearWriteback, _
  | .clearLength _, _ | .storeHead .., _ | .complete .., _ => ()

/-- The state that a read of `length` bytes leads to when it is run alone. -/
def RingWorld.read (copy : Nat → NtStatus) (length : Nat) (s : RingWorld) : Option RingWorld :=
  (Prog.exec RingWorld.act (RingWorld.answer copy) (evtIoReadEngineRing length) s).map Prod.snd

def copyAlways (_ : Nat) : NtStatus := statusSuccess

/-- A read that leaves the copy loop at a copy that fails, after `n` copies: it is over, and it has
not stored the head. -/
structure FailedRead (copy : Nat → NtStatus) (n length : Nat) (c c' : RingConfig) : Prop where
  copied : ∀ i < n, ntSuccess (copy (c.state.delivered + i)) = true
  failed : ntSuccess (copy (c.state.delivered + n)) = false
  idle : c.thread .reader = .ret ()
  left : ∃ s, c.state.read copy length = some s ∧ s.copying = true ∧
    c' = ⟨{ s with copying := false }, c.thread⟩

/-- The configurations that are reached with copies that fail at the head only. -/
inductive RingReached (poll : Bool) (head tail : Nat) (block : Nat → List UInt8) :
    RingConfig → Prop
  | init : RingReached poll head tail block (ringConfig poll head tail block)
  | steps {c c' : RingConfig} : RingReached poll head tail block c →
    ringThreads.Reach copiesSucceed c c' → RingReached poll head tail block c'
  | failed {c c' : RingConfig} {copy : Nat → NtStatus} {length : Nat} :
    RingReached poll head tail block c → FailedRead copy 0 length c c' →
    RingReached poll head tail block c'

/-! ## What is left behind -/

/-- The head, the lengths and the credits are as they were. -/
structure AsBefore (s s' : RingWorld) : Prop where
  head : s'.head = s.head
  length : s'.length = s.length
  descCredits : s'.descCredits = s.descCredits

/-- `n` slots are given back. -/
structure Advanced (n : Nat) (s s' : RingWorld) : Prop where
  head : s'.head = (s.head + n) % xdmaRingNumBlocks
  length : ∀ k < xdmaRingNumBlocks,
    s'.length k = if ringDist xdmaRingNumBlocks s.head k < n then 0 else s.length k
  descCredits : s'.descCredits = s.descCredits + n

def notReader : RingLabel → Prop
  | .call t .. | .start t _ => t = .dpc
  | .env _ => True

/-- Steps of the hardware and of the DPC lead from `c` to `c'`. -/
abbrev Meanwhile (c c' : RingConfig) : Prop :=
  ringThreads.Reach (fun s l => copiesSucceed s l ∧ notReader l) c c'

/-- The read returned the blocks from the `first`-th one to the tail, and all slots but one are the
hardware's again. -/
structure Delivered (first : Nat) (s s' : RingWorld) : Prop where
  returned : s'.returned = s.returned ++ ((s'.received.take s'.published).drop first).flatten
  credits : s'.descCredits + (s'.started - s'.published) = xdmaRingNumBlocks - 1

/-- What a read leaves that fails after `n` copies: a consistent ring, from which the next read with
room for them returns the block whose copy failed and all that are completed behind it, whatever the
hardware and the DPC do before. -/
structure LosesNothing (n : Nat) (c c' : RingConfig) : Prop where
  consistent : AsBefore c.state c'.state ∨ Advanced n c.state c'.state
  delivered : ∀ (c'' : RingConfig) (length : Nat), Meanwhile c' c'' →
    c''.state.completedDescCount &&& xdmaWbErrMask = 0 →
    ((c''.state.received.drop (c.state.released + n)).flatten).length ≤ length →
    ∃ s, c''.state.read copyAlways length = some s ∧
      Delivered (c.state.released + n) c''.state s

variable {copy : Nat → NtStatus} {length tail bound n p : Nat} {s s' s'' t : RingWorld}
  {c c' c'' : RingConfig} {poll : Bool} {o : RingOp}

/-! ## A read that is run alone -/

abbrev ReadRuns {α : Type} (copy : Nat → NtStatus) (p : RingProg α) (Q : α → RingWorld → Prop)
    (s : RingWorld) : Prop :=
  Prog.Runs RingWorld.act (RingWorld.answer copy) False p Q s

theorem act_answer_isSome (copy : Nat → NtStatus) (o : RingOp) (s : RingWorld) :
    (RingWorld.act o s (RingWorld.answer copy o s)).isSome = true := by
  cases o with
  | indices phase => cases phase <;> simp [RingWorld.act, RingWorld.answer]
  | waitSignal => cases h : s.completionSignal <;> simp [RingWorld.act, RingWorld.answer, h]
  | copyFromBuffer | retrieveOutputMemory =>
    simp only [RingWorld.act]
    split <;> rfl
  | _ => simp [RingWorld.act, RingWorld.answer]

theorem ReadRuns.read {Q : RingWorld → Prop}
    (h : ReadRuns copy (evtIoReadEngineRing length) (fun _ => Q) s) :
    ∃ s', s.read copy length = some s' ∧ Q s' := by
  obtain ⟨⟨⟨⟩, s'⟩, hs'⟩ :=
    Option.isSome_iff_exists.mp
      (Prog.exec_isSome (act_answer_isSome copy) (evtIoReadEngineRing length) s)
  refine ⟨s', ?_, h.of_some hs'⟩
  rw [RingWorld.read, hs']
  rfl

/-- The copies that the read asks for succeed. -/
def RingOp.Succeeds (copy : Nat → NtStatus) (o : RingOp) : Prop :=
  ∀ s, copiesSucceed s (.call .reader o (RingWorld.answer copy o s))

theorem copyAlways_success (i : Nat) : ntSuccess (copyAlways i) = true := by
  unfold copyAlways
  decide

theorem RingOp.succeeds_always (o : RingOp) : o.Succeeds copyAlways := by
  intro s
  cases o with
  | copyFromBuffer => exact copyAlways_success s.delivered
  | _ => exact rfl

/-- What is known of the routine in every interleaving holds when it is run alone. -/
theorem RingSafe.runs {α : Type} {p : RingProg α} {Q : α → RingWorld → Prop}
    (copy : Nat → NtStatus) (h : RingSafe .reader p Q s) (hp : p.All (RingOp.Succeeds copy))
    (hi : RingInv s) :
    ReadRuns copy p (fun a s' => RingInv s' ∧ Q a s' ∧
      ∀ u, u ≠ .reader → ReflTransGen (Other RingInv RingRely u) s s') s := by
  obtain ⟨⟨a, s'⟩, he⟩ :=
    Option.isSome_iff_exists.mp (Prog.exec_isSome (act_answer_isSome copy) p s)
  exact .of_eq_some he (h.exec hp hi (fun o s ho => ho s) he)

theorem RingOp.Scans.succeeds (ho : o.Scans) : o.Succeeds copy := by
  intro s
  cases o with
  | copyFromBuffer => exact ho.elim
  | _ => exact rfl

/-- What a scan and the wait leave alone. -/
structure Waited (s s' : RingWorld) : Prop where
  poll : s'.poll = s.poll
  head : s'.head = s.head
  length : s'.length = s.length
  descCredits : s'.descCredits = s.descCredits
  released : s'.released = s.released
  copied : s'.copied = s.copied
  returned : s'.returned = s.returned
  received : s'.received = s.received
  signal : s.completionSignal = true → s'.completionSignal = true

theorem Waited.refl (s : RingWorld) : Waited s s :=
  ⟨rfl, rfl, rfl, rfl, rfl, rfl, rfl, rfl, id⟩

theorem Waited.trans (h : Waited s s') (h' : Waited s' s'') : Waited s s'' :=
  ⟨h'.poll.trans h.poll, h'.head.trans h.head, h'.length.trans h.length,
    h'.descCredits.trans h.descCredits, h'.released.trans h.released, h'.copied.trans h.copied,
    h'.returned.trans h.returned, h'.received.trans h.received, h'.signal ∘ h.signal⟩

theorem RingOp.Scans.waited {r : o.Res} (ho : o.Scans) (h : RingWorld.act o s r = some s') :
    Waited s s' := by
  have same : ∀ {p : Prop} [Decidable p], (if p then some s else none) = some s' →
      Waited s s' := by
    intro p _ h
    split at h
    · cases h
      exact .refl s
    · cases h
  cases o with
  | poll | status | waitSignal | completedDescCount => exact same h
  | indices phase =>
    cases phase with
    | scan =>
      simp only [RingWorld.act] at h
      split at h
      · cases h
        exact ⟨rfl, rfl, rfl, rfl, rfl, rfl, rfl, rfl, id⟩
      · cases h
    | copy => exact ho.elim
  | setSignal =>
    cases h
    exact ⟨rfl, rfl, rfl, rfl, rfl, rfl, rfl, rfl, fun _ => rfl⟩
  | engineStatus | clearStatus | storeTail | clearWriteback =>
    cases h
    exact ⟨rfl, rfl, rfl, rfl, rfl, rfl, rfl, rfl, id⟩
  | length | clearLength | copyFromBuffer | storeHead | retrieveOutputMemory | complete
  | clearSignal => exact ho.elim

theorem waited_runs {α : Type} {p : RingProg α} (hp : p.All RingOp.Scans) :
    ReadRuns copy p (fun _ => Waited s) s := by
  refine Prog.Runs.all hp (.refl s) ?_ ?_
  · intro o s' _ _ hnone
    have hsome := act_answer_isSome copy o s'
    rw [hnone] at hsome
    cases hsome
  · exact fun o s₁ s₂ ho h hact => h.trans (ho.waited hact)

/-! ## The copy loop -/

/-- What the copy of a block leaves alone. -/
structure Served (copy : Nat → NtStatus) (s s' : RingWorld) : Prop where
  head : s'.head = s.head
  descCredits : s'.descCredits = s.descCredits
  released : s'.released = s.released
  published : s'.published = s.published
  returned : s'.returned = s.returned
  received : s'.received = s.received
  copied_le : s.copied ≤ s'.copied
  success : ∀ i, s.copied ≤ i → i < s'.copied → ntSuccess (copy i) = true
  unchanged : s'.copied = s.copied → s' = s

theorem Served.refl (s : RingWorld) : Served copy s s :=
  ⟨rfl, rfl, rfl, rfl, rfl, rfl, le_rfl, fun _ h h' => absurd h (Nat.not_le_of_lt h'), fun _ => rfl⟩

theorem Served.trans (h : Served copy s s') (h' : Served copy s' s'') : Served copy s s'' where
  head := h'.head.trans h.head
  descCredits := h'.descCredits.trans h.descCredits
  released := h'.released.trans h.released
  published := h'.published.trans h.published
  returned := h'.returned.trans h.returned
  received := h'.received.trans h.received
  copied_le := h.copied_le.trans h'.copied_le
  success := fun i hi hi' =>
    (Nat.lt_or_ge i s'.copied).elim (h.success i hi) fun hge => h'.success i hge hi'
  unchanged := fun heq => by
    have hle := h.copied_le
    have hle' := h'.copied_le
    have hs' : s' = s := h.unchanged (by omega)
    subst hs'
    exact h'.unchanged heq

/-- A block is copied and its length cleared. -/
def RingWorld.afterBlock (s : RingWorld) (offset k n : Nat) : RingWorld :=
  { s with
    outputMem := s.outputMem.take offset ++ (s.block k).take n ++ s.outputMem.drop (offset + n)
    delivered := s.delivered + 1
    uncopied := Function.update s.uncopied k 0
    cut := s.cut || decide (n < (s.length k).toNat)
    cutFollowed := s.cutFollowed || s.cut
    length := Function.update s.length k 0
    copied := s.copied + 1 }

theorem exec_copyBlock {c : RingCopy} (hok : ntSuccess (copy s.delivered) = true) :
    Prog.exec RingWorld.act (RingWorld.answer copy) (copyBlock c n) s =
      some (.ok {
        status := copy s.delivered
        head := engineRingAdvance c.head
        numDescProcessed := c.numDescProcessed + 1
        offset := c.offset + n
        numBytesRemaining := c.numBytesRemaining - n }, s.afterBlock c.offset c.head n) := by
  have hanswer : RingWorld.answer copy (.copyFromBuffer c.offset c.head n) s = copy s.delivered :=
    rfl
  rw [copyBlock]
  simp only [RingOp.perform]
  rw [Prog.exec_perform_bind hanswer (if_pos hok), if_pos hok, Prog.exec_perform_bind rfl rfl]
  rfl

theorem exec_copyBlock_error {c : RingCopy} (hfail : ntSuccess (copy s.delivered) = false) :
    Prog.exec RingWorld.act (RingWorld.answer copy) (copyBlock c n) s =
      some (.error (copy s.delivered), s) := by
  have hanswer : RingWorld.answer copy (.copyFromBuffer c.offset c.head n) s = copy s.delivered :=
    rfl
  have hne : ¬ ntSuccess (copy s.delivered) = true := by simp [hfail]
  rw [copyBlock]
  simp only [RingOp.perform]
  rw [Prog.exec_perform_bind hanswer (if_neg hne), if_neg hne]
  rfl

/-- A copy that succeeds, and the clearing of the length behind it. -/
theorem copyBlock_runs {c : RingCopy} (hi : RingInv s) (h : Copying length tail c s)
    (hblock : BlockReady tail c n s) (hok : ntSuccess (copy s.copied) = true) :
    ReadRuns copy (copyBlock c n) (fun r s' => ∃ c', r = .ok c' ∧ RingInv s' ∧
      Copying length tail c' s' ∧ Served copy s s' ∧ s'.copied = s.copied + 1 ∧
      s'.outputMem = s.outputMem ++ (s.block (s.copied % xdmaRingNumBlocks)).take n ∧
      c'.numBytesRemaining = c.numBytesRemaining - n) s := by
  rw [← h.delivered] at hok
  -- what is known of every interleaving, for a read all of whose copies have this status
  have hsafe := RingSafe.runs (fun _ => copy s.delivered) (copyBlock_safe ⟨h, hblock⟩)
    (Prog.All.bind (Prog.All.perform fun _ => hok) fun status => by
      split
      · exact Prog.All.bind (Prog.All.perform fun _ => rfl) fun _ => trivial
      · exact trivial) hi
  obtain ⟨hi', hcopying, -⟩ := hsafe.of_some (exec_copyBlock hok)
  refine .of_eq_some (exec_copyBlock hok) ⟨_, rfl, hi', hcopying, ?_, rfl, ?_, rfl⟩
  · refine ⟨rfl, rfl, rfl, rfl, rfl, rfl, Nat.le_succ _, ?_, fun heq => ?_⟩
    · intro i hle hlt
      obtain rfl : i = s.copied := Nat.le_antisymm (Nat.lt_succ_iff.mp hlt) hle
      rwa [h.delivered] at hok
    · exact absurd heq (Nat.succ_ne_self s.copied)
  · simp only [RingWorld.afterBlock, h.offset, ← h.head_eq]
    rw [List.take_length, List.drop_of_length_le (Nat.le_add_right ..), List.append_nil]

/-- What the loop leaves when a copy fails. -/
structure CopyFailed (copy : Nat → NtStatus) (s s' : RingWorld) : Prop where
  inv : RingInv s'
  served : Served copy s s'
  failed : ntSuccess (copy s'.copied) = false
  left : s'.copied < s'.published

theorem copyBlocks_failed {c : RingCopy} (hi : RingInv s) (h : Copying length tail c s) :
    ReadRuns copy (copyBlocks tail bound c)
      (fun r s' => ∀ status, r = .error status → CopyFailed copy s s') s := by
  induction bound generalizing c s with
  | zero => exact .ret fun status heq => by cases heq
  | succ bound ih =>
    unfold copyBlocks
    split
    · next hgo =>
      refine Prog.Runs.bind (Q := fun r s' => s = s' ∧ r = s.length c.head)
        (.performs (if_pos rfl) ⟨rfl, rfl⟩) ?_
      rintro len _ ⟨rfl, rfl⟩
      split
      · exact Prog.Runs.bind (Q := fun _ _ => True) (.performs rfl trivial)
          fun _ _ _ => .ret fun status heq => by cases heq
      · have hblock := h.blockReady hi hgo.1 (Nat.min_le_left _ c.numBytesRemaining)
          (Nat.min_le_right ..)
        cases hok : ntSuccess (copy s.copied) with
        | true =>
          refine (copyBlock_runs hi h hblock hok).bind ?_
          rintro _ s₁ ⟨c', rfl, hi₁, hcopying, hserved, -⟩
          refine (ih hi₁ hcopying).post fun r s₂ hfailed status heq => ?_
          have hfailed := hfailed status heq
          exact ⟨hfailed.inv, hserved.trans hfailed.served, hfailed.failed, hfailed.left⟩
        | false =>
          obtain ⟨p, -, hcp, hpp⟩ := hblock.tail_eq
          rw [← h.delivered] at hok
          refine Prog.Runs.bind (.of_eq_some (exec_copyBlock_error hok)
            (Q := fun r s' => s = s' ∧ ∃ status, r = .error status) ⟨rfl, _, rfl⟩) ?_
          rintro _ _ ⟨rfl, status, rfl⟩
          rw [h.delivered] at hok
          exact .ret fun status _ => ⟨hi, .refl s, hok, hcp.trans_le hpp⟩
    · exact .ret fun status heq => by cases heq

/-! ## The wait -/

/-- What a read finds behind its wait. -/
structure Awaited (s s' : RingWorld) : Prop where
  inv : RingInv s'
  idle : RingIdle .reader s'
  waited : Waited s s'
  others : ∀ u, u ≠ .reader → ReflTransGen (Other RingInv RingRely u) s s'

theorem awaitBlocks_runs (hi : RingInv s) (h : RingIdle .reader s) :
    ReadRuns copy awaitBlocks (fun r s' => Awaited s s' ∧
      ∀ status, r = .ok status → s'.poll = false → s'.completionSignal = true) s := by
  obtain ⟨⟨r, s'⟩, he⟩ :=
    Option.isSome_iff_exists.mp (Prog.exec_isSome (act_answer_isSome copy) awaitBlocks s)
  obtain ⟨hi', hidle, hothers⟩ := (RingSafe.runs copy (awaitBlocks_safe h)
    (awaitBlocks_scans.mono fun _ => RingOp.Scans.succeeds) hi).of_some he
  have hwaited := (waited_runs awaitBlocks_scans).of_some he
  refine .of_eq_some he ⟨⟨hi', hidle, hwaited, hothers⟩, ?_⟩
  rintro status rfl hpoll
  rw [hwaited.poll] at hpoll
  apply hwaited.signal
  have hanswer : RingWorld.answer copy .poll s = false := hpoll
  rw [awaitBlocks] at he
  simp only [RingOp.perform] at he
  rw [Prog.exec_perform_bind hanswer (if_pos hpoll.symm)] at he
  cases hsignal : s.completionSignal with
  | true => rfl
  | false =>
    have htimeout : RingWorld.answer copy .waitSignal s = statusTimeout := by
      simp [RingWorld.answer, hsignal]
    have hact : RingWorld.act .waitSignal s statusTimeout = some s := by
      simp [RingWorld.act]
    simp only [Bool.false_eq_true, if_false] at he
    rw [Prog.exec_perform_bind htimeout hact] at he
    cases he

theorem keeps_poll {α : Type} {p : RingProg α} (hp : p.All RingOp.Scans) (hpoll : s.poll = true) :
    ReadRuns copy p (fun _ s' => s'.poll = true) s :=
  (waited_runs hp).post fun _ _ h => h.poll.trans hpoll

theorem engineProcessRing_runs (hpoll : s.poll = true) :
    ReadRuns copy engineProcessRing
      (fun _ s' => s'.poll = true ∧ s'.completedDescCount = 0) s := by
  refine (keeps_poll (p := RingOp.engineStatus.perform) (.perform trivial) hpoll).bind
    fun _ s hpoll => ?_
  refine (keeps_poll (p := (RingOp.indices .scan).perform) (.perform trivial) hpoll).bind
    fun indices s hpoll => ?_
  refine (keeps_poll scanResults_scans hpoll).bind fun scan s hpoll => ?_
  refine (keeps_poll (p := (RingOp.storeTail scan.1).perform) (.perform trivial) hpoll).bind
    fun _ s hpoll => ?_
  refine (keeps_poll (Prog.All.when (Prog.All.perform trivial)) hpoll).bind fun _ s hpoll => ?_
  refine Prog.Runs.bind (Q := fun r s => r = true ∧ s.poll = true)
    (.performs (if_pos rfl) ⟨hpoll, hpoll⟩) ?_
  rintro _ s ⟨rfl, hpoll⟩
  exact Prog.Runs.bind (Q := fun _ s => s.poll = true ∧ s.completedDescCount = 0)
    (.when (fun _ => .performs rfl ⟨hpoll, rfl⟩) fun h => absurd rfl h) fun _ s h => .ret h

/-- Without an error in the count the polling ends well, also when it has found no block. -/
theorem enginePollRing_runs {tries : Nat} (hpoll : s.poll = true)
    (hcount : s.completedDescCount &&& xdmaWbErrMask = 0) :
    ReadRuns copy (enginePollRing tries) (fun status _ => ntSuccess status = true) s := by
  induction tries generalizing s with
  | zero => exact .ret rfl
  | succ tries ih =>
    refine Prog.Runs.bind (Q := fun r s' => s = s' ∧ r = s.completedDescCount)
      (.performs (if_pos rfl) ⟨rfl, rfl⟩) ?_
    rintro _ _ ⟨rfl, rfl⟩
    rw [if_neg (fun h => h hcount)]
    refine Prog.Runs.bind
      (Q := fun _ s' => s'.poll = true ∧ s'.completedDescCount &&& xdmaWbErrMask = 0) ?_ ?_
    · split
      · exact (engineProcessRing_runs hpoll).post fun _ s' h => ⟨h.1, by simp [h.2]⟩
      · exact .ret ⟨hpoll, hcount⟩
    · rintro eopCount s' ⟨hpoll, hcount⟩
      split
      · exact ih hpoll hcount
      · exact .ret rfl

theorem awaitBlocks_ok (hsignal : s.poll = false → s.completionSignal = true)
    (hcount : s.completedDescCount &&& xdmaWbErrMask = 0) :
    ReadRuns copy awaitBlocks (fun r _ => ∃ status, r = .ok status) s := by
  refine Prog.Runs.bind (Q := fun r s' => s = s' ∧ r = s.poll)
    (.performs (if_pos rfl) ⟨rfl, rfl⟩) ?_
  rintro _ _ ⟨rfl, rfl⟩
  cases hpoll : s.poll with
  | true =>
    refine (enginePollRing_runs hpoll hcount).bind fun status s' hsuccess => ?_
    rw [if_pos hsuccess]
    exact .ret ⟨status, rfl⟩
  | false =>
    have hanswer : RingWorld.answer copy .waitSignal s = statusSuccess := if_pos (hsignal hpoll)
    have hact : RingWorld.act .waitSignal s (RingWorld.answer copy .waitSignal s) = some s := by
      rw [hanswer]
      exact if_pos (.inr ⟨rfl, hsignal hpoll⟩)
    refine Prog.Runs.bind (Q := fun r _ => r = statusSuccess) (.performs hact hanswer) ?_
    rintro _ s' rfl
    exact .ret ⟨_, rfl⟩

/-! ## A read that fails -/

/-- The request is completed with `numBytes` bytes. -/
def RingWorld.complete (s : RingWorld) (numBytes : Nat) : RingWorld :=
  { s with
    returned := s.returned ++ s.outputMem.take numBytes
    overstated := s.overstated || decide (s.outputMem.length < numBytes)
    outputMem := [] }

/-- The calls before and behind the copying. -/
theorem ReadRuns.evtIoRead {Q : NtStatus × Nat → RingWorld → Prop} {Q' : RingWorld → Prop}
    (hruns : ReadRuns copy (engineRingCopyBytesToMemory length) Q s) (h : RingIdle .reader s)
    (hQ : ∀ r s', Q r s' → Q' (s'.complete r.2)) :
    ReadRuns copy (evtIoReadEngineRing length) (fun _ => Q') s := by
  have hsuccess : ntSuccess statusSuccess = true := by decide
  have hretrieve : RingWorld.act .retrieveOutputMemory s statusSuccess = some s := by
    rw [RingWorld.act, if_pos hsuccess, ← (h.copy rfl).2]
  refine Prog.Runs.bind (Q := fun r s' => ntSuccess r = true ∧ s = s')
    (.performs hretrieve ⟨hsuccess, rfl⟩) ?_
  rintro _ _ ⟨hsuccess, rfl⟩
  rw [if_pos hsuccess]
  exact hruns.bind fun r s' h => Prog.Runs.performs rfl (hQ r s' h)

/-- The copy loop begins. -/
theorem beginCopy_runs (length : Nat) (status : NtStatus) (hi : RingInv s)
    (h : RingIdle .reader s) :
    ReadRuns copy (RingOp.indices .copy).perform (fun r s' => r = (s.head, s.tail) ∧
      { s with copying := true } = s' ∧ RingInv s' ∧
      Copying length r.2 ⟨status, r.1, 0, 0, length⟩ s') s := by
  have hsafe := RingSafe.runs copy (beginCopy_safe length status h)
    (Prog.All.perform fun _ => rfl) hi
  have he : Prog.exec RingWorld.act (RingWorld.answer copy) (RingOp.indices .copy).perform s =
      some ((s.head, s.tail), { s with copying := true }) := by
    simp [RingOp.perform, Prog.perform, RingWorld.act, RingWorld.answer]
  obtain ⟨hi', hcopying, -⟩ := hsafe.of_some he
  exact .of_eq_some he ⟨rfl, rfl, hi', hcopying⟩

/-- A read from `s` to `t` has waited up to `s₁` and left its copy loop in `s₂`. -/
structure LeftLoop (copy : Nat → NtStatus) (s s₁ s₂ : RingWorld) : Prop where
  awaited : Awaited s s₁
  signal : s₁.poll = false → s₁.completionSignal = true
  failed : CopyFailed copy { s₁ with copying := true } s₂

theorem copyBytes_left (hi : RingInv s) (h : RingIdle .reader s) :
    ReadRuns copy (engineRingCopyBytesToMemory length)
      (fun r s' => s'.copying = true → r.2 = 0 ∧ ∃ s₁, LeftLoop copy s s₁ s') s := by
  refine (awaitBlocks_runs hi h).bind fun r s₁ ⟨hawaited, hsignal⟩ => ?_
  cases r with
  | error status =>
    refine .ret fun hcopying => ?_
    rw [(hawaited.idle.copy rfl).1] at hcopying
    cases hcopying
  | ok status =>
    refine (beginCopy_runs length status hawaited.inv hawaited.idle).bind ?_
    rintro _ _ ⟨rfl, rfl, hi₁, hbegin⟩
    refine (copyBlocks_failed hi₁ hbegin).bind fun r s₂ hfailed => ?_
    cases r with
    | error failure =>
      exact .ret fun _ => ⟨rfl, s₁, hawaited, hsignal status rfl, hfailed failure rfl⟩
    | ok c =>
      refine Prog.Runs.bind (Q := fun _ _ => True) (.performs (if_pos rfl) trivial)
        fun rest _ _ => ?_
      refine Prog.Runs.bind (Q := fun _ _ => True) ?_ fun _ _ _ => ?_
      · exact .when (fun _ => .performs rfl trivial) fun _ => trivial
      · refine Prog.Runs.bind (Q := fun _ s' => s'.copying = false) (.performs rfl rfl)
          fun _ s' hdone => .ret fun hcopying => ?_
        rw [hdone] at hcopying
        cases hcopying

theorem read_left (copy : Nat → NtStatus) (length : Nat) (hi : RingInv s) (h : RingIdle .reader s) :
    ReadRuns copy (evtIoReadEngineRing length) (fun _ t => t.copying = true →
      ∃ s₁ s₂, LeftLoop copy s s₁ s₂ ∧ t = { s₂ with outputMem := [] }) s := by
  refine (copyBytes_left hi h).evtIoRead h ?_
  intro r s₂ hleft hcopying
  obtain ⟨hzero, s₁, hleft⟩ := hleft hcopying
  refine ⟨s₁, s₂, hleft, ?_⟩
  simp [RingWorld.complete, hzero]

/-! ## Configurations that are reached -/

/-- Every thread goes on as it should, and the DPC only scans. -/
structure RingSound (c : RingConfig) : Prop where
  inv : RingInv c.state
  safe : ∀ t, RingSafe t (c.thread t) (fun _ => RingIdle t) c.state
  scans : (c.thread .dpc).All RingOp.Scans

theorem RingSound.idle (h : RingSound c) (hidle : c.thread .reader = .ret ()) :
    RingIdle .reader c.state := by
  have hsafe := h.safe .reader
  rw [hidle] at hsafe
  exact hsafe.idle

theorem dpc_scans {ok : RingWorld → RingLabel → Prop} (h : (c.thread .dpc).All RingOp.Scans)
    (hr : ringThreads.Reach ok c c') : (c'.thread .dpc).All RingOp.Scans := by
  refine Reach.thread_all h (fun a s s' p hstart => ?_) hr
  cases a with
  | processRing =>
    simp only [ringThreads] at hstart
    split at hstart
    · cases hstart
    · cases hstart
      exact Prog.All.bind engineProcessRing_scans fun _ => trivial
  | read length => cases hstart

theorem RingSound.reach (h : RingSound c) (hr : ringThreads.Reach copiesSucceed c c') :
    RingSound c' :=
  have hsafe := ringSafe_of_reach h.inv h.safe hr
  ⟨hsafe.1, hsafe.2, dpc_scans h.scans hr⟩

/-- The state of a read whose first copy fails is the one behind its wait. -/
theorem LeftLoop.unchanged {s₁ s₂ : RingWorld} (h : LeftLoop copy s s₁ s₂)
    (hzero : s₂.copied = s₁.copied) :
    { ({ s₂ with outputMem := [] } : RingWorld) with copying := false } = s₁ := by
  obtain ⟨hcopying, hmem⟩ := h.awaited.idle.copy rfl
  rw [h.failed.served.unchanged hzero, ← hmem, ← hcopying]

/-- The copies that a failed read has made. -/
theorem LeftLoop.copied_eq {s₁ s₂ : RingWorld} (h : LeftLoop copy s s₁ s₂)
    (hcopied : ∀ i < n, ntSuccess (copy (s.copied + i)) = true)
    (hfailed : ntSuccess (copy (s.copied + n)) = false) : s₂.copied = s.copied + n := by
  have hwaited : s₁.copied = s.copied := h.awaited.waited.copied
  have hle : s₁.copied ≤ s₂.copied := h.failed.served.copied_le
  rcases Nat.lt_trichotomy s₂.copied (s.copied + n) with hlt | heq | hgt
  · have hsuccess := hcopied (s₂.copied - s.copied) (by omega)
    rw [Nat.add_sub_cancel' (by omega), h.failed.failed] at hsuccess
    cases hsuccess
  · exact heq
  · have hsuccess : ntSuccess (copy (s.copied + n)) = true :=
      h.failed.served.success _ (by simp only; omega) hgt
    rw [hfailed] at hsuccess
    cases hsuccess

theorem FailedRead.leftLoop (h : FailedRead copy n length c c') (hs : RingSound c) :
    ∃ s₁ s₂, LeftLoop copy c.state s₁ s₂ ∧ s₂.copied = c.state.copied + n ∧
      c' = ⟨{ s₂ with outputMem := [], copying := false }, c.thread⟩ := by
  have hidle := hs.idle h.idle
  obtain ⟨t, hread, hcopying, rfl⟩ := h.left
  obtain ⟨t', hread', hends⟩ := (read_left copy length hs.inv hidle).read
  rw [hread] at hread'
  cases hread'
  obtain ⟨s₁, s₂, hleft, rfl⟩ := hends hcopying
  have hdelivered := (hs.inv.copy_done (hidle.copy rfl).1).2
  refine ⟨s₁, s₂, hleft, hleft.copied_eq ?_ ?_, rfl⟩
  · rw [← hdelivered]
    exact h.copied
  · rw [← hdelivered]
    exact h.failed

/-- A read that fails at its first copy leaves a state that other reads can be in behind their
wait. -/
theorem RingSound.failed (hs : RingSound c) (h : FailedRead copy 0 length c c') :
    RingSound c' ∧ Awaited c.state c'.state ∧
      (c'.state.poll = false → c'.state.completionSignal = true) := by
  obtain ⟨s₁, s₂, hleft, hcopied, rfl⟩ := h.leftLoop hs
  have hsame := hleft.unchanged (hcopied.trans hleft.awaited.waited.copied.symm)
  simp only at hsame
  rw [hsame]
  refine ⟨⟨hleft.awaited.inv, fun t => ?_, hs.scans⟩, hleft.awaited, hleft.signal⟩
  cases t with
  | dpc => exact (hs.safe .dpc).later (hleft.awaited.others .dpc (by decide))
  | reader =>
    simp only [h.idle]
    exact Safe.ret RingIdle.stable hleft.awaited.idle

theorem ringSound_of_reached {head tail : Nat} {block : Nat → List UInt8}
    (h : RingReached poll head tail block c) : RingSound c := by
  induction h with
  | init => exact ⟨ringInv_setup, ringSafe_setup, trivial⟩
  | steps _ hr ih => exact ih.reach hr
  | failed _ hf ih => exact (ih.failed hf).1

/-! ## A read that succeeds -/

/-- The bytes of the blocks from the `first`-th one on, up to the `p`-th one. -/
abbrev blockBytes (s : RingWorld) (first p : Nat) : List UInt8 :=
  ((s.received.take p).drop first).flatten

@[simp] theorem blockBytes_self (s : RingWorld) (p : Nat) : blockBytes s p p = [] := by
  rw [blockBytes, List.drop_of_length_le (List.length_take_le ..), List.flatten_nil]

theorem blockBytes_succ {bytes : List UInt8} {first : Nat} (hlt : first < p)
    (hbytes : s.received[first]? = some bytes) :
    blockBytes s first p = bytes ++ blockBytes s (first + 1) p := by
  obtain ⟨hin, rfl⟩ := List.getElem?_eq_some_iff.mp hbytes
  have hin' : first < (s.received.take p).length := by
    rw [List.length_take]
    omega
  rw [blockBytes, List.drop_eq_getElem_cons hin', List.flatten_cons, List.getElem_take]

theorem blockBytes_length_le (s : RingWorld) (first p : Nat) :
    (blockBytes s first p).length ≤ (s.received.drop first).flatten.length := by
  rw [blockBytes, List.drop_take]
  exact (List.take_sublist ..).flatten.length_le

/-- Every block has a byte. -/
theorem RingInv.blocks_le (hi : RingInv s) {first : Nat} (hp : p ≤ s.completed) :
    p - first ≤ (blockBytes s first p).length := by
  have hlength : ((s.received.take p).drop first).length = p - first := by
    have := hi.received_length
    rw [List.length_drop, List.length_take]
    omega
  rw [blockBytes, List.length_flatten, ← hlength, ← List.length_map List.length]
  refine List.length_le_sum_of_one_le _ fun k hk => ?_
  obtain ⟨bytes, hmem, rfl⟩ := List.mem_map.mp hk
  exact (hi.received_size bytes (List.mem_of_mem_take (List.mem_of_mem_drop hmem))).1

/-- The loop copies all the blocks up to the tail if there is room for them. -/
theorem copyBlocks_delivers {c : RingCopy} (hi : RingInv s) (h : Copying length tail c s)
    (hcopy : ∀ i, ntSuccess (copy i) = true) (hp : tail = p % xdmaRingNumBlocks)
    (hcp : s.copied ≤ p) (hpp : p ≤ s.published)
    (hroom : (blockBytes s s.copied p).length ≤ c.numBytesRemaining)
    (hbound : p - s.copied ≤ bound) :
    ReadRuns copy (copyBlocks tail bound c) (fun r s' => ∃ c', r = .ok c' ∧
      Copying length tail c' s' ∧ Served copy s s' ∧ s'.copied = p ∧
      s'.outputMem = s.outputMem ++ blockBytes s s.copied p) s := by
  induction bound generalizing c s with
  | zero =>
    obtain rfl : s.copied = p := by omega
    refine .ret ⟨c, rfl, h, .refl s, rfl, ?_⟩
    rw [blockBytes_self, List.append_nil]
  | succ bound ih =>
    unfold copyBlocks
    have hcompleted : p ≤ s.completed := hpp.trans (hi.published_le.trans hi.scanned_le)
    rcases Nat.eq_or_lt_of_le hcp with rfl | hlt
    · rw [if_neg (fun hgo => hgo.1 (h.head_eq.symm.trans hp.symm))]
      refine .ret ⟨c, rfl, h, .refl s, rfl, ?_⟩
      rw [blockBytes_self, List.append_nil]
    · have hin : s.copied < s.received.length := by
        rw [hi.received_length]
        omega
      have hbytes := List.getElem?_eq_getElem hin
      have hsize := (hi.received_size _ (List.mem_of_getElem? hbytes)).1
      have hlength := hi.length_copied hbytes
      rw [blockBytes_succ hlt hbytes, List.length_append] at hroom
      have hne : c.head ≠ tail := by
        rw [← h.head_eq, hp]
        exact fun heq => Nat.ne_of_lt hlt (eq_of_mod_eq heq hcp
          (hcompleted.trans_lt hi.completed_lt_copied))
      rw [if_pos ⟨hne, by omega⟩]
      refine Prog.Runs.bind (Q := fun r s' => s = s' ∧ r = s.length c.head)
        (.performs (if_pos rfl) ⟨rfl, rfl⟩) ?_
      rintro _ _ ⟨rfl, rfl⟩
      rw [← h.head_eq, hlength, if_neg (by omega), Nat.min_eq_left (by omega)]
      have hblock : BlockReady tail c s.received[s.copied].length s :=
        ⟨by omega, ⟨p, hp, hlt, hpp⟩, _, hbytes, le_rfl⟩
      refine (copyBlock_runs hi h hblock (hcopy _)).bind ?_
      rintro _ s₁ ⟨c', rfl, hi₁, hcopying, hserved, hcopied, hmem, hremaining⟩
      have hrest : blockBytes s₁ s₁.copied p = blockBytes s (s.copied + 1) p := by
        rw [blockBytes, hserved.received, hcopied]
      refine (ih hi₁ hcopying ?_ ?_ ?_ ?_).post ?_
      · rw [hcopied]
        exact hlt
      · rw [hserved.published]
        exact hpp
      · rw [hrest, hremaining]
        omega
      · rw [hcopied]
        omega
      · rintro r s₂ ⟨c'', rfl, hcopying', hserved', hend, hmem'⟩
        refine ⟨c'', rfl, hcopying', hserved.trans hserved', hend, ?_⟩
        rw [hmem', hmem, hrest, hi.block_copied hbytes, List.take_length, List.append_assoc,
          blockBytes_succ hlt hbytes]

/-- The blocks from the `first`-th one to the tail are in the memory of the request. -/
structure CopiedOut (first : Nat) (s s' : RingWorld) : Prop where
  copied : s'.copied = s'.published
  returned : s'.returned = s.returned
  outputMem : s'.outputMem = blockBytes s' first s'.published

theorem copyBytes_delivers (hi : RingInv s) (h : RingIdle .reader s)
    (hcopy : ∀ i, ntSuccess (copy i) = true)
    (hsignal : s.poll = false → s.completionSignal = true)
    (hcount : s.completedDescCount &&& xdmaWbErrMask = 0)
    (hroom : (s.received.drop s.copied).flatten.length ≤ length) :
    ReadRuns copy (engineRingCopyBytesToMemory length) (fun r s' => CopiedOut s.copied s s' ∧
      s'.released = s'.published ∧ r.2 = s'.outputMem.length) s := by
  obtain ⟨⟨r, s₁⟩, he⟩ :=
    Option.isSome_iff_exists.mp (Prog.exec_isSome (act_answer_isSome copy) awaitBlocks s)
  obtain ⟨hawaited, -⟩ := (awaitBlocks_runs hi h).of_some he
  obtain ⟨status, rfl⟩ := (awaitBlocks_ok hsignal hcount).of_some he
  have hwaited := hawaited.waited
  refine Prog.Runs.bind (.of_eq_some he (Q := fun r s' => r = .ok status ∧ s₁ = s') ⟨rfl, rfl⟩) ?_
  rintro _ _ ⟨rfl, rfl⟩
  refine (beginCopy_runs length status hawaited.inv hawaited.idle).bind ?_
  rintro _ _ ⟨rfl, rfl, hi₂, hbegin⟩
  have hle : s₁.copied ≤ s₁.published := hawaited.inv.copied_le_published
  have hbytes : (blockBytes s₁ s₁.copied s₁.published).length ≤ length := by
    refine (blockBytes_length_le ..).trans ?_
    rwa [hwaited.received, hwaited.copied]
  have hbound : s₁.published - s₁.copied ≤ length :=
    (hawaited.inv.blocks_le hawaited.inv.published_le_completed).trans hbytes
  refine Prog.Runs.bind
    (copyBlocks_delivers hi₂ hbegin hcopy hawaited.inv.tail_eq hle le_rfl hbytes hbound) ?_
  rintro _ s₂ ⟨c, rfl, hcopying, hserved, hcopied, hmem⟩
  have hout : CopiedOut s.copied s s₂ := by
    have hpublished : s₂.published = s₁.published := hserved.published
    have hreceived : s₂.received = s₁.received := hserved.received
    refine ⟨hcopied.trans hpublished.symm, hserved.returned.trans hwaited.returned, ?_⟩
    calc
      s₂.outputMem = s₁.outputMem ++ blockBytes s₁ s₁.copied s₁.published := hmem
      _ = blockBytes s₂ s.copied s₂.published := by
        rw [(hawaited.idle.copy rfl).2, List.nil_append, hwaited.copied, hpublished, blockBytes,
          blockBytes, hreceived]
  have hnumBytes : length - c.numBytesRemaining = s₂.outputMem.length := by
    have := hcopying.remaining
    have := hcopying.offset
    omega
  refine Prog.Runs.bind (Q := fun _ s' => s₂ = s') (.performs (if_pos rfl) rfl) ?_
  rintro rest _ rfl
  refine Prog.Runs.bind
    (Q := fun _ s' => CopiedOut s.copied s s' ∧ s'.outputMem.length = s₂.outputMem.length) ?_ ?_
  · exact .when (fun _ => .performs rfl ⟨⟨hout.copied, hout.returned, hout.outputMem⟩, rfl⟩)
      fun _ => ⟨hout, rfl⟩
  · rintro _ s₃ ⟨hout, hmem⟩
    refine Prog.Runs.bind (Q := fun _ s' => CopiedOut s.copied s s' ∧ s'.released = s'.published ∧
      s'.outputMem.length = s₂.outputMem.length)
      (.performs rfl ⟨⟨hout.copied, hout.returned, hout.outputMem⟩, hout.copied, hmem⟩) ?_
    rintro _ s₄ ⟨hout, hreleased, hmem⟩
    exact .ret ⟨hout, hreleased, by rw [hmem, hnumBytes]⟩

/-- A read with room for all the blocks that are completed returns those up to the tail. -/
theorem read_delivers (hi : RingInv s) (h : RingIdle .reader s)
    (hcopy : ∀ i, ntSuccess (copy i) = true)
    (hsignal : s.poll = false → s.completionSignal = true)
    (hcount : s.completedDescCount &&& xdmaWbErrMask = 0)
    (hroom : (s.received.drop s.copied).flatten.length ≤ length) :
    ReadRuns copy (evtIoReadEngineRing length) (fun _ t => t.released = t.published ∧
      t.returned = s.returned ++ blockBytes t s.copied t.published) s := by
  refine (copyBytes_delivers hi h hcopy hsignal hcount hroom).evtIoRead h ?_
  rintro r s₁ ⟨hout, hreleased, hnumBytes⟩
  refine ⟨hreleased, ?_⟩
  simp only [RingWorld.complete]
  rw [hnumBytes, List.take_length, hout.returned, hout.outputMem]

/-! ## Up to the next read -/

/-- What the hardware and the DPC leave alone. -/
structure Untouched (s s' : RingWorld) : Prop where
  poll : s'.poll = s.poll
  copied : s'.copied = s.copied
  returned : s'.returned = s.returned
  signal : s.completionSignal = true → s'.completionSignal = true

theorem untouched_env {e : RingEvent} (h : RingWorld.env e s = some s') : Untouched s s' := by
  cases e with
  | start | complete status bytes =>
    simp only [RingWorld.env] at h
    split at h
    · cases h
      exact ⟨rfl, rfl, rfl, id⟩
    · cases h
  | writeback value =>
    cases h
    exact ⟨rfl, rfl, rfl, id⟩

theorem Untouched.trans (h : Untouched s s') (h' : Untouched s' s'') : Untouched s s'' :=
  ⟨h'.poll.trans h.poll, h'.copied.trans h.copied, h'.returned.trans h.returned,
    h'.signal ∘ h.signal⟩

theorem untouched_of_meanwhile (hscans : (c.thread .dpc).All RingOp.Scans)
    (h : Meanwhile c c') :
    Untouched c.state c'.state ∧ c'.thread .reader = c.thread .reader := by
  induction h with
  | refl => exact ⟨⟨rfl, rfl, rfl, id⟩, rfl⟩
  | @step c' c'' l hr hl hs ih =>
    obtain ⟨huntouched, hthread⟩ := ih
    cases l with
    | call t op r =>
      obtain ⟨k, s', hk, ha, rfl⟩ := step_call_eq hs
      obtain rfl : t = .dpc := hl.2
      have hscans' := dpc_scans hscans hr
      rw [hk] at hscans'
      have hwaited := hscans'.1.waited ha
      exact ⟨huntouched.trans ⟨hwaited.poll, hwaited.copied, hwaited.returned, hwaited.signal⟩,
        hthread⟩
    | env e =>
      obtain ⟨s', ha, rfl⟩ := step_env_eq hs
      exact ⟨huntouched.trans (untouched_env ha), hthread⟩
    | start t a =>
      obtain ⟨s', p, hp, ha, rfl⟩ := step_start_eq hs
      obtain rfl : t = .dpc := hl.2
      cases a with
      | processRing =>
        simp only [ringThreads] at ha
        split at ha
        · cases ha
        · cases ha
          exact ⟨huntouched, hthread⟩
      | read length => cases ha

/-! ## When nothing is lost -/

theorem losesNothing_of_first (hs : RingSound c) (h : FailedRead copy 0 length c c') :
    LosesNothing 0 c c' := by
  obtain ⟨hs', hawaited, hsignal⟩ := hs.failed h
  have hwaited := hawaited.waited
  have hcopied := (hs.inv.copy_done ((hs.idle h.idle).copy rfl).1).1
  refine ⟨.inl ⟨hwaited.head, hwaited.length, hwaited.descCredits⟩, ?_⟩
  intro c'' length hmeanwhile hcount hroom
  have hs'' := hs'.reach (hmeanwhile.mono fun _ _ hl => hl.1)
  obtain ⟨huntouched, hthread⟩ := untouched_of_meanwhile hs'.scans hmeanwhile
  have hreader : c'.thread .reader = .ret () := by
    obtain ⟨s, -, -, rfl⟩ := h.left
    exact h.idle
  have hidle := hs''.idle (hthread.trans hreader)
  have hfirst : c''.state.copied = c.state.released + 0 := by
    rw [huntouched.copied, hwaited.copied, hcopied, Nat.add_zero]
  rw [← hfirst] at hroom ⊢
  have hruns := read_delivers hs''.inv hidle copyAlways_success ?_ hcount
    hroom
  · obtain ⟨s, hread, hreleased, hreturned⟩ := hruns.read
    have hsucceeds := Prog.All.of_forall RingOp.succeeds_always (evtIoReadEngineRing length)
    have hsafe := RingSafe.runs copyAlways (evtIoReadEngineRing_safe hidle) hsucceeds hs''.inv
    obtain ⟨s', hread', hi, -⟩ := hsafe.read
    rw [hread] at hread'
    cases hread'
    refine ⟨s, hread, hreturned, ?_⟩
    have hcredits := hi.credits
    have := hi.published_le_completed.trans hi.completed_le
    omega
  · intro hpoll
    rw [huntouched.poll] at hpoll
    exact huntouched.signal (hsignal hpoll)

/-- A read that fails behind a copy has cleared the length of the block at the head, and the head is
still there. -/
theorem not_losesNothing_of_later (hs : RingSound c) (h : FailedRead copy n length c c')
    (hn : 0 < n) : ¬ LosesNothing n c c' := by
  intro hnothing
  obtain ⟨s₁, s₂, hleft, hcopied, rfl⟩ := h.leftLoop hs
  have hwaited := hleft.awaited.waited
  have hi := hleft.failed.inv
  have hreleased := (hs.inv.copy_done ((hs.idle h.idle).copy rfl).1).1
  have hhead : s₂.head = c.state.head := hleft.failed.served.head.trans hwaited.head
  have hreceived : s₂.received = c.state.received :=
    hleft.failed.served.received.trans hwaited.received
  have hcompleted : s₂.completed = c.state.completed := by
    rw [← hi.received_length, ← hs.inv.received_length, hreceived]
  have hle := hi.copied_le_completed
  have hlt := hs.inv.completed_lt
  rcases hnothing.consistent with hbefore | hadvanced
  · have hused := hs.inv.length.used c.state.copied le_rfl (by omega)
    have hlength : s₂.length = c.state.length := hbefore.length
    rw [← hlength] at hused
    obtain ⟨i, hi₁, hi₂, hmod⟩ := hi.length.unused _ hused
    have := eq_of_mod_eq hmod (by omega) (by omega)
    omega
  · have heq : c.state.head = (c.state.head + n) % xdmaRingNumBlocks := hhead ▸ hadvanced.head
    have hmod : c.state.head % xdmaRingNumBlocks = (c.state.head + n) % xdmaRingNumBlocks := by
      rw [← heq, Nat.mod_eq_of_lt hs.inv.head_lt]
    have := eq_of_mod_eq hmod (Nat.le_add_right ..) (by omega)
    omega

theorem failed_copy_loses_nothing_iff {head tail : Nat} {block : Nat → List UInt8}
    (hreach : RingReached poll head tail block c) (h : FailedRead copy n length c c') :
    LosesNothing n c c' ↔ n = 0 := by
  have hs := ringSound_of_reached hreach
  constructor
  · intro hnothing
    by_contra hn
    exact not_losesNothing_of_later hs h (Nat.pos_of_ne_zero hn) hnothing
  · rintro rfl
    exact losesNothing_of_first hs h

/-- Two blocks are behind the tail. -/
def twoCompleted : RingConfig :=
  (ringThreads.run copiesSucceed (ringConfig false 0 0 fun _ => []) (twoBlocks [1, 2] [3])).get
    (by decide)

theorem twoCompleted_reached : RingReached false 0 0 (fun _ => []) twoCompleted :=
  .steps .init (Reach.refl.run (Option.some_get _).symm)

/-- The copy of the `n`-th block fails. -/
def copyFailsAt (n i : Nat) : NtStatus :=
  if i = n then statusBufferTooSmall else statusSuccess

theorem failed_copy_loses_nothing_first : ∃ c', FailedRead (copyFailsAt 0) 0 4 twoCompleted c' ∧
    LosesNothing 0 twoCompleted c' := by
  have hread : (twoCompleted.state.read (copyFailsAt 0) 4).isSome = true := by decide
  have hfailed : FailedRead (copyFailsAt 0) 0 4 twoCompleted
      ⟨{ (twoCompleted.state.read (copyFailsAt 0) 4).get hread with copying := false },
        twoCompleted.thread⟩ :=
    ⟨by decide, by decide, rfl, _, (Option.some_get hread).symm, rfl, rfl⟩
  exact ⟨_, hfailed, (failed_copy_loses_nothing_iff twoCompleted_reached hfailed).mpr rfl⟩

/-- The copy of the second block has failed. -/
def secondFailed : RingConfig :=
  ⟨{ (twoCompleted.state.read (copyFailsAt 1) 4).get (by decide) with copying := false },
    twoCompleted.thread⟩

/-- The next read returns nothing, although the second block is still there. -/
theorem failed_copy_loses_second : FailedRead (copyFailsAt 1) 1 4 twoCompleted secondFailed ∧
    ¬ LosesNothing 1 twoCompleted secondFailed ∧ secondFailed.state.received = [[1, 2], [3]] ∧
    (secondFailed.state.read copyAlways 4).map (fun s => (s.returned, s.head)) = some ([], 0) := by
  have hfailed : FailedRead (copyFailsAt 1) 1 4 twoCompleted secondFailed :=
    ⟨by decide, by decide, rfl, _, (Option.some_get _).symm, rfl, rfl⟩
  have hs := ringSound_of_reached twoCompleted_reached
  exact ⟨hfailed, not_losesNothing_of_later hs hfailed Nat.one_pos, by decide, by decide⟩

end Xadma
