import Xadma.Theory.History
import Xadma.Verify.RingRuns

/-!
# Polling for blocks

In poll mode the read routine looks at the count in the writeback buffer and scans the results only
when it is not 0; the scan ends with zeroing the buffer. Next to the ring a history counts the
completions that are in the count, and remembers how many of them there were when the current
`EnginePollRing` was entered.
-/

namespace Xadma

open Threads

structure PollHistory where
  /-- The completions for which the hardware has written the count. -/
  written : Nat
  /-- Those it had written it for when `EnginePollRing` was entered last. -/
  due : Nat
  /-- `EnginePollRing` is entered, and its caller has not gone on. -/
  polling : Bool

namespace PollHistory

/-- A read enters `EnginePollRing` behind its test of the mode. -/
def call (o : RingOp) (g : PollHistory) : PollHistory :=
  match o with
  | .poll => if g.polling then g else { g with due := g.written, polling := true }
  | .indices .copy => { g with polling := false }
  | .complete .. => { g with polling := false }
  | _ => g

def env (e : RingEvent) (g : PollHistory) : PollHistory :=
  match e with
  | .writeback _ => { g with written := g.written + 1 }
  | _ => g

end PollHistory

abbrev PollState := RingWorld × PollHistory

def ringPolling : Threads RingOp RingOp.Res PollState RingThread RingEvent RingCall :=
  ringThreads.withHistory {
    call := fun _ o _ _ g => g.call o
    env := fun e _ g => g.env e
    start := fun _ _ _ g => g }

def pollConfig (head tail : Nat) (block : Nat → List UInt8) :
    Config RingOp RingOp.Res PollState RingThread :=
  ⟨((ringConfig true head tail block).state, ⟨0, 0, false⟩), fun _ => .ret ()⟩

/-- No completion is hidden from the polls to come, and none that was there when `EnginePollRing`
was entered is beyond the tail when it has returned. -/
def NoLostCompletion (x : PollState) : Prop :=
  (x.1.scanned < x.2.written → x.1.completedDescCount ≠ 0) ∧
    (x.2.polling = false → x.2.due ≤ x.1.published)

instance (x : PollState) : Decidable (NoLostCompletion x) := inferInstanceAs (Decidable (_ ∧ _))

/-- The hardware writes the count behind each result; it is not 0 and has no error bit. -/
def countsCompletion (x : PollState) : RingLabel → Prop
  | .env (.writeback value) =>
    x.2.written < x.1.completed ∧ value ≠ 0 ∧ value &&& xdmaWbErrMask = 0
  | _ => True

instance : (x : PollState) → (l : RingLabel) → Decidable (countsCompletion x l)
  | _, .env (.writeback _) => inferInstanceAs (Decidable (_ ∧ _ ∧ _))
  | _, .env .start | _, .env (.complete ..) | _, .call .. | _, .start .. => isTrue trivial

def isClearWriteback : RingLabel → Bool
  | .call _ .clearWriteback _ => true
  | _ => false

/-- The writeback buffer is zeroed when the scan has taken all the completions that are counted. -/
def clearsScanned (x : PollState) (l : RingLabel) : Prop :=
  isClearWriteback l = true → x.2.written ≤ x.1.scanned

instance (x : PollState) (l : RingLabel) : Decidable (clearsScanned x l) :=
  inferInstanceAs (Decidable (_ → _))

structure PollInv (x : PollState) : Prop where
  mode : x.1.poll = true
  seen : x.1.scanned < x.2.written → x.1.completedDescCount ≠ 0
  written_le : x.2.written ≤ x.1.completed
  due_le : x.2.due ≤ x.2.written
  noError : x.1.completedDescCount &&& xdmaWbErrMask = 0
  returned : x.2.polling = false → x.2.due ≤ x.1.published

/-- What the read relies on: the hardware completes blocks and counts them. -/
structure PollRely (t : RingThread) (x y : PollState) : Prop where
  completed_le : x.1.completed ≤ y.1.completed
  scan : t = .reader → SameScan x.1 y.1
  due : t = .reader → y.2.due = x.2.due
  polling : t = .reader → y.2.polling = x.2.polling
  count : t = .reader → x.1.completedDescCount ≠ 0 → y.1.completedDescCount ≠ 0

def pollOk (x : PollState) (l : RingLabel) : Prop :=
  (copiesSucceed x.1 l ∧ countsCompletion x l ∧ clearsScanned x l) ∧ RingInv x.1

variable {x y : PollState} {t u : RingThread} {o : RingOp} {r : o.Res}

/-! ## The hardware -/

theorem PollInv.env {e : RingEvent} (hi : PollInv x) (hok : countsCompletion x (.env e))
    (h : ringPolling.env e x = some y) : PollInv y ∧ PollRely u x y := by
  obtain ⟨s, g⟩ := y
  obtain ⟨hs, hg⟩ := withHistory_env h
  simp only [ringThreads] at hs
  cases hg
  cases e with
  | start =>
    simp only [RingWorld.env] at hs
    split at hs
    · cases hs
      exact ⟨{ hi with }, le_rfl, fun _ => ⟨rfl, rfl, rfl⟩, fun _ => rfl, fun _ => rfl,
        fun _ h => h⟩
    · cases hs
  | complete status bytes =>
    simp only [RingWorld.env] at hs
    split at hs
    · cases hs
      exact ⟨{ hi with written_le := hi.written_le.trans (Nat.le_succ _) }, Nat.le_succ _,
        fun _ => ⟨rfl, rfl, rfl⟩, fun _ => rfl, fun _ => rfl, fun _ h => h⟩
    · cases hs
  | writeback value =>
    obtain ⟨hlt, hne, herror⟩ := hok
    cases hs
    refine ⟨⟨hi.mode, fun _ => hne, hlt, hi.due_le.trans (Nat.le_succ _), herror, hi.returned⟩,
      le_rfl, fun _ => ⟨rfl, rfl, rfl⟩, fun _ => rfl, fun _ => rfl, fun _ _ => hne⟩

/-! ## The read -/

abbrev PollSafe {α : Type} (p : RingProg α) (Q : α → PollState → Prop) (x : PollState) : Prop :=
  Safe ringPolling pollOk PollInv PollRely .reader p Q x

abbrev PollStable (P : PollState → Prop) : Prop := Stable PollInv PollRely .reader P

/-- A step of the read, as the hardware sees it. -/
theorem PollRely.of_reader (hu : u ≠ .reader) (hcompleted : y.1.completed = x.1.completed) :
    PollRely u x y :=
  ⟨hcompleted.ge, fun h => absurd h hu, fun h => absurd h hu, fun h => absurd h hu,
    fun h => absurd h hu⟩

/-- The read is between two requests. -/
structure NotPolling (x : PollState) : Prop where
  polling : x.2.polling = false
  scanning : x.1.scanning = false

theorem NotPolling.stable : PollStable NotPolling := by
  intro x y _ _ hr h
  constructor
  · rw [hr.polling rfl]
    exact h.polling
  · rw [(hr.scan rfl).scanning]
    exact h.scanning

/-- What was completed when `EnginePollRing` was entered is behind the tail. -/
structure Polled (x : PollState) : Prop where
  due_le : x.2.due ≤ x.1.published
  scanning : x.1.scanning = false

theorem Polled.stable : PollStable Polled := by
  intro x y _ _ hr h
  constructor
  · rw [hr.due rfl, (hr.scan rfl).published]
    exact h.due_le
  · rw [(hr.scan rfl).scanning]
    exact h.scanning

/-- A call that leaves the counters and the scan alone. -/
theorem PollInv.frame (hi : PollInv x) (hmode : y.1.poll = x.1.poll)
    (hscanned : y.1.scanned = x.1.scanned) (hcompleted : y.1.completed = x.1.completed)
    (hcount : y.1.completedDescCount = x.1.completedDescCount)
    (hwritten : y.2.written = x.2.written) (hdue : y.2.due = x.2.due)
    (hreturned : y.2.polling = false → y.2.due ≤ y.1.published) : PollInv y := by
  refine ⟨hmode.trans hi.mode, ?_, ?_, ?_, ?_, hreturned⟩
  · rw [hscanned, hwritten, hcount]
    exact hi.seen
  · rw [hwritten, hcompleted]
    exact hi.written_le
  · rw [hwritten, hdue]
    exact hi.due_le
  · rw [hcount]
    exact hi.noError

theorem PollInv.copies (ho : o.Copies) (hi : PollInv x) (hx : Polled x)
    (h : ringPolling.act .reader o x r = some y) :
    PollInv y ∧ (∀ u, u ≠ .reader → PollRely u x y) ∧ Polled y := by
  obtain ⟨s, g⟩ := y
  obtain ⟨hs, hg⟩ := withHistory_act h
  cases o with
  | indices phase =>
    cases phase with
    | scan => exact ho.elim
    | copy =>
      simp only [ringThreads, RingWorld.act] at hs
      split at hs
      · cases hs
        cases hg
        exact ⟨hi.frame rfl rfl rfl rfl rfl rfl fun _ => hx.due_le,
          fun u hu => .of_reader hu rfl, hx.due_le, hx.scanning⟩
      · cases hs
  | length k =>
    simp only [ringThreads, RingWorld.act] at hs
    split at hs
    · cases hs
      cases hg
      exact ⟨hi, fun u hu => .of_reader hu rfl, hx⟩
    · cases hs
  | copyFromBuffer offset k numBytes =>
    simp only [ringThreads, RingWorld.act] at hs
    cases hg
    split at hs <;> cases hs
    · exact ⟨hi.frame rfl rfl rfl rfl rfl rfl fun _ => hx.due_le,
        fun u hu => .of_reader hu rfl, hx.due_le, hx.scanning⟩
    · exact ⟨hi, fun u hu => .of_reader hu rfl, hx⟩
  | clearSignal | clearLength | storeHead =>
    cases hs
    cases hg
    exact ⟨hi.frame rfl rfl rfl rfl rfl rfl fun _ => hx.due_le,
      fun u hu => .of_reader hu rfl, hx.due_le, hx.scanning⟩
  | _ => exact ho.elim

/-- The rule for one call of the read. -/
theorem PollSafe.perform {P : PollState → Prop} {Q : o.Res → PollState → Prop}
    (hP : PollStable P) (hQ : ∀ r, PollStable (Q r)) (hx : P x)
    (hstep : ∀ x r s, PollInv x → P x → pollOk x (.call .reader o r) →
      RingWorld.act o x.1 r = some s →
      PollInv (s, x.2.call o) ∧ s.completed = x.1.completed ∧ Q r (s, x.2.call o)) :
    PollSafe o.perform Q x := by
  apply Safe.perform P hP hQ hx
  rintro x r ⟨s, g⟩ hi hx hok h
  obtain ⟨hs, hg⟩ := withHistory_act h
  cases hg
  obtain ⟨hi', hcompleted, hq⟩ := hstep x r s hi hx hok hs
  exact ⟨hi', fun u hu => .of_reader hu hcompleted, hq⟩

theorem retrieveOutputMemory_pollSafe (hx : NotPolling x) :
    PollSafe RingOp.retrieveOutputMemory.perform (fun _ => NotPolling) x := by
  apply PollSafe.perform NotPolling.stable (fun _ => NotPolling.stable) hx
  intro x r s hi hx _ hs
  simp only [RingWorld.act] at hs
  split at hs <;> cases hs
  · exact ⟨hi.frame rfl rfl rfl rfl rfl rfl hi.returned, rfl, hx.polling, hx.scanning⟩
  · exact ⟨hi, rfl, hx⟩

theorem complete_pollSafe {status : NtStatus} {n : Nat} (hx : NotPolling x ∨ Polled x) :
    PollSafe (RingOp.complete status n).perform (fun _ => NotPolling) x := by
  have hstable : PollStable fun x => NotPolling x ∨ Polled x := by
    intro x y hi hi' hr h
    exact h.imp (NotPolling.stable x y hi hi' hr) (Polled.stable x y hi hi' hr)
  apply PollSafe.perform hstable (fun _ => NotPolling.stable) hx
  intro x r s hi hx _ hs
  cases hs
  have hreturned : x.2.due ≤ x.1.published :=
    hx.elim (fun h => hi.returned h.polling) fun h => h.due_le
  exact ⟨hi.frame rfl rfl rfl rfl rfl rfl fun _ => hreturned, rfl, rfl,
    hx.elim (fun h => h.scanning) fun h => h.scanning⟩

/-! ## The scan -/

def InPoll (x : PollState) : Prop := x.2.polling = true

theorem InPoll.stable : PollStable InPoll := fun _ _ _ _ hr h => (hr.polling rfl).trans h

theorem InPoll.call (h : InPoll x) : x.2.call .poll = x.2 := if_pos h

/-- The scan is at the slot `tail`, and less than `bound` results are left. -/
structure Sweeping (bound tail : Nat) (x : PollState) : Prop where
  scanning : x.1.scanning = true
  tail_eq : x.1.scanned % xdmaRingNumBlocks = tail
  bound_eq : x.1.scanned + bound = x.1.published + xdmaRingNumBlocks
  pos : 0 < bound
  inPoll : InPoll x

variable {bound tail eopCount tries : Nat}

theorem Sweeping.stable : PollStable (Sweeping bound tail) := by
  intro x y hi hi' hr h
  have hscan := hr.scan rfl
  refine ⟨?_, ?_, ?_, h.pos, InPoll.stable x y hi hi' hr h.inPoll⟩
  · rw [hscan.scanning]
    exact h.scanning
  · rw [hscan.scanned]
    exact h.tail_eq
  · rw [hscan.scanned, hscan.published]
    exact h.bound_eq

/-- The hardware is ahead of the scan. -/
def SweepAhead (x : PollState) : Prop := x.1.scanned < x.1.completed

theorem SweepAhead.stable : PollStable SweepAhead := by
  intro x y _ _ hr h
  unfold SweepAhead
  rw [(hr.scan rfl).scanned]
  exact h.trans_le hr.completed_le

/-- The scan has taken all that was completed when `EnginePollRing` was entered. -/
structure Swept (x : PollState) : Prop where
  due_le : x.2.due ≤ x.1.scanned
  inPoll : InPoll x

theorem Swept.stable : PollStable Swept := by
  intro x y hi hi' hr h
  refine ⟨?_, InPoll.stable x y hi hi' hr h.inPoll⟩
  rw [hr.due rfl, (hr.scan rfl).scanned]
  exact h.due_le

/-- What a result says: there is none only behind the last completion. -/
def ResultSeen (bound tail : Nat) (r : BitVec 32) (x : PollState) : Prop :=
  (r ≠ 0 → Sweeping bound tail x ∧ SweepAhead x) ∧ (r = 0 → Swept x)

theorem ResultSeen.stable {r : BitVec 32} : PollStable (ResultSeen bound tail r) := by
  intro x y hi hi' hr h
  exact ⟨fun hne => ⟨Sweeping.stable x y hi hi' hr (h.1 hne).1,
    SweepAhead.stable x y hi hi' hr (h.1 hne).2⟩, fun hzero =>
    Swept.stable x y hi hi' hr (h.2 hzero)⟩

theorem status_pollSafe (hx : Sweeping bound tail x) :
    PollSafe (RingOp.status tail).perform (ResultSeen bound tail) x := by
  apply PollSafe.perform Sweeping.stable (fun _ => ResultSeen.stable) hx
  intro x r s hi hx hok hs
  simp only [RingWorld.act] at hs
  split at hs
  · next heq =>
    cases hs
    have hring := hok.2
    subst heq
    refine ⟨hi, rfl, fun hne => ⟨hx, hring.scanned_lt_completed ?_⟩, fun hzero => ?_⟩
    · rwa [hx.tail_eq]
    · have hle : x.1.completed ≤ x.1.scanned := by
        by_contra hlt
        apply hring.status.used _ le_rfl (Nat.lt_of_not_le hlt)
        rwa [hx.tail_eq]
      exact ⟨hi.due_le.trans (hi.written_le.trans hle), hx.inPoll⟩
  · cases hs

theorem clearStatus_pollSafe (hx : Sweeping (bound + 1) tail x ∧ SweepAhead x) :
    PollSafe (RingOp.clearStatus tail).perform
      (fun _ => Sweeping bound (engineRingAdvance tail)) x := by
  apply PollSafe.perform (Sweeping.stable.and SweepAhead.stable) (fun _ => Sweeping.stable) hx
  rintro x r s hi ⟨hx, hahead⟩ hok hs
  cases hs
  have hbound := hx.bound_eq
  have hwindow := hok.2.completed_lt_published
  have hlt : x.1.scanned < x.1.completed := hahead
  refine ⟨⟨hi.mode, fun hseen => hi.seen (Nat.lt_of_succ_lt hseen), hi.written_le, hi.due_le,
    hi.noError, hi.returned⟩, rfl, hx.scanning, ?_, ?_, ?_, hx.inPoll⟩
  · rw [← hx.tail_eq]
    exact (engineRingAdvance_mod _).symm
  · simp only
    omega
  · omega

theorem scanResults_pollSafe (hx : Sweeping bound tail x) :
    PollSafe (scanResults bound tail eopCount) (fun _ => Swept) x := by
  induction bound generalizing tail eopCount x with
  | zero => exact absurd hx.pos (Nat.lt_irrefl 0)
  | succ bound ih =>
    refine (status_pollSafe hx).bind fun status x hx => ?_
    split
    · next hzero => exact Safe.ret Swept.stable (hx.2 hzero)
    · next hne =>
      obtain ⟨hx, hahead⟩ := hx.1 hne
      have hsecond : PollSafe (RingOp.status tail).perform
          (fun _ x => Sweeping (bound + 1) tail x ∧ SweepAhead x) x := by
        apply PollSafe.perform (Sweeping.stable.and SweepAhead.stable)
          (fun _ => Sweeping.stable.and SweepAhead.stable) ⟨hx, hahead⟩
        intro x r s hi hx _ hs
        simp only [RingWorld.act] at hs
        split at hs
        · cases hs
          exact ⟨hi, rfl, hx⟩
        · cases hs
      refine hsecond.bind fun status x hx => ?_
      exact (clearStatus_pollSafe hx).bind fun _ x hx => ih hx

/-- `EnginePollRing` is between two scans. -/
structure BetweenScans (x : PollState) : Prop where
  inPoll : InPoll x
  scanning : x.1.scanning = false

theorem BetweenScans.stable : PollStable BetweenScans := by
  intro x y hi hi' hr h
  refine ⟨InPoll.stable x y hi hi' hr h.inPoll, ?_⟩
  rw [(hr.scan rfl).scanning]
  exact h.scanning

theorem beginScan_pollSafe (hx : BetweenScans x) :
    PollSafe (RingOp.indices .scan).perform
      (fun r => Sweeping xdmaRingNumBlocks r.2) x := by
  apply PollSafe.perform BetweenScans.stable (fun _ => Sweeping.stable) hx
  intro x r s hi hx hok hs
  simp only [RingWorld.act] at hs
  split at hs
  · next heq =>
    cases hs
    subst heq
    have hdone := hok.2.scan_done hx.scanning
    refine ⟨hi.frame rfl rfl rfl rfl rfl rfl hi.returned, rfl, rfl, ?_, ?_, ringNumBlocks_pos,
      hx.inPoll⟩
    · rw [hdone]
      exact hok.2.tail_eq.symm
    · simp only [hdone]
  · cases hs

/-- What `EnginePollRing` does once it has scanned. -/
def PolledIn (x : PollState) : Prop := Polled x ∧ InPoll x

theorem PolledIn.stable : PollStable PolledIn := Polled.stable.and InPoll.stable

theorem PolledIn.between (hx : PolledIn x) : BetweenScans x := ⟨hx.2, hx.1.scanning⟩

theorem storeTail_pollSafe (hx : Swept x) :
    PollSafe (RingOp.storeTail tail).perform (fun _ => PolledIn) x := by
  apply PollSafe.perform Swept.stable (fun _ => PolledIn.stable) hx
  intro x r s hi hx _ hs
  cases hs
  exact ⟨hi.frame rfl rfl rfl rfl rfl rfl fun _ => hx.due_le, rfl, ⟨hx.due_le, rfl⟩, hx.inPoll⟩

/-- The calls of `EngineProcessRing` behind its scan, and the first one. -/
theorem skip_pollSafe {P : PollState → Prop} (hP : PollStable P) (hpoll : ∀ x, P x → InPoll x)
    (hx : P x) (ho : o = .engineStatus ∨ o = .poll) : PollSafe o.perform (fun _ => P) x := by
  apply PollSafe.perform hP (fun _ => hP) hx
  intro x r s hi hx _ hs
  rcases ho with rfl | rfl
  · cases hs
    exact ⟨hi, rfl, hx⟩
  · simp only [RingWorld.act] at hs
    split at hs
    · cases hs
      rw [(hpoll x hx).call]
      exact ⟨hi, rfl, hx⟩
    · cases hs

theorem setSignal_pollSafe (hx : PolledIn x) :
    PollSafe RingOp.setSignal.perform (fun _ => PolledIn) x := by
  apply PollSafe.perform PolledIn.stable (fun _ => PolledIn.stable) hx
  intro x r s hi hx _ hs
  cases hs
  exact ⟨hi.frame rfl rfl rfl rfl rfl rfl hi.returned, rfl, ⟨hx.1.due_le, hx.1.scanning⟩, hx.2⟩

/-- The buffer is zeroed when nothing is counted that is not scanned. -/
theorem clearWriteback_pollSafe (hx : PolledIn x) :
    PollSafe RingOp.clearWriteback.perform (fun _ => PolledIn) x := by
  apply PollSafe.perform PolledIn.stable (fun _ => PolledIn.stable) hx
  intro x r s hi hx hok hs
  cases hs
  have hscanned : x.2.written ≤ x.1.scanned := hok.1.2.2 rfl
  exact ⟨⟨hi.mode, fun hlt => absurd hscanned (Nat.not_le.mpr hlt), hi.written_le, hi.due_le,
    BitVec.zero_and, hi.returned⟩, rfl, ⟨hx.1.due_le, hx.1.scanning⟩, hx.2⟩

theorem engineProcessRing_pollSafe (hx : BetweenScans x) :
    PollSafe engineProcessRing (fun _ => PolledIn) x := by
  refine (skip_pollSafe (o := .engineStatus) BetweenScans.stable (fun _ h => h.inPoll) hx
    (.inl rfl)).bind fun _ x hx => ?_
  refine (beginScan_pollSafe hx).bind fun indices x hx => ?_
  refine (scanResults_pollSafe hx).bind fun scan x hx => ?_
  refine (storeTail_pollSafe hx).bind fun _ x hx => ?_
  apply Safe.bind (Q := fun _ => PolledIn)
  · exact Safe.when PolledIn.stable hx fun _ => setSignal_pollSafe hx
  intro _ x hx
  refine (skip_pollSafe (o := .poll) PolledIn.stable (fun _ h => h.2) hx (.inr rfl)).bind
    fun poll x hx => ?_
  apply Safe.bind (Q := fun _ => PolledIn)
  · exact Safe.when PolledIn.stable hx fun _ => clearWriteback_pollSafe hx
  · exact fun _ x hx => Safe.ret PolledIn.stable hx

/-! ## `EnginePollRing` -/

/-- What a count says: 0 shows that nothing that was due is left. -/
def CountSeen (r : BitVec 32) (x : PollState) : Prop :=
  r &&& xdmaWbErrMask = 0 ∧ BetweenScans x ∧ (r = 0 → PolledIn x)

theorem CountSeen.stable {r : BitVec 32} : PollStable (CountSeen r) := by
  rintro x y hi hi' hr ⟨herror, hx, hzero⟩
  exact ⟨herror, BetweenScans.stable x y hi hi' hr hx, fun h0 =>
    PolledIn.stable x y hi hi' hr (hzero h0)⟩

/-- `EnginePollRing` is entered, or it goes on: a count of 0 shows that nothing is left. -/
structure PollTurn (x : PollState) : Prop where
  shown : x.1.completedDescCount = 0 → x.2.due ≤ x.1.published
  between : BetweenScans x

theorem PollTurn.stable : PollStable PollTurn := by
  intro x y hi hi' hr h
  refine ⟨fun hzero => ?_, BetweenScans.stable x y hi hi' hr h.between⟩
  rw [hr.due rfl, (hr.scan rfl).published]
  apply h.shown
  by_contra hne
  exact hr.count rfl hne hzero

theorem PolledIn.turn (hx : PolledIn x) : PollTurn x := ⟨fun _ => hx.1.due_le, hx.between⟩

theorem completedDescCount_pollSafe (hx : PollTurn x) :
    PollSafe RingOp.completedDescCount.perform CountSeen x := by
  apply PollSafe.perform PollTurn.stable (fun _ => CountSeen.stable) hx
  intro x r s hi hx _ hs
  simp only [RingWorld.act] at hs
  split at hs
  · next heq =>
    cases hs
    subst heq
    exact ⟨hi, rfl, hi.noError, hx.between, fun h0 =>
      ⟨⟨hx.shown h0, hx.between.scanning⟩, hx.between.inPoll⟩⟩
  · cases hs

/-- One turn of the loop leaves what was due behind the tail. -/
theorem pollTurn_pollSafe (hx : PollTurn x)
    (hrest : ∀ x, PolledIn x → PollSafe (enginePollRing tries) (fun _ => PolledIn) x) :
    PollSafe (enginePollRing (tries + 1)) (fun _ => PolledIn) x := by
  refine (completedDescCount_pollSafe hx).bind fun completed x ⟨herror, hx, hzero⟩ => ?_
  rw [if_neg (not_not.mpr herror)]
  apply Safe.bind (Q := fun _ => PolledIn)
  · split
    · exact engineProcessRing_pollSafe hx
    · next h0 => exact Safe.ret PolledIn.stable (hzero (not_not.mp h0))
  · intro eopCount x hx
    split
    · exact hrest x hx
    · exact Safe.ret PolledIn.stable hx

theorem enginePollRing_polled (hx : PolledIn x) :
    PollSafe (enginePollRing tries) (fun _ => PolledIn) x := by
  induction tries generalizing x with
  | zero => exact Safe.ret PolledIn.stable hx
  | succ tries ih => exact pollTurn_pollSafe hx.turn fun x hx => ih hx

/-- `EnginePollRing` takes at least one turn. -/
theorem enginePollRing_entered (hx : PollTurn x) :
    PollSafe (enginePollRing ringPollTries) (fun _ => PolledIn) x :=
  pollTurn_pollSafe hx fun _ hx => enginePollRing_polled hx

/-- At its entry what is completed and counted is due, and the count shows it. -/
theorem awaitBlocks_pollSafe (hx : NotPolling x) :
    PollSafe awaitBlocks (fun _ => Polled) x := by
  have hstable : ∀ r, PollStable fun x => r = true ∧ PollTurn x := fun _ =>
    (Stable.const _).and PollTurn.stable
  apply Safe.bind (Q := fun r x => r = true ∧ PollTurn x)
  · apply PollSafe.perform NotPolling.stable hstable hx
    intro x r s hi hx hok hs
    simp only [RingWorld.act] at hs
    split at hs
    · next heq =>
      cases hs
      have hcall : x.2.call .poll = { x.2 with due := x.2.written, polling := true } :=
        if_neg (by simp [hx.polling])
      have hdone := hok.2.scan_done hx.scanning
      rw [hcall]
      refine ⟨⟨hi.mode, hi.seen, hi.written_le, le_rfl, hi.noError, fun h => by cases h⟩, rfl,
        heq.trans hi.mode, fun hzero => ?_, rfl, hx.scanning⟩
      by_contra hlt
      exact hi.seen (hdone ▸ Nat.lt_of_not_le hlt) hzero
    · cases hs
  · rintro poll x ⟨rfl, hx⟩
    refine (enginePollRing_entered hx).bind fun status x hx => ?_
    exact Safe.ret Polled.stable hx.1

theorem evtIoReadEngineRing_pollSafe {length : Nat} (hx : NotPolling x) :
    PollSafe (evtIoReadEngineRing length) (fun _ => NotPolling) x := by
  apply Safe.read (J := NotPolling) (K := Polled) Polled.stable
  · exact fun x hx => retrieveOutputMemory_pollSafe hx
  · exact fun x hx => awaitBlocks_pollSafe hx
  · exact fun o ho x r y hi hx _ h => hi.copies ho hx h
  · exact fun status n x hx => complete_pollSafe hx
  · exact hx

/-! ## Every run -/

section
variable {head tail : Nat} {block : Nat → List UInt8}

/-- As long as the buffer is zeroed only when all that is counted is scanned, no completion is lost
to the polls. -/
theorem enginePollRing_loses_nothing (c : Config RingOp RingOp.Res PollState RingThread)
    (h : ringPolling.Reach
      (fun x l => copiesSucceed x.1 l ∧ countsCompletion x l ∧ clearsScanned x l)
      (pollConfig head tail block) c) : NoLostCompletion c.state := by
  have hring : ∀ c, ringPolling.Reach
      (fun x l => copiesSucceed x.1 l ∧ countsCompletion x l ∧ clearsScanned x l)
      (pollConfig head tail block) c → RingInv c.state.1 := fun c hc =>
    ringInv_of_reach (Reach.forget hc fun _ _ hok => hok.1)
  have hreach := h.strengthen (fun x => RingInv x.1) hring
  have hsafe := Reach.safe (I := PollInv) (R := PollRely)
    (Q := fun t x => t = .reader → NotPolling x) ?_ ?_ ?_ ?_ hreach
  · exact ⟨hsafe.1.seen, hsafe.1.returned⟩
  · exact ⟨rfl, fun hlt => absurd hlt (Nat.lt_irrefl 0), le_rfl, le_rfl, BitVec.zero_and,
      fun _ => le_rfl⟩
  · intro t
    apply Safe.ret
    · rintro x y hi hi' hr h rfl
      exact NotPolling.stable x y hi hi' hr (h rfl)
    · exact fun _ => ⟨rfl, rfl⟩
  · intro e x y hi hok he
    exact ⟨(hi.env (u := .dpc) hok.1.2.1 he).1, fun u => (hi.env hok.1.2.1 he).2⟩
  · rintro t a x ⟨s, g⟩ p hi hx _ hstart
    obtain ⟨hs, hg⟩ := withHistory_start hstart
    cases hg
    cases t with
    | dpc =>
      cases a with
      | processRing => simp [ringThreads, hi.mode] at hs
      | read length => cases hs
    | reader =>
      cases a with
      | processRing => cases hs
      | read length =>
        cases hs
        refine ⟨hi, fun u hu => .of_reader hu rfl, ?_⟩
        exact (evtIoReadEngineRing_pollSafe (hx rfl)).mono fun _ _ hx _ => hx

end

/-- The hardware completes a packet of one block and writes the count. -/
def packetCounted (count : BitVec 32) : List RingLabel :=
  [.env .start, .env (.complete xdmaResultEopBit [0]), .env (.writeback count)]

/-- A read polls, and the scan takes the packet in slot 0. -/
def pollScans : List RingLabel :=
  [.start .reader (.read 1), .call .reader .retrieveOutputMemory statusSuccess,
    .call .reader .poll true, .call .reader .completedDescCount (1 : BitVec 32),
    .call .reader .engineStatus (0 : BitVec 32), .call .reader (.indices .scan) (0, 0),
    .call .reader (.status 0) xdmaResultEopBit, .call .reader (.status 0) xdmaResultEopBit,
    .call .reader (.clearStatus 0) (), .call .reader (.status 1) (0 : BitVec 32)]

/-- The scan is over, and the buffer is zeroed. -/
def pollZeroes : List RingLabel :=
  [.call .reader (.storeTail 1) (), .call .reader .setSignal (), .call .reader .poll true,
    .call .reader .clearWriteback ()]

/-- One packet is polled for: it is behind the tail when the read goes on. -/
theorem enginePollRing_loses_nothing_first :
    ∃ c, ringPolling.Reach
        (fun x l => copiesSucceed x.1 l ∧ countsCompletion x l ∧ clearsScanned x l)
        (pollConfig 0 0 fun _ => []) c ∧
      c.state.2.due = 1 ∧ c.state.2.polling = false ∧ NoLostCompletion c.state := by
  have hrun : ∃ c, ringPolling.Reach
      (fun x l => copiesSucceed x.1 l ∧ countsCompletion x l ∧ clearsScanned x l)
      (pollConfig 0 0 fun _ => []) c ∧ decide (c.state.2.due = 1 ∧ c.state.2.polling = false) :=
    Reach.exists_of_steps
      (packetCounted 1 ++ pollScans ++ pollZeroes ++ [.call .reader (.indices .copy) (0, 1)])
      (fun c : Config _ _ PollState _ =>
        decide (c.state.2.due = 1 ∧ c.state.2.polling = false)) (by decide)
  obtain ⟨c, hreach, hdue⟩ := hrun
  obtain ⟨hdue, hpolling⟩ := of_decide_eq_true hdue
  exact ⟨c, hreach, hdue, hpolling, enginePollRing_loses_nothing c hreach⟩

/-- A packet that is completed between the scan and the zeroing is not counted any more. -/
theorem enginePollRing_hides_completion :
    ¬ ∀ c, ringPolling.Reach (fun x l => copiesSucceed x.1 l ∧ countsCompletion x l)
      (pollConfig 0 0 fun _ => []) c → NoLostCompletion c.state := by
  intro hall
  have hrun : ∃ c, ringPolling.Reach (fun x l => copiesSucceed x.1 l ∧ countsCompletion x l)
      (pollConfig 0 0 fun _ => []) c ∧ decide (¬ NoLostCompletion c.state) = true :=
    Reach.exists_of_steps (packetCounted 1 ++ pollScans ++ packetCounted 2 ++ pollZeroes)
      (fun c : Config _ _ PollState _ => decide (¬ NoLostCompletion c.state)) (by decide)
  obtain ⟨c, hreach, hlost⟩ := hrun
  exact of_decide_eq_true hlost (hall c hreach)

/-- While nothing is counted `EnginePollRing` scans nothing, for all its tries, and reports
success. -/
theorem enginePollRing_of_not_counted {answer : (o : RingOp) → RingWorld → o.Res} (tries : Nat)
    (s : RingWorld) (hanswer : answer .completedDescCount s = s.completedDescCount)
    (hcount : s.completedDescCount = 0) :
    Prog.exec RingWorld.act answer (enginePollRing tries) s = some (statusSuccess, s) := by
  induction tries with
  | zero => rfl
  | succ tries ih =>
    have hact : RingWorld.act .completedDescCount s s.completedDescCount = some s := if_pos rfl
    have hturn : Prog.exec RingWorld.act answer (enginePollRing (tries + 1)) s =
        Prog.exec RingWorld.act answer (enginePollRing tries) s := by
      simp only [enginePollRing, RingOp.perform, Prog.perform, Prog.call_bind, Prog.exec_call,
        hanswer]
      rw [hact]
      simp [hcount]
    rw [hturn]
    exact ih

end Xadma
