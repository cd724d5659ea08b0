import Xadma.Theory.History
import Xadma.Verify.RingRuns

/-!
# The completion event of a streaming engine

The event is set for the ends of packets that `EngineProcessRing` finds, and a read clears it when
the block at its head has no length. Next to the ring a history says which of the scanned uses end
a packet, and whether `KeSetEvent` is still to come for one of them.
-/

namespace Xadma

open Threads

structure SignalHistory where
  /-- For each scanned use whether its result has the EOP bit. -/
  ends : List Bool
  /-- An EOP bit was found, and `EngineProcessRing` has not set the event for it yet. -/
  owing : Bool

namespace SignalHistory

/-- The use `i` ends a packet. -/
def EndsPacket (g : SignalHistory) (i : Nat) : Prop := g.ends[i]? = some true

instance (g : SignalHistory) (i : Nat) : Decidable (g.EndsPacket i) :=
  inferInstanceAs (Decidable (_ = _))

def call (o : RingOp) (s : RingWorld) (g : SignalHistory) : SignalHistory :=
  match o with
  | .clearStatus k =>
    let eop := s.status k &&& xdmaResultEopBit != 0
    { ends := g.ends ++ [eop], owing := g.owing || eop }
  | .setSignal => { g with owing := false }
  | _ => g

end SignalHistory

abbrev SignalState := RingWorld × SignalHistory

/-- A block behind the head and before the tail ends a packet. -/
def SignalState.PacketReady (x : SignalState) : Prop :=
  ∃ i < x.1.published, x.1.released ≤ i ∧ x.2.EndsPacket i

instance (x : SignalState) : Decidable x.PacketReady :=
  inferInstanceAs (Decidable (∃ i < _, _))

/-- When no read is past its wait and the DPC has returned, a packet in the ring finds the event
set. -/
def WakesReader (c : Config RingOp RingOp.Res SignalState RingThread) : Prop :=
  (c.thread .reader).isDone = true ∨ c.state.1.copying = false → (c.thread .dpc).isDone = true →
    c.state.PacketReady → c.state.1.completionSignal = true

instance (c : Config RingOp RingOp.Res SignalState RingThread) : Decidable (WakesReader c) :=
  inferInstanceAs (Decidable (_ → _))

def ringSignal : Threads RingOp RingOp.Res SignalState RingThread RingEvent RingCall :=
  ringThreads.withHistory {
    call := fun _ o _ s g => g.call o s
    env := fun _ _ g => g
    start := fun _ _ _ g => g }

def signalConfig (head tail : Nat) (block : Nat → List UInt8) :
    Config RingOp RingOp.Res SignalState RingThread :=
  ⟨((ringConfig false head tail block).state, ⟨[], false⟩), fun _ => .ret ()⟩

/-- No block that is not copied yet ends a packet, as far as the tail, unless the event is about to
be set. -/
def SignalState.Drained (x : SignalState) : Prop :=
  x.2.owing = false → ∀ i < x.1.published, x.1.copied ≤ i → ¬ x.2.EndsPacket i

instance (x : SignalState) : Decidable x.Drained :=
  inferInstanceAs (Decidable (_ → _))

def isClearSignal : RingLabel → Bool
  | .call _ .clearSignal _ => true
  | _ => false

/-- A read clears the event only when it has taken all the ends of packets. -/
def clearsDrained (x : SignalState) (l : RingLabel) : Prop := isClearSignal l = true → x.Drained

instance (x : SignalState) (l : RingLabel) : Decidable (clearsDrained x l) :=
  inferInstanceAs (Decidable (_ → _))

/-- The invariant: whoever finds the end of a packet is woken. -/
structure SignalInv (x : SignalState) : Prop where
  interrupts : x.1.poll = false
  length : x.2.ends.length = x.1.scanned
  woken : ∀ i, x.1.copied ≤ i → x.2.EndsPacket i →
    x.2.owing = true ∨ i < x.1.published ∧ x.1.completionSignal = true

/-- What a thread relies on. The DPC scans on its own: the history is its own, and a result that is
set stays as it is. -/
structure SignalRely (t : RingThread) (x y : SignalState) : Prop where
  history : t = .dpc → y.2 = x.2
  published : t = .dpc → y.1.published = x.1.published
  status : t = .dpc → ∀ k, x.1.status k ≠ 0 → y.1.status k = x.1.status k

/-- Copies succeed, and the event is cleared as it should be. -/
def signalOk (x : SignalState) (l : RingLabel) : Prop :=
  (copiesSucceed x.1 l ∧ clearsDrained x l) ∧ RingInv x.1

variable {x y : SignalState} {t u : RingThread} {o : RingOp} {r : o.Res}

theorem SignalInv.frame (hi : SignalInv x) (hpoll : y.1.poll = x.1.poll) (hhistory : y.2 = x.2)
    (hscanned : y.1.scanned = x.1.scanned) (hpublished : y.1.published = x.1.published)
    (hcopied : x.1.copied ≤ y.1.copied)
    (hsignal : x.1.completionSignal = true → y.1.completionSignal = true) : SignalInv y := by
  refine ⟨hpoll.trans hi.interrupts, ?_, ?_⟩
  · rw [hhistory, hscanned]
    exact hi.length
  · intro i hle hend
    rw [hhistory] at hend ⊢
    apply (hi.woken i (hcopied.trans hle) hend).imp_right
    rintro ⟨hlt, hset⟩
    exact ⟨hpublished ▸ hlt, hsignal hset⟩

/-- A step that leaves the scan alone. -/
theorem SignalRely.of_same (hhistory : y.2 = x.2) (hpublished : y.1.published = x.1.published)
    (hstatus : y.1.status = x.1.status) : SignalRely u x y :=
  ⟨fun _ => hhistory, fun _ => hpublished, fun _ k _ => congrFun hstatus k⟩

/-! ## The hardware -/

theorem SignalInv.env {e : RingEvent} (hi : SignalInv x) (hring : RingInv x.1)
    (h : ringSignal.env e x = some y) : SignalInv y ∧ SignalRely u x y := by
  obtain ⟨s, g⟩ := y
  obtain ⟨hs, hg : g = x.2⟩ := withHistory_env h
  simp only [ringThreads] at hs
  cases e with
  | start =>
    simp only [RingWorld.env] at hs
    split at hs
    · cases hs
      subst hg
      exact ⟨hi.frame rfl rfl rfl rfl le_rfl fun h => h, .of_same rfl rfl rfl⟩
    · cases hs
  | complete status bytes =>
    simp only [RingWorld.env] at hs
    split at hs
    · cases hs
      subst hg
      refine ⟨hi.frame rfl rfl rfl rfl le_rfl fun h => h, fun _ => rfl, fun _ => rfl, ?_⟩
      intro _ k hk
      apply Function.update_of_ne
      rintro rfl
      -- the slot that the hardware completes is empty
      apply hk
      exact hring.status.eq_zero le_rfl hring.completed_lt_scanned hring.scanned_le
    · cases hs
  | writeback value =>
    cases hs
    subst hg
    exact ⟨hi.frame rfl rfl rfl rfl le_rfl fun h => h, .of_same rfl rfl rfl⟩

/-! ## The reader -/

/-- The calls of a read that waits for the event. -/
def RingOp.Reads : RingOp → Prop
  | .poll | .retrieveOutputMemory | .waitSignal | .indices .copy | .length _ | .clearSignal => True
  | .copyFromBuffer .. | .clearLength _ | .storeHead .. | .complete .. => True
  | _ => False

theorem SignalInv.clearSignal (hi : SignalInv x) (hdrained : x.Drained) :
    SignalInv ({ x.1 with completionSignal := false }, x.2) := by
  refine ⟨hi.interrupts, hi.length, fun i hle hend => .inl ?_⟩
  by_contra howing
  rcases hi.woken i hle hend with h | ⟨hlt, -⟩
  · exact howing h
  · exact hdrained (by simpa using howing) i hlt hle hend

theorem SignalInv.read (ho : o.Reads) (hi : SignalInv x)
    (hok : clearsDrained x (.call .reader o r)) (h : ringSignal.act .reader o x r = some y) :
    SignalInv y ∧ SignalRely u x y := by
  obtain ⟨s, g⟩ := y
  obtain ⟨hs, hg⟩ := withHistory_act h
  have same : ∀ {p : Prop} [Decidable p], (if p then some x.1 else none) = some s → g = x.2 →
      SignalInv (s, g) ∧ SignalRely u x (s, g) := by
    intro p _ hsame hhistory
    split at hsame
    · cases hsame
      cases hhistory
      exact ⟨hi, .of_same rfl rfl rfl⟩
    · cases hsame
  cases o with
  | poll | waitSignal | length => exact same hs hg
  | indices phase =>
    cases phase with
    | scan => exact ho.elim
    | copy =>
      simp only [ringThreads, RingWorld.act] at hs
      split at hs
      · cases hs
        cases hg
        exact ⟨hi.frame rfl rfl rfl rfl le_rfl fun h => h, .of_same rfl rfl rfl⟩
      · cases hs
  | clearSignal =>
    cases hs
    cases hg
    exact ⟨hi.clearSignal (hok rfl), .of_same rfl rfl rfl⟩
  | copyFromBuffer offset k numBytes =>
    simp only [ringThreads, RingWorld.act] at hs
    cases hg
    split at hs <;> cases hs
    · exact ⟨hi.frame rfl rfl rfl rfl le_rfl fun h => h, .of_same rfl rfl rfl⟩
    · exact ⟨hi, .of_same rfl rfl rfl⟩
  | clearLength k =>
    cases hs
    cases hg
    exact ⟨hi.frame rfl rfl rfl rfl (Nat.le_succ _) fun h => h, .of_same rfl rfl rfl⟩
  | storeHead | complete =>
    cases hs
    cases hg
    exact ⟨hi.frame rfl rfl rfl rfl le_rfl fun h => h, .of_same rfl rfl rfl⟩
  | retrieveOutputMemory =>
    simp only [ringThreads, RingWorld.act] at hs
    cases hg
    split at hs <;> cases hs
    · exact ⟨hi.frame rfl rfl rfl rfl le_rfl fun h => h, .of_same rfl rfl rfl⟩
    · exact ⟨hi, .of_same rfl rfl rfl⟩
  | _ => exact ho.elim

abbrev SignalSafe {α : Type} (t : RingThread) (p : RingProg α) (Q : α → SignalState → Prop)
    (x : SignalState) : Prop :=
  Safe ringSignal signalOk SignalInv SignalRely t p Q x

abbrev SignalStable (t : RingThread) (P : SignalState → Prop) : Prop :=
  Stable SignalInv SignalRely t P

variable {tail bound eopCount length tries : Nat} {c : RingCopy}

theorem reads_safe {α : Type} {p : RingProg α} (hp : p.All RingOp.Reads) :
    SignalSafe .reader p (fun _ _ => True) x := by
  apply Safe.all (Stable.const True) hp trivial
  intro op hop x r y hi _ hok h
  exact ⟨(hi.read (u := .dpc) hop hok.1.2 h).1, fun u _ => (hi.read hop hok.1.2 h).2, trivial⟩

/-- A read that waits for the event makes no call of the scan. -/
theorem awaitBlocks_signalSafe : SignalSafe .reader awaitBlocks (fun _ _ => True) x := by
  apply Safe.bind (Q := fun answer _ => answer = false)
  · apply Safe.perform _ (Stable.const True) (fun _ => Stable.const _) trivial
    intro x r y hi _ hok h
    have hstep := fun u => hi.read (u := u) (o := .poll) trivial (fun h => by cases h) h
    refine ⟨(hstep .dpc).1, fun u _ => (hstep u).2, ?_⟩
    have hanswer := (withHistory_act h).1
    simp only [ringThreads, RingWorld.act] at hanswer
    split at hanswer
    · next heq => exact heq.trans hi.interrupts
    · cases hanswer
  · rintro answer x rfl
    apply reads_safe
    exact Prog.All.bind (Prog.All.perform trivial) fun _ => trivial

theorem RingOp.Copies.reads (ho : o.Copies) : o.Reads := by
  cases o with
  | indices phase =>
    cases phase with
    | scan => exact ho.elim
    | copy => exact trivial
  | length | clearSignal | copyFromBuffer | clearLength | storeHead => exact trivial
  | _ => exact ho.elim

theorem evtIoReadEngineRing_signalSafe :
    SignalSafe .reader (evtIoReadEngineRing length) (fun _ _ => True) x := by
  apply Safe.read (J := fun _ => True) (K := fun _ => True) (Stable.const True)
  · exact fun x _ => reads_safe (Prog.All.perform trivial)
  · exact fun x _ => awaitBlocks_signalSafe
  · intro o ho x r y hi _ hok h
    have hstep := fun u => hi.read (u := u) ho.reads hok.1.2 h
    exact ⟨(hstep .dpc).1, fun u _ => (hstep u).2, trivial⟩
  · exact fun status n x _ => reads_safe (Prog.All.perform trivial)
  · exact trivial

/-! ## The DPC -/

/-- Only the DPC adds to the history. -/
theorem SignalHistory.stable (P : SignalHistory → Prop) : SignalStable .dpc fun x => P x.2 := by
  intro x y _ _ hr h
  rw [hr.history rfl]
  exact h

/-- The DPC scans, and `eopCount` ends of packets are found. -/
def Counting (eopCount : Nat) (x : SignalState) : Prop := x.2.owing = decide (0 < eopCount)

theorem Counting.stable : SignalStable .dpc (Counting eopCount) :=
  SignalHistory.stable fun g => g.owing = decide (0 < eopCount)

/-- The result in a slot is read. -/
def ResultRead (tail : Nat) (status : BitVec 32) (x : SignalState) : Prop :=
  status ≠ 0 → x.1.status tail = status

theorem ResultRead.stable {status : BitVec 32} : SignalStable .dpc (ResultRead tail status) := by
  intro x y _ _ hr h hne
  have hset := h hne
  rw [hr.status rfl tail (hset ▸ hne)]
  exact hset

theorem SignalRely.of_dpc (hu : u ≠ .dpc) : SignalRely u x y :=
  ⟨fun h => absurd h hu, fun h => absurd h hu, fun h => absurd h hu⟩

theorem readStatus_safe {P : SignalState → Prop}
    {Q : (RingOp.status tail).Res → SignalState → Prop}
    (hP : SignalStable .dpc P) (hQ : ∀ status, SignalStable .dpc (Q status))
    (hread : ∀ x, P x → Q (x.1.status tail) x) (h : P x) :
    SignalSafe .dpc (RingOp.status tail).perform Q x := by
  apply Safe.perform _ hP hQ h
  intro x r y hi hx _ hact
  obtain ⟨hs, hg⟩ := withHistory_act hact
  obtain ⟨s, g⟩ := y
  simp only [ringThreads, RingWorld.act] at hs
  cases hg
  split at hs
  · next heq =>
    cases hs
    cases heq
    exact ⟨hi, fun u hu => .of_dpc hu, hread _ hx⟩
  · cases hs

/-- The bit that the history gets is the one of the result that was read. -/
theorem clearResult_safe {status : BitVec 32} (hne : status ≠ 0) (h : Counting eopCount x)
    (hread : ResultRead tail status x) :
    SignalSafe .dpc (RingOp.clearStatus tail).perform
      (fun _ => Counting
        (if status &&& xdmaResultEopBit ≠ 0 then eopCount + 1 else eopCount)) x := by
  apply Safe.perform _ (Counting.stable.and ResultRead.stable) (fun _ => Counting.stable)
    ⟨h, hread⟩
  rintro x r y hi ⟨hcount, hread⟩ _ hact
  obtain ⟨hs, hg⟩ := withHistory_act hact
  obtain ⟨s, g⟩ := y
  cases hs
  cases hg
  have hset := hread hne
  refine ⟨⟨hi.interrupts, by simp [hi.length], fun i hle hend => ?_⟩,
    fun u hu => .of_dpc hu, ?_⟩
  · simp only [SignalHistory.EndsPacket] at hend ⊢
    by_cases hold : i < x.2.ends.length
    · rw [List.getElem?_append_left hold] at hend
      apply (hi.woken i hle hend).imp_left
      intro howing
      rw [howing, Bool.true_or]
    · rw [List.getElem?_append_right (Nat.le_of_not_lt hold)] at hend
      have heop := List.mem_singleton.mp (List.mem_of_getElem? hend)
      exact .inl (by rw [← heop, Bool.or_true])
  · unfold Counting at hcount ⊢
    simp only [hset, hcount]
    split
    · next heop =>
      rw [bne_iff_ne.mpr heop, Bool.or_true]
      exact (decide_eq_true (Nat.succ_pos eopCount)).symm
    · next heop => simp [Decidable.not_not.mp heop]

theorem scanResults_signalSafe (h : Counting eopCount x) :
    SignalSafe .dpc (scanResults bound tail eopCount) (fun r => Counting r.2) x := by
  induction bound generalizing tail eopCount x with
  | zero => exact Safe.ret Counting.stable h
  | succ bound ih =>
    have hfirst : SignalSafe .dpc (RingOp.status tail).perform
        (fun r x => Counting eopCount x ∧ ResultRead tail r x) x :=
      readStatus_safe Counting.stable (fun _ => Counting.stable.and ResultRead.stable)
        (fun _ h => ⟨h, fun _ => rfl⟩) h
    refine hfirst.bind fun status x ⟨h, hread⟩ => ?_
    split
    · exact Safe.ret Counting.stable h
    · next hne =>
      -- the second read sees the same result
      have hsecond : SignalSafe .dpc (RingOp.status tail).perform
          (fun r x => r ≠ 0 ∧ Counting eopCount x ∧ ResultRead tail r x) x := by
        refine readStatus_safe (Counting.stable.and ResultRead.stable)
          (fun r => (Stable.const _).and (Counting.stable.and ResultRead.stable)) ?_ ⟨h, hread⟩
        rintro x ⟨hcount, hread⟩
        refine ⟨?_, hcount, fun _ => rfl⟩
        rw [hread hne]
        exact hne
      refine hsecond.bind fun status x ⟨hne, h, hread⟩ => ?_
      exact (clearResult_safe hne h hread).bind fun _ x h => ih h

/-- The tail is stored: all that is scanned is behind it. -/
def Published (eopCount : Nat) (x : SignalState) : Prop :=
  Counting eopCount x ∧ x.2.ends.length ≤ x.1.published

theorem Published.stable : SignalStable .dpc (Published eopCount) := by
  intro x y hi hi' hr h
  refine ⟨Counting.stable x y hi hi' hr h.1, ?_⟩
  rw [hr.history rfl, hr.published rfl]
  exact h.2

theorem storeTail_signalSafe (h : Counting eopCount x) :
    SignalSafe .dpc (RingOp.storeTail tail).perform (fun _ => Published eopCount) x := by
  apply Safe.perform _ Counting.stable (fun _ => Published.stable) h
  intro x r y hi hcount hok hact
  obtain ⟨hs, hg⟩ := withHistory_act hact
  obtain ⟨s, g⟩ := y
  cases hs
  cases hg
  refine ⟨⟨hi.interrupts, hi.length, fun i hle hend => ?_⟩, fun u hu => .of_dpc hu, hcount,
    hi.length.le⟩
  exact (hi.woken i hle hend).imp_right fun h => ⟨h.1.trans_le hok.2.published_le, h.2⟩

/-- The event is set for the ends of packets, which are all behind the tail. -/
theorem setSignal_safe (h : Published eopCount x) :
    SignalSafe .dpc RingOp.setSignal.perform (fun _ x => x.2.owing = false) x := by
  apply Safe.perform _ Published.stable (fun _ => SignalHistory.stable (·.owing = false)) h
  intro x r y hi hpub _ hact
  obtain ⟨hs, hg⟩ := withHistory_act hact
  obtain ⟨s, g⟩ := y
  cases hs
  cases hg
  refine ⟨⟨hi.interrupts, hi.length, fun i _ hend => .inr ⟨?_, rfl⟩⟩, fun u hu => .of_dpc hu, rfl⟩
  exact (List.getElem?_eq_some_iff.mp hend).1.trans_le hpub.2

/-- A call of the DPC that touches neither the history nor the ring's results. -/
theorem skip_signalSafe (P : SignalHistory → Prop) (hx : P x.2)
    (ho : o = .engineStatus ∨ o = .indices .scan ∨ o = .poll ∨ o = .clearWriteback) :
    SignalSafe .dpc o.perform (fun _ x => P x.2) x := by
  apply Safe.perform _ (SignalHistory.stable P) (fun _ => SignalHistory.stable P) hx
  intro x r y hi hx _ hact
  obtain ⟨hs, hg⟩ := withHistory_act hact
  obtain ⟨s, g⟩ := y
  have hsame : g = x.2 ∧ s.scanned = x.1.scanned ∧ s.published = x.1.published ∧
      s.copied = x.1.copied ∧ s.completionSignal = x.1.completionSignal ∧
      s.poll = x.1.poll := by
    rcases ho with rfl | rfl | rfl | rfl
    · cases hs
      cases hg
      exact ⟨rfl, rfl, rfl, rfl, rfl, rfl⟩
    · simp only [ringThreads, RingWorld.act] at hs
      cases hg
      split at hs
      · cases hs
        exact ⟨rfl, rfl, rfl, rfl, rfl, rfl⟩
      · cases hs
    · simp only [ringThreads, RingWorld.act] at hs
      cases hg
      split at hs
      · cases hs
        exact ⟨rfl, rfl, rfl, rfl, rfl, rfl⟩
      · cases hs
    · cases hs
      cases hg
      exact ⟨rfl, rfl, rfl, rfl, rfl, rfl⟩
  obtain ⟨hhistory, hscanned, hpub, hcopied, hsignal, hpoll⟩ := hsame
  exact ⟨hi.frame hpoll hhistory hscanned hpub hcopied.ge fun h => hsignal.trans h,
    fun u hu => .of_dpc hu, hhistory ▸ hx⟩

theorem engineProcessRing_signalSafe (hx : x.2.owing = false) :
    SignalSafe .dpc engineProcessRing (fun _ x => x.2.owing = false) x := by
  refine (skip_signalSafe (o := .engineStatus) (·.owing = false) hx (.inl rfl)).bind fun _ x h => ?_
  refine (skip_signalSafe (o := .indices .scan) (·.owing = false) h (.inr (.inl rfl))).bind
    fun indices x h => ?_
  have hcount : Counting 0 x := h
  refine (scanResults_signalSafe hcount).bind fun scan x h => ?_
  refine (storeTail_signalSafe h).bind fun _ x h => ?_
  refine Safe.bind (Q := fun _ x => x.2.owing = false) ?_ fun _ x h => ?_
  · unfold Prog.when
    split
    · exact setSignal_safe h
    · next hnone =>
      have hcounted : x.2.owing = decide (0 < scan.2) := h.1
      refine Safe.ret (SignalHistory.stable (·.owing = false)) ?_
      rw [hcounted]
      exact decide_eq_false hnone
  · refine (skip_signalSafe (o := .poll) (·.owing = false) h (.inr (.inr (.inl rfl)))).bind
      fun poll x h => ?_
    refine Safe.bind (Q := fun _ x => x.2.owing = false) ?_ fun _ x h => ?_
    · exact Safe.when (SignalHistory.stable (·.owing = false)) h fun _ =>
        skip_signalSafe (o := .clearWriteback) (·.owing = false) h (.inr (.inr (.inr rfl)))
    · exact Safe.ret (SignalHistory.stable (·.owing = false)) h

/-! ## Every run -/

section
variable {head tail : Nat} {block : Nat → List UInt8}
  {c : Config RingOp RingOp.Res SignalState RingThread}

theorem signalInv_of_reach
    (h : ringSignal.Reach (fun x l => copiesSucceed x.1 l ∧ clearsDrained x l)
      (signalConfig head tail block) c) :
    SignalInv c.state ∧ RingInv c.state.1 ∧
      (c.thread .dpc = .ret () → c.state.2.owing = false) := by
  have hring : ∀ c, ringSignal.Reach (fun x l => copiesSucceed x.1 l ∧ clearsDrained x l)
      (signalConfig head tail block) c → RingInv c.state.1 := fun c hc =>
    ringInv_of_reach (Reach.forget hc fun _ _ hok => hok.1)
  have hreach := h.strengthen (fun x => RingInv x.1) hring
  have hsafe := Reach.safe (I := SignalInv) (R := SignalRely)
    (Q := fun t x => t = .dpc → x.2.owing = false) ?_ ?_ ?_ ?_ hreach
  · refine ⟨hsafe.1, hring c h, fun hidle => ?_⟩
    have hdpc := hsafe.2 .dpc
    rw [hidle] at hdpc
    exact hdpc.idle rfl
  · refine ⟨rfl, rfl, fun i _ hend => ?_⟩
    cases hend
  · intro t
    apply Safe.ret
    · intro x y _ _ hr h ht
      rw [hr.history ht]
      exact h ht
    · exact fun _ => rfl
  · intro e x y hi hok he
    exact ⟨(hi.env (u := .dpc) hok.2 he).1, fun u => (hi.env hok.2 he).2⟩
  · rintro t a x ⟨s, g⟩ p hi howing _ hstart
    obtain ⟨hs, hg⟩ := withHistory_start hstart
    cases hg
    cases t with
    | dpc =>
      cases a with
      | processRing =>
        simp only [ringThreads] at hs
        split at hs
        · cases hs
        · cases hs
          refine ⟨hi, fun u _ => .of_same rfl rfl rfl, ?_⟩
          refine (engineProcessRing_signalSafe (howing rfl)).bind fun _ x h => ?_
          exact Safe.ret (SignalHistory.stable fun g => _ → g.owing = false) fun _ => h
      | read length => cases hs
    | reader =>
      cases a with
      | processRing => cases hs
      | read length =>
        cases hs
        refine ⟨hi, fun u _ => .of_same rfl rfl rfl, ?_⟩
        exact evtIoReadEngineRing_signalSafe.mono fun _ _ _ h => by cases h

/-- As long as a read clears the event only when it has taken all the ends of packets, no wakeup is
lost. -/
theorem ring_wakes_reader (c : Config RingOp RingOp.Res SignalState RingThread)
    (h : ringSignal.Reach (fun x l => copiesSucceed x.1 l ∧ clearsDrained x l)
      (signalConfig head tail block) c) : WakesReader c := by
  obtain ⟨hi, hring, howing⟩ := signalInv_of_reach h
  rintro hreader hdpc ⟨i, -, hreleased, hend⟩
  have hcopying : c.state.1.copying = false := by
    rcases hreader with hidle | hcopying
    · have hbase := ringIdle_of_reach (Reach.forget h fun _ _ hok => hok.1)
      exact ((hbase.2 .reader (Prog.eq_ret_of_isDone hidle)).copy rfl).1
    · exact hcopying
  have hcopied := (hring.copy_done hcopying).1
  rcases hi.woken i (hcopied ▸ hreleased) hend with hset | ⟨-, hset⟩
  · rw [howing (Prog.eq_ret_of_isDone hdpc)] at hset
    cases hset
  · exact hset

end

/-- The hardware completes a packet of one block in slot `k`, and the DPC runs. -/
def packetArrives (head k : Nat) : List RingLabel :=
  [.env .start, .env (.complete xdmaResultEopBit [0]),
    .start .dpc .processRing, .call .dpc .engineStatus (0 : BitVec 32),
    .call .dpc (.indices .scan) (head, k), .call .dpc (.status k) xdmaResultEopBit,
    .call .dpc (.status k) xdmaResultEopBit, .call .dpc (.clearStatus k) (),
    .call .dpc (.status (k + 1)) (0 : BitVec 32), .call .dpc (.storeTail (k + 1)) (),
    .call .dpc .setSignal (), .call .dpc .poll false]

/-- A read takes the packet and finds no further block. -/
def packetRead : List RingLabel :=
  [.start .reader (.read 1), .call .reader .retrieveOutputMemory statusSuccess,
    .call .reader .poll false, .call .reader .waitSignal statusSuccess,
    .call .reader (.indices .copy) (0, 1), .call .reader (.length 0) (1 : BitVec 32),
    .call .reader (.copyFromBuffer 0 0 1) statusSuccess, .call .reader (.clearLength 0) (),
    .call .reader (.length 1) (0 : BitVec 32)]

/-- It clears the event and is completed. -/
def readEnds : List RingLabel :=
  [.call .reader .clearSignal (), .call .reader (.storeHead 1 1) (),
    .call .reader (.complete statusSuccess 1) ()]

/-- The next packet arrives behind the clear. -/
theorem ring_wakes_reader_first :
    ∃ c, ringSignal.Reach (fun x l => copiesSucceed x.1 l ∧ clearsDrained x l)
        (signalConfig 0 0 fun _ => []) c ∧
      c.state.PacketReady ∧ WakesReader c := by
  have hrun : ∃ c, ringSignal.Reach (fun x l => copiesSucceed x.1 l ∧ clearsDrained x l)
      (signalConfig 0 0 fun _ => []) c ∧ decide c.state.PacketReady = true :=
    Reach.exists_of_steps (packetArrives 0 0 ++ packetRead ++ readEnds ++ packetArrives 1 1)
      (fun c : Config _ _ SignalState _ => decide c.state.PacketReady) (by decide)
  obtain ⟨c, hreach, hready⟩ := hrun
  exact ⟨c, hreach, of_decide_eq_true hready, ring_wakes_reader c hreach⟩

/-- The next packet arrives before the clear: it is in the ring, nobody works on it, and the next
read waits. -/
theorem ring_loses_wakeup :
    ¬ ∀ c, ringSignal.Reach (fun x l => copiesSucceed x.1 l) (signalConfig 0 0 fun _ => []) c →
      WakesReader c := by
  intro hall
  have hrun : ∃ c, ringSignal.Reach (fun x l => copiesSucceed x.1 l)
      (signalConfig 0 0 fun _ => []) c ∧ decide (¬ WakesReader c) = true :=
    Reach.exists_of_steps (packetArrives 0 0 ++ packetRead ++ packetArrives 0 1 ++ readEnds)
      (fun c : Config _ _ SignalState _ => decide (¬ WakesReader c)) (by decide)
  obtain ⟨c, hreach, hlost⟩ := hrun
  exact of_decide_eq_true hlost (hall c hreach)

end Xadma
