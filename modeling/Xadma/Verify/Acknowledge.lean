import Xadma.Avsadma.StatusRegister
import Xadma.Theory.Contract

/-!
# Acknowledging an interrupt

The service routines write back the status they read without its IRQ bit. To a bit that is cleared
by writing a 1 that write does nothing, so an invocation that saw the bit always leaves it set.
-/

namespace Xadma

namespace Capture

open Threads Prog

variable {w w' : StatusWorld} {traced : Bool} {status : BitVec 32}
  {c : Config CaptureOp CaptureOp.Res StatusWorld Unit}

/-- Interrupts are acknowledged: an invocation that saw the IRQ bit leaves it clear unless another
completion arrived, no write disturbs the other bits, and there are no more such invocations than
completions. -/
structure Acknowledged (w : StatusWorld) : Prop where
  cleared : w.leftSet = false
  others : w.status &&& ~~~ csrIrqSetMask = w.reported
  counted : w.seen ≤ w.completions

/-- An invocation that saw the IRQ bit returns only behind another completion. -/
def answered (w : StatusWorld) : StatusLabel → Bool
  | .call () .returnFromIsr _ => !w.saw || w.arrived
  | _ => true

/-! ## What the routines write -/

/-- The call does not write a 1 to the IRQ bit. -/
def CaptureOp.LeavesIrq : CaptureOp → Prop
  | .writeReg .csr 0 value => value &&& csrIrqSetMask = 0
  | _ => True

abbrev RoutineLeavesIrq {α : Type} (p : CaptureProg α) : Prop :=
  p.Meets (fun _ _ => True) CaptureOp.LeavesIrq fun _ => True

theorem interruptMessageService_leavesIrq : RoutineLeavesIrq (interruptMessageService traced) := by
  refine Meets.bind (.perform trivial fun _ _ => trivial) fun reg _ => ?_
  have hwritten : reg &&& ~~~ csrIrqSetMask &&& csrIrqSetMask = 0 := by
    simp [BitVec.and_assoc]
  refine Meets.bind (Q := fun _ => True) (.when trivial fun _ => ?_) fun _ _ => ?_
  · refine Meets.bind (Q := fun _ => True) (.when trivial fun _ => ?_) fun _ _ => ?_
    · exact Meets.bind (.perform trivial fun _ _ => trivial) fun _ _ => trivial
    · refine Meets.bind (.perform hwritten fun _ _ => trivial) fun _ _ => ?_
      refine Meets.bind (.perform trivial fun _ _ => trivial) fun capPin _ => ?_
      exact .perform trivial fun _ _ => trivial
  · refine Meets.bind (.perform trivial fun _ _ => trivial) fun reg _ => ?_
    refine Meets.bind (Q := fun _ => True) (.when trivial fun _ => ?_) fun _ _ => trivial
    exact .perform trivial fun _ _ => trivial

theorem invoke_leavesIrq (s : ServiceRoutine) : RoutineLeavesIrq (s.invoke traced) := by
  have hroutine : RoutineLeavesIrq (s.routine traced) := by
    cases s <;> exact interruptMessageService_leavesIrq
  exact hroutine.bind fun _ _ => .perform trivial fun _ _ => trivial

/-! ## The register over every run -/

/-- The IRQ bit stays set once it was seen, and unless an invocation returned unanswered the
completions are ahead of the invocations that saw it. -/
structure StatusInv (w : StatusWorld) : Prop where
  others : w.status &&& ~~~ csrIrqSetMask = w.reported
  saw_set : w.saw = true → w.status &&& csrIrqSetMask ≠ 0
  leftSet_eq : w.leftSet = w.unanswered
  seen_le : w.unanswered = false → w.seen ≤ w.completions
  seen_lt : w.unanswered = false → w.status &&& csrIrqSetMask ≠ 0 →
    w.saw = false ∨ w.arrived = true → w.seen < w.completions

theorem statusInv_initial (status : BitVec 32) : StatusInv (.initial status) where
  others := rfl
  saw_set := fun h => by cases h
  leftSet_eq := rfl
  seen_le := fun _ => Nat.zero_le _
  seen_lt := fun _ hset _ => by
    simp only [StatusWorld.initial] at hset ⊢
    rw [if_neg hset]
    decide

/-- A write without the IRQ bit changes nothing. -/
theorem writeStatus_eq {value : BitVec 32} (h : value &&& csrIrqSetMask = 0) :
    writeStatus status value = status := by
  have hones : ~~~ (0 : BitVec 32) = BitVec.allOnes 32 := by decide
  rw [writeStatus, h, hones, BitVec.and_allOnes]

theorem StatusInv.see {reg : BitVec 32} (hi : StatusInv w) (hreg : reg = w.status) :
    StatusInv (w.see reg) := by
  unfold StatusWorld.see
  split
  · next hsee =>
    rw [hreg] at hsee
    refine { hi with saw_set := fun _ => hsee.1, seen_le := fun hanswered => ?_, seen_lt := ?_ }
    · exact hi.seen_lt hanswered hsee.1 (.inl hsee.2)
    · rintro - - (h | h) <;> cases h
  · exact hi

theorem StatusInv.returnFromIsr (hi : StatusInv w) : StatusInv w.returnFromIsr := by
  have hset : w.saw = true → decide (w.status &&& csrIrqSetMask ≠ 0) = true :=
    fun hsaw => decide_eq_true (hi.saw_set hsaw)
  have hanswered : w.returnFromIsr.unanswered = false →
      w.unanswered = false ∧ (w.saw = false ∨ w.arrived = true) := by
    unfold StatusWorld.returnFromIsr
    grind
  refine ⟨hi.others, fun h => (by cases h), ?_, ?_, ?_⟩
  · unfold StatusWorld.returnFromIsr
    simp only [hi.leftSet_eq]
    cases hsaw : w.saw with
    | true => rw [hset hsaw, Bool.and_true]
    | false => rfl
  · exact fun h => hi.seen_le (hanswered h).1
  · exact fun h hbit _ => hi.seen_lt (hanswered h).1 hbit (hanswered h).2

theorem StatusInv.act {op : CaptureOp} {r : op.Res} (hi : StatusInv w) (hop : op.LeavesIrq)
    (h : StatusWorld.act op w r = some w') : StatusInv w' := by
  unfold StatusWorld.act at h
  split at h
  · split at h
    · next hreg =>
      cases h
      exact hi.see hreg
    · cases h
  · cases h
    rw [writeStatus_eq hop]
    exact hi
  · cases h
    exact hi.returnFromIsr
  · cases h
    exact hi

theorem StatusInv.env {e : StatusEvent} (hi : StatusInv w) (h : StatusWorld.env e w = some w') :
    StatusInv w' := by
  cases e with
  | completion =>
    cases h
    have hbit : (w.status ||| csrIrqSetMask) &&& csrIrqSetMask ≠ 0 := by
      rw [or_and_mask]
      decide
    refine { hi with others := ?_, saw_set := fun _ => hbit, seen_le := ?_, seen_lt := ?_ }
    · simp only [or_and_not_mask]
      exact hi.others
    · exact fun h => (hi.seen_le h).trans (Nat.le_succ _)
    · exact fun h _ _ => Nat.lt_succ_of_le (hi.seen_le h)
  | report value =>
    cases h
    refine { hi with others := select_and_not_mask .., saw_set := ?_, seen_lt := ?_ }
    · simp only [select_and_mask]
      exact hi.saw_set
    · simp only [select_and_mask]
      exact hi.seen_lt

theorem statusInv_of_reach
    (h : (statusThreads traced).Reach (fun _ _ => True) (statusConfig status) c) :
    StatusInv c.state := by
  have hidle : RoutineLeavesIrq (.ret () : CaptureProg Unit) := trivial
  refine (Reach.meets (I := StatusInv) (statusInv_initial status) (fun _ => hidle) ?_ ?_ ?_ h).1
  · exact fun t op w r w' hi hop hact => ⟨trivial, hi.act hop hact⟩
  · exact fun e w w' hi henv => hi.env henv
  · intro t s w w' p hi hstart
    cases hstart
    exact ⟨hi, invoke_leavesIrq s⟩

theorem StatusInv.acknowledged_iff (hi : StatusInv w) : Acknowledged w ↔ w.unanswered = false := by
  constructor
  · exact fun h => hi.leftSet_eq ▸ h.cleared
  · exact fun h => ⟨hi.leftSet_eq.trans h, hi.others, hi.seen_le h⟩

theorem answered_act {op : CaptureOp} {r : op.Res} {t : Unit} (hans : w.unanswered = false)
    (hok : answered w (.call t op r) = true) (h : StatusWorld.act op w r = some w') :
    w'.unanswered = false := by
  unfold StatusWorld.act at h
  split at h
  · split at h
    · cases h
      unfold StatusWorld.see
      split <;> exact hans
    · cases h
  · cases h
    exact hans
  · cases h
    simp only [StatusWorld.returnFromIsr, hans, Bool.false_or]
    cases hsaw : w.saw with
    | false => rfl
    | true => simpa [answered, hsaw] using hok
  · cases h
    exact hans

theorem interrupt_acknowledged (traced : Bool) (status : BitVec 32) :
    (∀ c, (statusThreads traced).Reach (fun _ _ => True) (statusConfig status) c →
      (Acknowledged c.state ↔ c.state.unanswered = false)) ∧
    ∀ c, (statusThreads traced).Reach (fun w l => answered w l = true) (statusConfig status) c →
      Acknowledged c.state := by
  refine ⟨fun c h => (statusInv_of_reach h).acknowledged_iff, fun c h => ?_⟩
  have hinv : StatusInv c.state := statusInv_of_reach (h.mono fun _ _ _ => trivial)
  refine hinv.acknowledged_iff.mpr ?_
  refine Reach.invariant (fun w => w.unanswered = false) rfl ?_ ?_ ?_ h
  · exact fun t op r w w' hans hok hact => answered_act hans hok hact
  · intro e w w' hans _ henv
    cases e with
    | completion | report value =>
      cases henv
      exact hans
  · intro t s w w' p hans _ hstart
    cases hstart
    exact hans

/-- An invocation that sees the IRQ bit set, up to its return. -/
def seeing (s : ServiceRoutine) : List StatusLabel :=
  [.start () s, .call () (.readReg .csr 0) csrIrqSetMask, .call () (.writeReg .csr 0 0) (),
    .call () .readCaptureSink (some 0), .call () (.pinAttemptProcessing (some 0)) (),
    .call () (.readReg .frameBuffer 8) (0 : BitVec 32)]

theorem interrupt_acknowledged_behind : ∃ c,
    (statusThreads false).Reach (fun w l => answered w l = true) (statusConfig 0) c ∧
      c.state.seen = 1 ∧ Acknowledged c.state := by
  have hrun : ∃ c, (statusThreads false).Reach (fun w l => answered w l = true) (statusConfig 0) c ∧
      decide (c.state.seen = 1) = true :=
    Reach.exists_of_run ([.env .completion] ++ seeing .handler ++
      [.env .completion, .call () .returnFromIsr ()]) (fun w : StatusWorld => decide (w.seen = 1))
      (by decide)
  obtain ⟨c, h, hseen⟩ := hrun
  exact ⟨c, h, of_decide_eq_true hseen, (interrupt_acknowledged false 0).2 c h⟩

/-- One completion is seen twice. -/
theorem interrupt_not_acknowledged : ∃ c,
    (statusThreads false).Reach (fun _ _ => True) (statusConfig 0) c ∧
      c.state.completions = 1 ∧ c.state.seen = 2 ∧ ¬ Acknowledged c.state := by
  have hrun : ∃ c, (statusThreads false).Reach (fun _ _ => True) (statusConfig 0) c ∧
      decide (c.state.completions = 1 ∧ c.state.seen = 2) = true :=
    Reach.exists_of_run ([.env .completion] ++ seeing .messageService ++
      [.call () .returnFromIsr ()] ++ seeing .handler)
      (fun w : StatusWorld => decide (w.completions = 1 ∧ w.seen = 2)) (by decide)
  obtain ⟨c, h, hcounts⟩ := hrun
  obtain ⟨hcompletions, hseen⟩ := of_decide_eq_true hcounts
  refine ⟨c, h, hcompletions, hseen, fun hack => ?_⟩
  have hle := hack.counted
  omega

end Capture

end Xadma
