import Xadma.Verify.RingScan
import Xadma.Libxdma.Transfer
import Xadma.Verify.Chain

/-!
# The errors of the engine status

`EngineProcessTransfer` or-s the error bits together and tests them at once. `EngineProcessRing`
combines its masks by `&`: they have no bit in common, and its message is never written.
-/

namespace Xadma

/-- One of the error conditions. -/
def HasErrorBit (engineStatus : BitVec 32) : Prop :=
  engineStatus &&& xdmaAlignMismatchBit ≠ 0 ∨ engineStatus &&& xdmaMagicStoppedBit ≠ 0 ∨
    engineStatus &&& xdmaFetchStoppedBit ≠ 0 ∨ engineStatus &&& xdmaStatReadError ≠ 0 ∨
    engineStatus &&& xdmaStatDescriptorError ≠ 0

instance (engineStatus : BitVec 32) : Decidable (HasErrorBit engineStatus) :=
  inferInstanceAs (Decidable (_ ∨ _))

/-! ## `EngineProcessRing` -/

def ReportedOp.quiet (engineStatus : BitVec 32) : (o : ReportedOp) → RingWorld → o.Res
  | .ring o, s => RingWorld.quiet engineStatus o s
  | .traceError _, _ => ()

/-- The routine, alone on the ring `s`, reports the engine status as an error. -/
def RingReports (s : RingWorld) (engineStatus : BitVec 32) : Prop :=
  .traceError engineStatus ∈
    Prog.trace ReportedOp.act (ReportedOp.quiet engineStatus) engineProcessRingReported s

variable {engineStatus : BitVec 32} {s : RingWorld} {e : TransferEngine} {request : Nat}

/-- The routine with its message comes to the same as the one without. -/
theorem exec_mapOp_ring {α : Type} (p : RingProg α) (s : RingWorld) :
    Prog.exec ReportedOp.act (ReportedOp.quiet engineStatus) (p.mapOp .ring fun _ r => r) s =
      execQuiet engineStatus p s := by
  induction p generalizing s with
  | ret a => rfl
  | call o k ih =>
    rw [Prog.mapOp, Prog.exec_call, execQuiet, Prog.exec_call]
    exact congrArg _ (funext fun s' => ih _ s')

theorem exec_engineProcessRingReported (engineStatus : BitVec 32) (s : RingWorld) :
    Prog.exec ReportedOp.act (ReportedOp.quiet engineStatus) engineProcessRingReported s =
      execQuiet engineStatus engineProcessRing s := by
  rw [exec_engineProcessRing, ← exec_mapOp_ring, engineProcessRingReported, ReportedOp.perform,
    Prog.exec_perform_bind rfl rfl, Prog.when]
  split <;> rfl

theorem isRing_of_mem_trace {α : Type} {p : RingProg α} {op : ReportedOp}
    (h : op ∈ Prog.trace ReportedOp.act (ReportedOp.quiet engineStatus)
      (p.mapOp .ring fun _ r => r) s) : ∃ o, op = .ring o := by
  have hall : Prog.All (fun op => ∃ o, op = .ring o)
      (p.mapOp .ring fun _ r => r : ReportedProg α) := by
    apply Prog.All.mapOp
    exact fun o => ⟨o, rfl⟩
  exact hall.trace op h

/-- The message depends on the test alone. -/
theorem ringReports_iff : RingReports s engineStatus ↔ ringEngineError engineStatus = true := by
  have hread : ReportedOp.quiet engineStatus (.ring .engineStatus) s = engineStatus := rfl
  rw [RingReports, engineProcessRingReported, ReportedOp.perform,
    Prog.trace_perform_bind hread rfl, Prog.when]
  split
  · next herror =>
    rw [ReportedOp.perform, Prog.trace_perform_bind rfl rfl]
    exact iff_of_true (.tail _ (.head _)) herror
  · next hnone =>
    refine iff_of_false (fun hmem => ?_) hnone
    cases hmem with
    | tail _ hmem =>
      obtain ⟨o, ho⟩ := isRing_of_mem_trace hmem
      cases ho

/-- No status is reported. -/
theorem ringEngineError_eq_false (engineStatus : BitVec 32) :
    ringEngineError engineStatus = false := by
  have hmasks : xdmaAlignMismatchBit &&& xdmaMagicStoppedBit &&& xdmaFetchStoppedBit &&&
      xdmaStatReadError &&& xdmaStatDescriptorError = 0 := by decide
  have hnone : engineStatus &&& xdmaAlignMismatchBit &&& xdmaMagicStoppedBit &&&
      xdmaFetchStoppedBit &&& xdmaStatReadError &&& xdmaStatDescriptorError = 0 := by
    calc _ = engineStatus &&& (xdmaAlignMismatchBit &&& xdmaMagicStoppedBit &&&
          xdmaFetchStoppedBit &&& xdmaStatReadError &&& xdmaStatDescriptorError) := by
          simp only [BitVec.and_assoc]
      _ = engineStatus &&& 0#32 := by rw [hmasks]; rfl
      _ = 0 := BitVec.and_zero
  rw [ringEngineError, hnone]
  rfl

theorem not_ringReports (s : RingWorld) (engineStatus : BitVec 32) :
    ¬ RingReports s engineStatus := by
  rw [ringReports_iff, ringEngineError_eq_false]
  exact Bool.false_ne_true

/-! ## `EngineProcessTransfer` -/

/-- The case of the status behind the first two. -/
def errorBranch (request : Nat) : TransferProg Unit := do
  let _ ← (TransferOp.unmarkCancelable request).perform
  let _ ← TransferOp.release.perform
  (TransferOp.complete request statusInternalError 0).perform

/-- What the routine makes of the status is its error branch. -/
def TakesErrorBranch (e : TransferEngine) (request : Nat) (engineStatus : BitVec 32) : Prop :=
  processStatus e request engineStatus = errorBranch request

theorem takesErrorBranch_iff :
    TakesErrorBranch e request engineStatus ↔ engineStatus &&& xdmaStatExpectedZero ≠ 0 := by
  rw [TakesErrorBranch, processStatus]
  split
  · next hok =>
    refine iff_of_false (fun heq => ?_) fun hne => hne hok
    cases heq
  · next herror => exact iff_of_true rfl herror

theorem or_ne_zero_iff {w : Nat} {x y : BitVec w} : x ||| y ≠ 0 ↔ x ≠ 0 ∨ y ≠ 0 :=
  (not_congr BitVec.or_eq_zero_iff).trans not_and_or

/-- Without the busy bit the or-ed constant is the list of the error conditions. -/
theorem expectedZero_iff (engineStatus : BitVec 32) :
    engineStatus &&& ~~~xdmaBusyBit &&& xdmaStatExpectedZero ≠ 0 ↔ HasErrorBit engineStatus := by
  have hmask : ~~~xdmaBusyBit &&& xdmaStatExpectedZero =
      xdmaAlignMismatchBit ||| (xdmaMagicStoppedBit ||| (xdmaFetchStoppedBit |||
        (xdmaStatReadError ||| xdmaStatDescriptorError))) := by decide
  rw [BitVec.and_assoc, hmask, HasErrorBit]
  simp only [BitVec.and_or_distrib_left, or_ne_zero_iff]

/-- The two routines report the status alike: exactly where it has an error bit. The busy bit is
masked off for `EngineProcessTransfer`. -/
def ErrorsAgree (e : TransferEngine) (request : Nat) (s : RingWorld) (engineStatus : BitVec 32) :
    Prop :=
  (RingReports s engineStatus ↔ HasErrorBit engineStatus) ∧
    (HasErrorBit engineStatus ↔ TakesErrorBranch e request (engineStatus &&& ~~~xdmaBusyBit))

/-- **The classification of the errors.** The routines agree on the statuses without an error bit,
and on no other one: `EngineProcessTransfer` takes its error branch, and `EngineProcessRing` has no
message. -/
theorem errorsAgree_iff (e : TransferEngine) (request : Nat) (s : RingWorld)
    (engineStatus : BitVec 32) :
    ErrorsAgree e request s engineStatus ↔ ¬ HasErrorBit engineStatus := by
  have hring := not_ringReports s engineStatus
  have htransfer : TakesErrorBranch e request (engineStatus &&& ~~~xdmaBusyBit) ↔
      HasErrorBit engineStatus := takesErrorBranch_iff.trans (expectedZero_iff engineStatus)
  constructor
  · intro h herror
    exact hring (h.1.mpr herror)
  · intro h
    exact ⟨iff_of_false hring h, htransfer.symm⟩

/-- An alignment mismatch. -/
theorem alignMismatch_not_reported :
    ¬ ErrorsAgree ⟨.sample .mm .contiguous, .w64, .h2c⟩ 0 (.cleared false 0 0 fun _ => []) 0x8#32 :=
  fun h => not_ringReports _ _ (h.1.mpr (by decide))

end Xadma
