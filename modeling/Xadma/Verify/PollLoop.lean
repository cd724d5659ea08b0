import Xadma.Libadma.Engine
import Xadma.Verify.PollTransfer

/-!
# The loop of `EnginePollTransfer`

A count above the expected number is turned into the error bit of the local value, but only behind
the test of that bit. The test at the end of the loop then finds another value than the expected
one, and the next iteration reads the buffer anew.
-/

namespace Xadma

namespace PollInput

/-- There is nothing more to wait for: an error, or a count that has reached the number. -/
def stops (expected value : BitVec 32) : Bool :=
  failed value || decide (expected ≤ value &&& xdmaWbCountMask)

end PollInput

open PollInput

/-- Behind `k` others, value `k` from read `n` on is the first that ends the wait. -/
def FirstStop (writeback : Nat → BitVec 32) (expected : BitVec 32) (n k : Nat) : Prop :=
  stops expected (writeback (n + k)) = true ∧ ∀ j < k, stops expected (writeback (n + j)) = false

/-- That value is an error or the expected count. -/
def NotOvershot (writeback : Nat → BitVec 32) (expected : BitVec 32) (n : Nat) : Prop :=
  ∀ k, FirstStop writeback expected n k →
    failed (writeback (n + k)) = true ∨ counted expected (writeback (n + k)) = true

def TransferWorld.afterReads (w : TransferWorld) (k : Nat) : TransferWorld :=
  ⟨{ w.engine with writebackReads := w.engine.writebackReads + k }, w.wdf⟩

/-- The routine of thread `t` alone, with the answers of `i`. -/
def execPoll {α : Type} (t : TransferThread) (i : PollInput) (p : TransferProg α)
    (w : TransferWorld) : Option (α × TransferWorld) :=
  Prog.exec (fun o w r => TransferWorld.act t o w r) i.answer p w

/-- The loop ends with the first value that ends the wait, however many it may read: behind the
expected count the routine goes on with `process`, and behind an error or a higher count it returns
an error. -/
def LoopEnds (process : TransferProg Unit) (poll : (bound : Nat) → TransferProg NtStatus)
    (t : TransferThread) (i : PollInput) (w : TransferWorld) : Prop :=
  ∀ k, FirstStop i.writeback w.engine.numDescriptors w.engine.writebackReads k →
    ∀ bound, k < bound →
    let value := i.writeback (w.engine.writebackReads + k)
    if failed value = true ∨ w.engine.numDescriptors < value &&& xdmaWbCountMask then
      ∃ status, ntSuccess status = false ∧
        execPoll t i (poll bound) w = some (status, w.afterReads (k + 1))
    else
      execPoll t i (poll bound) w =
        execPoll t i (process >>= fun _ => .ret statusSuccess) (w.afterReads (k + 1))

variable {expected value : BitVec 32} {t : TransferThread} {i : PollInput} {w : TransferWorld}
  {bound k n : Nat}

/-! ## One iteration -/

theorem count_toNat_lt (value : BitVec 32) : (value &&& xdmaWbCountMask).toNat < 2 ^ 24 := by
  have hmask : xdmaWbCountMask.toNat = 2 ^ 24 - 1 := by decide
  rw [BitVec.toNat_and, hmask, Nat.and_two_pow_sub_one_eq_mod]
  exact Nat.mod_lt _ (by decide)

/-- A count has 24 bits, so that it does not matter whether `expected` has the error bit. -/
theorem expected_ne_iff_counted (expected value : BitVec 32) :
    (expected ≠ if value &&& xdmaWbCountMask > expected then expected ||| xdmaWbErrMask
      else value &&& xdmaWbCountMask) ↔ counted expected value = false := by
  by_cases hgt : value &&& xdmaWbCountMask > expected
  · have hcount := count_toNat_lt value
    rw [gt_iff_lt, BitVec.lt_def] at hgt
    exact expected_ne_iff (failed_eq_false (by omega)) value
  · rw [if_neg hgt, counted, beq_eq_false_iff_ne]
    exact ne_comm

/-- An error and the count leave; every other value, a higher count among them, loops on. -/
theorem execPoll_awaitWriteback_succ :
    execPoll t i (awaitWriteback expected (bound + 1)) w =
      if failed (i.writeback w.engine.writebackReads) = true then
        some (statusInternalError, w.afterReads 1)
      else if counted expected (i.writeback w.engine.writebackReads) = true then
        some (statusSuccess, w.afterReads 1)
      else execPoll t i (awaitWriteback expected bound) (w.afterReads 1) := by
  have htest := expected_ne_iff_counted expected (i.writeback w.engine.writebackReads)
  have hfailed : failed (i.writeback w.engine.writebackReads) = true ↔
      i.writeback w.engine.writebackReads &&& xdmaWbErrMask ≠ 0 := by
    rw [failed, bne_iff_ne]
  unfold execPoll
  have hread : i.answer .completedDescCount w = i.writeback w.engine.writebackReads := rfl
  rw [awaitWriteback, TransferOp.perform, Prog.exec_perform_bind hread rfl]
  simp only [← hfailed]
  split
  · rfl
  · cases hcounted : counted expected (i.writeback w.engine.writebackReads) with
    | false =>
      rw [if_pos (htest.mpr hcounted)]
      rfl
    | true =>
      rw [if_neg fun hne => Bool.noConfusion ((htest.mp hne).symm.trans hcounted)]
      rfl

theorem TransferWorld.afterReads_afterReads (j k : Nat) :
    (w.afterReads j).afterReads k = w.afterReads (j + k) := by
  simp only [TransferWorld.afterReads, Nat.add_assoc]

/-- Values that leave nothing to do but to wait. -/
theorem execPoll_awaitWriteback_add (k bound : Nat)
    (h : ∀ j < k, failed (i.writeback (w.engine.writebackReads + j)) = false ∧
      counted expected (i.writeback (w.engine.writebackReads + j)) = false) :
    execPoll t i (awaitWriteback expected (k + bound)) w =
      execPoll t i (awaitWriteback expected bound) (w.afterReads k) := by
  induction k generalizing w with
  | zero =>
    rw [Nat.zero_add]
    rfl
  | succ k ih =>
    obtain ⟨hfailed, hcounted⟩ := h 0 (Nat.zero_lt_succ k)
    rw [Nat.add_zero] at hfailed hcounted
    rw [show k + 1 + bound = k + bound + 1 by omega, execPoll_awaitWriteback_succ, hfailed,
      hcounted, if_neg Bool.false_ne_true, if_neg Bool.false_ne_true, ih fun j hj => ?_,
      TransferWorld.afterReads_afterReads, Nat.add_comm 1 k]
    have hnext := h (j + 1) (Nat.succ_lt_succ hj)
    rwa [← Nat.add_assoc, Nat.add_right_comm] at hnext

/-- A counter that overshoots and stays: the loop reads as often as it may. -/
theorem execPoll_awaitWriteback_none
    (h : ∀ j, failed (i.writeback (w.engine.writebackReads + j)) = false ∧
      counted expected (i.writeback (w.engine.writebackReads + j)) = false) (bound : Nat) :
    execPoll t i (awaitWriteback expected bound) w = none := by
  have hwait := execPoll_awaitWriteback_add (t := t) bound 0 fun j _ => h j
  rw [Nat.add_zero] at hwait
  rw [hwait]
  rfl

theorem not_stops (h : stops expected value = false) :
    failed value = false ∧ counted expected value = false := by
  rw [stops, Bool.or_eq_false_iff, decide_eq_false_iff_not] at h
  refine ⟨h.1, ?_⟩
  rw [counted, beq_eq_false_iff_ne]
  exact fun heq => h.2 (heq ▸ BitVec.le_refl _)

/-- The loop from its start to the first value that ends the wait. -/
theorem FirstStop.execPoll_awaitWriteback
    (h : FirstStop i.writeback expected w.engine.writebackReads k) (hk : k < bound) :
    execPoll t i (awaitWriteback expected bound) w =
      if failed (i.writeback (w.engine.writebackReads + k)) = true then
        some (statusInternalError, w.afterReads (k + 1))
      else if counted expected (i.writeback (w.engine.writebackReads + k)) = true then
        some (statusSuccess, w.afterReads (k + 1))
      else execPoll t i (awaitWriteback expected (bound - (k + 1))) (w.afterReads (k + 1)) := by
  have hwait := execPoll_awaitWriteback_add (t := t) k (bound - (k + 1) + 1)
    fun j hj => not_stops (h.2 j hj)
  rw [show k + (bound - (k + 1) + 1) = bound by omega, execPoll_awaitWriteback_succ,
    TransferWorld.afterReads_afterReads] at hwait
  exact hwait

/-! ## The routine around the loop -/

/-- What the two drivers have in common. -/
def pollWith (process : TransferProg Unit) (bound : Nat) : TransferProg NtStatus := do
  let expected : BitVec 32 ← TransferOp.numDescriptors.perform
  let status ← awaitWriteback expected bound
  if ntSuccess status then do
    process
    return statusSuccess
  else return status

theorem enginePollTransfer_eq (e : TransferEngine) :
    enginePollTransfer e = pollWith (engineProcessTransfer e) := rfl

theorem admaEnginePollTransfer_eq : admaEnginePollTransfer = pollWith admaEngineProcessTransfer :=
  rfl

theorem execPoll_pollWith (process : TransferProg Unit) :
    execPoll t i (pollWith process bound) w =
      (execPoll t i (awaitWriteback w.engine.numDescriptors bound) w).bind fun x =>
        execPoll t i (if ntSuccess x.1 then process >>= fun _ => .ret statusSuccess else .ret x.1)
          x.2 := by
  have hread : i.answer .numDescriptors w = w.engine.numDescriptors := rfl
  have hact : TransferWorld.act t .numDescriptors w w.engine.numDescriptors = some w :=
    TransferWorld.act_eq_some.mpr ⟨if_pos rfl, rfl⟩
  unfold execPoll
  rw [pollWith, TransferOp.perform, Prog.exec_perform_bind hread hact, Prog.exec_bind]
  rfl

/-- A value that is neither an error nor a higher count is the expected one. -/
theorem counted_of_not (hstops : stops expected value = true)
    (h : ¬ (failed value = true ∨ expected < value &&& xdmaWbCountMask)) :
    failed value = false ∧ counted expected value = true := by
  rw [not_or, Bool.not_eq_true] at h
  rw [stops, h.1, Bool.false_or, decide_eq_true_eq] at hstops
  refine ⟨h.1, ?_⟩
  rw [counted, beq_iff_eq]
  exact BitVec.le_antisymm (BitVec.not_lt.mp h.2) hstops

theorem not_above_of_counted (h : counted expected value = true) :
    ¬ expected < value &&& xdmaWbCountMask := by
  rw [counted, beq_iff_eq] at h
  rw [h]
  exact BitVec.lt_irrefl _

variable {process : TransferProg Unit}

theorem LoopEnds.notOvershot (h : LoopEnds process (pollWith process) t i w) :
    NotOvershot i.writeback w.engine.numDescriptors w.engine.writebackReads := by
  intro k hk
  by_contra hover
  rw [not_or, Bool.not_eq_true, Bool.not_eq_true] at hover
  obtain ⟨hfailed, hcounted⟩ := hover
  -- what is left is a count above the number, and the loop goes on
  have hends := h k hk (k + 1) (Nat.lt_succ_self k)
  have habove : failed (i.writeback (w.engine.writebackReads + k)) = true ∨
      w.engine.numDescriptors <
        i.writeback (w.engine.writebackReads + k) &&& xdmaWbCountMask := by
    by_contra hno
    have hcount := (counted_of_not hk.1 hno).2
    rw [hcounted] at hcount
    cases hcount
  simp only [if_pos habove] at hends
  obtain ⟨status, -, hexec⟩ := hends
  rw [execPoll_pollWith, hk.execPoll_awaitWriteback (Nat.lt_succ_self k), hfailed, hcounted,
    if_neg Bool.false_ne_true, if_neg Bool.false_ne_true, Nat.sub_self] at hexec
  cases hexec

theorem NotOvershot.loopEnds
    (h : NotOvershot i.writeback w.engine.numDescriptors w.engine.writebackReads) :
    LoopEnds process (pollWith process) t i w := by
  intro k hk bound hbound
  have hexec := hk.execPoll_awaitWriteback (t := t) hbound
  simp only
  rw [execPoll_pollWith, hexec]
  split
  · next hstop =>
    have hfailed : failed (i.writeback (w.engine.writebackReads + k)) = true := by
      obtain hfailed | hcounted := h k hk
      · exact hfailed
      · exact hstop.resolve_right (not_above_of_counted hcounted)
    have herror : ntSuccess statusInternalError = false := by decide
    rw [if_pos hfailed, Option.bind_some, herror]
    exact ⟨statusInternalError, herror, rfl⟩
  · next hgo =>
    obtain ⟨hfailed, hcounted⟩ := counted_of_not hk.1 hgo
    have hsuccess : ntSuccess statusSuccess = true := by decide
    rw [hfailed, hcounted, if_neg Bool.false_ne_true, if_pos rfl, Option.bind_some, hsuccess]
    rfl

theorem loopEnds_iff (process : TransferProg Unit) (t : TransferThread) (i : PollInput)
    (w : TransferWorld) :
    LoopEnds process (pollWith process) t i w ↔
      NotOvershot i.writeback w.engine.numDescriptors w.engine.writebackReads :=
  ⟨LoopEnds.notOvershot, NotOvershot.loopEnds⟩

/-- In both drivers the loop ends as it should exactly if the first value that ends the wait is no
overshot count. -/
theorem enginePollTransfer_ends_iff (e : TransferEngine) (t : TransferThread) (i : PollInput)
    (w : TransferWorld) :
    (LoopEnds (engineProcessTransfer e) (enginePollTransfer e) t i w ↔
      NotOvershot i.writeback w.engine.numDescriptors w.engine.writebackReads) ∧
    (LoopEnds admaEngineProcessTransfer admaEnginePollTransfer t i w ↔
      NotOvershot i.writeback w.engine.numDescriptors w.engine.writebackReads) := by
  rw [enginePollTransfer_eq, admaEnginePollTransfer_eq]
  exact ⟨loopEnds_iff _ t i w, loopEnds_iff _ t i w⟩

/-- A counter that overshoots and stays there is read for ever. -/
theorem enginePollTransfer_overshot (e : TransferEngine) (t : TransferThread) (i : PollInput)
    (w : TransferWorld) (h : ∀ j, failed (i.writeback (w.engine.writebackReads + j)) = false ∧
      w.engine.numDescriptors < i.writeback (w.engine.writebackReads + j) &&& xdmaWbCountMask)
    (bound : Nat) : execPoll t i (enginePollTransfer e bound) w = none := by
  rw [enginePollTransfer_eq, execPoll_pollWith, execPoll_awaitWriteback_none fun j => ⟨(h j).1, ?_⟩]
  · rfl
  · exact Bool.eq_false_iff.mpr fun hcounted => not_above_of_counted hcounted (h j).2

/-- The engine was started for a fragment of one descriptor. -/
def oneExpected : TransferWorld :=
  let w := TransferWorld.idle true (fun _ => .zero) fun _ => shortRequest
  { w with engine := { w.engine with numDescriptors := 1 } }

/-- The writeback buffer says two. -/
theorem enginePollTransfer_loops_on :
    ¬ LoopEnds (engineProcessTransfer sampleEngine) (enginePollTransfer sampleEngine) (.dispatch 0)
      (.sample 2) oneExpected := by
  intro h
  rw [enginePollTransfer_eq] at h
  have hleft := (loopEnds_iff _ _ _ _).mp h 0 ⟨by decide, fun j hj => absurd hj (Nat.not_lt_zero j)⟩
  exact absurd hleft (by decide)

end Xadma
