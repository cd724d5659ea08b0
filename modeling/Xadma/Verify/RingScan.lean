import Xadma.Verify.RingCopyFailure

/-!
# The scan of `EngineProcessRing`

The loop has no bound of its own. It ends because it clears the status words that it walks over, at
the latest where it has come around the ring, and a second scan finds the first slot empty.
-/

namespace Xadma

/-- What a routine finds while the hardware is quiet. -/
def RingWorld.quiet (engineStatus : BitVec 32) : (o : RingOp) → RingWorld → o.Res
  | .engineStatus, _ => engineStatus
  | o, s => RingWorld.answer copyAlways o s

/-- The routine alone, from a state of the ring. -/
abbrev execQuiet {α : Type} (engineStatus : BitVec 32) (p : RingProg α) (s : RingWorld) :
    Option (α × RingWorld) :=
  Prog.exec RingWorld.act (RingWorld.quiet engineStatus) p s

/-- The words with the EOP bit among the `len` status words from slot `a` on. -/
def eopWords (status : Nat → BitVec 32) (a len : Nat) : Nat :=
  (List.range len).countP fun j => status ((a + j) % xdmaRingNumBlocks) &&& xdmaResultEopBit ≠ 0

/-- The `len` results from the tail on are scanned: their status words are cleared, and nothing else
of the results is touched. -/
structure ResultsScanned (len : Nat) (s s' : RingWorld) : Prop where
  tail : s'.tail = (s.tail + len) % xdmaRingNumBlocks
  cleared : ∀ j < len, s'.status ((s.tail + j) % xdmaRingNumBlocks) = 0
  kept : ∀ k, (∀ j < len, k ≠ (s.tail + j) % xdmaRingNumBlocks) → s'.status k = s.status k
  length : s'.length = s.length

variable {engineStatus : BitVec 32} {s : RingWorld} {a bound eopCount len tail : Nat}

/-! ## The loop -/

theorem eopWords_succ (status : Nat → BitVec 32) (a len : Nat) :
    eopWords status a (len + 1) =
      (if status (a % xdmaRingNumBlocks) &&& xdmaResultEopBit ≠ 0 then 1 else 0) +
        eopWords status (a + 1) len := by
  rw [eopWords, List.range_succ_eq_map, List.countP_cons, List.countP_map, Nat.add_comm,
    Nat.add_zero]
  congr 1
  · simp only [decide_eq_true_eq]
  · refine List.countP_congr fun j _ => ?_
    rw [Function.comp_apply, Nat.succ_eq_add_one, Nat.add_comm j 1, Nat.add_assoc]

/-- Clearing the first slot of a run leaves the words behind it. -/
theorem MaximalRun.eopWords_clear {status : Nat → BitVec 32}
    (h : MaximalRun xdmaRingNumBlocks status a (len + 1)) :
    eopWords (Function.update status (a % xdmaRingNumBlocks) 0) (a + 1) len =
      eopWords status (a + 1) len := by
  have hle := h.le
  refine List.countP_congr fun j hj => ?_
  rw [List.mem_range] at hj
  have hne : (a + 1 + j) % xdmaRingNumBlocks ≠ a % xdmaRingNumBlocks := by
    intro hmod
    have := eq_of_mod_eq_of_window hmod (by omega) le_rfl (by omega) (by omega)
    omega
  rw [Function.update_of_ne hne]

/-- What the loop makes of a run. -/
def RingWorld.clearScanned (s : RingWorld) (a len : Nat) : RingWorld :=
  { s with
    status := clearRun xdmaRingNumBlocks s.status a len
    scanned := s.scanned + len }

theorem exec_status_bind {α : Type} (k : Nat) (f : BitVec 32 → RingProg α) :
    execQuiet engineStatus ((RingOp.status k).perform >>= f) s =
      execQuiet engineStatus (f (s.status k)) s :=
  Prog.exec_perform_bind rfl (if_pos rfl)

/-- The loop is over behind the run: after as many steps as the run is long. -/
theorem exec_scanLoop (engineStatus : BitVec 32)
    (h : MaximalRun xdmaRingNumBlocks s.status a len) (hbound : len < bound) (eopCount : Nat) :
    execQuiet engineStatus (scanLoop bound (a % xdmaRingNumBlocks) eopCount) s =
      some (some ((a + len) % xdmaRingNumBlocks, eopCount + eopWords s.status a len),
        s.clearScanned a len) := by
  induction len generalizing s a bound eopCount with
  | zero =>
    obtain ⟨bound, rfl⟩ := Nat.exists_eq_succ_of_ne_zero (Nat.ne_of_gt hbound)
    have hzero : s.status (a % xdmaRingNumBlocks) = 0 := h.ends ringNumBlocks_pos
    rw [scanLoop, exec_status_bind, if_pos hzero]
    rfl
  | succ len ih =>
    obtain ⟨bound, rfl⟩ := Nat.exists_eq_succ_of_ne_zero (Nat.ne_of_gt (Nat.zero_lt_of_lt hbound))
    have hused : s.status (a % xdmaRingNumBlocks) ≠ 0 := h.used 0 (Nat.succ_pos len)
    rw [scanLoop, exec_status_bind, if_neg hused, exec_status_bind, RingOp.perform, execQuiet,
      Prog.exec_perform_bind rfl rfl, engineRingAdvance_mod]
    refine (ih h.clear (Nat.lt_of_succ_lt_succ hbound) _).trans ?_
    have hstate : ({ s with
        status := Function.update s.status (a % xdmaRingNumBlocks) 0
        scanned := s.scanned + 1 } : RingWorld).clearScanned (a + 1) len =
          s.clearScanned a (len + 1) := by
      rw [RingWorld.clearScanned, RingWorld.clearScanned, clearRun, Nat.add_assoc,
        Nat.add_comm 1 len]
    have hcount : (if s.status (a % xdmaRingNumBlocks) &&& xdmaResultEopBit ≠ 0 then eopCount + 1
        else eopCount) + eopWords (Function.update s.status (a % xdmaRingNumBlocks) 0) (a + 1) len =
          eopCount + eopWords s.status a (len + 1) := by
      rw [h.eopWords_clear, eopWords_succ]
      split <;> omega
    rw [hcount, Nat.add_assoc a 1 len, Nat.add_comm 1 len]
    exact congrArg (fun s' => some (_, s')) hstate

/-- The bound of the scan is never met. -/
theorem exec_scanResults_of_scanLoop {bound' : Nat} {r : Nat × Nat} {s' : RingWorld}
    (h : execQuiet engineStatus (scanLoop bound tail eopCount) s = some (some r, s'))
    (hbound : bound ≤ bound' + 1) :
    execQuiet engineStatus (scanResults bound' tail eopCount) s = some (r, s') := by
  induction bound generalizing tail eopCount s bound' with
  | zero => cases h
  | succ bound ih =>
    rw [scanLoop, exec_status_bind] at h
    cases bound' with
    | zero =>
      obtain rfl : bound = 0 := by omega
      split at h
      · cases h
        rfl
      · rw [exec_status_bind] at h
        cases h
    | succ bound' =>
      rw [scanResults, exec_status_bind]
      split at h
      · next hzero =>
        cases h
        rw [if_pos hzero]
        rfl
      · next hused =>
        rw [exec_status_bind, RingOp.perform, execQuiet, Prog.exec_perform_bind rfl rfl] at h
        rw [if_neg hused, exec_status_bind, RingOp.perform, execQuiet,
          Prog.exec_perform_bind rfl rfl]
        exact ih h (Nat.le_of_succ_le_succ hbound)

/-! ## The routine -/

/-- What the routine stores behind the scan. -/
def RingWorld.stored (s : RingWorld) (tail eopCount : Nat) : RingWorld :=
  { s with
    tail := tail
    published := s.scanned
    scanning := false
    completionSignal := s.completionSignal || decide (eopCount > 0)
    completedDescCount := if s.poll then 0 else s.completedDescCount }

theorem exec_clearWriteback (w : RingWorld) (eopCount : Nat) :
    execQuiet engineStatus (do
        let poll : Bool ← RingOp.poll.perform
        Prog.when (poll = true) RingOp.clearWriteback.perform
        return eopCount) w =
      some (eopCount,
        { w with completedDescCount := if w.poll then 0 else w.completedDescCount }) := by
  have hread : RingWorld.quiet engineStatus .poll w = w.poll := rfl
  rw [RingOp.perform, execQuiet, Prog.exec_perform_bind hread (if_pos rfl), Prog.when]
  split <;> rfl

theorem exec_storeResults (s : RingWorld) (tail eopCount : Nat) :
    execQuiet engineStatus (do
        (RingOp.storeTail tail).perform
        Prog.when (eopCount > 0) RingOp.setSignal.perform
        let poll : Bool ← RingOp.poll.perform
        Prog.when (poll = true) RingOp.clearWriteback.perform
        return eopCount) s = some (eopCount, s.stored tail eopCount) := by
  rw [RingOp.perform, execQuiet, Prog.exec_perform_bind rfl rfl, Prog.exec_bind, Prog.when,
    RingWorld.stored]
  split
  · next heop =>
    rw [decide_eq_true heop, Bool.or_true]
    exact exec_clearWriteback ..
  · next heop =>
    rw [decide_eq_false heop, Bool.or_false]
    exact exec_clearWriteback ..

/-- What the routine leaves behind a run. -/
def RingWorld.processed (s : RingWorld) (len : Nat) : RingWorld :=
  (s.clearScanned s.tail len).stored ((s.tail + len) % xdmaRingNumBlocks)
    (eopWords s.status s.tail len)

theorem exec_processResults (engineStatus : BitVec 32) (htail : s.tail < xdmaRingNumBlocks)
    (h : MaximalRun xdmaRingNumBlocks s.status s.tail len) :
    execQuiet engineStatus processResults s =
      some (eopWords s.status s.tail len, s.processed len) := by
  have hread : RingWorld.quiet engineStatus (.indices .scan) s = (s.head, s.tail) := rfl
  have hindices : RingWorld.act (.indices .scan) s (s.head, s.tail) =
      some { s with scanning := true } := if_pos rfl
  have hrun : MaximalRun xdmaRingNumBlocks { s with scanning := true }.status s.tail len := h
  have hscan := exec_scanResults_of_scanLoop
    (exec_scanLoop engineStatus hrun (Nat.lt_succ_self len) 0) (Nat.succ_le_succ h.le)
  rw [Nat.mod_eq_of_lt htail, Nat.zero_add] at hscan
  rw [processResults, RingOp.perform, execQuiet, Prog.exec_perform_bind hread hindices]
  exact (Prog.exec_bind_of_some hscan).trans (exec_storeResults ..)

/-- The status of the engine changes nothing but the message. -/
theorem exec_engineProcessRing (engineStatus : BitVec 32) (s : RingWorld) :
    execQuiet engineStatus engineProcessRing s = execQuiet engineStatus processResults s := rfl

theorem RingWorld.resultsScanned (s : RingWorld) (len : Nat) :
    ResultsScanned len s (s.processed len) where
  tail := rfl
  cleared _ hj := clearRun_eq_zero s.status hj
  kept _ hk := clearRun_of_ne hk
  length := rfl

/-- Behind a scan nothing is left to store. -/
theorem RingWorld.processed_again (s : RingWorld) (len : Nat) :
    (s.processed len).processed 0 = s.processed len := by
  have hnone : eopWords (s.processed len).status (s.processed len).tail 0 = 0 := rfl
  have hsignal (b : Bool) : (b || decide (0 > 0)) = b := Bool.or_false b
  rw [processed, hnone]
  simp only [processed, stored, clearScanned, clearRun, Nat.add_zero, Nat.mod_mod, hsignal]
  have hcount (x : BitVec 32) : (if s.poll then 0 else if s.poll then 0 else x) =
      if s.poll then 0 else x := by
    split <;> rfl
  congr 1
  exact hcount _

/-- **The scan of the results.** From any contents of the ring it ends behind the maximal run of
status words from the tail on, which are at most all, and takes as many steps as that is long. A
second one finds nothing and changes nothing. -/
theorem engineProcessRing_scans_run (s : RingWorld) (engineStatus : BitVec 32)
    (htail : s.tail < xdmaRingNumBlocks) :
    ∃ len s', MaximalRun xdmaRingNumBlocks s.status s.tail len ∧
      (∀ len', MaximalRun xdmaRingNumBlocks s.status s.tail len' → len' = len) ∧
      (∀ bound, len < bound → ∃ w, execQuiet engineStatus (scanLoop bound s.tail 0) s =
        some (some (s'.tail, eopWords s.status s.tail len), w)) ∧
      execQuiet engineStatus engineProcessRing s = some (eopWords s.status s.tail len, s') ∧
      ResultsScanned len s s' ∧
      ∀ engineStatus', execQuiet engineStatus' engineProcessRing s' = some (0, s') := by
  obtain ⟨len, h⟩ := exists_maximalRun xdmaRingNumBlocks s.status s.tail
  refine ⟨len, _, h, fun len' h' => h'.unique h, fun bound hbound => ?_,
    exec_processResults engineStatus htail h, s.resultsScanned len, fun engineStatus' => ?_⟩
  · have hloop := exec_scanLoop engineStatus h hbound 0
    rw [Nat.mod_eq_of_lt htail, Nat.zero_add] at hloop
    exact ⟨_, hloop⟩
  · have hnone := h.cleared.mod
    have hlt := Nat.mod_lt (s.tail + len) ringNumBlocks_pos
    have hagain := exec_processResults engineStatus' (s := s.processed len) hlt hnone
    rwa [RingWorld.processed_again] at hagain

/-- Two results around the end of the table, the first of which ends a packet. -/
def twoResults : RingWorld :=
  { RingWorld.cleared false 0 257 (fun _ => []) with
    status := fun k => if k = 257 then 1 else if k = 0 then 2 else 0 }

theorem engineProcessRing_scans_run_two :
    ∃ s', execQuiet 0 engineProcessRing twoResults = some (1, s') ∧ s'.tail = 1 ∧
      s'.status 257 = 0 ∧ s'.status 0 = 0 := by
  obtain ⟨len, s', -, hunique, -, hexec, hscanned, -⟩ :=
    engineProcessRing_scans_run twoResults 0 (by decide)
  have hrun : MaximalRun xdmaRingNumBlocks twoResults.status twoResults.tail 2 :=
    ⟨by decide, by decide, by decide⟩
  obtain rfl : 2 = len := hunique 2 hrun
  have heop : eopWords twoResults.status twoResults.tail 2 = 1 := by decide
  rw [heop] at hexec
  exact ⟨s', hexec, hscanned.tail, hscanned.cleared 0 (by decide), hscanned.cleared 1 (by decide)⟩

end Xadma
