import Xadma.Libxdma.EngineRegs

/-!
# Performance counters

A counter that carries into its high word between the reads of its halves is put together from two
different values of it. The pending count is put together from the high register alone.
-/

namespace Xadma

/-- No counter goes down, and anything else may happen between two reads. -/
structure PerfEvolution.Runs (hw : PerfEvolution) : Prop where
  cycle : ∀ s t, s ≤ t → (hw s).cycle ≤ (hw t).cycle
  data : ∀ s t, s ≤ t → (hw s).data ≤ (hw t).data
  pending : ∀ s t, s ≤ t → (hw s).pending ≤ (hw t).pending

/-- Each value lies between those of its counter at the start of the call and at its end. -/
structure PerfData.Untorn (start stop : PerfCounters) (perfData : PerfData) : Prop where
  cycle : start.cycle ≤ perfData.clockCycleCount ∧ perfData.clockCycleCount ≤ stop.cycle
  data : start.data ≤ perfData.dataCycleCount ∧ perfData.dataCycleCount ≤ stop.data
  pending : start.pending ≤ perfData.pendingCount ∧ perfData.pendingCount ≤ stop.pending

namespace OperandOrder

/-- The place of the left operand among the two reads. -/
def left : OperandOrder → Nat
  | .leftFirst => 1
  | .rightFirst => 2

def right : OperandOrder → Nat
  | .leftFirst => 2
  | .rightFirst => 1

/-- A counter that is read from time `t` on, in a call from `start` to `stop`. With the high half
first, its low half must not have fallen below the start's by a carry behind that read; with the low
half first, it must not be above the stop's when the carry came before the high half was read. -/
def CarryFree (counter : Nat → BitVec 64) (start t stop : Nat) : OperandOrder → Prop
  | .leftFirst => highPart (counter start) = highPart (counter (t + 1)) →
      lowPart (counter start) ≤ lowPart (counter (t + 2))
  | .rightFirst => highPart (counter (t + 2)) = highPart (counter stop) →
      lowPart (counter (t + 1)) ≤ lowPart (counter stop)

/-- The high half has to serve as the low half. -/
def HighForLow (counter : Nat → BitVec 64) (start t stop : Nat) (order : OperandOrder) : Prop :=
  (highPart (counter start) = highPart (counter (t + order.left)) →
      lowPart (counter start) ≤ highPart (counter (t + order.right))) ∧
    (highPart (counter (t + order.left)) = highPart (counter stop) →
      highPart (counter (t + order.right)) ≤ lowPart (counter stop))

end OperandOrder

/-- Where in the call the sums begin to be read. -/
def PerfCompilation.begins (code : PerfCompilation) (start : Nat) : Nat :=
  start + code.traced.length

/-- The time at which the call has returned. -/
def PerfCompilation.returns (code : PerfCompilation) (start : Nat) : Nat :=
  code.begins start + 7

/-- What the evolution must leave alone while the call reads. -/
structure PerfEvolution.LeavesReads (hw : PerfEvolution) (code : PerfCompilation) (start : Nat) :
    Prop where
  cycle : code.cycle.CarryFree (fun t => (hw t).cycle) start (code.begins start)
    (code.returns start)
  data : code.data.CarryFree (fun t => (hw t).data) start (code.begins start + 2)
    (code.returns start)
  pending : code.pending.HighForLow (fun t => (hw t).pending) start (code.begins start + 4)
    (code.returns start)

/-! ## What the call returns -/

variable {hw : PerfEvolution} {code : PerfCompilation} {start : Nat}

theorem stateM_bind {σ α β : Type} (x : StateM σ α) (f : α → StateM σ β) (s : σ) :
    (x >>= f) s = f (x s).1 (x s).2 := rfl

theorem recombine_run (left right : PerfReg) (order : OperandOrder) (t : Nat) :
    recombine hw left right order t =
      (left.read (hw (t + order.left)) ++ right.read (hw (t + order.right)), t + 2) := by
  cases order
  all_goals
    rw [← shiftLeft_add_eq_append]
    rfl

theorem traced_run (traced : List PerfReg) (t : Nat) :
    (traced.forM fun reg => do let _ ← readPerf hw reg : StateM Nat PUnit) t =
      (⟨⟩, t + traced.length) := by
  induction traced generalizing t with
  | nil => rfl
  | cons reg rest ih =>
    have hrest := ih (t + 1)
    rw [List.length_cons, show t + (rest.length + 1) = t + 1 + rest.length by omega]
    exact hrest

theorem engineGetPerf_run :
    engineGetPerf hw code start =
      ({ clockCycleCount := highPart (hw (code.begins start + code.cycle.left)).cycle ++
          lowPart (hw (code.begins start + code.cycle.right)).cycle
         dataCycleCount := highPart (hw (code.begins start + 2 + code.data.left)).data ++
          lowPart (hw (code.begins start + 2 + code.data.right)).data
         pendingCount := highPart (hw (code.begins start + 4 + code.pending.left)).pending ++
          highPart (hw (code.begins start + 4 + code.pending.right)).pending },
        code.begins start + 6) := by
  unfold engineGetPerf
  rw [stateM_bind, traced_run, stateM_bind, recombine_run, stateM_bind, recombine_run,
    stateM_bind, recombine_run]
  rfl

/-! ## Each of the sums -/

/-- What every value has to meet, given that the halves are read between start and stop. -/
theorem between_append_iff {x y : BitVec 64} {hi lo : BitVec 32} (hx : highPart x ≤ hi)
    (hy : hi ≤ highPart y) :
    x ≤ hi ++ lo ∧ hi ++ lo ≤ y ↔
      (highPart x = hi → lowPart x ≤ lo) ∧ (hi = highPart y → lo ≤ lowPart y) := by
  rw [le_append_iff, append_le_iff]
  exact ⟨fun h => ⟨h.1.2, h.2.2⟩, fun h => ⟨⟨hx, h.1⟩, hy, h.2⟩⟩

section
variable {counter : Nat → BitVec 64} {t stop : Nat}

theorem highPart_mono {x y : BitVec 64} (h : x ≤ y) : highPart x ≤ highPart y := by
  rw [← highPart_append_lowPart y] at h
  exact ((le_append_iff _ _ _).mp h).1

/-- Where the high halves agree the low ones are ordered. -/
theorem lowPart_mono {x y : BitVec 64} (h : x ≤ y) (heq : highPart x = highPart y) :
    lowPart x ≤ lowPart y := by
  rw [← highPart_append_lowPart y] at h
  exact ((le_append_iff _ _ _).mp h).2 heq

theorem OperandOrder.left_le (order : OperandOrder) : order.left ≤ 2 := by
  cases order <;> decide

theorem high_between (hmono : ∀ s t, s ≤ t → counter s ≤ counter t) (order : OperandOrder)
    (hstart : start ≤ t) (hstop : t + 2 ≤ stop) :
    highPart (counter start) ≤ highPart (counter (t + order.left)) ∧
      highPart (counter (t + order.left)) ≤ highPart (counter stop) := by
  have hle := order.left_le
  exact ⟨highPart_mono (hmono _ _ (by omega)), highPart_mono (hmono _ _ (by omega))⟩

/-- Only one of the two bounds can fail, and which one depends on what is read first. -/
theorem carryFree_iff (hmono : ∀ s t, s ≤ t → counter s ≤ counter t) (order : OperandOrder)
    (hstart : start ≤ t) (hstop : t + 2 ≤ stop) :
    counter start ≤ highPart (counter (t + order.left)) ++ lowPart (counter (t + order.right)) ∧
        highPart (counter (t + order.left)) ++ lowPart (counter (t + order.right)) ≤
          counter stop ↔
      order.CarryFree counter start t stop := by
  obtain ⟨hlow, hhigh⟩ := high_between hmono order hstart hstop
  rw [between_append_iff hlow hhigh]
  cases order with
  | leftFirst =>
    refine and_iff_left fun heq => lowPart_mono (hmono _ _ hstop) ?_
    -- the high half did not change behind its read, so it did not between the reads
    have hfirst := highPart_mono (hmono (t + 1) (t + 2) (by omega))
    have hsecond := highPart_mono (hmono (t + 2) stop hstop)
    exact BitVec.le_antisymm hsecond (heq ▸ hfirst)
  | rightFirst =>
    refine and_iff_right fun heq => lowPart_mono (hmono _ _ (by omega)) ?_
    have hfirst := highPart_mono (hmono start (t + 1) (by omega))
    have hsecond := highPart_mono (hmono (t + 1) (t + 2) (by omega))
    exact BitVec.le_antisymm hfirst (heq ▸ hsecond)

theorem highForLow_iff (hmono : ∀ s t, s ≤ t → counter s ≤ counter t) (order : OperandOrder)
    (hstart : start ≤ t) (hstop : t + 2 ≤ stop) :
    counter start ≤ highPart (counter (t + order.left)) ++ highPart (counter (t + order.right)) ∧
        highPart (counter (t + order.left)) ++ highPart (counter (t + order.right)) ≤
          counter stop ↔
      order.HighForLow counter start t stop := by
  obtain ⟨hlow, hhigh⟩ := high_between hmono order hstart hstop
  exact between_append_iff hlow hhigh

end

/-! ## The call -/

/-- Whatever the compiler chose, exactly the evolutions that leave the reads alone give values that
the counters had during the call. -/
theorem engineGetPerf_untorn_iff (hw : PerfEvolution) (code : PerfCompilation) (start : Nat)
    (hruns : hw.Runs) :
    (engineGetPerf hw code start).1.Untorn (hw start)
        (hw ((engineGetPerf hw code start).2 + 1)) ↔ hw.LeavesReads code start := by
  rw [engineGetPerf_run]
  have hbegins : start ≤ code.begins start := Nat.le_add_right _ _
  have hcycle := carryFree_iff hruns.cycle code.cycle hbegins
    (show code.begins start + 2 ≤ code.returns start by unfold PerfCompilation.returns; omega)
  have hdata := carryFree_iff hruns.data code.data (hbegins.trans (Nat.le_add_right _ 2))
    (show code.begins start + 2 + 2 ≤ code.returns start by unfold PerfCompilation.returns; omega)
  have hpending := highForLow_iff hruns.pending code.pending
    (hbegins.trans (Nat.le_add_right _ 4))
    (show code.begins start + 4 + 2 ≤ code.returns start by unfold PerfCompilation.returns; omega)
  exact ⟨fun h => ⟨hcycle.mp h.cycle, hdata.mp h.data, hpending.mp h.pending⟩,
    fun h => ⟨hcycle.mpr h.cycle, hdata.mpr h.data, hpending.mpr h.pending⟩⟩

/-- Two of the counters run, and none carries. -/
def risingCounters : PerfEvolution := fun t => if t ≤ 3 then ⟨7, 2, 0⟩ else ⟨9, 4, 0⟩

theorem engineGetPerf_untorn_iff_rising :
    (engineGetPerf risingCounters ⟨[.cycHi], .leftFirst, .rightFirst, .leftFirst⟩ 0).1.Untorn
        ⟨7, 2, 0⟩ ⟨9, 4, 0⟩ := by
  have hruns : risingCounters.Runs := by
    constructor
    all_goals
      intro s t hst
      unfold risingCounters
      split <;> split <;> first | decide | omega
  exact (engineGetPerf_untorn_iff risingCounters ⟨[.cycHi], .leftFirst, .rightFirst, .leftFirst⟩ 0
    hruns).mpr ⟨fun _ => by decide, fun _ => by decide, fun _ => by decide, fun _ => by decide⟩

/-- Counters that stand still: only the pending count can be wrong, and it is unless its halves are
the same. -/
theorem engineGetPerf_frozen (counters : PerfCounters) (code : PerfCompilation) (start : Nat) :
    (engineGetPerf (fun _ => counters) code start).1 =
      ⟨counters.cycle, counters.data,
        highPart counters.pending ++ highPart counters.pending⟩ := by
  rw [engineGetPerf_run]
  simp only [highPart_append_lowPart]

theorem engineGetPerf_frozen_untorn_iff (counters : PerfCounters) (code : PerfCompilation)
    (start : Nat) :
    (engineGetPerf (fun _ => counters) code start).1.Untorn counters counters ↔
      highPart counters.pending = lowPart counters.pending := by
  rw [engineGetPerf_frozen]
  constructor
  · intro h
    have heq := BitVec.le_antisymm h.pending.1 h.pending.2
    have hhalves := (append_eq_iff _ _ _).mp heq.symm
    exact hhalves.2
  · intro h
    have hsame : highPart counters.pending ++ highPart counters.pending = counters.pending := by
      rw [append_eq_iff]
      exact ⟨rfl, h⟩
    rw [hsame]
    exact ⟨⟨BitVec.le_refl _, BitVec.le_refl _⟩, ⟨BitVec.le_refl _, BitVec.le_refl _⟩,
      ⟨BitVec.le_refl _, BitVec.le_refl _⟩⟩

/-- A pending count of 5 is returned as 0, and a cycle count that goes from `2 ^ 32 - 1` to `2 ^ 32`
between the reads of its halves as 0, or as `2 ^ 33 - 1` where the low half is read first. -/
theorem engineGetPerf_torn :
    PerfEvolution.Runs (fun _ => ⟨0, 0, 5⟩) ∧
      ¬ (engineGetPerf (fun _ => ⟨0, 0, 5⟩) ⟨[], .leftFirst, .leftFirst, .leftFirst⟩ 0).1.Untorn
        ⟨0, 0, 5⟩ ⟨0, 0, 5⟩ ∧
      (engineGetPerf (fun t => ⟨if t ≤ 1 then 0xFFFFFFFF else 0x100000000, 0, 0⟩)
        ⟨[], .leftFirst, .leftFirst, .leftFirst⟩ 0).1.clockCycleCount = 0 ∧
      (engineGetPerf (fun t => ⟨if t ≤ 1 then 0xFFFFFFFF else 0x100000000, 0, 0⟩)
        ⟨[], .rightFirst, .leftFirst, .leftFirst⟩ 0).1.clockCycleCount = 0x1FFFFFFFF := by
  refine ⟨⟨fun _ _ _ => BitVec.le_refl _, fun _ _ _ => BitVec.le_refl _,
    fun _ _ _ => BitVec.le_refl _⟩, fun h => absurd h.pending.1 (by decide), by decide, by decide⟩

end Xadma
