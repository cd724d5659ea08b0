import Xadma.Avsadma.ResourceRounds
import Mathlib.Data.List.Count

/-!
# Rounds of `MapResources` and `UnmapResources`

A resource that is mapped over another one in the same member leaks the one before, for good. The
counters only grow, and which member of the union is read depends on the flags of the resource that
was recorded before.
-/

namespace Xadma

namespace Capture

open ResourceMembers

/-! ## What a list asks for -/

namespace PartialDescriptor

/-- The mapping that is made for a resource: the member, the start and the length. -/
def mapping? : PartialDescriptor → Option (CaptureBar × BitVec 64 × BitVec 32)
  | .memory start length => some (.dma, start, length)
  | .memoryLarge flags start _ =>
    if flags &&& cmResourceMemoryLarge40 ≠ 0 then some (.video, start + 0x80000000, 0x10000)
    else none
  | .port | .interrupt _ | .other => none

def isBar : PartialDescriptor → Bool
  | .memory .. | .memoryLarge .. => true
  | .port | .interrupt _ | .other => false

def interrupt? : PartialDescriptor → Option InterruptResource
  | .interrupt resource => some resource
  | .port | .memory .. | .memoryLarge .. | .other => none

def mapsTo (bar : CaptureBar) (resource : PartialDescriptor) : Bool :=
  resource.mapping?.any fun m => m.1 = bar

/-- The mapping for the resource at index `i` fails. -/
def fails (answers : MapAnswers) (i : Nat) (resource : PartialDescriptor) : Bool :=
  resource.mapping?.any fun m => (answers i m.2.1 m.2.2).isNone

end PartialDescriptor

/-- The resources up to the first whose mapping fails. -/
def reached (answers : MapAnswers) : Nat → List PartialDescriptor → List PartialDescriptor
  | _, [] => []
  | i, resource :: resources =>
    if resource.fails answers i then [resource]
    else resource :: reached answers (i + 1) resources

/-- No mapping fails. -/
def completes (answers : MapAnswers) : Nat → List PartialDescriptor → Bool
  | _, [] => true
  | i, resource :: resources => !resource.fails answers i && completes answers (i + 1) resources

def interrupts (resources : List PartialDescriptor) : List InterruptResource :=
  resources.filterMap PartialDescriptor.interrupt?

/-! ## What is right -/

namespace ResourceMembers

/-- The mapping that a member holds. -/
def mapping (s : ResourceMembers) (bar : CaptureBar) : List IoSpace :=
  ((s.bar bar).map fun base => ⟨base, s.barLen bar⟩).toList

def mappings (s : ResourceMembers) : List IoSpace := s.mapping .dma ++ s.mapping .video

/-- `UnmapResources` leaves every mapping undone exactly once. -/
def Undone (s : ResourceMembers) : Prop := Ledger.run [] s.unmapResources.ioCalls = some []

/-- Level, vector and affinity are those of the resource, read through the member that its flags
stand for. -/
structure Records (s : ResourceMembers) (resource : InterruptResource) : Prop where
  level : s.interruptLevel =
    (resource.view (memberOf (resource.flags.setWidth 32))).level.setWidth 8
  vector : s.interruptVector = (resource.view (memberOf (resource.flags.setWidth 32))).vector
  affinity : s.interruptAffinity = (resource.view (memberOf (resource.flags.setWidth 32))).affinity
  readFrom : s.readFrom = some (resource, memberOf (resource.flags.setWidth 32))

end ResourceMembers

variable (answers : MapAnswers) (list : PartialResourceList) (s : ResourceMembers)

/-- `MapResources` in the state `s` does what it should. -/
structure RoundRight : Prop where
  records : ∀ resource, (interrupts (reached answers 0 list.descriptors)).head? = some resource →
    (s.mapResources answers list).2.Records resource
  undone : (s.mapResources answers list).2.Undone
  counts : completes answers 0 list.descriptors = true →
    (s.mapResources answers list).2.numberOfBARs.toNat =
        list.descriptors.countP PartialDescriptor.isBar ∧
      (s.mapResources answers list).2.numberOfIntrs.toNat = (interrupts list.descriptors).length

/-- Every member is given one mapping at most, and only if it holds none. -/
def BarsFree (i : Nat) (resources : List PartialDescriptor) : Prop :=
  ∀ bar, (reached answers i resources).countP (PartialDescriptor.mapsTo bar) +
    (s.bar bar).toList.length ≤ 1

/-- The condition under which it does: nothing is counted yet, or the loop ends early; the flags
recorded before select the same member, or the resource is recorded already; no member is
overwritten. -/
structure RoundSound : Prop where
  interrupt : ∀ resource, (interrupts (reached answers 0 list.descriptors)).head? = some resource →
    if s.numberOfIntrs = 0 then
      memberOf s.interruptFlags = memberOf (resource.flags.setWidth 32)
    else s.readFrom = some (resource, memberOf (resource.flags.setWidth 32))
  bars : BarsFree answers s 0 list.descriptors
  counters : completes answers 0 list.descriptors = true →
    s.numberOfBARs = 0 ∧ s.numberOfIntrs = 0

/-- The counter of the interrupts does not wrap. -/
def FewInterrupts : Prop :=
  s.numberOfIntrs.toNat + (interrupts (reached answers 0 list.descriptors)).length < 2 ^ 32

instance : Decidable (FewInterrupts answers list s) := inferInstanceAs (Decidable (_ < _))

/-- The calls of a run that are sound. -/
def soundRound (s : ResourceMembers) : ResourceCall → Prop
  | .map list answers => FewInterrupts answers list s ∧ RoundSound answers list s
  | .unmap => True

variable {answers : MapAnswers} {list : PartialResourceList} {s s' : ResourceMembers}
  {resource : PartialDescriptor} {resources : List PartialDescriptor} {bar : CaptureBar}
  {length : BitVec 32} {base : Option (BitVec 64)} {i n : Nat}

/-! ## Mappings -/

namespace ResourceMembers

/-- `n` mappings are neither undone nor in a member. -/
def Leaks (s : ResourceMembers) (n : Nat) : Prop :=
  ∃ held lost, Ledger.run [] s.ioCalls = some held ∧ held.Perm (lost ++ s.mappings) ∧
    lost.length = n

theorem leaks_zeroed : zeroed.Leaks 0 := ⟨[], [], rfl, .refl [], rfl⟩

theorem mapIoSpace_mapping (bar : CaptureBar) (length : BitVec 32) (base : Option (BitVec 64))
    (bar' : CaptureBar) : (s.mapIoSpace bar length base).2.mapping bar' =
      if bar' = bar then (base.map fun base => ⟨base, length⟩).toList else s.mapping bar' := by
  have hmembers : (s.mapIoSpace bar length base).2.bar = Function.update s.bar bar base ∧
      (s.mapIoSpace bar length base).2.barLen = Function.update s.barLen bar length := by
    cases base <;> exact ⟨rfl, rfl⟩
  rw [mapping, hmembers.1, hmembers.2]
  split
  · next heq =>
    subst heq
    simp only [Function.update_self]
  · next hne =>
    simp only [Function.update_of_ne hne]
    rfl

/-- What the member held before is lost. -/
theorem Leaks.mapIoSpace (h : s.Leaks n) (bar : CaptureBar) (length : BitVec 32)
    (base : Option (BitVec 64)) :
    (s.mapIoSpace bar length base).2.Leaks (n + (s.bar bar).toList.length) := by
  obtain ⟨held, lost, hrun, hperm, rfl⟩ := h
  refine ⟨held ++ (base.map fun base => ⟨base, length⟩).toList, lost ++ s.mapping bar, ?_, ?_, ?_⟩
  · cases base with
    | none =>
      rw [Option.map_none, Option.toList_none, List.append_nil]
      exact hrun
    | some base => exact Ledger.run_trans hrun rfl
  · rw [List.perm_iff_count] at hperm ⊢
    intro space
    have hcount := hperm space
    simp only [mappings, List.count_append, mapIoSpace_mapping] at hcount ⊢
    cases bar <;> simp only [if_true, reduceCtorEq, if_false] <;> omega
  · rw [List.length_append, mapping]
    cases s.bar bar <;> rfl

theorem unmapResources_ioCalls (s : ResourceMembers) :
    s.unmapResources.ioCalls = s.ioCalls ++ s.mappings.map .release := by
  cases hdma : s.bar .dma <;> cases hvideo : s.bar .video <;>
    simp [unmapResources, unmapBar, mappings, mapping, hdma, hvideo]

theorem unmapResources_bar (s : ResourceMembers) (bar : CaptureBar) :
    s.unmapResources.bar bar = none := by
  cases hdma : s.bar .dma <;> cases hvideo : s.bar .video <;> cases bar <;>
    simp [unmapResources, unmapBar, hdma, hvideo]

/-- What is lost is not undone. -/
theorem Leaks.unmapResources (h : s.Leaks n) : s.unmapResources.Leaks n ∧
    (s.Undone ↔ n = 0) := by
  obtain ⟨held, lost, hrun, hperm, rfl⟩ := h
  obtain ⟨held', hrun', hrest⟩ := Ledger.run_releases_of_perm hperm
  have hall : Ledger.run [] s.unmapResources.ioCalls = some held' := by
    rw [unmapResources_ioCalls]
    exact Ledger.run_trans hrun hrun'
  constructor
  · refine ⟨held', lost, hall, ?_, rfl⟩
    have hnone : s.unmapResources.mappings = [] := by
      simp only [mappings, mapping, unmapResources_bar]
      rfl
    rwa [hnone, List.append_nil]
  · rw [Undone, hall, Option.some_inj, ← List.length_eq_zero_iff, hrest.length_eq]

end ResourceMembers

/-! ## One resource -/

namespace ResourceMembers

theorem mapIoSpace_status (s : ResourceMembers) (bar : CaptureBar) (length : BitVec 32)
    (base : Option (BitVec 64)) :
    ntSuccess (s.mapIoSpace bar length base).1 = base.isSome := by
  have hstatus : ntSuccess statusDeviceConfigurationError = false ∧
      ntSuccess statusSuccess = true := by decide
  cases base with
  | none => exact hstatus.1
  | some base => exact hstatus.2

theorem mapResource_of_mapping {start : BitVec 64}
    (h : resource.mapping? = some (bar, start, length)) :
    s.mapResource answers i resource =
      mapIoSpace { s with numberOfBARs := s.numberOfBARs + 1 } bar length
        (answers i start length) := by
  cases resource with
  | memory start' length' =>
    cases h
    rfl
  | memoryLarge flags start' length' =>
    simp only [PartialDescriptor.mapping?] at h
    split at h
    · next hflag =>
      simp only [Option.some.injEq, Prod.mk.injEq] at h
      obtain ⟨rfl, rfl, rfl⟩ := h
      simp only [mapResource, if_pos hflag]
    · cases h
  | port | interrupt _ | other => cases h

/-- A resource that asks for no mapping leaves the mappings alone. -/
theorem mapResource_of_none (h : resource.mapping? = none) (answers : MapAnswers) (i : Nat)
    (s : ResourceMembers) :
    (s.mapResource answers i resource).1 = statusSuccess ∧
      (s.mapResource answers i resource).2.bar = s.bar ∧
      (s.mapResource answers i resource).2.barLen = s.barLen ∧
      (s.mapResource answers i resource).2.ioCalls = s.ioCalls := by
  cases resource with
  | port | other => exact ⟨rfl, rfl, rfl, rfl⟩
  | memory start' length' => cases h
  | memoryLarge flags start' length' =>
    simp only [PartialDescriptor.mapping?] at h
    split at h
    · cases h
    · next hflag =>
      simp only [mapResource, if_neg hflag, and_self]
  | interrupt resource =>
    have hsave (t : ResourceMembers) : (t.saveInterrupt resource).bar = t.bar ∧
        (t.saveInterrupt resource).barLen = t.barLen ∧
        (t.saveInterrupt resource).ioCalls = t.ioCalls := ⟨rfl, rfl, rfl⟩
    simp only [mapResource]
    split
    · exact ⟨rfl, rfl, rfl, rfl⟩
    · exact ⟨rfl, hsave _⟩

theorem mapResource_status (s : ResourceMembers) :
    ntSuccess (s.mapResource answers i resource).1 = !resource.fails answers i := by
  rw [PartialDescriptor.fails]
  cases h : resource.mapping? with
  | none =>
    rw [(mapResource_of_none h answers i s).1, Option.any_none]
    decide
  | some m =>
    obtain ⟨bar, start, length⟩ := m
    rw [mapResource_of_mapping h, mapIoSpace_status, Option.any_some]
    cases answers i start length <;> rfl

theorem mapResource_counts (answers : MapAnswers) (i : Nat) (resource : PartialDescriptor)
    (s : ResourceMembers) :
    (s.mapResource answers i resource).2.numberOfBARs =
        s.numberOfBARs + BitVec.ofNat 32 ([resource].countP PartialDescriptor.isBar) ∧
      (s.mapResource answers i resource).2.numberOfIntrs =
        s.numberOfIntrs + BitVec.ofNat 32 (interrupts [resource]).length := by
  have hmap (t : ResourceMembers) (bar : CaptureBar) (length : BitVec 32)
      (base : Option (BitVec 64)) :
      (t.mapIoSpace bar length base).2.numberOfBARs = t.numberOfBARs ∧
        (t.mapIoSpace bar length base).2.numberOfIntrs = t.numberOfIntrs := by
    cases base <;> exact ⟨rfl, rfl⟩
  have hnone (x : BitVec 32) : x = x + BitVec.ofNat 32 0 := (BitVec.add_zero x).symm
  cases resource with
  | port | other => exact ⟨hnone _, hnone _⟩
  | memory start length => exact ⟨(hmap _ _ _ _).1, (hmap _ _ _ _).2.trans (hnone _)⟩
  | memoryLarge flags start length =>
    simp only [mapResource]
    split
    · exact ⟨(hmap _ _ _ _).1, (hmap _ _ _ _).2.trans (hnone _)⟩
    · exact ⟨rfl, hnone _⟩
  | interrupt resource =>
    simp only [mapResource]
    split <;> exact ⟨hnone _, rfl⟩

theorem mapResourcesFrom_cons (s : ResourceMembers) :
    mapResourcesFrom answers i (resource :: resources) s =
      if resource.fails answers i then s.mapResource answers i resource
      else mapResourcesFrom answers (i + 1) resources (s.mapResource answers i resource).2 := by
  rw [mapResourcesFrom, mapResource_status]
  cases resource.fails answers i <;> rfl

/-! ## The loop -/

theorem Leaks.congr (h : s.Leaks n) (hbar : s'.bar = s.bar) (hbarLen : s'.barLen = s.barLen)
    (hioCalls : s'.ioCalls = s.ioCalls) : s'.Leaks n := by
  unfold Leaks mappings mapping at h ⊢
  rwa [hbar, hbarLen, hioCalls]

theorem barsFree_cons_of_none (h : resource.mapping? = none) (hbar : s'.bar = s.bar) :
    BarsFree answers s i (resource :: resources) ↔ BarsFree answers s' (i + 1) resources := by
  have hfails : resource.fails answers i = false := by
    rw [PartialDescriptor.fails, h]
    rfl
  have hmaps (bar : CaptureBar) : resource.mapsTo bar = false := by
    rw [PartialDescriptor.mapsTo, h]
    rfl
  simp only [BarsFree, reached, hfails, hbar, List.countP_cons, hmaps, Bool.false_eq_true, if_false,
    Nat.add_zero]

section
variable {start : BitVec 64} (hmap : resource.mapping? = some (bar, start, length))
include hmap

theorem mapsTo_of_mapping (bar' : CaptureBar) : resource.mapsTo bar' = decide (bar = bar') := by
  rw [PartialDescriptor.mapsTo, hmap]
  rfl

theorem fails_of_mapping : resource.fails answers i = (answers i start length).isNone := by
  rw [PartialDescriptor.fails, hmap]
  rfl

/-- The loop ends with a mapping that fails. -/
theorem barsFree_cons_of_fails (hfails : answers i start length = none) :
    BarsFree answers s i (resource :: resources) ↔ (s.bar bar).toList.length = 0 := by
  have hheld (bar : CaptureBar) : (s.bar bar).toList.length ≤ 1 := by
    cases s.bar bar <;> simp
  simp only [BarsFree, reached, fails_of_mapping hmap, hfails, Option.isNone_none, if_true,
    List.countP_singleton, mapsTo_of_mapping hmap, decide_eq_true_eq]
  constructor
  · intro h
    have := h bar
    rw [if_pos rfl] at this
    omega
  · intro h bar'
    split
    · next heq =>
      subst heq
      omega
    · exact (Nat.zero_add _).trans_le (hheld bar')

/-- The loop goes on with the member held. -/
theorem barsFree_cons_of_mapped {base : BitVec 64} (hbase : answers i start length = some base)
    (hbar : s'.bar = Function.update s.bar bar (some base)) :
    BarsFree answers s i (resource :: resources) ↔
      (s.bar bar).toList.length = 0 ∧ BarsFree answers s' (i + 1) resources := by
  have hself : (s'.bar bar).toList.length = 1 := by rw [hbar, Function.update_self]; rfl
  have hother (bar' : CaptureBar) (hne : bar' ≠ bar) : s'.bar bar' = s.bar bar' := by
    rw [hbar, Function.update_of_ne hne]
  simp only [BarsFree, reached, fails_of_mapping hmap, hbase, Option.isNone_some,
    Bool.false_eq_true, if_false, List.countP_cons, mapsTo_of_mapping hmap, decide_eq_true_eq]
  constructor
  · intro h
    refine ⟨?_, fun bar' => ?_⟩
    · have := h bar
      rw [if_pos rfl] at this
      omega
    · have := h bar'
      by_cases heq : bar = bar'
      · subst heq
        rw [if_pos rfl] at this
        omega
      · rw [if_neg heq] at this
        rwa [hother bar' (Ne.symm heq)]
  · rintro ⟨hzero, h⟩ bar'
    have := h bar'
    by_cases heq : bar = bar'
    · subst heq
      rw [if_pos rfl]
      omega
    · rw [if_neg heq]
      rwa [hother bar' (Ne.symm heq)] at this

end

/-- The loop loses nothing exactly if the members it sets are free. -/
theorem mapResourcesFrom_leaks (h : s.Leaks n) (answers : MapAnswers) (i : Nat)
    (resources : List PartialDescriptor) :
    ∃ k, (mapResourcesFrom answers i resources s).2.Leaks (n + k) ∧
      (k = 0 ↔ BarsFree answers s i resources) := by
  induction resources generalizing i s n with
  | nil =>
    refine ⟨0, h, iff_of_true rfl fun bar => ?_⟩
    rw [reached, List.countP_nil, Nat.zero_add]
    cases s.bar bar <;> simp
  | cons resource resources ih =>
    rw [mapResourcesFrom_cons]
    cases hmap : resource.mapping? with
    | none =>
      have hfails : resource.fails answers i = false := by
        rw [PartialDescriptor.fails, hmap]
        rfl
      obtain ⟨-, hbar, hbarLen, hioCalls⟩ := mapResource_of_none hmap answers i s
      obtain ⟨k, hleaks, hk⟩ := ih (h.congr hbar hbarLen hioCalls) (i + 1)
      rw [hfails]
      exact ⟨k, hleaks, hk.trans (barsFree_cons_of_none hmap hbar).symm⟩
    | some m =>
      obtain ⟨bar, start, length⟩ := m
      have hleaks : (s.mapResource answers i resource).2.Leaks
          (n + (s.bar bar).toList.length) := by
        have hcounted : Leaks { s with numberOfBARs := s.numberOfBARs + 1 } n := h
        rw [mapResource_of_mapping hmap]
        exact hcounted.mapIoSpace bar length _
      rw [fails_of_mapping hmap]
      cases hbase : answers i start length with
      | none => exact ⟨_, hleaks, (barsFree_cons_of_fails hmap hbase).symm⟩
      | some base =>
        have hbar : (s.mapResource answers i resource).2.bar =
            Function.update s.bar bar (some base) := by
          rw [mapResource_of_mapping hmap, hbase]
          rfl
        obtain ⟨k, hleaks', hk⟩ := ih hleaks (i + 1)
        refine ⟨(s.bar bar).toList.length + k, ?_, ?_⟩
        · rw [← Nat.add_assoc]
          exact hleaks'
        · rw [barsFree_cons_of_mapped hmap hbase hbar, Nat.add_eq_zero_iff, hk]

/-! ## Counters -/

theorem reached_of_completes (h : completes answers i resources = true) :
    reached answers i resources = resources := by
  induction resources generalizing i with
  | nil => rfl
  | cons resource resources ih =>
    rw [completes, Bool.and_eq_true, Bool.not_eq_true'] at h
    rw [reached, h.1, ih h.2]
    rfl

theorem reached_cons (resource : PartialDescriptor) (resources : List PartialDescriptor) :
    reached answers i (resource :: resources) = [resource] ++
      if resource.fails answers i then [] else reached answers (i + 1) resources := by
  rw [reached]
  split <;> rfl

theorem mapResourcesFrom_counts (answers : MapAnswers) (i : Nat)
    (resources : List PartialDescriptor) (s : ResourceMembers) :
    (mapResourcesFrom answers i resources s).2.numberOfBARs = s.numberOfBARs +
        BitVec.ofNat 32 ((reached answers i resources).countP PartialDescriptor.isBar) ∧
      (mapResourcesFrom answers i resources s).2.numberOfIntrs = s.numberOfIntrs +
        BitVec.ofNat 32 (interrupts (reached answers i resources)).length := by
  induction resources generalizing i s with
  | nil => exact ⟨(BitVec.add_zero _).symm, (BitVec.add_zero _).symm⟩
  | cons resource resources ih =>
    obtain ⟨hbars, hintrs⟩ := mapResource_counts answers i resource s
    rw [mapResourcesFrom_cons, reached_cons, List.countP_append, interrupts, List.filterMap_append,
      List.length_append, BitVec.ofNat_add, BitVec.ofNat_add, ← BitVec.add_assoc,
      ← BitVec.add_assoc, ← interrupts, ← interrupts, ← hbars, ← hintrs]
    cases resource.fails answers i with
    | true => exact ⟨(BitVec.add_zero _).symm, (BitVec.add_zero _).symm⟩
    | false => exact ih (i + 1) _

/-- A counter that is added to is right exactly if it was 0. -/
theorem add_count_iff {c : BitVec 32} (hn : n < 2 ^ 32) :
    (c + BitVec.ofNat 32 n).toNat = n ↔ c = 0 := by
  rw [BitVec.toNat_add, BitVec.toNat_ofNat, Nat.mod_eq_of_lt hn]
  constructor
  · intro h
    have := c.isLt
    exact BitVec.eq_of_toNat_eq (show c.toNat = 0 by omega)
  · rintro rfl
    exact (congrArg (· % 2 ^ 32) (Nat.zero_add n)).trans (Nat.mod_eq_of_lt hn)

/-! ## Interrupts -/

theorem eq_interrupt_of_some {r : InterruptResource} (h : resource.interrupt? = some r) :
    resource = .interrupt r := by
  cases resource with
  | interrupt r' =>
    cases h
    rfl
  | port | memory _ _ | memoryLarge _ _ _ | other => cases h

/-- The recorded values are those that were read. -/
def Reads (s : ResourceMembers) : Prop :=
  ∀ resource member, s.readFrom = some (resource, member) →
    s.interruptLevel = (resource.view member).level.setWidth 8 ∧
    s.interruptVector = (resource.view member).vector ∧
    s.interruptAffinity = (resource.view member).affinity

/-- Nothing about the interrupt changes. -/
structure SameInterrupt (s s' : ResourceMembers) : Prop where
  level : s'.interruptLevel = s.interruptLevel
  vector : s'.interruptVector = s.interruptVector
  affinity : s'.interruptAffinity = s.interruptAffinity
  flags : s'.interruptFlags = s.interruptFlags
  readFrom : s'.readFrom = s.readFrom

theorem Reads.same (h : s.Reads) (hsame : SameInterrupt s s') : s'.Reads := by
  unfold Reads
  rw [hsame.level, hsame.vector, hsame.affinity, hsame.readFrom]
  exact h

theorem mapIoSpace_same (s : ResourceMembers) (bar : CaptureBar) (length : BitVec 32)
    (base : Option (BitVec 64)) : SameInterrupt s (s.mapIoSpace bar length base).2 := by
  cases base <;> exact ⟨rfl, rfl, rfl, rfl, rfl⟩

theorem SameInterrupt.trans {t : ResourceMembers} (h : SameInterrupt s s')
    (h' : SameInterrupt s' t) : SameInterrupt s t :=
  ⟨h'.level.trans h.level, h'.vector.trans h.vector, h'.affinity.trans h.affinity,
    h'.flags.trans h.flags, h'.readFrom.trans h.readFrom⟩

theorem mapResource_same (h : resource.interrupt? = none) (answers : MapAnswers) (i : Nat)
    (s : ResourceMembers) : SameInterrupt s (s.mapResource answers i resource).2 := by
  have hcount (b : BitVec 32) : SameInterrupt s { s with numberOfBARs := b } :=
    ⟨rfl, rfl, rfl, rfl, rfl⟩
  cases resource with
  | port | other => exact ⟨rfl, rfl, rfl, rfl, rfl⟩
  | memory start length => exact (hcount _).trans (mapIoSpace_same _ _ _ _)
  | memoryLarge flags start length =>
    simp only [mapResource]
    split
    · exact (hcount _).trans (mapIoSpace_same _ _ _ _)
    · exact hcount _
  | interrupt resource => cases h

/-- Behind the first interrupt resource that is counted none is recorded. -/
theorem mapResource_interrupt (resource : InterruptResource) (answers : MapAnswers) (i : Nat)
    (s : ResourceMembers) : s.mapResource answers i (.interrupt resource) =
      (statusSuccess, if 1 < s.numberOfIntrs + 1 then
          { s with numberOfIntrs := s.numberOfIntrs + 1 }
        else saveInterrupt { s with numberOfIntrs := s.numberOfIntrs + 1 } resource) := by
  simp only [mapResource, gt_iff_lt]
  split <;> rfl

theorem Reads.mapResource (h : s.Reads) (answers : MapAnswers) (i : Nat)
    (resource : PartialDescriptor) : (s.mapResource answers i resource).2.Reads := by
  cases hinterrupt : resource.interrupt? with
  | none => exact h.same (mapResource_same hinterrupt answers i s)
  | some r =>
    rw [eq_interrupt_of_some hinterrupt, mapResource_interrupt]
    split
    · exact h.same ⟨rfl, rfl, rfl, rfl, rfl⟩
    · rintro _ _ ⟨⟩
      exact ⟨rfl, rfl, rfl⟩

theorem Reads.mapResourcesFrom (h : s.Reads) (answers : MapAnswers) (i : Nat)
    (resources : List PartialDescriptor) :
    (mapResourcesFrom answers i resources s).2.Reads := by
  induction resources generalizing i s with
  | nil => exact h
  | cons resource resources ih =>
    rw [mapResourcesFrom_cons]
    have hnext := h.mapResource answers i resource
    split
    · exact hnext
    · exact ih hnext (i + 1)

theorem interrupts_singleton (resource : PartialDescriptor) :
    interrupts [resource] = resource.interrupt?.toList := by
  cases resource <;> rfl

theorem interrupts_reached_cons (answers : MapAnswers) (i : Nat) (resource : PartialDescriptor)
    (resources : List PartialDescriptor) :
    interrupts (reached answers i (resource :: resources)) = interrupts [resource] ++
      if resource.fails answers i then [] else interrupts (reached answers (i + 1) resources) := by
  rw [reached_cons, interrupts, List.filterMap_append, ← interrupts, ← interrupts]
  split <;> rfl

theorem mapResource_numberOfIntrs (answers : MapAnswers) (i : Nat) (resource : PartialDescriptor)
    (hfew : s.numberOfIntrs.toNat + (interrupts [resource]).length < 2 ^ 32) :
    (s.mapResource answers i resource).2.numberOfIntrs.toNat =
      s.numberOfIntrs.toNat + (interrupts [resource]).length := by
  rw [(mapResource_counts answers i resource s).2, BitVec.toNat_add, BitVec.toNat_ofNat]
  omega

theorem mapResource_readFrom_counted (answers : MapAnswers) (i : Nat)
    (resource : PartialDescriptor) (hcounted : 0 < s.numberOfIntrs.toNat)
    (hfew : s.numberOfIntrs.toNat + (interrupts [resource]).length < 2 ^ 32) :
    (s.mapResource answers i resource).2.readFrom = s.readFrom := by
  cases hinterrupt : resource.interrupt? with
  | none => exact (mapResource_same hinterrupt answers i s).readFrom
  | some r =>
    obtain rfl := eq_interrupt_of_some hinterrupt
    have hcounter := mapResource_numberOfIntrs answers i (.interrupt r) hfew
    rw [(mapResource_counts answers i (.interrupt r) s).2] at hcounter
    have hlater : 1 < s.numberOfIntrs + 1 := by
      rw [BitVec.lt_def]
      refine lt_of_lt_of_eq ?_ hcounter.symm
      exact Nat.lt_add_of_pos_left hcounted
    rw [mapResource_interrupt, if_pos hlater]

/-- With an interrupt counted already, none is recorded. -/
theorem mapResourcesFrom_readFrom_counted (i : Nat) (resources : List PartialDescriptor)
    (s : ResourceMembers) (hcounted : 0 < s.numberOfIntrs.toNat)
    (hfew : s.numberOfIntrs.toNat + (interrupts (reached answers i resources)).length < 2 ^ 32) :
    (mapResourcesFrom answers i resources s).2.readFrom = s.readFrom := by
  induction resources generalizing i s with
  | nil => rfl
  | cons resource resources ih =>
    rw [interrupts_reached_cons, List.length_append] at hfew
    have hread := mapResource_readFrom_counted answers i resource hcounted (by omega)
    rw [mapResourcesFrom_cons]
    split
    · exact hread
    · next hgoes =>
      rw [if_neg hgoes] at hfew
      have hfewer : s.numberOfIntrs.toNat + (interrupts [resource]).length < 2 ^ 32 := by omega
      have hcounter := mapResource_numberOfIntrs answers i resource hfewer
      exact (ih (i + 1) _ (by omega) (by omega)).trans hread

/-- With the counter at 0 the first interrupt resource is recorded, through the member of the flags
recorded before. -/
theorem mapResourcesFrom_readFrom_first (i : Nat) (resources : List PartialDescriptor)
    (s : ResourceMembers) (hzero : s.numberOfIntrs = 0)
    (hfew : (interrupts (reached answers i resources)).length < 2 ^ 32) :
    (mapResourcesFrom answers i resources s).2.readFrom =
      ((interrupts (reached answers i resources)).head?.map fun resource =>
        (resource, memberOf s.interruptFlags)).or s.readFrom := by
  induction resources generalizing i s with
  | nil => rfl
  | cons resource resources ih =>
    have hcount := (mapResource_counts answers i resource s).2
    rw [interrupts_reached_cons] at hfew ⊢
    rw [mapResourcesFrom_cons]
    cases hinterrupt : resource.interrupt? with
    | none =>
      have hsame := mapResource_same hinterrupt answers i s
      rw [interrupts_singleton, hinterrupt, Option.toList_none] at hcount hfew ⊢
      rw [List.nil_append] at hfew ⊢
      split
      · exact hsame.readFrom
      · next hgoes =>
        rw [if_neg hgoes] at hfew
        rw [ih (i + 1) _ (hcount.trans ((BitVec.add_zero _).trans hzero)) hfew, hsame.flags,
          hsame.readFrom]
    | some r =>
      obtain rfl := eq_interrupt_of_some hinterrupt
      have hone : (s.mapResource answers i (.interrupt r)).2.numberOfIntrs.toNat = 1 := by
        rw [hcount, hzero]
        rfl
      have hread : (s.mapResource answers i (.interrupt r)).2.readFrom =
          some (r, memberOf s.interruptFlags) := by
        rw [mapResource_interrupt, hzero, if_neg (by decide)]
        rfl
      have hfails : PartialDescriptor.fails answers i (.interrupt r) = false := rfl
      rw [hfails, if_neg Bool.false_ne_true, List.length_append] at hfew
      rw [hfails, if_neg Bool.false_ne_true, if_neg Bool.false_ne_true]
      refine (mapResourcesFrom_readFrom_counted (i + 1) resources _ (by omega) ?_).trans hread
      rwa [hone]

/-! ## A round -/

/-- The counts decide the status only. -/
theorem mapResources_snd (s : ResourceMembers) (answers : MapAnswers)
    (list : PartialResourceList) :
    (s.mapResources answers list).2 = (mapResourcesFrom answers 0 list.descriptors s).2 := by
  unfold ResourceMembers.mapResources
  dsimp only
  split
  · rfl
  · split <;> rfl

theorem records_iff (h : s.Reads) (resource : InterruptResource) : s.Records resource ↔
    s.readFrom = some (resource, memberOf (resource.flags.setWidth 32)) := by
  constructor
  · exact Records.readFrom
  · intro hread
    obtain ⟨hlevel, hvector, haffinity⟩ := h _ _ hread
    exact ⟨hlevel, hvector, haffinity, hread⟩

theorem interrupts_length_le (resources : List PartialDescriptor) :
    (interrupts resources).length ≤ resources.length :=
  List.length_filterMap_le ..

/-- What `MapResources` records, exactly. -/
theorem mapResources_records_iff (h : s.Reads) (hfew : FewInterrupts answers list s)
    (resource : InterruptResource)
    (hfirst : (interrupts (reached answers 0 list.descriptors)).head? = some resource) :
    (s.mapResources answers list).2.Records resource ↔
      if s.numberOfIntrs = 0 then
        memberOf s.interruptFlags = memberOf (resource.flags.setWidth 32)
      else s.readFrom = some (resource, memberOf (resource.flags.setWidth 32)) := by
  rw [mapResources_snd, records_iff (h.mapResourcesFrom answers 0 list.descriptors)]
  unfold FewInterrupts at hfew
  split
  · next hzero =>
    rw [mapResourcesFrom_readFrom_first 0 list.descriptors s hzero (by omega), hfirst,
      Option.map_some, Option.some_or, Option.some_inj, Prod.mk.injEq]
    exact and_iff_right rfl
  · next hcounted =>
    have hpos : 0 < s.numberOfIntrs.toNat := BitVec.toNat_pos_of_ne_zero hcounted
    rw [mapResourcesFrom_readFrom_counted 0 list.descriptors s hpos hfew]

theorem mapResources_undone_iff (h : s.Leaks 0) (answers : MapAnswers)
    (list : PartialResourceList) :
    (s.mapResources answers list).2.Undone ↔ BarsFree answers s 0 list.descriptors := by
  obtain ⟨k, hleaks, hk⟩ := mapResourcesFrom_leaks h answers 0 list.descriptors
  rw [mapResources_snd, hleaks.unmapResources.2, Nat.zero_add, hk]

theorem mapResources_counts_iff (hcomplete : completes answers 0 list.descriptors = true)
    (s : ResourceMembers) :
    ((s.mapResources answers list).2.numberOfBARs.toNat =
        list.descriptors.countP PartialDescriptor.isBar ∧
      (s.mapResources answers list).2.numberOfIntrs.toNat =
        (interrupts list.descriptors).length) ↔
      s.numberOfBARs = 0 ∧ s.numberOfIntrs = 0 := by
  obtain ⟨hbars, hintrs⟩ := mapResourcesFrom_counts answers 0 list.descriptors s
  rw [reached_of_completes hcomplete] at hbars hintrs
  rw [mapResources_snd, hbars, hintrs,
    add_count_iff (List.countP_le_length.trans_lt list.count_lt),
    add_count_iff ((interrupts_length_le _).trans_lt list.count_lt)]

/-- A round does what it should exactly if it is sound. -/
theorem roundRight_iff (hleaks : s.Leaks 0) (hreads : s.Reads)
    (hfew : FewInterrupts answers list s) :
    RoundRight answers list s ↔ RoundSound answers list s := by
  constructor
  · intro h
    exact ⟨fun resource hfirst =>
        (mapResources_records_iff hreads hfew resource hfirst).mp (h.records resource hfirst),
      (mapResources_undone_iff hleaks answers list).mp h.undone,
      fun hcomplete => (mapResources_counts_iff hcomplete s).mp (h.counts hcomplete)⟩
  · intro h
    exact ⟨fun resource hfirst =>
        (mapResources_records_iff hreads hfew resource hfirst).mpr (h.interrupt resource hfirst),
      (mapResources_undone_iff hleaks answers list).mpr h.bars,
      fun hcomplete => (mapResources_counts_iff hcomplete s).mpr (h.counters hcomplete)⟩

end ResourceMembers

/-! ## Every run -/

theorem unmapBar_same (bar : CaptureBar) (s : ResourceMembers) :
    SameInterrupt s (s.unmapBar bar) := by
  unfold ResourceMembers.unmapBar
  split <;> exact ⟨rfl, rfl, rfl, rfl, rfl⟩

/-- What every state of a run of sound rounds keeps. -/
structure RoundInv (s : ResourceMembers) : Prop where
  leaks : s.Leaks 0
  reads : s.Reads

theorem RoundInv.step {call : ResourceCall} (h : RoundInv s) (hsound : soundRound s call)
    (hstep : resourceRounds.step call s = some s') : RoundInv s' := by
  cases call with
  | map list answers =>
    cases hstep
    obtain ⟨k, hleaks, hk⟩ := mapResourcesFrom_leaks h.leaks answers 0 list.descriptors
    cases hk.mpr hsound.2.bars
    rw [mapResources_snd]
    exact ⟨hleaks, h.reads.mapResourcesFrom answers 0 list.descriptors⟩
  | unmap =>
    cases hstep
    exact ⟨h.leaks.unmapResources.1,
      h.reads.same ((unmapBar_same .dma s).trans (unmapBar_same .video _))⟩

/-- **The rounds of the capture device.** In every run of sound rounds `UnmapResources` leaves every
mapping undone exactly once, and the next round does what it should if and only if it is sound. -/
theorem resourceRounds_right_iff (h : resourceRounds.Reach soundRound .zeroed s) :
    s.Undone ∧ ∀ list answers, FewInterrupts answers list s →
      (RoundRight answers list s ↔ RoundSound answers list s) := by
  have hinv : RoundInv s := h.invariant RoundInv
    ⟨leaks_zeroed, fun _ _ hread => by cases hread⟩ fun _ _ _ hi hok hstep => hi.step hok hstep
  exact ⟨hinv.leaks.unmapResources.2.mpr rfl,
    fun _ _ hfew => roundRight_iff hinv.leaks hinv.reads hfew⟩

def lineInterrupt : InterruptResource where
  flags := 0x0
  shareDisposition := 0
  messageInterrupt := ⟨0, 0, 0⟩
  interrupt := ⟨5, 0x51, 0x1⟩
  messageCount := 0

def messageInterrupt : InterruptResource where
  flags := 0x3
  shareDisposition := 0
  messageInterrupt := ⟨7, 0x71, 0x2⟩
  interrupt := ⟨7, 0x71, 0x2⟩
  messageCount := 1

def lineList : PartialResourceList :=
  ⟨[.memory 0xF0000000 0x1000, .interrupt lineInterrupt, .memoryLarge 0x200 0x800000000 0x1000000],
    by decide⟩

/-- Two memory resources and a message interrupt. -/
def messageList : PartialResourceList :=
  ⟨[.memory 0xF0000000 0x1000, .memory 0xF0010000 0x2000, .interrupt messageInterrupt], by decide⟩

def interruptOnly : PartialResourceList := ⟨[.interrupt lineInterrupt], by decide⟩

/-- Every mapping succeeds, at an address of its own. -/
def mapsAll : MapAnswers := fun i _ _ => some (0xFFFFA00000000000 + BitVec.ofNat 64 (0x100000 * i))

/-- The first round is right, the same list in a second one is not. -/
theorem resourceRounds_right_iff_line :
    ((ResourceMembers.zeroed.mapResources mapsAll lineList).2).Undone ∧
      ¬ RoundRight mapsAll lineList (ResourceMembers.zeroed.mapResources mapsAll lineList).2 := by
  have hsound : soundRound .zeroed (.map lineList mapsAll) := by
    refine ⟨by decide, ?_, ?_, fun _ => by decide⟩
    · rintro _ ⟨⟩
      decide
    · intro bar
      cases bar <;> decide
  have hrun := resourceRounds_right_iff (.step .refl hsound rfl)
  refine ⟨hrun.1, fun hright => ?_⟩
  have hcounters := ((hrun.2 lineList mapsAll (by decide)).mp hright).counters (by decide)
  exact absurd hcounters.1 (by decide)

/-- The message interrupt is read as a line interrupt, the first of two memory resources stays
mapped, and behind a good round a list without a BAR succeeds. -/
theorem messageRound_not_right :
    (ResourceMembers.zeroed.mapResources mapsAll messageList).2.readFrom =
        some (messageInterrupt, .interrupt) ∧
      ¬ (ResourceMembers.zeroed.mapResources mapsAll messageList).2.Undone ∧
      ¬ RoundRight mapsAll messageList .zeroed ∧
      ((ResourceMembers.zeroed.mapResources mapsAll lineList).2.unmapResources.mapResources
        mapsAll interruptOnly).1 = statusSuccess := by
  have hleaks : ¬ (ResourceMembers.zeroed.mapResources mapsAll messageList).2.Undone := by
    unfold Undone
    decide
  exact ⟨by decide, hleaks, fun h => hleaks h.undone, by decide⟩

/-! ## The calls of `MapResources` -/

/-- What the calls of `MapResources` look at of a resource. -/
def PartialDescriptor.toAdma : PartialDescriptor → AdmaResource
  | .memory start length => .memory start length
  | .memoryLarge flags start length => .memoryLarge flags start length
  | .interrupt resource => .interrupt (resource.flags &&& 0x2 != 0)
  | .port | .other => .other

/-- The counters and the BARs of the device. -/
structure SameMembers (d : CaptureDevice) (s : ResourceMembers) : Prop where
  bars : d.numberOfBars = s.numberOfBARs
  intrs : d.numberOfIntrs = s.numberOfIntrs
  bar : ∀ bar, (d.bar bar).map IoMapping.length = (s.bar bar).map fun _ => s.barLen bar

/-- `MmMapIoSpace` answers the same, for the resources from index `i` on. -/
def SameAnswers (env : (op : CaptureOp) → op.Res) (answers : MapAnswers) (i : Nat)
    (resources : List PartialDescriptor) : Prop :=
  ∀ k resource bar start length, resources[k]? = some resource →
    resource.mapping? = some (bar, start, length) →
      env (.mapIoSpace (i + k) bar length) = (answers (i + k) start length).isSome

variable {d : CaptureDevice} {env : (op : CaptureOp) → op.Res}

theorem SameAnswers.tail (h : SameAnswers env answers i (resource :: resources)) :
    SameAnswers env answers (i + 1) resources := by
  intro k resource' bar start length hget hmap
  have := h (k + 1) resource' bar start length hget hmap
  rwa [← Nat.add_assoc, Nat.add_right_comm] at this

theorem SameMembers.setBar (h : SameMembers d s) (bar : CaptureBar) (length : BitVec 32)
    (base : Option (BitVec 64)) :
    SameMembers (d.mapBar bar length base.isSome) (s.mapIoSpace bar length base).2 := by
  cases base with
  | none =>
    refine ⟨h.bars, h.intrs, fun bar' => ?_⟩
    simp only [CaptureDevice.mapBar, mapIoSpace, Option.isSome_none]
    by_cases heq : bar' = bar
    · subst heq
      simp only [Function.update_self, Option.map_none]
    · simp only [Function.update_of_ne heq]
      exact h.bar bar'
  | some base =>
    refine ⟨h.bars, h.intrs, fun bar' => ?_⟩
    simp only [CaptureDevice.mapBar, mapIoSpace, Option.isSome_some]
    by_cases heq : bar' = bar
    · subst heq
      simp only [Function.update_self, Option.map_some]
    · simp only [Function.update_of_ne heq]
      exact h.bar bar'

theorem SameMembers.mapBar (h : SameMembers d s) (i : Nat) (bar : CaptureBar)
    (length : BitVec 32) (base : Option (BitVec 64))
    (hanswer : env (.mapIoSpace i bar length) = base.isSome) :
    ∃ d', Prog.exec CaptureOp.act (answer env) (Capture.mapBar i bar length) d =
        some ((s.mapIoSpace bar length base).1, d') ∧
      SameMembers d' (s.mapIoSpace bar length base).2 := by
  refine ⟨d.mapBar bar length base.isSome, ?_, h.setBar bar length base⟩
  rw [Capture.mapBar, CaptureOp.perform, Prog.exec_perform_bind hanswer rfl]
  cases base <;> rfl

theorem SameMembers.mapResource (h : SameMembers d s) (answers : MapAnswers) (i : Nat)
    (resource : PartialDescriptor)
    (hanswer : ∀ bar start length, resource.mapping? = some (bar, start, length) →
      env (.mapIoSpace i bar length) = (answers i start length).isSome) :
    ∃ d', Prog.exec CaptureOp.act (answer env) (Capture.mapResource i resource.toAdma) d =
        some ((s.mapResource answers i resource).1, d') ∧
      SameMembers d' (s.mapResource answers i resource).2 := by
  have hcounted : SameMembers { d with numberOfBars := d.numberOfBars + 1 }
      { s with numberOfBARs := s.numberOfBARs + 1 } := ⟨by rw [h.bars], h.intrs, h.bar⟩
  cases resource with
  | port | other => exact ⟨d, rfl, h⟩
  | memory start length => exact hcounted.mapBar i .dma length _ (hanswer _ _ _ rfl)
  | memoryLarge flags start length =>
    by_cases hflag : flags &&& cmResourceMemoryLarge40 ≠ 0
    · have hmap : (PartialDescriptor.memoryLarge flags start length).mapping? =
          some (.video, start + 0x80000000, 0x10000) := if_pos hflag
      obtain ⟨d', hexec, hsame⟩ := hcounted.mapBar i .video 0x10000 _ (hanswer _ _ _ hmap)
      rw [mapResource_of_mapping hmap]
      refine ⟨d', ?_, hsame⟩
      simp only [PartialDescriptor.toAdma, Capture.mapResource, if_pos hflag]
      rw [CaptureOp.perform, Prog.exec_perform_bind rfl rfl]
      exact hexec
    · refine ⟨{ d with numberOfBars := d.numberOfBars + 1 }, ?_, ?_⟩
      · simp only [PartialDescriptor.toAdma, Capture.mapResource, ResourceMembers.mapResource,
          if_neg hflag]
        rfl
      · simp only [ResourceMembers.mapResource, if_neg hflag]
        exact hcounted
  | interrupt resource =>
    refine ⟨{ d with numberOfIntrs := d.numberOfIntrs + 1 }, ?_, ?_⟩
    · rw [mapResource_interrupt]
      rfl
    · rw [mapResource_interrupt]
      split
      · exact ⟨h.bars, by rw [h.intrs], h.bar⟩
      · exact ⟨h.bars, congrArg (· + 1) h.intrs, h.bar⟩

/-- The calls of the loop lead to the same status and the same members. -/
theorem SameMembers.mapResourcesFrom (h : SameMembers d s) (i : Nat)
    (resources : List PartialDescriptor) (hanswer : SameAnswers env answers i resources) :
    ∃ d', Prog.exec CaptureOp.act (answer env)
        (Capture.mapResourcesFrom i (resources.map PartialDescriptor.toAdma)) d =
        some ((ResourceMembers.mapResourcesFrom answers i resources s).1, d') ∧
      SameMembers d' (ResourceMembers.mapResourcesFrom answers i resources s).2 := by
  induction resources generalizing i d s with
  | nil => exact ⟨d, rfl, h⟩
  | cons resource resources ih =>
    obtain ⟨d', hexec, hsame⟩ := h.mapResource answers i resource
      fun bar start length hmap => hanswer 0 resource bar start length rfl hmap
    rw [List.map_cons, Capture.mapResourcesFrom, Prog.exec_bind, hexec, Option.bind_some,
      ResourceMembers.mapResourcesFrom]
    split
    · exact ⟨d', rfl, hsame⟩
    · exact ih hsame (i + 1) hanswer.tail

/-- So do those of the routine. -/
theorem SameMembers.mapResources (h : SameMembers d s) (list : PartialResourceList)
    (hanswer : SameAnswers env answers 0 list.descriptors) :
    ∃ d', Prog.exec CaptureOp.act (answer env)
        (Capture.mapResources (list.descriptors.map PartialDescriptor.toAdma)) d =
        some ((s.mapResources answers list).1, d') ∧
      SameMembers d' (s.mapResources answers list).2 := by
  obtain ⟨d', hexec, hsame⟩ := h.mapResourcesFrom 0 list.descriptors hanswer
  refine ⟨d', ?_, mapResources_snd s answers list ▸ hsame⟩
  rw [Capture.mapResources, Prog.exec_bind, hexec, Option.bind_some, ResourceMembers.mapResources]
  dsimp only
  split
  · rfl
  · have hcounts : answer env .readCounts d' = (d'.numberOfBars, d'.numberOfIntrs) := rfl
    rw [CaptureOp.perform, Prog.exec_perform_bind hcounts rfl, hsame.bars, hsame.intrs]
    split <;> rfl

theorem SameMembers.unmapBar (env : (op : CaptureOp) → op.Res) (h : SameMembers d s)
    (bar : CaptureBar) :
    ∃ d', Prog.exec CaptureOp.act (answer env) (Capture.unmapBar bar) d = some ((), d') ∧
      SameMembers d' (s.unmapBar bar) := by
  have hread : answer env (.readBar bar) d = (d.bar bar).isSome := rfl
  have hbar := h.bar bar
  rw [Capture.unmapBar, CaptureOp.perform, Prog.exec_perform_bind hread rfl]
  cases hs : s.bar bar with
  | none =>
    rw [hs, Option.map_none, Option.map_eq_none_iff] at hbar
    rw [hbar, ResourceMembers.unmapBar, hs]
    exact ⟨d, rfl, h⟩
  | some base =>
    rw [hs, Option.map_some, Option.map_eq_some_iff] at hbar
    obtain ⟨m, hm, -⟩ := hbar
    rw [hm, ResourceMembers.unmapBar, hs]
    refine ⟨_, rfl, ?_⟩
    have hunmapped : d.unmapBar bar = { d with mapped := Function.update d.mapped m.id false } := by
      rw [CaptureDevice.unmapBar, hm]
    simp only [CaptureOp.effect, hunmapped]
    refine ⟨h.bars, h.intrs, fun bar' => ?_⟩
    by_cases heq : bar' = bar
    · subst heq
      simp only [Function.update_self, Option.map_none]
    · simp only [Function.update_of_ne heq]
      exact h.bar bar'

theorem SameMembers.unmapResources (h : SameMembers d s) :
    ∃ d', Prog.exec CaptureOp.act (answer env) Capture.unmapResources d = some ((), d') ∧
      SameMembers d' s.unmapResources := by
  obtain ⟨d', hexec, hsame⟩ := h.unmapBar env .dma
  obtain ⟨d'', hexec', hsame'⟩ := hsame.unmapBar env .video
  refine ⟨d'', ?_, hsame'⟩
  rw [Capture.unmapResources, Prog.exec_bind, hexec, Option.bind_some]
  exact hexec'

end Capture

end Xadma
