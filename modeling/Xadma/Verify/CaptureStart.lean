import Xadma.Avsadma.CaptureDevice

/-!
# Failures of `PnpStart` in the capture driver

`PnpStart` does not look at the statuses of its three set-up routines, and it goes on with a
simulation object that it deleted. A failure is contained only if the filter factory fails or no
simulation object is made, in the Cyclone build also if the object is not added to the bag, and if
no interrupt was connected besides.
-/

namespace Xadma

namespace Capture

variable {build : AdmaBuild} {traced c : Bool} {d s s' : CaptureDevice} {op : CaptureOp}
  {env : (op : CaptureOp) → op.Res} {N : Prop}

/-! ## Failures -/

/-- A call of `PnpStart`. -/
structure StartInput where
  resources : List AdmaResource
  env : (op : CaptureOp) → op.Res

/-- The BAR that `MapResources` maps for a resource, with the length. -/
def mappedBar : AdmaResource → Option (CaptureBar × BitVec 32)
  | .memory _ length => some (.dma, length)
  | .memoryLarge flags _ _ =>
    if flags &&& cmResourceMemoryLarge40 ≠ 0 then some (.video, 0x10000) else none
  | .interrupt _ | .other => none

def isMemory : AdmaResource → Bool
  | .memory .. | .memoryLarge .. => true
  | .interrupt _ | .other => false

def isInterrupt : AdmaResource → Bool
  | .interrupt _ => true
  | .memory .. | .memoryLarge .. | .other => false

/-- A step of the initial start fails. -/
inductive StepFails (build : AdmaBuild) (i : StartInput) : Prop
  | filterFactory (h : ntSuccess (i.env .createFilterFactory) = false)
  | mapping {index : Nat} {resource : AdmaResource} {bar : CaptureBar} {length : BitVec 32}
    (hmem : i.resources[index]? = some resource) (hbar : mappedBar resource = some (bar, length))
    (h : i.env (.mapIoSpace index bar length) = false)
  | noMemory (h : i.resources.any isMemory = false)
  | noInterrupt (h : i.resources.any isInterrupt = false)
  | connect (h : ntSuccess (i.env .connectInterrupt) = false)
  | dmaAdapter (h : i.env .getDmaAdapter = false)
  | commonBuffer {b : CommonBuffer} (hmem : b ∈ commonBuffers build)
    (h : i.env (.allocateCommonBuffer b) = false)
  | newSimulation (h : i.env .newSimulation = false)
  | objectBag (h : ntSuccess (i.env .addToObjectBag) = false)

/-! ## What comes later -/

/-- Run a routine alone. There is no result behind an access that goes nowhere. -/
def run {α : Type} (env : (op : CaptureOp) → op.Res) (p : CaptureProg α) (d : CaptureDevice) :
    Option (α × CaptureDevice) :=
  p.exec CaptureOp.act (answer env) d

/-- What may come behind a start. -/
inductive LaterEvent
  | interrupt (env : (op : CaptureOp) → op.Res)
  | stop (env : (op : CaptureOp) → op.Res)

def LaterEvent.run (build : AdmaBuild) (traced : Bool) (d : CaptureDevice) :
    LaterEvent → Option CaptureDevice
  | .interrupt env =>
    -- the service routine is called only if it was connected
    if d.connected then (Capture.run env (interruptMessageService traced) d).map Prod.snd
    else some d
  | .stop env => (Capture.run env (pnpStop build) d).map Prod.snd

def runLater (build : AdmaBuild) (traced : Bool) :
    List LaterEvent → CaptureDevice → Option CaptureDevice
  | [], d => some d
  | e :: es, d => (e.run build traced d).bind (runLater build traced es)

/-- If a step of the start fails, `PnpStart` returns a failure, and neither it nor anything behind
it accesses memory that is not there. -/
def AtomicOnFailure (build : AdmaBuild) (traced : Bool) (i : StartInput) (d : CaptureDevice) :
    Prop :=
  d.started = false → StepFails build i →
    ∃ status d', run i.env (pnpStart build traced i.resources) d = some (status, d') ∧
      ntSuccess status = false ∧ ∀ events, (runLater build traced events d').isSome = true

/-- The failures that leave nothing behind. -/
def Contained (build : AdmaBuild) (i : StartInput) (d : CaptureDevice) : Prop :=
  d.connected = false ∧
    (ntSuccess (i.env .createFilterFactory) = false ∨
      ntSuccess (i.env .connectInterrupt) = false ∧
        (i.env .newSimulation = false ∨
          build = .cyclone4 ∧ ntSuccess (i.env .addToObjectBag) = false))

/-- The BAR is not mapped, and the register pointers are of BARs that were unmapped, if of any. -/
structure Resting (d : CaptureDevice) : Prop where
  bar : d.bar .dma = none
  reg : ∀ r m, (d.reg r).base = some m → m.id < d.nextMapping ∧ d.mapped m.id = false

/-! ## One call -/

theorem act_eq_some {r : op.Res} : op.act d r = some s ↔ op.valid d = true ∧ op.effect r d = s := by
  unfold CaptureOp.act
  split
  · next hvalid => simp [hvalid]
  · next hvalid => simp [hvalid]

theorem act_eq_none {r : op.Res} : op.act d r = none ↔ op.valid d = false := by
  unfold CaptureOp.act
  split
  · next hvalid => simp [hvalid]
  · next hvalid => simpa using hvalid

/-- One call, and what it leads to. -/
theorem run_perform_bind {α : Type} (op : CaptureOp) {k : op.Res → CaptureProg α} (r : op.Res)
    (hanswer : answer env op d = r) (hact : op.act d r = some s) :
    run env (op.perform >>= k) d = run env (k r) s :=
  Prog.exec_perform_bind hanswer hact

theorem run_bind {α β : Type} {p : CaptureProg α} {k : α → CaptureProg β} {a : α}
    (h : run env p d = some (a, s)) : run env (p >>= k) d = run env (k a) s := by
  unfold run at h ⊢
  rw [Prog.exec_bind, h, Option.bind_some]

/-- The calls that set the device up, short of the interrupt and of the buffers' contents. -/
inductive Prepares : CaptureOp → Prop
  | countBar : Prepares .countBar
  | countIntr : Prepares .countIntr
  | readCounts : Prepares .readCounts
  | mapIoSpace (index : Nat) (bar : CaptureBar) (length : BitVec 32) :
    Prepares (.mapIoSpace index bar length)
  | getDmaAdapter : Prepares .getDmaAdapter
  | queryInterface : Prepares .queryInterface
  | allocateCommonBuffer (b : CommonBuffer) : Prepares (.allocateCommonBuffer b)
  | newSimulation : Prepares .newSimulation
  | addToObjectBag : Prepares .addToObjectBag
  | deleteSimulation : Prepares .deleteSimulation

/-- What setting up keeps. The interrupt is connected if `c`. -/
structure Kept (c : Bool) (d s : CaptureDevice) : Prop where
  reg : s.reg = d.reg
  connected : s.connected = c
  next : d.nextMapping ≤ s.nextMapping
  mapped : ∀ id < d.nextMapping, s.mapped id = d.mapped id
  bound : ∀ m, s.bar .dma = some m → m.id < s.nextMapping

theorem Resting.kept (h : Resting d) : Kept d.connected d d :=
  ⟨rfl, rfl, Nat.le_refl _, fun _ _ => rfl, fun m hm => by rw [h.bar] at hm; cases hm⟩

theorem Kept.mapBar (h : Kept c d s) (bar : CaptureBar) (length : BitVec 32) (r : Bool) :
    Kept c d (s.mapBar bar length r) := by
  cases r with
  | false =>
    refine ⟨h.reg, h.connected, h.next, h.mapped, fun m hm => ?_⟩
    cases bar with
    | dma => cases hm
    | video => exact h.bound m hm
  | true =>
    refine ⟨h.reg, h.connected, Nat.le_succ_of_le h.next, fun id hid => ?_, fun m hm => ?_⟩
    · have hne : id ≠ s.nextMapping := Nat.ne_of_lt (Nat.lt_of_lt_of_le hid h.next)
      exact (Function.update_of_ne hne ..).trans (h.mapped id hid)
    · cases bar with
      | dma => cases hm; exact Nat.lt_succ_self _
      | video => exact Nat.lt_succ_of_lt (h.bound m hm)

theorem Prepares.valid (hop : Prepares op) : op.valid d = true := by
  cases hop <;> rfl

theorem Prepares.kept (hop : Prepares op) {r : op.Res} (h : Kept c d s) :
    Kept c d (op.effect r s) := by
  cases hop with
  | mapIoSpace _ bar length => exact h.mapBar bar length r
  | _ => exact ⟨h.reg, h.connected, h.next, h.mapped, h.bound⟩

/-- A routine that only prepares. -/
theorem runs_of_prepares {α : Type} {p : CaptureProg α} (hp : p.All Prepares) (h : Kept c d s) :
    p.Runs CaptureOp.act (answer env) N (fun _ => Kept c d) s := by
  apply Prog.Runs.all hp h
  · intro op s hop _ hact
    have hvalid := hop.valid (d := s)
    rw [act_eq_none.mp hact] at hvalid
    cases hvalid
  · intro op s s' hop hs hact
    obtain ⟨-, rfl⟩ := act_eq_some.mp hact
    exact hop.kept hs

/-- The pointer is still to a BAR that was unmapped. -/
theorem Kept.not_reaches (h : Kept c d s) (hrest : Resting d) (r : CaptureReg) :
    s.reaches (s.reg r) = false := by
  rw [h.reg, CaptureDevice.reaches]
  cases hbase : (d.reg r).base with
  | none => rfl
  | some m =>
    obtain ⟨hlt, hmapped⟩ := hrest.reg r m hbase
    exact (h.mapped m.id hlt).trans hmapped

/-! ## Setting up -/

theorem mapBar_all (index : Nat) (bar : CaptureBar) (length : BitVec 32) :
    (mapBar index bar length).All Prepares := by
  apply Prog.All.bind (.perform (.mapIoSpace index bar length))
  intro mapped
  split <;> exact trivial

theorem mapResource_all (index : Nat) (resource : AdmaResource) :
    (mapResource index resource).All Prepares := by
  cases resource with
  | memory _ length =>
    exact Prog.All.bind (.perform .countBar) fun _ => mapBar_all index .dma length
  | memoryLarge flags _ _ =>
    apply Prog.All.bind (.perform .countBar)
    intro _
    split
    · exact mapBar_all index .video 0x10000
    · exact trivial
  | interrupt _ => exact Prog.All.bind (.perform .countIntr) fun _ => trivial
  | other => exact trivial

theorem mapResourcesFrom_all (index : Nat) (resources : List AdmaResource) :
    (mapResourcesFrom index resources).All Prepares := by
  induction resources generalizing index with
  | nil => exact trivial
  | cons resource resources ih =>
    apply Prog.All.bind (mapResource_all index resource)
    intro status
    split
    · exact trivial
    · exact ih (index + 1)

theorem mapResources_all (resources : List AdmaResource) :
    (mapResources resources).All Prepares := by
  apply Prog.All.bind (mapResourcesFrom_all 0 resources)
  intro status
  split
  · exact trivial
  · apply Prog.All.bind (.perform .readCounts)
    intro counts
    split <;> exact trivial

/-- What the loop over the resources comes to, the first of which is at `index`. -/
structure Examined (env : (op : CaptureOp) → op.Res) (index : Nat) (resources : List AdmaResource)
    (d : CaptureDevice) (status : NtStatus) (s : CaptureDevice) : Prop where
  maps : ntSuccess status = true → ∀ k resource bar length, resources[k]? = some resource →
    mappedBar resource = some (bar, length) → env (.mapIoSpace (index + k) bar length) = true
  bars : resources.any isMemory = false → s.numberOfBars = d.numberOfBars
  intrs : resources.any isInterrupt = false → s.numberOfIntrs = d.numberOfIntrs

theorem runs_mapBar (index : Nat) (bar : CaptureBar) (length : BitVec 32) :
    (mapBar index bar length).Runs CaptureOp.act (answer env) N (fun status s =>
      ntSuccess status = env (.mapIoSpace index bar length) ∧
        s.numberOfIntrs = d.numberOfIntrs) d := by
  have hmap : (CaptureOp.mapIoSpace index bar length).perform.Runs CaptureOp.act (answer env) N
      (fun r s => r = env (.mapIoSpace index bar length) ∧
        s.numberOfIntrs = d.numberOfIntrs) d := by
    refine Prog.Runs.performs rfl ⟨rfl, ?_⟩
    simp only [CaptureOp.effect, CaptureDevice.mapBar]
    split <;> rfl
  apply hmap.bind
  intro mapped s ⟨hmapped, hintrs⟩
  rw [← hmapped]
  cases mapped <;> exact Prog.Runs.ret ⟨rfl, hintrs⟩

theorem runs_mapResource (index : Nat) (resource : AdmaResource) :
    (mapResource index resource).Runs CaptureOp.act (answer env) N
      (fun status s => (ntSuccess status = true → ∀ bar length,
          mappedBar resource = some (bar, length) → env (.mapIoSpace index bar length) = true) ∧
        (isMemory resource = false → s.numberOfBars = d.numberOfBars) ∧
        (isInterrupt resource = false → s.numberOfIntrs = d.numberOfIntrs)) d := by
  have hcount : CaptureOp.countBar.perform.Runs CaptureOp.act (answer env) N
      (fun _ s => s.numberOfIntrs = d.numberOfIntrs) d := Prog.Runs.performs rfl rfl
  cases resource with
  | memory _ length =>
    apply hcount.bind
    intro _ s hs
    apply (runs_mapBar index .dma length).post
    intro status s' ⟨hstatus, hintrs⟩
    refine ⟨fun hsuccess bar length' hbar => ?_, Bool.noConfusion, fun _ => hintrs.trans hs⟩
    cases hbar
    exact hstatus ▸ hsuccess
  | memoryLarge flags _ _ =>
    apply hcount.bind
    intro _ s hs
    split
    · next hflag =>
      apply (runs_mapBar index .video 0x10000).post
      intro status s' ⟨hstatus, hintrs⟩
      refine ⟨fun hsuccess bar length' hbar => ?_, Bool.noConfusion, fun _ => hintrs.trans hs⟩
      rw [mappedBar, if_pos hflag] at hbar
      cases hbar
      exact hstatus ▸ hsuccess
    · next hflag =>
      refine Prog.Runs.ret ⟨fun _ bar length hbar => ?_, Bool.noConfusion, fun _ => hs⟩
      rw [mappedBar, if_neg hflag] at hbar
      cases hbar
  | interrupt _ =>
    have hintr : CaptureOp.countIntr.perform.Runs CaptureOp.act (answer env) N
        (fun _ s => s.numberOfBars = d.numberOfBars) d := Prog.Runs.performs rfl rfl
    apply hintr.bind
    intro _ s hs
    exact Prog.Runs.ret ⟨fun _ _ _ hbar => (nomatch hbar), fun _ => hs, Bool.noConfusion⟩
  | other => exact Prog.Runs.ret ⟨fun _ _ _ hbar => (nomatch hbar), fun _ => rfl, fun _ => rfl⟩

theorem runs_mapResourcesFrom (index : Nat) (resources : List AdmaResource) :
    (mapResourcesFrom index resources).Runs CaptureOp.act (answer env) N
      (Examined env index resources d) d := by
  induction resources generalizing index d with
  | nil => exact Prog.Runs.ret ⟨fun _ k _ _ _ hmem => by simp at hmem, fun _ => rfl, fun _ => rfl⟩
  | cons resource resources ih =>
    apply (runs_mapResource index resource).bind
    intro status s ⟨hmaps, hbars, hintrs⟩
    have hfirst {b : AdmaResource → Bool} (hnone : (resource :: resources).any b = false) :
        b resource = false ∧ resources.any b = false :=
      Bool.or_eq_false_iff.mp hnone
    cases hstatus : ntSuccess status with
    | false =>
      refine Prog.Runs.ret ⟨fun hsuccess => ?_, fun hnone => hbars (hfirst hnone).1,
        fun hnone => hintrs (hfirst hnone).1⟩
      rw [hstatus] at hsuccess
      cases hsuccess
    | true =>
      apply (ih (index + 1)).post
      intro status' s' h
      refine ⟨fun hsuccess k resource' bar length hmem hbar => ?_,
        fun hnone => (h.bars (hfirst hnone).2).trans (hbars (hfirst hnone).1),
        fun hnone => (h.intrs (hfirst hnone).2).trans (hintrs (hfirst hnone).1)⟩
      cases k with
      | zero =>
        cases hmem
        exact hmaps hstatus bar length hbar
      | succ k =>
        have hrest := h.maps hsuccess k resource' bar length hmem hbar
        rwa [show index + 1 + k = index + (k + 1) by omega] at hrest

/-- `MapResources` reports a mapping that failed, and a resource that is missing as long as none was
counted before. `PnpStart` does not look. -/
theorem mapResources_fails {resources : List AdmaResource} {status : NtStatus}
    (hrun : run env (mapResources resources) d = some (status, s))
    (h : (∃ index resource bar length, resources[index]? = some resource ∧
        mappedBar resource = some (bar, length) ∧ env (.mapIoSpace index bar length) = false) ∨
      resources.any isMemory = false ∧ d.numberOfBars = 0 ∨
      resources.any isInterrupt = false ∧ d.numberOfIntrs = 0) :
    ntSuccess status = false := by
  have hruns : (mapResources resources).Runs CaptureOp.act (answer env) True
      (fun status _ => ntSuccess status = false) d := by
    apply (runs_mapResourcesFrom 0 resources).bind
    intro status s hexamined
    cases hstatus : ntSuccess status with
    | false => exact Prog.Runs.ret hstatus
    | true =>
      have hcounts : s.numberOfBars < 1 ∨ s.numberOfIntrs < 1 := by
        rcases h with ⟨index, resource, bar, length, hmem, hbar, hfalse⟩ | ⟨hnone, hzero⟩ |
          ⟨hnone, hzero⟩
        · have hmapped := hexamined.maps hstatus index resource bar length hmem hbar
          rw [Nat.zero_add, hfalse] at hmapped
          cases hmapped
        · left
          rw [hexamined.bars hnone, hzero]
          decide
        · right
          rw [hexamined.intrs hnone, hzero]
          decide
      have hread : CaptureOp.readCounts.perform.Runs CaptureOp.act (answer env) True
          (fun counts _ => counts = (s.numberOfBars, s.numberOfIntrs)) s :=
        Prog.Runs.performs rfl rfl
      apply hread.bind
      intro counts s' hcounts'
      rw [hcounts', if_pos hcounts]
      exact Prog.Runs.ret rfl
  exact hruns.of_some hrun

/-- Only a buffer that was allocated is zeroed. -/
theorem runs_allocateBuffers (h : Kept c d s) (status : NtStatus) (bs : List CommonBuffer) :
    (allocateBuffers status bs).Runs CaptureOp.act (answer env) N (fun _ => Kept c d) s := by
  induction bs generalizing s with
  | nil => exact Prog.Runs.ret h
  | cons b bs ih =>
    have hallocate : (CaptureOp.allocateCommonBuffer b).perform.Runs CaptureOp.act (answer env) N
        (fun r s => Kept c d s ∧ s.buffer b = r) s :=
      Prog.Runs.performs rfl ⟨(Prepares.allocateCommonBuffer b).kept h, Function.update_self ..⟩
    apply hallocate.bind
    intro allocated s ⟨h, hbuffer⟩
    cases allocated with
    | false => exact Prog.Runs.ret h
    | true =>
      have hzero : (CaptureOp.zeroBuffer b).perform.Runs CaptureOp.act (answer env) N
          (fun _ => Kept c d) s :=
        Prog.Runs.performs (act_eq_some.mpr ⟨hbuffer, rfl⟩) h
      exact hzero.bind fun _ s h => ih h

theorem runs_setupDma (h : Kept c d s) :
    (setupDma build).Runs CaptureOp.act (answer env) N (fun _ => Kept c d) s := by
  apply Prog.Runs.bind (runs_of_prepares (.perform .getDmaAdapter) h)
  intro adapter s h
  cases adapter with
  | false => exact Prog.Runs.ret h
  | true =>
    apply Prog.Runs.bind (runs_of_prepares (.perform .queryInterface) h)
    intro status s h
    exact runs_allocateBuffers h status (commonBuffers build)

theorem runs_setupInterrupts (h : Kept c d s) :
    setupInterrupts.Runs CaptureOp.act (answer env) N
      (fun _ => Kept (c || ntSuccess (env .connectInterrupt)) d) s :=
  Prog.Runs.performs rfl
    ⟨h.reg, congrArg (· || ntSuccess (env .connectInterrupt)) h.connected, h.next, h.mapped,
      h.bound⟩

/-! ## The registers -/

/-- The pointers are set in order. -/
theorem run_assignRegs (rs : List CaptureReg) :
    run env (Prog.forEach rs fun r => (CaptureOp.assignReg r).perform) s =
      some ((), { s with
        reg := rs.foldl (fun reg r => Function.update reg r ⟨s.bar .dma, r.offset⟩) s.reg }) := by
  induction rs generalizing s with
  | nil => rfl
  | cons r rs ih =>
    have hassign : run env (Prog.forEach (r :: rs) fun r => (CaptureOp.assignReg r).perform) s =
        run env (Prog.forEach rs fun r => (CaptureOp.assignReg r).perform)
          ((CaptureOp.assignReg r).effect () s) :=
      Prog.exec_perform_bind rfl rfl
    exact hassign.trans ih

theorem run_assignRegisters_cyclone4 :
    run env (assignRegisters .cyclone4 traced) s =
      some ((), { s with reg := fun r => ⟨s.bar .dma, r.offset⟩ }) := by
  have hreg : captureRegs.foldl (fun reg r => Function.update reg r ⟨s.bar .dma, r.offset⟩) s.reg =
      fun r => ⟨s.bar .dma, r.offset⟩ := by
    funext r
    cases r <;> rfl
  rw [← hreg]
  exact run_assignRegs captureRegs

/-- The Arria 10 build goes through the simulation object. -/
theorem run_assignRegisters_arria10 (h : s.simulation ≠ .live) :
    run env (assignRegisters .arria10 traced) s = none := by
  have hact : (CaptureOp.writeSimulation (.sgdmaReg .rd)).act s () = none :=
    act_eq_none.mpr (decide_eq_false h)
  unfold run assignRegisters
  rw [Prog.exec_bind]
  simp only [simulationFields, List.cons_append, Prog.forEach, CaptureOp.perform, Prog.perform,
    Prog.call_bind, Prog.exec_call]
  rw [show answer env (CaptureOp.writeSimulation (.sgdmaReg .rd)) s = () from rfl, hact]
  rfl

/-! ## The initial start -/

/-- How the initial start ends if it came to the hardware. The interrupt is connected if `c`. -/
inductive Outcome (build : AdmaBuild) (env : (op : CaptureOp) → op.Res) (c : Bool)
    (d : CaptureDevice) : NtStatus → CaptureDevice → Prop
  | noSimulation {s : CaptureDevice} (hnew : env .newSimulation = false) (h : Kept c d s) :
    Outcome build env c d statusInsufficientResources s
  | assigned {s : CaptureDevice} (hnew : env .newSimulation = true) (hbuild : build = .cyclone4)
    (h : Kept c d s) :
    Outcome build env c d (env .addToObjectBag) { s with reg := fun r => ⟨s.bar .dma, r.offset⟩ }
  | given {s : CaptureDevice} (hnew : env .newSimulation = true)
    (hbag : ntSuccess (env .addToObjectBag) = true) (h : Kept c d s) :
    Outcome build env c d (env .addToObjectBag) s

/-- The calls of the Arria 10 build that go through the simulation object. -/
inductive Fills : CaptureOp → Prop
  | writeSimulation (field : SimulationField) : Fills (.writeSimulation field)
  | readBufferPa (b : CommonBuffer) : Fills (.readBufferPa b)
  | readSgdma (side : SgdmaSide) (offset : Nat) : Fills (.readSgdma side offset)
  | writeSgdma (side : SgdmaSide) (offset : Nat) (value : BitVec 32) :
    Fills (.writeSgdma side offset value)

theorem Fills.kept (hop : Fills op) {r : op.Res} (h : Kept c d s) : Kept c d (op.effect r s) := by
  cases hop with
  | writeSimulation field => cases field <;> exact ⟨h.reg, h.connected, h.next, h.mapped, h.bound⟩
  | _ => exact h

theorem giveDescriptorBuffer_all (side : SgdmaSide) :
    (giveDescriptorBuffer traced side).All Fills := by
  apply Prog.All.bind (.perform (.readBufferPa side.buffer))
  intro pa
  apply Prog.All.bind (.perform (.writeSgdma side 0x0 _))
  intro _
  apply Prog.All.bind (.perform (.writeSgdma side 0x4 _))
  intro _
  apply Prog.All.bind (.perform (.writeSgdma side 0x8 _))
  intro _
  apply Prog.All.bind (.perform (.writeSgdma side 0xC _))
  intro _
  apply Prog.All.when
  apply Prog.All.bind (.perform (.readSgdma side 0x0))
  intro _
  exact Prog.All.bind (.perform (.readSgdma side 0x4)) fun _ => trivial

theorem assignRegisters_arria10_all : (assignRegisters .arria10 traced).All Fills := by
  apply Prog.All.bind (.forEach (fun field => .perform (.writeSimulation field)) _)
  intro _
  exact .forEach giveDescriptorBuffer_all _

/-- Behind `KsAddItemToObjectBag`. -/
theorem runs_bagged (hnew : env .newSimulation = true) (h : Kept c d s) :
    (do
      Prog.when (ntSuccess (env .addToObjectBag) = false) CaptureOp.deleteSimulation.perform
      assignRegisters build traced
      return env .addToObjectBag : CaptureProg NtStatus).Runs CaptureOp.act (answer env)
      (build = .arria10 ∧ env .newSimulation = true) (Outcome build env c d) s := by
  have hwhen : (Prog.when (ntSuccess (env .addToObjectBag) = false)
      CaptureOp.deleteSimulation.perform).Runs CaptureOp.act (answer env)
      (build = .arria10 ∧ env .newSimulation = true) (fun _ s => Kept c d s ∧
        (ntSuccess (env .addToObjectBag) = false → s.simulation = .freed)) s := by
    apply Prog.Runs.when
    · intro _
      exact Prog.Runs.performs rfl ⟨Prepares.deleteSimulation.kept h, fun _ => rfl⟩
    · intro hbag
      exact ⟨h, fun hbag' => absurd hbag' hbag⟩
  apply hwhen.bind
  intro _ s ⟨h, hfreed⟩
  cases build with
  | cyclone4 =>
    have hassign : (assignRegisters .cyclone4 traced).Runs CaptureOp.act (answer env)
        (AdmaBuild.cyclone4 = .arria10 ∧ env .newSimulation = true)
        (fun _ s' => s' = { s with reg := fun r => ⟨s.bar .dma, r.offset⟩ }) s :=
      Prog.Runs.of_eq_some run_assignRegisters_cyclone4 rfl
    apply hassign.bind
    intro _ s' hs'
    rw [hs']
    exact Prog.Runs.ret (.assigned hnew rfl h)
  | arria10 =>
    cases hbag : ntSuccess (env .addToObjectBag) with
    | true =>
      have hassign : (assignRegisters .arria10 traced).Runs CaptureOp.act (answer env)
          (AdmaBuild.arria10 = .arria10 ∧ env .newSimulation = true) (fun _ => Kept c d) s := by
        apply Prog.Runs.all assignRegisters_arria10_all h fun _ _ _ _ _ => ⟨rfl, hnew⟩
        intro op s s' hop hs hact
        obtain ⟨-, rfl⟩ := act_eq_some.mp hact
        exact hop.kept hs
      exact hassign.bind fun _ s h => Prog.Runs.ret (.given hnew hbag h)
    | false =>
      have hlive : s.simulation ≠ .live := by
        rw [hfreed hbag]
        exact Simulation.noConfusion
      have hnone : (assignRegisters .arria10 traced).Runs CaptureOp.act (answer env)
          (AdmaBuild.arria10 = .arria10 ∧ env .newSimulation = true) (fun _ _ => False) s :=
        Prog.Runs.of_none (run_assignRegisters_arria10 hlive) ⟨rfl, hnew⟩
      exact hnone.bind fun _ _ hfalse => hfalse.elim

theorem runs_startHardware (build : AdmaBuild) (traced : Bool) (env : (op : CaptureOp) → op.Res)
    (hrest : Resting d) (resources : List AdmaResource) :
    (startHardware build traced resources).Runs CaptureOp.act (answer env)
      (build = .arria10 ∧ env .newSimulation = true)
      (Outcome build env (d.connected || ntSuccess (env .connectInterrupt)) d) d := by
  apply Prog.Runs.bind (runs_of_prepares (mapResources_all resources) hrest.kept)
  intro _ s h
  apply Prog.Runs.bind (runs_setupInterrupts h)
  intro _ s h
  apply Prog.Runs.bind (runs_setupDma h)
  intro _ s h
  have hnew : CaptureOp.newSimulation.perform.Runs CaptureOp.act (answer env)
      (build = .arria10 ∧ env .newSimulation = true) (fun created s =>
        env .newSimulation = created ∧
          Kept (d.connected || ntSuccess (env .connectInterrupt)) d s) s :=
    Prog.Runs.performs rfl ⟨rfl, Prepares.newSimulation.kept h⟩
  apply hnew.bind
  intro created s ⟨hcreated, h⟩
  cases created with
  | false => exact Prog.Runs.ret (.noSimulation hcreated h)
  | true =>
    have hbag : CaptureOp.addToObjectBag.perform.Runs CaptureOp.act (answer env)
        (build = .arria10 ∧ env .newSimulation = true) (fun status s =>
          status = env .addToObjectBag ∧
            Kept (d.connected || ntSuccess (env .connectInterrupt)) d s) s :=
      Prog.Runs.performs rfl ⟨rfl, Prepares.addToObjectBag.kept h⟩
    apply hbag.bind
    rintro status s ⟨rfl, h⟩
    exact runs_bagged hcreated h

theorem run_createFilter (hstarted : d.started = false) :
    run env createFilter d = some (env .createFilterFactory, d) := by
  unfold createFilter
  rw [run_perform_bind .readStarted false hstarted rfl]
  rfl

theorem run_pnpStart_of_failure (hstarted : d.started = false)
    (hfilter : ntSuccess (env .createFilterFactory) = false) (resources : List AdmaResource) :
    run env (pnpStart build traced resources) d = some (env .createFilterFactory, d) := by
  rw [pnpStart, run_bind (run_createFilter hstarted), hfilter]
  rfl

theorem run_pnpStart_of_success (hstarted : d.started = false)
    (hfilter : ntSuccess (env .createFilterFactory) = true) (resources : List AdmaResource) :
    run env (pnpStart build traced resources) d =
      run env (startHardware build traced resources) d := by
  rw [pnpStart, run_bind (run_createFilter hstarted), hfilter]
  exact run_perform_bind .readStarted false hstarted rfl

/-! ## Behind the start -/

/-- The calls that free the buffers. -/
inductive Frees : CaptureOp → Prop
  | readDmaAdapter : Frees .readDmaAdapter
  | putDmaAdapter : Frees .putDmaAdapter
  | readBuffer (b : CommonBuffer) : Frees (.readBuffer b)
  | freeCommonBuffer (b : CommonBuffer) : Frees (.freeCommonBuffer b)

/-- What stopping keeps. -/
structure Closing (d s : CaptureDevice) : Prop where
  reg : s.reg = d.reg
  connected : s.connected = d.connected
  next : s.nextMapping = d.nextMapping
  null : ∀ bar, d.bar bar = none → s.bar bar = none
  unmapped : ∀ id, d.mapped id = false → s.mapped id = false

theorem Closing.refl : Closing d d := ⟨rfl, rfl, rfl, fun _ => id, fun _ => id⟩

theorem Closing.trans {d' : CaptureDevice} (h : Closing d s) (h' : Closing s d') : Closing d d' :=
  ⟨h'.reg.trans h.reg, h'.connected.trans h.connected, h'.next.trans h.next,
    fun bar hbar => h'.null bar (h.null bar hbar), fun id hid => h'.unmapped id (h.unmapped id hid)⟩

theorem freeBuffer_all (b : CommonBuffer) : (freeBuffer b).All Frees :=
  Prog.All.bind (.perform (.readBuffer b)) fun _ => .when (.perform (.freeCommonBuffer b))

/-- A routine that only frees. -/
theorem runs_of_frees {α : Type} {p : CaptureProg α} (hp : p.All Frees)
    (h : Closing d s ∧ s.bar = d.bar) :
    p.Runs CaptureOp.act (answer env) N (fun _ s => Closing d s ∧ s.bar = d.bar) s := by
  apply Prog.Runs.all (J := fun s => Closing d s ∧ s.bar = d.bar) hp h
  · intro op s hop _ hact
    cases hop <;> cases act_eq_none.mp hact
  · intro op s s' hop ⟨h, hbar⟩ hact
    obtain ⟨-, rfl⟩ := act_eq_some.mp hact
    cases hop <;> exact ⟨⟨h.reg, h.connected, h.next, h.null, h.unmapped⟩, hbar⟩

theorem run_unmapBar_of_null {bar : CaptureBar} (hbar : d.bar bar = none) :
    run env (unmapBar bar) d = some ((), d) := by
  unfold unmapBar
  rw [run_perform_bind (.readBar bar) false (congrArg Option.isSome hbar) rfl]
  rfl

theorem run_unmapBar_of_mapped {bar : CaptureBar} {m : IoMapping} (hbar : d.bar bar = some m) :
    run env (unmapBar bar) d = some ((), { d with
      mapped := Function.update d.mapped m.id false
      bar := Function.update d.bar bar none }) := by
  have hunmap : d.unmapBar bar = { d with mapped := Function.update d.mapped m.id false } := by
    rw [CaptureDevice.unmapBar, hbar]
  unfold unmapBar
  rw [run_perform_bind (.readBar bar) true (congrArg Option.isSome hbar) rfl, Prog.when, if_pos rfl]
  exact run_perform_bind (.unmapIoSpace bar) () rfl (congrArg some hunmap)

/-- A BAR that is not `NULL` is unmapped, and then it is. -/
structure Unmapped (bar : CaptureBar) (d s : CaptureDevice) : Prop where
  closing : Closing d s
  null : s.bar bar = none
  unmapped : ∀ m, d.bar bar = some m → s.mapped m.id = false

theorem runs_unmapBar (bar : CaptureBar) :
    (unmapBar bar).Runs CaptureOp.act (answer env) N (fun _ => Unmapped bar d) d := by
  cases hbar : d.bar bar with
  | none =>
    apply Prog.Runs.of_eq_some (run_unmapBar_of_null hbar)
    refine ⟨.refl, hbar, fun m hm => ?_⟩
    rw [hbar] at hm
    cases hm
  | some m =>
    apply Prog.Runs.of_eq_some (run_unmapBar_of_mapped hbar)
    have hupdate : Function.update d.mapped m.id false m.id = false := Function.update_self ..
    have hclosing : Closing d { d with
        mapped := Function.update d.mapped m.id false
        bar := Function.update d.bar bar none } := by
      refine ⟨rfl, rfl, rfl, fun bar' hbar' => ?_, fun id hid => ?_⟩
      · by_cases heq : bar' = bar
        · exact heq ▸ Function.update_self ..
        · exact (Function.update_of_ne heq ..).trans hbar'
      · by_cases heq : id = m.id
        · exact heq ▸ hupdate
        · exact (Function.update_of_ne heq ..).trans hid
    refine ⟨hclosing, Function.update_self .., fun m' hm' => ?_⟩
    rw [hbar] at hm'
    cases hm'
    exact hupdate

theorem runs_pnpStop :
    (pnpStop build).Runs CaptureOp.act (answer env) N (fun _ => Unmapped .dma d) d := by
  apply Prog.Runs.bind (runs_of_frees (.perform .readDmaAdapter) ⟨.refl, rfl⟩)
  intro adapter s h
  have hfree : (Prog.when (adapter = true) (do
      Prog.forEach (commonBuffers build) freeBuffer
      CaptureOp.putDmaAdapter.perform)).All Frees :=
    .when ((Prog.All.forEach freeBuffer_all _).bind fun _ => .perform .putDmaAdapter)
  apply Prog.Runs.bind (runs_of_frees hfree h)
  intro _ s ⟨h, hbar⟩
  apply Prog.Runs.bind (runs_unmapBar .dma)
  intro _ s h'
  apply (runs_unmapBar .video).post
  intro _ s h''
  refine ⟨(h.trans h'.closing).trans h''.closing, h''.closing.null .dma h'.null, fun m hm => ?_⟩
  exact h''.closing.unmapped m.id (h'.unmapped m (hbar ▸ hm))

theorem run_pnpStop (build : AdmaBuild) (env : (op : CaptureOp) → op.Res) (d : CaptureDevice) :
    ∃ s, run env (pnpStop build) d = some ((), s) ∧ Unmapped .dma d s := by
  have hruns : (pnpStop build).Runs CaptureOp.act (answer env) False (fun _ => Unmapped .dma d) d :=
    runs_pnpStop
  obtain ⟨⟨u, s⟩, hrun⟩ := Option.isSome_iff_exists.mp (hruns.isSome not_false)
  exact ⟨s, hrun, hruns.of_some hrun⟩

/-- The first access of the service routine. -/
theorem run_interruptMessageService (h : d.reaches (d.reg .csr) = false) :
    run env (interruptMessageService traced) d = none := by
  have hact : (CaptureOp.readReg .csr 0x0).act d (env (.readReg .csr 0x0)) = none :=
    act_eq_none.mpr h
  unfold interruptMessageService run
  rw [Prog.exec_bind]
  have hread : (CaptureOp.readReg .csr 0x0).perform.exec CaptureOp.act (answer env) d = none := by
    rw [CaptureOp.perform, Prog.perform, Prog.exec_call]
    exact congrArg (Option.bind · _) hact
  rw [hread]
  rfl

theorem runLater_of_disconnected (h : d.connected = false) (events : List LaterEvent) :
    (runLater build traced events d).isSome = true := by
  induction events generalizing d with
  | nil => rfl
  | cons e events ih =>
    have hstep : ∃ d', e.run build traced d = some d' ∧ d'.connected = false := by
      cases e with
      | interrupt env => exact ⟨d, by rw [LaterEvent.run, h]; rfl, h⟩
      | stop env =>
        obtain ⟨d', hrun, hd'⟩ := run_pnpStop build env d
        exact ⟨d', congrArg (Option.map Prod.snd) hrun, hd'.closing.connected.trans h⟩
    obtain ⟨d', hd', hconnected⟩ := hstep
    rw [runLater, hd', Option.bind_some]
    exact ih hconnected

/-- An interrupt that reads the status register through a pointer to nothing. -/
theorem not_connected_of_harmless (h : ∀ events, (runLater build traced events d).isSome = true)
    (hcsr : d.reaches (d.reg .csr) = false) : d.connected = false := by
  by_contra hconnected
  have hsome := h [.interrupt fun _ => default]
  rw [runLater, LaterEvent.run, if_pos (Bool.eq_true_of_not_eq_false hconnected),
    run_interruptMessageService hcsr] at hsome
  cases hsome

/-- An interrupt after `PnpStop`, which leaves it connected. -/
theorem not_connected_of_harmless_stop
    (h : ∀ events, (runLater build traced events d).isSome = true)
    (hcsr : d.reg .csr = ⟨d.bar .dma, CaptureReg.csr.offset⟩) : d.connected = false := by
  obtain ⟨d', hrun, hd'⟩ := run_pnpStop build (fun _ => default) d
  have hreaches : d'.reaches (d'.reg .csr) = false := by
    rw [hd'.closing.reg, hcsr, CaptureDevice.reaches]
    cases hbar : d.bar .dma with
    | none => rfl
    | some m => exact hd'.unmapped m hbar
  have hharmless : ∀ events, (runLater build traced events d').isSome = true := by
    intro events
    have hlater := h (.stop (fun _ => default) :: events)
    have hstop : (LaterEvent.stop fun _ => default).run build traced d = some d' :=
      congrArg (Option.map Prod.snd) hrun
    rwa [runLater, hstop, Option.bind_some] at hlater
  exact hd'.closing.connected.symm.trans (not_connected_of_harmless hharmless hreaches)

/-! ## Devices at rest -/

theorem resting_zeroed : Resting zeroed := ⟨rfl, fun _ _ hm => nomatch hm⟩

/-- A register pointer is of a BAR that was unmapped or of the one that is mapped. -/
def Owned (d : CaptureDevice) : Prop :=
  ∀ r m, (d.reg r).base = some m →
    m.id < d.nextMapping ∧ (d.mapped m.id = false ∨ d.bar .dma = some m)

theorem Kept.owned (h : Kept c d s) (hrest : Resting d) : Owned s := by
  intro r m hm
  rw [h.reg] at hm
  obtain ⟨hlt, hmapped⟩ := hrest.reg r m hm
  exact ⟨Nat.lt_of_lt_of_le hlt h.next, .inl ((h.mapped m.id hlt).trans hmapped)⟩

theorem Outcome.owned {status : NtStatus} (h : Outcome build env c d status s)
    (hrest : Resting d) : Owned s := by
  cases h with
  | noSimulation _ h => exact h.owned hrest
  | assigned _ _ h => exact fun r m hm => ⟨h.bound m hm, .inr hm⟩
  | given _ _ h => exact h.owned hrest

/-- A device is at rest again when it was started and stopped. -/
theorem resting_pnpStop {env' : (op : CaptureOp) → op.Res} {resources : List AdmaResource}
    {status : NtStatus} (hrest : Resting d) (hstarted : d.started = false)
    (hstart : run env (pnpStart build traced resources) d = some (status, s))
    (hstop : run env' (pnpStop build) s = some ((), s')) : Resting s' := by
  have howned : Owned s := by
    cases hfilter : ntSuccess (env .createFilterFactory) with
    | false =>
      rw [run_pnpStart_of_failure hstarted hfilter] at hstart
      cases hstart
      exact hrest.kept.owned hrest
    | true =>
      rw [run_pnpStart_of_success hstarted hfilter] at hstart
      exact ((runs_startHardware build traced env hrest resources).of_some hstart).owned hrest
  have hunmapped : Unmapped .dma s s' := runs_pnpStop (N := True).of_some hstop
  refine ⟨hunmapped.null, fun r m hm => ?_⟩
  rw [hunmapped.closing.reg] at hm
  obtain ⟨hlt, hmapped | hbar⟩ := howned r m hm
  · exact ⟨hunmapped.closing.next ▸ hlt, hunmapped.closing.unmapped m.id hmapped⟩
  · exact ⟨hunmapped.closing.next ▸ hlt, hunmapped.unmapped m hbar⟩

/-! ## When a failure is contained -/

variable {i : StartInput}

/-- Behind the filter factory, a failure that is atomic was contained. -/
theorem Outcome.contained {status : NtStatus} (hrest : Resting d)
    (h : Outcome build i.env (d.connected || ntSuccess (i.env .connectInterrupt)) d status s)
    (hstatus : ntSuccess status = false)
    (hlater : ∀ events, (runLater build traced events s).isSome = true) : Contained build i d := by
  have hdisconnected (hc : s.connected = (d.connected || ntSuccess (i.env .connectInterrupt)))
      (hs : s.connected = false) :
      d.connected = false ∧ ntSuccess (i.env .connectInterrupt) = false :=
    Bool.or_eq_false_iff.mp (hc.symm.trans hs)
  cases h with
  | noSimulation hnew h =>
    have hcsr := h.not_reaches hrest .csr
    have hd := hdisconnected h.connected (not_connected_of_harmless hlater hcsr)
    exact ⟨hd.1, .inr ⟨hd.2, .inl hnew⟩⟩
  | assigned hnew hbuild h =>
    have hd := hdisconnected h.connected (not_connected_of_harmless_stop hlater rfl)
    exact ⟨hd.1, .inr ⟨hd.2, .inr ⟨hbuild, hstatus⟩⟩⟩
  | given hnew hbag h =>
    rw [hbag] at hstatus
    cases hstatus

theorem contained_of_atomic (hrest : Resting d) (hstarted : d.started = false)
    (hfails : StepFails build i) (h : AtomicOnFailure build traced i d) : Contained build i d := by
  obtain ⟨status, d', hrun, hstatus, hlater⟩ := h hstarted hfails
  cases hfilter : ntSuccess (i.env .createFilterFactory) with
  | false =>
    rw [run_pnpStart_of_failure hstarted hfilter] at hrun
    cases hrun
    have hcsr : d.reaches (d.reg .csr) = false := hrest.kept.not_reaches hrest .csr
    exact ⟨not_connected_of_harmless hlater hcsr, .inl hfilter⟩
  | true =>
    rw [run_pnpStart_of_success hstarted hfilter] at hrun
    have houtcome := (runs_startHardware build traced i.env hrest i.resources).of_some hrun
    exact houtcome.contained hrest hstatus hlater

/-- A contained failure behind the filter factory. -/
theorem Outcome.failed {status : NtStatus} (hconnect : ntSuccess (i.env .connectInterrupt) = false)
    (hlast : i.env .newSimulation = false ∨
      build = .cyclone4 ∧ ntSuccess (i.env .addToObjectBag) = false)
    (hd : d.connected = false)
    (h : Outcome build i.env (d.connected || ntSuccess (i.env .connectInterrupt)) d status s) :
    ntSuccess status = false ∧ s.connected = false := by
  have hc : (d.connected || ntSuccess (i.env .connectInterrupt)) = false :=
    Bool.or_eq_false_iff.mpr ⟨hd, hconnect⟩
  cases h with
  | noSimulation hnew h => exact ⟨rfl, h.connected.trans hc⟩
  | assigned hnew hbuild h =>
    rw [hnew] at hlast
    exact ⟨(hlast.resolve_left nofun).2, h.connected.trans hc⟩
  | given hnew hbag h =>
    rw [hnew, hbag] at hlast
    exact absurd hlast (by simp)

theorem atomic_of_contained (hrest : Resting d) (h : Contained build i d) :
    AtomicOnFailure build traced i d := by
  intro hstarted _
  obtain ⟨hd, hcases⟩ := h
  cases hfilter : ntSuccess (i.env .createFilterFactory) with
  | false =>
    exact ⟨_, d, run_pnpStart_of_failure hstarted hfilter _, hfilter, runLater_of_disconnected hd⟩
  | true =>
    obtain ⟨hconnect, hlast⟩ := hcases.resolve_left (by rw [hfilter]; exact Bool.noConfusion)
    have hruns := runs_startHardware build traced i.env hrest i.resources
    have hreturns : ¬ (build = .arria10 ∧ i.env .newSimulation = true) := by
      intro ⟨hbuild, hnew⟩
      rw [hbuild, hnew] at hlast
      exact absurd hlast (by simp)
    obtain ⟨⟨status, d'⟩, hrun⟩ := Option.isSome_iff_exists.mp (hruns.isSome hreturns)
    obtain ⟨hstatus, hconnected⟩ := (hruns.of_some hrun).failed hconnect hlast hd
    refine ⟨status, d', ?_, hstatus, runLater_of_disconnected hconnected⟩
    rw [run_pnpStart_of_success hstarted hfilter]
    exact hrun

theorem atomicOnFailure_iff (hrest : Resting d) :
    AtomicOnFailure build traced i d ↔
      d.started = true ∨ ¬ StepFails build i ∨ Contained build i d := by
  constructor
  · intro h
    by_cases hstarted : d.started = true
    · exact .inl hstarted
    · by_cases hfails : StepFails build i
      · have hstarted : d.started = false := Bool.eq_false_of_not_eq_true hstarted
        exact .inr (.inr (contained_of_atomic hrest hstarted hfails h))
      · exact .inr (.inl hfails)
  · intro h
    rcases h with hstarted | hfails | hcontained
    · intro hnot
      rw [hstarted] at hnot
      cases hnot
    · exact fun _ hfails' => absurd hfails' hfails
    · exact atomic_of_contained hrest hcontained

/-- The BAR is mapped, the interrupt is not connected, and there is no memory for the simulation. -/
def unconnected : StartInput where
  resources := [.memory 0xFE000000 0x8000, .interrupt false]
  env
    | .mapIoSpace .. => true
    | .connectInterrupt => statusInsufficientResources
    | .getDmaAdapter => true
    | .allocateCommonBuffer _ => true
    | .newSimulation => false
    | _ => default

theorem unconnected_atomic :
    StepFails .cyclone4 unconnected ∧ AtomicOnFailure .cyclone4 true unconnected zeroed := by
  refine ⟨.connect rfl, (atomicOnFailure_iff resting_zeroed).mpr (.inr (.inr ⟨rfl, .inr ?_⟩))⟩
  exact ⟨rfl, .inl rfl⟩

/-- The BAR is not mapped, and all else succeeds. -/
def refusedBar : StartInput where
  resources := [.memory 0xFE000000 0x8000, .interrupt false]
  env
    | .getDmaAdapter => true
    | .allocateCommonBuffer _ => true
    | .newSimulation => true
    | _ => default

theorem refusedBar_not_atomic : ¬ AtomicOnFailure .cyclone4 true refusedBar zeroed := by
  intro h
  have hfails : StepFails .cyclone4 refusedBar :=
    .mapping (show refusedBar.resources[0]? = some _ from rfl) rfl rfl
  obtain ⟨status, d', hrun, hstatus, -⟩ := h rfl hfails
  have hsuccess : (run refusedBar.env (pnpStart .cyclone4 true refusedBar.resources) zeroed).map
      Prod.fst = some statusSuccess := rfl
  rw [hrun] at hsuccess
  cases hsuccess
  cases hstatus

end Capture

end Xadma
