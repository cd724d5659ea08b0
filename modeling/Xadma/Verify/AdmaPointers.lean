import Xadma.Libadma.EntryPoints
import Xadma.Verify.AdmaWindows
import Xadma.Verify.EntryQueue

/-!
# The register pointers of the Altera engines

`EngineCreate` assigns other pointers in each build, and none assigns `regs`. The routines behind
the entry points do not look at the build, apart from `ADMA_EngineProgramDma`.
-/

namespace Xadma

namespace Adma

open Entry (EntryOp EntryProg File IoQueue)

variable {w : PointerWidth} {build : AdmaBuild} {i : AdmaOpenInput} {d d' d₁ : AdmaDevice}
  {status : NtStatus} {dir : DirToDev} {ptr : RegPtr}

/-- `EngineCreate` assigns the pointer in the build. -/
def assigned : AdmaBuild → RegPtr → Bool
  | .arria10, .sgdma => true
  | .cyclone4, .modSgdmaCsr | .cyclone4, .modSgdmaStdDes => true
  | .arria10, .regs | .arria10, .modSgdmaCsr | .arria10, .modSgdmaStdDes => false
  | .cyclone4, .regs | .cyclone4, .sgdma => false

/-- The pointer of the engine is not `NULL`, and `EngineCreate` assigned it. -/
def PointerSet (build : AdmaBuild) (d : AdmaDevice) (dir : DirToDev) (ptr : RegPtr) : Prop :=
  ∃ block, (assignRegs build d.configBarIdx dir (zeroed.engine dir)).pointer ptr = some block ∧
    (d.engine dir).pointer ptr = some block

/-- The device contexts that the framework's calls lead to. -/
inductive Rounds (build : AdmaBuild) : AdmaDevice → Prop
  | zeroed : Rounds build zeroed
  | opened {d d' : AdmaDevice} {i : AdmaOpenInput} {status : NtStatus} (h : Rounds build d)
    (hopen : admaDeviceOpen build i d = some (status, d')) : Rounds build d'
  | closed {d : AdmaDevice} (h : Rounds build d) : Rounds build (admaDeviceClose d)

/-! ## The pointers that stay unset -/

/-- The engines have the same pointers, apart from those that the build assigns. -/
def Keeps (build : AdmaBuild) (d d' : AdmaDevice) : Prop :=
  ∀ dir ptr, assigned build ptr = false → (d'.engine dir).pointer ptr = (d.engine dir).pointer ptr

theorem Keeps.trans (h : Keeps build d d₁) (h' : Keeps build d₁ d') : Keeps build d d' :=
  fun dir ptr hptr => (h' dir ptr hptr).trans (h dir ptr hptr)

theorem Keeps.of_engine (h : d'.engine = d.engine) : Keeps build d d' := by
  intro dir ptr _
  rw [h]

theorem assignRegs_pointer {bar : Fin admaMaxNumBars} {engine : AdmaEngine}
    (h : assigned build ptr = false) :
    (assignRegs build bar dir engine).pointer ptr = engine.pointer ptr := by
  cases build with
  | arria10 =>
    cases ptr with
    | sgdma => cases h
    | regs | modSgdmaCsr | modSgdmaStdDes => rfl
  | cyclone4 =>
    cases ptr with
    | modSgdmaCsr | modSgdmaStdDes => cases h
    | regs | sgdma => rfl

theorem Keeps.setEngine {engine : AdmaEngine}
    (h : ∀ ptr, assigned build ptr = false → engine.pointer ptr = (d.engine dir).pointer ptr) :
    Keeps build d (setEngine d dir engine) := by
  intro dir' ptr hptr
  by_cases hdir : dir' = dir
  · subst hdir
    rw [setEngine_self]
    exact h ptr hptr
  · exact congrArg (AdmaEngine.pointer · ptr) (Function.update_of_ne hdir ..)

theorem engineCreateTransaction_keeps
    (h : some (engineCreateTransaction i d dir) = some (status, d')) : Keeps build d d' := by
  rcases engineCreateTransaction_cases i d dir with ⟨-, heq⟩ | ⟨-, heq⟩
  · rw [heq] at h
    cases h
    exact .of_engine rfl
  · rw [heq] at h
    cases h
    apply Keeps.setEngine
    intro ptr _
    cases ptr with
    | regs | sgdma | modSgdmaCsr | modSgdmaStdDes => rfl

theorem engineCreate_keeps (h : engineCreate build i d dir = some (status, d')) :
    Keeps build d d' := by
  have hassign : Keeps build d
      (setEngine d dir (assignRegs build d.configBarIdx dir (d.engine dir))) :=
    Keeps.setEngine fun ptr hptr => assignRegs_pointer hptr
  cases build with
  | cyclone4 => exact hassign.trans (engineCreateTransaction_keeps h)
  | arria10 =>
    obtain ⟨created, -, h⟩ := Option.bind_eq_some_iff.mp h
    split at h
    · cases h
      exact hassign
    · exact hassign.trans (engineCreateTransaction_keeps h)

theorem probeEngines_keeps {dirs : List DirToDev}
    (h : probeEngines build i dirs d = some (status, d')) : Keeps build d d' := by
  induction dirs generalizing d with
  | nil =>
    cases h
    exact .of_engine rfl
  | cons dir dirs ih =>
    obtain ⟨⟨created, d₁⟩, hcreate, h⟩ := Option.bind_eq_some_iff.mp h
    simp only at h
    split at h
    · cases h
      exact engineCreate_keeps hcreate
    · exact (engineCreate_keeps hcreate).trans (ih h)

theorem openMasked_keeps (h : openMasked build i d = some (status, d')) : Keeps build d d' := by
  unfold openMasked at h
  split at h
  · cases h
    exact .of_engine rfl
  · obtain ⟨⟨probed, d₁⟩, hprobe, h⟩ := Option.bind_eq_some_iff.mp h
    simp only at h
    split at h
    · cases h
      exact probeEngines_keeps hprobe
    · cases h
      exact probeEngines_keeps hprobe

theorem identifyBars_engine : (identifyBars build d).engine = d.engine := by
  cases build with
  | arria10 | cyclone4 => rfl

theorem openMapped_keeps (h : openMapped build i d = some (status, d')) : Keeps build d d' := by
  have hidentify : Keeps build d { getRegisterModules (identifyBars build d) with
      a2pMask := i.a2pMask } :=
    .of_engine identifyBars_engine
  obtain ⟨-, -, h⟩ := Option.bind_eq_some_iff.mp h
  simp only at h
  split at h
  · cases h
    exact hidentify
  · exact hidentify.trans (openMasked_keeps h)

theorem deviceDefaultInitialize_keeps : Keeps build d (deviceDefaultInitialize d) := by
  intro dir ptr _
  cases ptr with
  | regs | sgdma | modSgdmaCsr | modSgdmaStdDes => rfl

/-- `MapBARs` leaves the engines alone. -/
theorem mapBars_engine (h : mapBars i i.resources (deviceDefaultInitialize d) = some (status, d')) :
    d'.engine = (deviceDefaultInitialize d).engine := by
  have hend : MapEnd i (numbered i.resources 0) (deviceDefaultInitialize d)
      (mapBars i i.resources (deviceDefaultInitialize d)) :=
    mapBars_end (d := deviceDefaultInitialize d) fun _ _ => rfl
  rw [h] at hend
  cases hend with
  | refused _ _ hframe => exact hframe.engine
  | mapped _ _ hframe _ _ => exact hframe.engine

theorem admaDeviceOpen_keeps (h : admaDeviceOpen build i d = some (status, d')) :
    Keeps build d d' := by
  obtain ⟨⟨mapped, d₁⟩, hmap, h⟩ := Option.bind_eq_some_iff.mp h
  have hmapped : Keeps build d d₁ :=
    deviceDefaultInitialize_keeps.trans (.of_engine (mapBars_engine hmap))
  simp only at h
  split at h
  · cases h
    exact hmapped
  · exact hmapped.trans (openMapped_keeps h)

/-- A pointer that the build does not assign is `NULL` for ever. -/
theorem Rounds.unset (h : Rounds build d) (hptr : assigned build ptr = false) :
    (d.engine dir).pointer ptr = none := by
  induction h with
  | zeroed =>
    cases ptr with
    | regs | sgdma | modSgdmaCsr | modSgdmaStdDes => rfl
  | opened _ hopen ih => rw [admaDeviceOpen_keeps hopen dir ptr hptr, ih]
  | closed _ ih => exact ih

/-! ## The pointers that are set -/

/-- A successful open leaves the engines as `EngineCreate` does. -/
theorem admaDeviceOpen_opened (h : admaDeviceOpen build i d = some (status, d'))
    (hstatus : ntSuccess status = true) : ∃ d₁, d' = opened build i d₁ := by
  obtain ⟨⟨mapped, d₁⟩, -, h⟩ := Option.bind_eq_some_iff.mp h
  simp only at h
  split at h
  · next hfails =>
    cases h
    rw [hstatus] at hfails
    cases hfails
  · rcases openMapped_cases build i d₁ with ⟨-, hnone⟩ | ⟨mapping, -, -, hcases⟩
    · rw [hnone] at h
      cases h
    · rcases hcases with ⟨-, status', d'', heq, hfails⟩ | ⟨-, -, heq⟩
      · rw [heq] at h
        cases h
        exact absurd hstatus hfails
      · rw [heq] at h
        cases h
        exact ⟨d₁, rfl⟩

theorem pointer_opened (hptr : assigned build ptr = true) :
    PointerSet build (opened build i d) dir ptr := by
  cases build with
  | arria10 =>
    cases ptr with
    | sgdma => cases dir with
      | h2c | c2h => exact ⟨_, rfl, rfl⟩
    | regs | modSgdmaCsr | modSgdmaStdDes => cases hptr
  | cyclone4 =>
    cases ptr with
    | modSgdmaCsr | modSgdmaStdDes => cases dir with
      | h2c | c2h => exact ⟨_, rfl, rfl⟩
    | regs | sgdma => cases hptr

/-- In a device that is open, the pointers that are set are those that the build assigns. -/
theorem pointerSet_iff (hrounds : Rounds build d)
    (hopen : admaDeviceOpen build i d = some (status, d')) (hstatus : ntSuccess status = true) :
    PointerSet build d' dir ptr ↔ assigned build ptr = true := by
  constructor
  · rintro ⟨block, -, hblock⟩
    rw [← Bool.not_eq_false]
    intro hptr
    rw [(hrounds.opened hopen).unset hptr] at hblock
    cases hblock
  · intro hptr
    obtain ⟨d₁, rfl⟩ := admaDeviceOpen_opened hopen hstatus
    exact pointer_opened hptr

/-! ## Calls -/

variable {traced : Bool} {engine : DirToDev} {file : File w}

/-- The pointer that a call dereferences, if any, is set. -/
def DerefsSet (build : AdmaBuild) (traced : Bool) (d : AdmaDevice) (o : IoOp w) : Prop :=
  ∀ x, o.deref traced = some x → PointerSet build d x.1 x.2

/-- The pointer that a call dereferences, if any, is one that the build assigns. -/
def DerefsAssigned (build : AdmaBuild) (traced : Bool) (o : IoOp w) : Prop :=
  ∀ x, o.deref traced = some x → assigned build x.2 = true

theorem derefsAssigned_of_none {o : IoOp w} (h : o.deref traced = none) :
    DerefsAssigned build traced o := by
  intro x hx
  rw [h] at hx
  cases hx

theorem derefsAssigned_of_some {o : IoOp w} (h : o.deref traced = some (engine, ptr)) :
    DerefsAssigned build traced o ↔ assigned build ptr = true := by
  constructor
  · intro hassigned
    exact hassigned _ h
  · intro hassigned x hx
    rw [h] at hx
    cases hx
    exact hassigned

theorem perform_all {o : IoOp w} (h : o.deref traced = none) :
    o.perform.All (DerefsAssigned build traced) :=
  Prog.All.perform (derefsAssigned_of_none h)

theorem assigned_modSgdmaCsr_iff : assigned build .modSgdmaCsr = true ↔ build = .cyclone4 := by
  cases build with
  | arria10 | cyclone4 => decide

/-- A register of the dispatcher is read and written back. -/
theorem modifyCsrControl_all_iff {engine : DirToDev} (f : BitVec 32 → BitVec 32) :
    (do
      let reg : BitVec 32 ← (IoOp.readCsrControl engine).perform
      (IoOp.writeCsrControl engine (f reg)).perform : IoProg w Unit).All
        (DerefsAssigned build traced) ↔ build = .cyclone4 := by
  have hread : DerefsAssigned (w := w) build traced (.readCsrControl engine) ↔ build = .cyclone4 :=
    (derefsAssigned_of_some rfl).trans assigned_modSgdmaCsr_iff
  constructor
  · intro h
    exact hread.mp h.1
  · intro hbuild
    exact ⟨hread.mpr hbuild, fun _ => ⟨hread.mpr hbuild, fun _ => trivial⟩⟩

theorem engineEnableInterrupt_all_iff {engine : Option DirToDev} :
    (engineEnableInterrupt engine : IoProg w Unit).All (DerefsAssigned build traced) ↔
      engine = none ∨ build = .cyclone4 := by
  cases engine with
  | none => exact ⟨fun _ => .inl rfl, fun _ => trivial⟩
  | some engine => exact (modifyCsrControl_all_iff _).trans (or_iff_right nofun).symm

theorem engineDisableInterrupt_all_iff {engine : Option DirToDev} :
    (engineDisableInterrupt engine : IoProg w Unit).All (DerefsAssigned build traced) ↔
      engine = none ∨ build = .cyclone4 := by
  cases engine with
  | none => exact ⟨fun _ => .inl rfl, fun _ => trivial⟩
  | some engine => exact (modifyCsrControl_all_iff _).trans (or_iff_right nofun).symm

/-! ## `ADMA_EngineProgramDma` -/

instance (o : AdmaOp) : Nonempty o.Res := by
  cases o with
  | readDmaLastPtr => exact ⟨(0 : BitVec 32)⟩
  | _ => exact ⟨()⟩

theorem programPointer_of_untraced {o : AdmaOp} (h : programPointer false o = some ptr) :
    programPointer traced o = some ptr := by
  cases o with
  | engineStart => cases h
  | _ => exact h

theorem arria10Loop_all {P : AdmaOp → Prop}
    (h : ∀ id descriptor, P (.writeDescriptor id descriptor))
    (direction : WdfDmaDirection) (deviceOffset : BitVec 64) (id : BitVec 32)
    (es : List SgElement) : (arria10Loop direction deviceOffset id es).All P := by
  induction es generalizing id with
  | nil => exact trivial
  | cons e es ih => exact (Prog.All.perform (h _ _)).bind fun _ => ih _

theorem writePort_all {P : AdmaOp → Prop}
    (h : ∀ o, programPointer false o = some .modSgdmaStdDes → P o)
    (descriptor : ModularSgdmaDescriptor) : (writePort descriptor).All P :=
  ⟨h _ rfl, fun _ => ⟨h _ rfl, fun _ => ⟨h _ rfl, fun _ => ⟨h _ rfl, fun _ => trivial⟩⟩⟩⟩

theorem cyclone4Loop_all {P : AdmaOp → Prop}
    (h : ∀ o, programPointer false o = some .modSgdmaStdDes → P o) (a2pMask : BitVec 32)
    (direction : WdfDmaDirection) (deviceOffset : BitVec 64) (es : List SgElement) :
    (cyclone4Loop a2pMask direction deviceOffset es).All P := by
  induction es generalizing deviceOffset with
  | nil => exact trivial
  | cons e es ih => exact (writePort_all h _).bind fun _ => ih _

/-- The pointer that an access dereferences, if any, is one that the build assigns. -/
def AccessAssigned (build : AdmaBuild) (traced : Bool) (o : AdmaOp) : Prop :=
  ∀ ptr, programPointer traced o = some ptr → assigned build ptr = true

theorem access_all {α : Type} {o : AdmaOp} {f : o.Res → AdmaProg α}
    (ho : AccessAssigned build traced o) (hf : ∀ r, (f r).All (AccessAssigned build traced)) :
    (o.perform >>= f).All (AccessAssigned build traced) :=
  (Prog.All.perform ho).bind hf

theorem accessAssigned_of_none {o : AdmaOp} (h : programPointer traced o = none) :
    AccessAssigned build traced o := by
  intro ptr hptr
  rw [h] at hptr
  cases hptr

theorem accessAssigned_of_some {o : AdmaOp} (h : programPointer traced o = some ptr)
    (hptr : assigned build ptr = true) : AccessAssigned build traced o := by
  intro ptr' hptr'
  rw [h] at hptr'
  cases hptr'
  exact hptr

/-- The trace in `EngineStart` reads registers of the Cyclone build. -/
theorem admaEngineProgramDma_all_iff (a2pMask : BitVec 32) (call : ProgramCall) :
    (admaEngineProgramDma build a2pMask call).All (AccessAssigned build traced) ↔
      build = .cyclone4 ∨ traced = false := by
  cases build with
  | arria10 =>
    constructor
    · intro h
      right
      obtain ⟨id, hstart⟩ :=
        Prog.All.exists_of_bind (((h.answer ()).answer ()).answer (0 : BitVec 32))
      rw [← Bool.not_eq_true]
      rintro rfl
      have hcsr := hstart.1 .modSgdmaCsr rfl
      cases hcsr
    · rintro (hbuild | rfl)
      · cases hbuild
      · apply access_all (accessAssigned_of_none rfl)
        intro _
        apply access_all (accessAssigned_of_none rfl)
        intro _
        apply access_all (accessAssigned_of_some rfl rfl)
        intro id
        apply (arria10Loop_all (fun _ _ => accessAssigned_of_none rfl) _ _ _ _).bind
        intro id
        apply access_all (accessAssigned_of_none rfl)
        intro _
        exact Prog.All.perform (accessAssigned_of_some rfl rfl)
  | cyclone4 =>
    have hport (o : AdmaOp) (ho : programPointer false o = some .modSgdmaStdDes) :
        AccessAssigned .cyclone4 traced o :=
      accessAssigned_of_some (programPointer_of_untraced ho) rfl
    have hstart : AccessAssigned .cyclone4 traced .engineStart := by
      cases traced with
      | true => exact accessAssigned_of_some rfl rfl
      | false => exact accessAssigned_of_none rfl
    constructor
    · exact fun _ => .inl rfl
    · intro _
      apply access_all (accessAssigned_of_none rfl)
      intro _
      apply access_all (accessAssigned_of_none rfl)
      intro _
      apply access_all (accessAssigned_of_some rfl rfl)
      intro _
      exact (cyclone4Loop_all hport _ _ _ _).bind fun _ => Prog.All.perform hstart

theorem derefsAssigned_program_iff {o : AdmaOp} :
    DerefsAssigned (w := w) build traced (.program engine o) ↔ AccessAssigned build traced o := by
  constructor
  · intro h ptr hptr
    exact h (engine, ptr) (by rw [IoOp.deref, hptr, Option.map_some])
  · intro h x hx
    obtain ⟨ptr, hptr, rfl⟩ := Option.map_eq_some_iff.mp hx
    exact h ptr hptr

theorem engineProgramDma_all_iff {call : ProgramCall} :
    (engineProgramDma build d engine call : IoProg w Unit).All (DerefsAssigned build traced) ↔
      build = .cyclone4 ∨ traced = false := by
  refine (Prog.all_mapOp_iff fun _ => Function.surjective_id).trans ?_
  rw [← admaEngineProgramDma_all_iff d.a2pMask call]
  constructor
  · exact fun h => h.mono fun o => derefsAssigned_program_iff.mp
  · exact fun h => h.mono fun o => derefsAssigned_program_iff.mpr

/-! ## The queues of the engines -/

theorem complete_all {status : NtStatus} :
    (complete status : IoProg w Unit).All (DerefsAssigned build traced) :=
  perform_all rfl

theorem errExit_all {status : NtStatus} :
    (errExit engine status : IoProg w Unit).All (DerefsAssigned build traced) :=
  (perform_all rfl).bind fun _ => complete_all

theorem wdfDmaTransactionExecute_all
    (h : build = .cyclone4 ∨ traced = false) :
    (wdfDmaTransactionExecute build d engine : IoProg w NtStatus).All
      (DerefsAssigned build traced) := by
  apply (perform_all rfl).bind
  intro call
  apply Prog.All.bind _ fun _ => perform_all rfl
  cases call with
  | none => exact trivial
  | some call => exact engineProgramDma_all_iff.mpr h

theorem startDma_all_iff {rest : IoProg w Unit} (hrest : rest.All (DerefsAssigned build traced)) :
    (startDma build d engine rest).All (DerefsAssigned build traced) ↔
      build = .cyclone4 ∨ traced = false := by
  have hsuccess : ¬ (!ntSuccess statusSuccess) = true := by decide
  constructor
  · intro h
    have hmark := h.answer statusSuccess
    rw [if_neg hsuccess] at hmark
    have hexecute := hmark.answer statusSuccess
    rw [if_neg hsuccess] at hexecute
    let call : ProgramCall := ⟨.writeToDevice, 0, ⟨[⟨0, 0⟩], List.cons_ne_nil _ _⟩⟩
    exact engineProgramDma_all_iff.mp (hexecute.of_bind.answer (some call)).of_bind
  · intro h
    apply (perform_all rfl).bind
    intro status
    split
    · exact errExit_all
    apply (perform_all rfl).bind
    intro status
    split
    · exact errExit_all
    apply (wdfDmaTransactionExecute_all h).bind
    intro status
    split
    · exact errExit_all
    · exact hrest

theorem evtIoWriteDma_all_iff :
    (evtIoWriteDma build d engine : IoProg w Unit).All (DerefsAssigned build traced) ↔
      build = .cyclone4 ∨ traced = false := by
  apply startDma_all_iff
  apply (perform_all rfl).bind
  intro info
  split
  · exact (perform_all rfl).bind fun _ => trivial
  · exact trivial

/-! ## The entry queue -/

/-- A call of the helpers that dereferences no register pointer. -/
def Unregistered (o : EntryOp w) : Prop := entryPointer o = none

theorem entryCall_all {o : EntryOp w} (h : entryPointer o = none) : o.perform.All Unregistered :=
  Prog.All.perform h

theorem completeFailed_all (status : NtStatus) :
    (Entry.completeFailed (w := w) status).All Unregistered :=
  (entryCall_all rfl).when

theorem completeDone_all (information : Nat) (status : NtStatus) :
    (Entry.completeDone (w := w) information status).All Unregistered :=
  (entryCall_all rfl).when

theorem completed_all {p : EntryProg w NtStatus} (hp : p.All Unregistered) (information : Nat) :
    (p >>= fun status => Entry.completeDone information status >>= fun _ =>
      Entry.completeFailed status).All Unregistered :=
  hp.bind fun status =>
    (completeDone_all information status).bind fun _ => completeFailed_all status

theorem forward_all (queue : Option IoQueue) :
    ((EntryOp.forwardToIoQueue queue).perform >>= Entry.completeFailed (w := w)).All Unregistered :=
  (entryCall_all rfl).bind completeFailed_all

theorem evtReadUserEvent_all (file : File w) (length : BitVec w.bits) :
    (Entry.evtReadUserEvent file length).All Unregistered := by
  unfold Entry.evtReadUserEvent
  split
  · exact trivial
  apply (entryCall_all rfl).bind
  intro _
  apply (entryCall_all rfl).bind
  intro _
  apply (entryCall_all rfl).bind
  intro outputMem
  split
  · exact trivial
  split
  · exact trivial
  apply (entryCall_all rfl).bind
  intro status
  split
  · exact trivial
  · exact (entryCall_all rfl).bind fun _ => trivial

theorem evtIoRead_all (file : File w) (deviceOffset : BitVec 64) (length : BitVec w.bits) :
    (evtIoRead file deviceOffset length).All Unregistered := by
  unfold evtIoRead Entry.evtIoRead
  cases file.devType with
  | user | control | bypass =>
    exact completed_all (Entry.readBarToRequest_all (P := Unregistered) rfl (fun _ => rfl) ..)
      length.toNat
  | events => exact (evtReadUserEvent_all file length).bind completeFailed_all
  | c2h | ac2h => exact forward_all file.queue
  | h2c | ah2c | unknown => exact completeFailed_all _

theorem evtIoWrite_all (file : File w) (deviceOffset : BitVec 64) (length : BitVec w.bits) :
    (evtIoWrite file deviceOffset length).All Unregistered := by
  unfold evtIoWrite Entry.evtIoWrite
  cases file.devType with
  | user | control | bypass =>
    exact completed_all (Entry.writeBarFromRequest_all (P := Unregistered) rfl (fun _ => rfl) ..)
      length.toNat
  | h2c | ah2c => exact forward_all file.queue
  | events | c2h | ac2h | unknown => exact completeFailed_all _

theorem entryRoutine_all_iff {p : EntryProg w Unit} :
    (entryRoutine file p).All (DerefsAssigned build traced) ↔
      p.All fun o => DerefsAssigned build traced (.entry (queueEngine file) o) :=
  Prog.all_mapOp_iff fun _ => Function.surjective_id

theorem entryPointer_eq {o : EntryOp w} (h : entryPointer o = some ptr) : ptr = .regs := by
  cases o with
  | engineGetPerf | readControl | writeControlW1S _ | writeControlW1C _ =>
    cases h
    rfl
  | _ => cases h

/-- No build assigns the pointer that the helpers dereference. -/
theorem derefsAssigned_entry_iff {o : EntryOp w} :
    DerefsAssigned build traced (.entry (queueEngine file) o) ↔
      queueEngine file = none ∨ Unregistered o := by
  unfold Unregistered
  cases queueEngine file with
  | none => exact ⟨fun _ => .inl rfl, fun _ => derefsAssigned_of_none rfl⟩
  | some engine =>
    cases hptr : entryPointer o with
    | none =>
      exact ⟨fun _ => .inr rfl, fun _ => derefsAssigned_of_none (by simp [IoOp.deref, hptr])⟩
    | some ptr =>
      have hderef : (IoOp.entry (some engine) o).deref traced = some (engine, ptr) := by
        simp [IoOp.deref, hptr]
      rw [derefsAssigned_of_some hderef, entryPointer_eq hptr]
      constructor
      · intro h
        cases build with
        | arria10 | cyclone4 => cases h
      · intro h
        rcases h with h | h
        · cases h
        · cases h

theorem entryRoutine_all {p : EntryProg w Unit} (h : p.All Unregistered) :
    (entryRoutine file p).All (DerefsAssigned build traced) :=
  entryRoutine_all_iff.mpr (h.mono fun _ ho => derefsAssigned_entry_iff.mpr (.inr ho))

/-- The control codes whose helpers dereference `regs`. -/
def usesRegs (ioControlCode : BitVec 32) : Prop :=
  ioControlCode = ioctlAdmaPerfGet ∨ ioControlCode = ioctlAdmaAddrmodeGet ∨
    ioControlCode = ioctlAdmaAddrmodeSet

theorem evtIoDeviceControl_all_iff {ioControlCode : BitVec 32}
    (hqueue : file.queue.bind IoQueue.engine ≠ none) :
    (evtIoDeviceControl file ioControlCode).All Unregistered ↔ ¬ usesRegs ioControlCode := by
  have hsuccess : ¬ (!ntSuccess statusSuccess) = true := by decide
  constructor
  · intro h
    have hcode := h.answer ()
    rw [if_neg hqueue] at hcode
    rintro (rfl | rfl | rfl)
    · rw [if_neg (by decide), if_pos rfl] at hcode
      have hregs := hcode.of_bind.1
      cases hregs
    · rw [if_neg (by decide), if_neg (by decide), if_pos rfl] at hcode
      have hregs := hcode.of_bind.1
      cases hregs
    · rw [if_neg (by decide), if_neg (by decide), if_neg (by decide), if_pos rfl] at hcode
      have hcopy := hcode.of_bind.answer statusSuccess
      rw [if_neg hsuccess] at hcopy
      have hmode := hcopy.answer (statusSuccess, 0)
      rw [if_neg hsuccess] at hmode
      have hregs := hmode.1
      cases hregs
  · intro h
    simp only [usesRegs, not_or] at h
    obtain ⟨hperf, hget, hset⟩ := h
    apply (entryCall_all rfl).bind
    intro _
    rw [if_neg hqueue]
    split
    · exact (entryCall_all rfl).bind fun _ => entryCall_all rfl
    · exact completeFailed_all _

theorem entryRoutine_deviceControl_all_iff {ioControlCode : BitVec 32} :
    (entryRoutine file (evtIoDeviceControl file ioControlCode)).All
        (DerefsAssigned build traced) ↔
      queueEngine file = none ∨ ¬ usesRegs ioControlCode := by
  by_cases hqueue : file.queue.bind IoQueue.engine = none
  · have hengine : queueEngine file = none := by
      rw [queueEngine, hqueue]
      rfl
    exact ⟨fun _ => .inl hengine,
      fun _ => Prog.All.mapOp (fun _ => derefsAssigned_entry_iff.mpr (.inl hengine)) _⟩
  · have hengine : queueEngine file ≠ none := by
      rw [queueEngine, ne_eq, Option.map_eq_none_iff]
      exact hqueue
    rw [entryRoutine_all_iff, or_iff_right hengine, ← evtIoDeviceControl_all_iff hqueue]
    constructor
    · exact fun h => h.mono fun o ho => (derefsAssigned_entry_iff.mp ho).resolve_left hengine
    · exact fun h => h.mono fun o ho => derefsAssigned_entry_iff.mpr (.inr ho)

/-! ## Device files -/

/-- The nodes of the first driver's engines have no name. -/
theorem getDevNodeType_cases (fileName : String) :
    (getDevNodeType fileName).1 ≠ .h2c ∧ (getDevNodeType fileName).1 ≠ .c2h := by
  unfold getDevNodeType
  cases h : fileNameLut.lookup fileName with
  | none => exact ⟨nofun, nofun⟩
  | some node =>
    obtain ⟨before, after, hlut, -⟩ := List.lookup_eq_some_iff.mp h
    have hnodes : ∀ x ∈ fileNameLut, x.2.1 ≠ .h2c ∧ x.2.1 ≠ .c2h := by decide
    exact hnodes (fileName, node) (by rw [hlut]; simp)

theorem createFile_all (engineQueue : DirToDev → Option IoQueue) (fileName : Option String) :
    (createFile d engineQueue fileName : IoProg w _).All (DerefsAssigned build traced) := by
  cases fileName with
  | none => exact trivial
  | some fileName =>
    have hnode := getDevNodeType_cases fileName
    rcases hlookup : getDevNodeType fileName with ⟨devType, index⟩
    rw [hlookup] at hnode
    cases devType with
    | h2c => exact absurd rfl hnode.1
    | c2h => exact absurd rfl hnode.2
    | user | bypass =>
      simp only [createFile, hlookup]
      split
      · exact trivial
      · exact trivial
    | control | events | ah2c | ac2h | unknown =>
      simp only [createFile, hlookup]
      exact trivial

theorem evtFileCleanup_all : (evtFileCleanup file).All (DerefsAssigned build traced) := by
  unfold evtFileCleanup
  split
  · exact (perform_all rfl).bind fun _ => trivial
  · exact trivial

/-! ## Interrupts -/

theorem queueDpc_all : (queueDpc : IoProg w Unit).All (DerefsAssigned build traced) :=
  (perform_all rfl).bind fun _ => trivial

theorem evtInterruptEnable_all_iff :
    (evtInterruptEnable : IoProg w Unit).All (DerefsAssigned build traced) ↔ build = .cyclone4 := by
  constructor
  · intro h
    have henable := engineEnableInterrupt_all_iff.mp (h.answer ()).of_bind
    exact henable.resolve_left nofun
  · intro hbuild
    apply (perform_all rfl).bind
    intro _
    exact Prog.All.forEach (fun engine => engineEnableInterrupt_all_iff.mpr (.inr hbuild)) _

theorem evtInterruptDisable_all_iff :
    (evtInterruptDisable : IoProg w Unit).All (DerefsAssigned build traced) ↔
      build = .cyclone4 := by
  constructor
  · intro h
    have hdisable := engineDisableInterrupt_all_iff.mp (h.answer ()).of_bind
    exact hdisable.resolve_left nofun
  · intro hbuild
    apply (perform_all rfl).bind
    intro _
    exact Prog.All.forEach (fun engine => engineDisableInterrupt_all_iff.mpr (.inr hbuild)) _

theorem evtChannelInterruptIsr_all_iff {engine : Option DirToDev} :
    (evtChannelInterruptIsr engine : IoProg w Unit).All (DerefsAssigned build traced) ↔
      engine = none ∨ build = .cyclone4 := by
  constructor
  · intro h
    exact engineDisableInterrupt_all_iff.mp h.of_bind
  · intro h
    exact (engineDisableInterrupt_all_iff.mpr h).bind fun _ => queueDpc_all

theorem evtChannelInterruptDpc_all_iff {engine : Option DirToDev} :
    (evtChannelInterruptDpc engine : IoProg w Unit).All (DerefsAssigned build traced) ↔
      engine = none ∨ build = .cyclone4 := by
  constructor
  · intro h
    exact engineEnableInterrupt_all_iff.mp (h.answer ()).of_bind
  · intro h
    apply (perform_all rfl).bind
    intro _
    exact (engineEnableInterrupt_all_iff.mpr h).bind fun _ => perform_all rfl

/-! ## Every entry point -/

/-- The entry point does without the pointers that the build leaves unset. -/
def Spares (build : AdmaBuild) (traced : Bool) : EntryPoint w → Prop
  | .deviceControl file ioControlCode => queueEngine file = none ∨ ¬ usesRegs ioControlCode
  | .writeDma _ | .readDma _ | .programDma .. => build = .cyclone4 ∨ traced = false
  | .interruptEnable | .interruptDisable => build = .cyclone4
  | .channelInterruptIsr engine | .channelInterruptDpc engine => engine = none ∨ build = .cyclone4
  | _ => True

theorem routine_all_iff (e : EntryPoint w) :
    (e.routine build d).All (DerefsAssigned build traced) ↔ Spares build traced e := by
  cases e with
  | fileCreate engineQueue fileName =>
    exact ⟨fun _ => trivial,
      fun _ => (createFile_all engineQueue fileName).bind fun _ => perform_all rfl⟩
  | fileClose => exact Iff.rfl
  | fileCleanup file => exact ⟨fun _ => trivial, fun _ => evtFileCleanup_all⟩
  | read file deviceOffset length =>
    exact ⟨fun _ => trivial, fun _ => entryRoutine_all (evtIoRead_all file deviceOffset length)⟩
  | write file deviceOffset length =>
    exact ⟨fun _ => trivial, fun _ => entryRoutine_all (evtIoWrite_all file deviceOffset length)⟩
  | deviceControl file ioControlCode => exact entryRoutine_deviceControl_all_iff
  | writeDma engine => exact evtIoWriteDma_all_iff
  | readDma engine => exact startDma_all_iff trivial
  | programDma engine call => exact engineProgramDma_all_iff
  | cancelDma engine =>
    exact ⟨fun _ => trivial, fun _ => (perform_all rfl).bind fun _ => errExit_all⟩
  | interruptEnable => exact evtInterruptEnable_all_iff
  | interruptDisable => exact evtInterruptDisable_all_iff
  | interruptIsr => exact ⟨fun _ => trivial, fun _ => (perform_all rfl).bind fun _ => queueDpc_all⟩
  | interruptDpc => exact ⟨fun _ => trivial, fun _ => perform_all rfl⟩
  | channelInterruptEnable engine | channelInterruptDisable engine => exact Iff.rfl
  | channelInterruptIsr engine => exact evtChannelInterruptIsr_all_iff
  | channelInterruptDpc engine => exact evtChannelInterruptDpc_all_iff
  | userInterruptEnable | userInterruptDisable => exact Iff.rfl
  | userInterruptIsr => exact ⟨fun _ => trivial, fun _ => queueDpc_all⟩
  | userInterruptDpc =>
    exact ⟨fun _ => trivial, fun _ => (perform_all rfl).bind fun _ => perform_all rfl⟩

/-- Behind a successful `ADMA_DeviceOpen`, an entry point dereferences set register pointers only,
whatever its calls answer, exactly if it does without those that the build leaves unset. -/
theorem entryPoint_derefsSet_iff (hrounds : Rounds build d)
    (hopen : admaDeviceOpen build i d = some (status, d')) (hstatus : ntSuccess status = true)
    (e : EntryPoint w) :
    (e.routine build d').All (DerefsSet build traced d') ↔ Spares build traced e := by
  rw [← routine_all_iff (d := d')]
  constructor
  · intro h
    exact h.mono fun o ho x hx => (pointerSet_iff hrounds hopen hstatus).mp (ho x hx)
  · intro h
    exact h.mono fun o ho x hx => (pointerSet_iff hrounds hopen hstatus).mpr (ho x hx)

/-- Both builds open a device with two BARs. -/
theorem twoBars_opened (build : AdmaBuild) :
    ∃ d', admaDeviceOpen build twoBars zeroed = some (statusSuccess, d') := by
  cases build with
  | arria10 | cyclone4 => exact ⟨_, rfl⟩

theorem entryPoint_derefsSet_twoBars :
    ∃ d', admaDeviceOpen .cyclone4 twoBars zeroed = some (statusSuccess, d') ∧
      ((EntryPoint.writeDma .h2c : EntryPoint .w64).routine .cyclone4 d').All
        (DerefsSet .cyclone4 true d') := by
  obtain ⟨d', hopen⟩ := twoBars_opened .cyclone4
  exact ⟨d', hopen, (entryPoint_derefsSet_iff .zeroed hopen (by decide) _).mpr (.inl rfl)⟩

/-- A write request in the `ALTERA_ARRIA10` build reads two registers through a pointer that
`EngineCreate` did not assign. -/
theorem writeDma_not_derefsSet :
    ∃ d', admaDeviceOpen .arria10 twoBars zeroed = some (statusSuccess, d') ∧
      ¬ ((EntryPoint.writeDma .h2c : EntryPoint .w64).routine .arria10 d').All
        (DerefsSet .arria10 true d') := by
  obtain ⟨d', hopen⟩ := twoBars_opened .arria10
  refine ⟨d', hopen, fun h => ?_⟩
  have hassigned := h.mono fun o ho x hx => (pointerSet_iff .zeroed hopen (by decide)).mp (ho x hx)
  rcases evtIoWriteDma_all_iff.mp hassigned with hbuild | htraced
  · cases hbuild
  · cases htraced

end Adma

end Xadma
