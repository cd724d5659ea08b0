import Xadma.Libadma.Device

/-!
# The register blocks of the Altera device

`MapBARs` takes every memory resource for the next entry of the table of BARs (`numbered`), whatever
its kind: some are mapped in part, some not at all. The register blocks are installed in the entry
with a fixed index, and no length is looked at.
-/

namespace Xadma

def AdmaResource.isMemory : AdmaResource → Bool
  | .memory .. | .memoryLarge .. => true
  | .interrupt _ | .other => false

/-- The memory resources that an entry of the table is written for. -/
def AdmaResource.indexes : AdmaResource → Bool
  | .memory .. => true
  | .memoryLarge flags .. =>
    flags &&& cmResourceMemoryLarge40 != 0 || flags &&& cmResourceMemoryLarge48 != 0 ||
      flags &&& cmResourceMemoryLarge64 != 0
  | .interrupt _ | .other => false

namespace Adma

variable {build : AdmaBuild} {i : AdmaOpenInput} {d d' : AdmaDevice} {resource : AdmaResource}
  {resources : List AdmaResource} {status : NtStatus} {dir : DirToDev} {offset size : Nat}

/-- The memory resources, each with its index. -/
def numbered (resources : List AdmaResource) (n : Nat) : List (AdmaResource × Nat) :=
  (resources.filter AdmaResource.isMemory).zipIdx n

/-- What is mapped for a memory resource. -/
def landing (i : AdmaOpenInput) : AdmaResource × Nat → Option BarMapping
  | (.memory _ length, n) => (i.mapIoSpace n).map fun address => ⟨address, length⟩
  | (.memoryLarge flags _ _, n) =>
    if flags &&& cmResourceMemoryLarge40 ≠ 0 then
      (i.mapIoSpace n).map fun address => ⟨address, 0x10000⟩
    else none
  | (.interrupt _, _) | (.other, _) => none

/-- The resource stops `MapBARs`. -/
def Stops (i : AdmaOpenInput) (x : AdmaResource × Nat) : Prop :=
  x.1.indexes = true ∧ landing i x = none

/-- No entry past the end of the table is written before `MapBARs` stops. -/
def Fits (i : AdmaOpenInput) (xs : List (AdmaResource × Nat)) : Prop :=
  ∀ x ∈ xs, x.1.indexes = true → admaMaxNumBars ≤ x.2 → ∃ y ∈ xs, y.2 < x.2 ∧ Stops i y

/-! ## `MapBARs` -/

theorem numbered_cons_memory {n : Nat} (h : resource.isMemory = true) :
    numbered (resource :: resources) n = (resource, n) :: numbered resources (n + 1) := by
  rw [numbered, List.filter_cons_of_pos h, List.zipIdx_cons]
  rfl

theorem numbered_cons_other {n : Nat} (h : ¬ resource.isMemory = true) :
    numbered (resource :: resources) n = numbered resources n := by
  rw [numbered, List.filter_cons_of_neg h]
  rfl

theorem le_of_mem_numbered {n : Nat} {x : AdmaResource × Nat} (h : x ∈ numbered resources n) :
    n ≤ x.2 :=
  List.le_snd_of_mem_zipIdx h

/-- Only the table has changed, and in it only the entries from `n` on. -/
structure Frame (n : Nat) (d d' : AdmaDevice) : Prop where
  before : ∀ k : Fin admaMaxNumBars, k.val < n → d'.bar k = d.bar k
  engine : d'.engine = d.engine

/-- The table holds what was mapped for the resources. -/
structure Filled (i : AdmaOpenInput) (xs : List (AdmaResource × Nat)) (d' : AdmaDevice) : Prop where
  entry : ∀ x ∈ xs, ∀ h : x.2 < admaMaxNumBars, d'.bar ⟨x.2, h⟩ = landing i x
  rest : ∀ k : Fin admaMaxNumBars, d'.numBars ≤ k.val → d'.bar k = none

/-- What the loop of `MapBARs` comes to. -/
inductive MapEnd (i : AdmaOpenInput) (xs : List (AdmaResource × Nat)) (d : AdmaDevice) :
    Option (NtStatus × AdmaDevice) → Prop
  | outside (hfits : ¬ Fits i xs) : MapEnd i xs d none
  | refused {d' : AdmaDevice} (hstops : ∃ x ∈ xs, Stops i x) (hfits : Fits i xs)
    (hframe : Frame d.numBars d d') : MapEnd i xs d (some (statusDeviceConfigurationError, d'))
  | mapped {d' : AdmaDevice} (hgoes : ∀ x ∈ xs, ¬ Stops i x) (hfits : Fits i xs)
    (hframe : Frame d.numBars d d') (hfilled : Filled i xs d')
    (hcount : d'.numBars = d.numBars + xs.length) : MapEnd i xs d (some (statusSuccess, d'))

/-- A memory resource was counted, with what was mapped for it in the table. -/
structure Counts (i : AdmaOpenInput) (resource : AdmaResource) (d d' : AdmaDevice) : Prop where
  count : d'.numBars = d.numBars + 1
  frame : Frame d.numBars d d'
  entry : ∀ h : d.numBars < admaMaxNumBars, d'.bar ⟨d.numBars, h⟩ = landing i (resource, d.numBars)
  after : ∀ k : Fin admaMaxNumBars, d.numBars < k.val → d'.bar k = d.bar k

/-- An entry for the resource is written with what is mapped for it. -/
theorem mapResource_indexes (h : resource.indexes = true) :
    ∃ barLength bar, mapResource i d resource = fillBar d barLength bar ∧
      bar none = landing i (resource, d.numBars) := by
  cases resource with
  | memory start length => exact ⟨length, fun _ => mmMapIoSpace i d length, rfl, rfl⟩
  | memoryLarge flags start length =>
    simp only [mapResource, landing]
    split
    · exact ⟨0x10000, fun _ => mmMapIoSpace i d 0x10000, rfl, rfl⟩
    · next h40 =>
      split
      · exact ⟨length <<< 16, id, rfl, rfl⟩
      · next h48 =>
        split
        · exact ⟨length, id, rfl, rfl⟩
        · next h64 =>
          rw [ne_eq, Decidable.not_not] at h40 h48 h64
          simp [AdmaResource.indexes, h40, h48, h64] at h
  | interrupt message | other => cases h

/-- Any other memory resource is only counted. -/
theorem mapResource_counted (hmemory : resource.isMemory = true) (h : ¬ resource.indexes = true) :
    mapResource i d resource = some (statusSuccess, { d with numBars := d.numBars + 1 }) ∧
      landing i (resource, d.numBars) = none := by
  cases resource with
  | memory start length => exact absurd rfl h
  | memoryLarge flags start length =>
    simp only [AdmaResource.indexes, Bool.or_eq_true, bne_iff_ne, not_or, ne_eq,
      Decidable.not_not] at h
    obtain ⟨⟨h40, h48⟩, h64⟩ := h
    simp [mapResource, landing, h40, h48, h64]
  | interrupt message | other => cases hmemory

theorem mapResource_other (h : ¬ resource.isMemory = true) :
    mapResource i d resource = some (statusSuccess, d) := by
  cases resource with
  | memory start length | memoryLarge flags start length => exact absurd rfl h
  | interrupt message | other => rfl

theorem update_bar_ne {m : Option BarMapping} {hroom : d.numBars < admaMaxNumBars}
    {k : Fin admaMaxNumBars} (hk : k.val ≠ d.numBars) :
    Function.update d.bar ⟨d.numBars, hroom⟩ m k = d.bar k :=
  Function.update_of_ne (fun heq => hk (congrArg Fin.val heq)) ..

/-- What a memory resource can do. -/
theorem mapResource_cases (hmemory : resource.isMemory = true)
    (hnull : ∀ k : Fin admaMaxNumBars, d.numBars ≤ k.val → d.bar k = none) :
    (mapResource i d resource = none ∧ resource.indexes = true ∧ admaMaxNumBars ≤ d.numBars) ∨
      (∃ d', mapResource i d resource = some (statusDeviceConfigurationError, d') ∧
        Stops i (resource, d.numBars) ∧ d.numBars < admaMaxNumBars ∧ Frame d.numBars d d') ∨
      ∃ d', mapResource i d resource = some (statusSuccess, d') ∧
        ¬ Stops i (resource, d.numBars) ∧
        (resource.indexes = true → d.numBars < admaMaxNumBars) ∧ Counts i resource d d' := by
  by_cases hindexes : resource.indexes = true
  · obtain ⟨barLength, bar, hmap, hbar⟩ := mapResource_indexes (i := i) (d := d) hindexes
    rw [hmap, fillBar]
    by_cases hroom : d.numBars < admaMaxNumBars
    · have hentry := hnull ⟨d.numBars, hroom⟩ (Nat.le_refl _)
      rw [dif_pos hroom]
      simp only [hentry, hbar, Function.update_self]
      right
      cases hlanding : landing i (resource, d.numBars) with
      | none =>
        left
        refine ⟨_, rfl, ⟨hindexes, hlanding⟩, hroom, fun k hk => ?_, rfl⟩
        exact update_bar_ne (Nat.ne_of_lt hk)
      | some mapping =>
        right
        refine ⟨_, rfl, fun hstops => ?_, fun _ => hroom, rfl, ⟨fun k hk => ?_, rfl⟩, fun _ => ?_,
          fun k hk => ?_⟩
        · rw [hstops.2] at hlanding
          cases hlanding
        · exact update_bar_ne (Nat.ne_of_lt hk)
        · rw [hlanding]
          exact Function.update_self ..
        · exact update_bar_ne (Nat.ne_of_gt hk)
    · rw [dif_neg hroom]
      exact .inl ⟨rfl, hindexes, Nat.le_of_not_lt hroom⟩
  · obtain ⟨hmap, hlanding⟩ := mapResource_counted (i := i) (d := d) hmemory hindexes
    right
    right
    refine ⟨_, hmap, fun hstops => hindexes hstops.1, fun h => absurd h hindexes, rfl,
      ⟨fun _ _ => rfl, rfl⟩, fun h => ?_, fun _ _ => rfl⟩
    rw [hlanding]
    exact hnull ⟨d.numBars, h⟩ (Nat.le_refl _)

theorem Frame.trans {n : Nat} {d₁ : AdmaDevice} (h : Frame n d d₁) (h' : Frame (n + 1) d₁ d') :
    Frame n d d' where
  before := fun k hk => (h'.before k (Nat.lt_succ_of_lt hk)).trans (h.before k hk)
  engine := h'.engine.trans h.engine

/-- A resource that was counted does not change whether the others fit. -/
theorem fits_cons_iff {n : Nat} {xs : List (AdmaResource × Nat)}
    (hgoes : ¬ Stops i (resource, n)) (hroom : resource.indexes = true → n < admaMaxNumBars) :
    Fits i ((resource, n) :: xs) ↔ Fits i xs := by
  constructor
  · intro hfits x hx hindexes hout
    obtain ⟨y, hy, hlt, hstops⟩ := hfits x (List.mem_cons_of_mem _ hx) hindexes hout
    rcases List.mem_cons.mp hy with rfl | hy
    · exact absurd hstops hgoes
    · exact ⟨y, hy, hlt, hstops⟩
  · intro hfits x hx hindexes hout
    rcases List.mem_cons.mp hx with rfl | hx
    · exact absurd (hroom hindexes) (Nat.not_lt.mpr hout)
    · obtain ⟨y, hy, hstops⟩ := hfits x hx hindexes hout
      exact ⟨y, List.mem_cons_of_mem _ hy, hstops⟩

/-- The rest of the loop, seen from before a resource that was counted. -/
theorem MapEnd.cons {d₁ : AdmaDevice} {xs : List (AdmaResource × Nat)}
    {result : Option (NtStatus × AdmaDevice)} (h : MapEnd i xs d₁ result)
    (hgoes : ¬ Stops i (resource, d.numBars))
    (hroom : resource.indexes = true → d.numBars < admaMaxNumBars)
    (hcounts : Counts i resource d d₁) : MapEnd i ((resource, d.numBars) :: xs) d result := by
  have hfits : Fits i ((resource, d.numBars) :: xs) ↔ Fits i xs := fits_cons_iff hgoes hroom
  cases h with
  | outside hno => exact .outside fun h => hno (hfits.mp h)
  | refused hstops hfit hrest =>
    obtain ⟨x, hx, hstops⟩ := hstops
    rw [hcounts.count] at hrest
    exact .refused ⟨x, List.mem_cons_of_mem _ hx, hstops⟩ (hfits.mpr hfit)
      (hcounts.frame.trans hrest)
  | mapped hgoes' hfit hrest hfilled hcount =>
    rw [hcounts.count] at hrest
    refine .mapped (List.forall_mem_cons.mpr ⟨hgoes, hgoes'⟩) (hfits.mpr hfit)
      (hcounts.frame.trans hrest) ⟨?_, hfilled.rest⟩ ?_
    · intro x hx hlt
      rcases List.mem_cons.mp hx with rfl | hx
      · exact (hrest.before ⟨d.numBars, hlt⟩ (Nat.lt_succ_self _)).trans (hcounts.entry hlt)
      · exact hfilled.entry x hx hlt
    · rw [hcount, hcounts.count, List.length_cons]
      omega

theorem mapBars_end (hnull : ∀ k : Fin admaMaxNumBars, d.numBars ≤ k.val → d.bar k = none) :
    MapEnd i (numbered resources d.numBars) d (mapBars i resources d) := by
  induction resources generalizing d with
  | nil =>
    exact .mapped (fun x hx => absurd hx List.not_mem_nil) (fun x hx => absurd hx List.not_mem_nil)
      ⟨fun _ _ => rfl, rfl⟩ ⟨fun x hx => absurd hx List.not_mem_nil, hnull⟩ rfl
  | cons resource resources ih =>
    by_cases hmemory : resource.isMemory = true
    · have hlater : ∀ x ∈ numbered resources (d.numBars + 1), d.numBars < x.2 :=
        fun x hx => le_of_mem_numbered hx
      rw [numbered_cons_memory hmemory, mapBars]
      rcases mapResource_cases (i := i) hmemory hnull with
        ⟨hmap, hindexes, hout⟩ | ⟨d₁, hmap, hstops, hroom, hframe⟩ |
        ⟨d₁, hmap, hgoes, hroom, hcounts⟩
      · rw [hmap]
        refine .outside fun hfits => ?_
        obtain ⟨y, hy, hlt, -⟩ := hfits _ List.mem_cons_self hindexes hout
        rcases List.mem_cons.mp hy with rfl | hy
        · exact Nat.lt_irrefl _ hlt
        · exact absurd hlt (Nat.not_lt.mpr (Nat.le_of_lt (hlater y hy)))
      · rw [hmap]
        refine .refused ⟨_, List.mem_cons_self, hstops⟩ (fun x hx _ hout => ?_) hframe
        rcases List.mem_cons.mp hx with rfl | hx
        · exact absurd hroom (Nat.not_lt.mpr hout)
        · exact ⟨_, List.mem_cons_self, hlater x hx, hstops⟩
      · rw [hmap, ← hcounts.count]
        apply MapEnd.cons (ih _) hgoes hroom hcounts
        intro k hk
        rw [hcounts.count] at hk
        rw [hcounts.after k hk]
        exact hnull k (Nat.le_of_succ_le hk)
    · rw [numbered_cons_other hmemory, mapBars, mapResource_other hmemory]
      exact ih hnull

/-! ## The engines -/

/-- `EngineCreate` fails. -/
def EngineFails (build : AdmaBuild) (i : AdmaOpenInput) (dir : DirToDev) : Prop :=
  build = .arria10 ∧ ¬ ntSuccess (i.commonBufferStatus dir) = true ∨
    ¬ ntSuccess (i.dmaTransactionStatus dir) = true

/-- The device with an engine as `EngineCreate` leaves it when it succeeds. -/
def createdEngine (build : AdmaBuild) (d : AdmaDevice) (dir : DirToDev) : AdmaDevice :=
  setEngine d dir { assignRegs build d.configBarIdx dir (d.engine dir) with enabled := true }

theorem contains_eq {block : RegBlock} {mapping : BarMapping}
    (hbar : d.bar block.bar = some mapping) :
    d.contains block = decide (block.offset + block.size ≤ mapping.length.toNat) := by
  rw [AdmaDevice.contains, hbar, Option.any_some]

/-- The length that the config BAR has when `a2pAddrLo0` could be accessed. -/
def accessedLength : Nat := a2pTransTblOffset + 4

variable {mapping : BarMapping}

theorem access_descriptorBuffer (hbar : d.bar d.configBarIdx = some mapping)
    (hlength : accessedLength ≤ mapping.length.toNat) :
    d.access (descriptorBufferFields (sgdmaBlock d.configBarIdx dir)) = some () := by
  have hin {offset : Nat} (hoffset : offset ≤ 0xC) :
      d.contains ((sgdmaBlock d.configBarIdx dir).field offset) = true := by
    rw [contains_eq hbar]
    apply decide_eq_true
    apply Nat.le_trans _ hlength
    cases dir with
    | h2c | c2h =>
      simp only [RegBlock.field, sgdmaBlock, dirIndex, admaBlockOffset, admaEngineOffset,
        admaSgdmaBlockOffset, accessedLength, a2pTransTblOffset]
      omega
  apply if_pos
  simp [descriptorBufferFields, hin]

theorem engineCreateTransaction_cases (i : AdmaOpenInput) (d : AdmaDevice) (dir : DirToDev) :
    (¬ ntSuccess (i.dmaTransactionStatus dir) = true ∧
        engineCreateTransaction i d dir = (i.dmaTransactionStatus dir, d)) ∨
      (ntSuccess (i.dmaTransactionStatus dir) = true ∧
        engineCreateTransaction i d dir =
          (i.dmaTransactionStatus dir, setEngine d dir { d.engine dir with enabled := true })) := by
  unfold engineCreateTransaction
  by_cases h : ntSuccess (i.dmaTransactionStatus dir) = true
  · exact .inr ⟨h, by simp [h]⟩
  · exact .inl ⟨h, by simp [h]⟩

theorem setEngine_setEngine (d : AdmaDevice) (dir : DirToDev) (engine engine' : AdmaEngine) :
    setEngine (setEngine d dir engine) dir engine' = setEngine d dir engine' := by
  unfold setEngine
  rw [Function.update_idem]

@[simp] theorem setEngine_self (d : AdmaDevice) (dir : DirToDev) (engine : AdmaEngine) :
    (setEngine d dir engine).engine dir = engine :=
  Function.update_self ..

/-- What `EngineCreate` can do. -/
theorem engineCreate_cases (build : AdmaBuild) (i : AdmaOpenInput) (dir : DirToDev)
    (hbar : d.bar d.configBarIdx = some mapping)
    (hlength : accessedLength ≤ mapping.length.toNat) :
    (EngineFails build i dir ∧
        ∃ status d', engineCreate build i d dir = some (status, d') ∧ ¬ ntSuccess status = true) ∨
      (¬ EngineFails build i dir ∧
        ∃ status, engineCreate build i d dir = some (status, createdEngine build d dir) ∧
          ntSuccess status = true) := by
  have htransaction (d₁ : AdmaDevice) := engineCreateTransaction_cases i d₁ dir
  unfold EngineFails engineCreate createdEngine
  cases build with
  | cyclone4 =>
    simp only [reduceCtorEq, false_and, false_or]
    rcases htransaction (setEngine d dir (assignRegs .cyclone4 d.configBarIdx dir (d.engine dir)))
      with ⟨hfails, heq⟩ | ⟨hsucceeds, heq⟩
    · exact .inl ⟨hfails, _, _, by rw [heq]; rfl, hfails⟩
    · refine .inr ⟨not_not.mpr hsucceeds, _, ?_, hsucceeds⟩
      rw [heq, setEngine_setEngine, setEngine_self]
      rfl
  | arria10 =>
    simp only [true_and]
    have hsgdma : (assignRegs .arria10 d.configBarIdx dir (d.engine dir)).sgdma =
        some (sgdmaBlock d.configBarIdx dir) := rfl
    have haccess : (setEngine d dir (assignRegs .arria10 d.configBarIdx dir (d.engine dir))).access
        (descriptorBufferFields (sgdmaBlock d.configBarIdx dir)) = some () :=
      access_descriptorBuffer hbar hlength
    by_cases hbuffer : ntSuccess (i.commonBufferStatus dir) = true
    · have hcreate : engineCreateDescriptorBuffer i (setEngine d dir (assignRegs .arria10
          d.configBarIdx dir (d.engine dir))) dir = some (i.commonBufferStatus dir) := by
        simp [engineCreateDescriptorBuffer, hbuffer, hsgdma, haccess]
      rw [hcreate]
      simp only [hbuffer, Option.bind_eq_bind, Option.bind_some, Bool.not_true, Bool.false_eq_true,
        if_false, not_true_eq_false, false_or]
      rcases htransaction (setEngine d dir (assignRegs .arria10 d.configBarIdx dir (d.engine dir)))
        with ⟨hfails, heq⟩ | ⟨hsucceeds, heq⟩
      · exact .inl ⟨hfails, _, _, by rw [heq]; rfl, hfails⟩
      · refine .inr ⟨not_not.mpr hsucceeds, _, ?_, hsucceeds⟩
        rw [heq, setEngine_setEngine, setEngine_self]
        rfl
    · have hcreate : engineCreateDescriptorBuffer i (setEngine d dir (assignRegs .arria10
          d.configBarIdx dir (d.engine dir))) dir = some (i.commonBufferStatus dir) := by
        simp [engineCreateDescriptorBuffer, hbuffer]
      rw [hcreate]
      exact .inl ⟨.inl hbuffer, _, _, by simp [hbuffer]; rfl, hbuffer⟩

/-- A step behind the access to `a2pAddrLo0` fails. -/
def FailsLater (build : AdmaBuild) (i : AdmaOpenInput) : Prop :=
  i.a2pMask = 0 ∨ ¬ ntSuccess i.dmaEnablerStatus = true ∨ EngineFails build i .h2c ∨
    EngineFails build i .c2h ∨ ¬ ntSuccess i.interruptsStatus = true

/-- The device with both engines. -/
def createdEngines (build : AdmaBuild) (d : AdmaDevice) : AdmaDevice :=
  createdEngine build (createdEngine build d .h2c) .c2h

theorem openMasked_cases (build : AdmaBuild) (i : AdmaOpenInput)
    (hbar : d.bar d.configBarIdx = some mapping)
    (hlength : accessedLength ≤ mapping.length.toNat) (hmask : i.a2pMask ≠ 0) :
    (FailsLater build i ∧
        ∃ status d', openMasked build i d = some (status, d') ∧ ¬ ntSuccess status = true) ∨
      (¬ FailsLater build i ∧
        openMasked build i d = some (i.interruptsStatus, createdEngines build d)) := by
  unfold FailsLater openMasked createdEngines
  by_cases henabler : ntSuccess i.dmaEnablerStatus = true
  · simp only [probeEngines]
    rcases engineCreate_cases build i .h2c hbar hlength with
      ⟨hfails, status, d', heq, hstatus⟩ | ⟨hh2c, status, heq, hstatus⟩
    · refine .inl ⟨.inr (.inr (.inl hfails)), status, d', ?_, hstatus⟩
      simp [heq, hstatus, henabler]
    · have hbar' : (createdEngine build d .h2c).bar (createdEngine build d .h2c).configBarIdx =
          some mapping := hbar
      rcases engineCreate_cases build i .c2h hbar' hlength with
        ⟨hfails, status', d', heq', hstatus'⟩ | ⟨hc2h, status', heq', hstatus'⟩
      · refine .inl ⟨.inr (.inr (.inr (.inl hfails))), status', d', ?_, hstatus'⟩
        simp [heq, hstatus, heq', hstatus', henabler]
      · have hprobe : ntSuccess statusSuccess = true := by decide
        by_cases hinterrupts : ntSuccess i.interruptsStatus = true
        · refine .inr ⟨?_, by simp [henabler, heq, hstatus, heq', hstatus', hprobe]⟩
          simp only [not_or, not_not]
          exact ⟨hmask, henabler, hh2c, hc2h, hinterrupts⟩
        · refine .inl ⟨.inr (.inr (.inr (.inr hinterrupts))), i.interruptsStatus,
            createdEngine build (createdEngine build d .h2c) .c2h, ?_, hinterrupts⟩
          simp [henabler, heq, hstatus, heq', hstatus', hprobe]
  · exact .inl ⟨.inr (.inl henabler), i.dmaEnablerStatus, d, by simp [henabler], henabler⟩

/-! ## The register blocks -/

/-- The register blocks of an engine that the build installs. -/
def engineBlocks (build : AdmaBuild) (engine : AdmaEngine) : List (Option RegBlock) :=
  match build with
  | .arria10 => [engine.sgdma]
  | .cyclone4 => [engine.modSgdmaCsr, engine.modSgdmaStdDes, engine.modSgdmaResponse]

/-- The register blocks that are installed. -/
def blocks (build : AdmaBuild) (d : AdmaDevice) : List RegBlock :=
  ([d.configRegs, d.a2pTransTbl, d.interruptRegs] ++ engineBlocks build (d.engine .h2c) ++
    engineBlocks build (d.engine .c2h)).filterMap id

/-- The open returns; it fails, or every register block is in a mapped part of a BAR. -/
def Windows (build : AdmaBuild) (i : AdmaOpenInput) (d : AdmaDevice) : Prop :=
  ∃ status d', admaDeviceOpen build i d = some (status, d') ∧
    (ntSuccess status = true → ∀ block ∈ blocks build d', d'.contains block = true)

/-- The memory resource with the index of the config BAR is mapped up to `length`. -/
def ConfigMapped (build : AdmaBuild) (i : AdmaOpenInput) (length : Nat) : Prop :=
  ∃ x ∈ numbered i.resources 0, x.2 = configBar build ∧
    ∃ mapping, landing i x = some mapping ∧ length ≤ mapping.length.toNat

/-- The end of the last register block. -/
def blocksEnd : AdmaBuild → Nat
  | .arria10 => a2pTransTblOffset + sizeofAdmaA2pTransTbl
  | .cyclone4 => modularSgdmaDescriptorRegOffset + sizeofModularSgdmaStandardDescriptor

/-- The entry with the fixed index is the memory resource with this index. -/
theorem configMapped_iff {xs : List (AdmaResource × Nat)} (hxs : xs = numbered i.resources 0)
    (hfilled : Filled i xs d) (hcount : d.numBars = xs.length) (length : Nat) :
    ConfigMapped build i length ↔
      ∃ mapping, d.bar (configBar build) = some mapping ∧ length ≤ mapping.length.toNat := by
  unfold ConfigMapped
  rw [← hxs]
  constructor
  · rintro ⟨x, hx, hidx, mapping, hlanding, hlength⟩
    have hlt : x.2 < admaMaxNumBars := by
      rw [hidx]
      exact (configBar build).isLt
    have hentry := hfilled.entry x hx hlt
    have hbar : (⟨x.2, hlt⟩ : Fin admaMaxNumBars) = configBar build := Fin.ext hidx
    rw [hbar] at hentry
    exact ⟨mapping, hentry.trans hlanding, hlength⟩
  · rintro ⟨mapping, hbar, hlength⟩
    by_cases hin : (configBar build).val < xs.length
    · have hnumber : xs[(configBar build).val].2 = configBar build := by
        subst hxs
        simp [numbered, List.getElem_zipIdx]
      refine ⟨xs[(configBar build).val], List.getElem_mem hin, hnumber, mapping, ?_, hlength⟩
      have hlt : xs[(configBar build).val].2 < admaMaxNumBars := by
        rw [hnumber]
        exact (configBar build).isLt
      rw [← hfilled.entry _ (List.getElem_mem hin) hlt, ← hbar]
      exact congrArg d.bar (Fin.ext hnumber)
    · have hnull := hfilled.rest (configBar build) (by omega)
      rw [hnull] at hbar
      cases hbar

/-- The device as `ADMA_DeviceOpen` leaves it when it succeeds, from the table on. -/
def opened (build : AdmaBuild) (i : AdmaOpenInput) (d : AdmaDevice) : AdmaDevice :=
  createdEngines build { getRegisterModules (identifyBars build d) with a2pMask := i.a2pMask }

theorem blocks_opened_arria10 : blocks .arria10 (opened .arria10 i d) =
    [⟨configBar .arria10, 0, 0x64⟩, ⟨configBar .arria10, 0x1000, 0x10⟩,
      ⟨configBar .arria10, 0x40, 0x20⟩, ⟨configBar .arria10, 0, 0x100⟩,
      ⟨configBar .arria10, 0x100, 0x100⟩] := rfl

theorem blocks_opened_cyclone4 : blocks .cyclone4 (opened .cyclone4 i d) =
    [⟨configBar .cyclone4, 0, 0x64⟩, ⟨configBar .cyclone4, 0x1000, 0x10⟩,
      ⟨configBar .cyclone4, 0x40, 0x20⟩, ⟨configBar .cyclone4, 0x6000000, 0x1C⟩,
      ⟨configBar .cyclone4, 0x6000020, 0x10⟩, ⟨configBar .cyclone4, 0x40c0, 0x8⟩,
      ⟨configBar .cyclone4, 0x6000000, 0x1C⟩, ⟨configBar .cyclone4, 0x6000020, 0x10⟩,
      ⟨configBar .cyclone4, 0x40c0, 0x8⟩] := rfl

/-- All blocks are installed in the one BAR, and one of them ends last. -/
theorem blocks_contained_iff (hbar : d.bar (configBar build) = some mapping) :
    (∀ block ∈ blocks build (opened build i d), (opened build i d).contains block = true) ↔
      blocksEnd build ≤ mapping.length.toNat := by
  have hcontains (offset size : Nat) :
      (opened build i d).contains ⟨configBar build, offset, size⟩ = true ↔
        offset + size ≤ mapping.length.toNat := by
    have hbar' : (opened build i d).bar (configBar build) = some mapping := by
      cases build with
      | arria10 | cyclone4 => exact hbar
    rw [contains_eq hbar', decide_eq_true_eq]
  cases build with
  | arria10 =>
    simp only [blocks_opened_arria10, List.forall_mem_cons, hcontains, blocksEnd,
      a2pTransTblOffset, sizeofAdmaA2pTransTbl, List.not_mem_nil, false_implies, implies_true,
      and_true]
    omega
  | cyclone4 =>
    simp only [blocks_opened_cyclone4, List.forall_mem_cons, hcontains, blocksEnd,
      modularSgdmaDescriptorRegOffset, sizeofModularSgdmaStandardDescriptor, List.not_mem_nil,
      false_implies, implies_true, and_true]
    omega

theorem identifyBars_configBarIdx (build : AdmaBuild) (d : AdmaDevice) :
    (identifyBars build d).configBarIdx = configBar build := by
  cases build with
  | arria10 | cyclone4 => rfl

theorem identifyBars_bar (build : AdmaBuild) (d : AdmaDevice) :
    (identifyBars build d).bar = d.bar := by
  cases build with
  | arria10 | cyclone4 => rfl

/-- The translation table is written behind `MapBARs`, and then its mask is looked at. -/
theorem openMapped_eq (build : AdmaBuild) (i : AdmaOpenInput) (d : AdmaDevice) :
    openMapped build i d =
      if (d.bar (configBar build)).any fun mapping => accessedLength ≤ mapping.length.toNat then
        if i.a2pMask = 0 then
          some (statusInternalError,
            { getRegisterModules (identifyBars build d) with a2pMask := i.a2pMask })
        else openMasked build i
          { getRegisterModules (identifyBars build d) with a2pMask := i.a2pMask }
      else none := by
  have haccess : (getRegisterModules (identifyBars build d)).access
      [(⟨configBar build, a2pTransTblOffset, sizeofAdmaA2pTransTbl⟩ : RegBlock).field 0x0] =
        if (d.bar (configBar build)).any fun mapping => accessedLength ≤ mapping.length.toNat
        then some () else none := by
    simp only [AdmaDevice.access, List.all_cons, List.all_nil, Bool.and_true, AdmaDevice.contains,
      RegBlock.field, getRegisterModules, identifyBars_bar]
    rfl
  have htable : (getRegisterModules (identifyBars build d)).a2pTransTbl =
      some ⟨configBar build, a2pTransTblOffset, sizeofAdmaA2pTransTbl⟩ := by
    rw [← identifyBars_configBarIdx build d]
    rfl
  simp only [openMapped, htable, Option.bind_eq_bind, Option.bind_some, haccess]
  by_cases hin : ((d.bar (configBar build)).any fun mapping =>
      accessedLength ≤ mapping.length.toNat) = true
  · rw [if_pos hin, if_pos hin]
    rfl
  · rw [if_neg hin, if_neg hin]
    rfl

/-- What comes behind `MapBARs`. -/
theorem openMapped_cases (build : AdmaBuild) (i : AdmaOpenInput) (d : AdmaDevice) :
    ((∀ mapping, d.bar (configBar build) = some mapping → ¬ accessedLength ≤ mapping.length.toNat) ∧
        openMapped build i d = none) ∨
      ∃ mapping, d.bar (configBar build) = some mapping ∧ accessedLength ≤ mapping.length.toNat ∧
        ((FailsLater build i ∧
            ∃ status d', openMapped build i d = some (status, d') ∧ ¬ ntSuccess status = true) ∨
          (¬ FailsLater build i ∧ ntSuccess i.interruptsStatus = true ∧
            openMapped build i d = some (i.interruptsStatus, opened build i d))) := by
  rw [openMapped_eq]
  cases hbar : d.bar (configBar build) with
  | none => exact .inl ⟨nofun, rfl⟩
  | some mapping =>
    rw [Option.any_some]
    by_cases hlength : accessedLength ≤ mapping.length.toNat
    · right
      refine ⟨mapping, rfl, hlength, ?_⟩
      rw [decide_eq_true hlength, if_pos rfl]
      by_cases hmask : i.a2pMask = 0
      · rw [if_pos hmask]
        exact .inl ⟨.inl hmask, _, _, rfl, by decide⟩
      · rw [if_neg hmask]
        have hmasked : ({ getRegisterModules (identifyBars build d) with
            a2pMask := i.a2pMask } : AdmaDevice).bar (identifyBars build d).configBarIdx =
              some mapping := by
          rw [identifyBars_configBarIdx, ← hbar, ← identifyBars_bar build d]
          rfl
        rcases openMasked_cases build i hmasked hlength hmask with
          hfails | ⟨hsucceeds, heq⟩
        · exact .inl hfails
        · refine .inr ⟨hsucceeds, ?_, heq⟩
          simp only [FailsLater, not_or, not_not] at hsucceeds
          exact hsucceeds.2.2.2.2
    · left
      rw [decide_eq_false hlength]
      refine ⟨fun mapping' h => ?_, rfl⟩
      cases h
      exact hlength

/-- A successful `MapBARs` is followed by an open with windows that are mapped only if the config
BAR reaches as far as the rest of the open needs it. -/
theorem openMapped_windows_iff (build : AdmaBuild) (i : AdmaOpenInput) (d : AdmaDevice)
    (hconfig : ∀ length, ConfigMapped build i length ↔
      ∃ mapping, d.bar (configBar build) = some mapping ∧ length ≤ mapping.length.toNat) :
    (∃ status d', openMapped build i d = some (status, d') ∧
        (ntSuccess status = true → ∀ block ∈ blocks build d', d'.contains block = true)) ↔
      ConfigMapped build i accessedLength ∧
        (FailsLater build i ∨ ConfigMapped build i (blocksEnd build)) := by
  rw [hconfig, hconfig]
  rcases openMapped_cases build i d with
    ⟨hshort, hnone⟩ | ⟨mapping, hbar, hlength, hcases⟩
  · rw [hnone]
    constructor
    · rintro ⟨status, d', heq, -⟩
      cases heq
    · rintro ⟨⟨mapping, hbar, hlength⟩, -⟩
      exact absurd hlength (hshort mapping hbar)
  · rcases hcases with ⟨hfails, status, d', heq, hstatus⟩ | ⟨hlater, hstatus, heq⟩
    · rw [heq]
      exact ⟨fun _ => ⟨⟨mapping, hbar, hlength⟩, .inl hfails⟩,
        fun _ => ⟨status, d', rfl, fun h => absurd h hstatus⟩⟩
    · rw [heq]
      constructor
      · rintro ⟨status, d', hsome, hwindows⟩
        cases hsome
        exact ⟨⟨mapping, hbar, hlength⟩,
          .inr ⟨mapping, hbar, (blocks_contained_iff hbar).mp (hwindows hstatus)⟩⟩
      · rintro ⟨-, hfails | ⟨mapping', hbar', hend⟩⟩
        · exact absurd hfails hlater
        · exact ⟨_, _, rfl, fun _ => (blocks_contained_iff hbar').mpr hend⟩

/-- The register windows of `ADMA_DeviceOpen` are in mapped memory exactly when no resource is taken
for an entry past the end of the table, and either `MapBARs` fails or the config BAR is mapped up to
the end of all that is accessed or installed. -/
theorem admaDeviceOpen_windows_iff (build : AdmaBuild) (i : AdmaOpenInput) (d : AdmaDevice) :
    Windows build i d ↔ Fits i (numbered i.resources 0) ∧
      ((∃ x ∈ numbered i.resources 0, Stops i x) ∨
        ConfigMapped build i accessedLength ∧
          (FailsLater build i ∨ ConfigMapped build i (blocksEnd build))) := by
  have hend : MapEnd i (numbered i.resources 0) (deviceDefaultInitialize d)
      (mapBars i i.resources (deviceDefaultInitialize d)) :=
    mapBars_end (d := deviceDefaultInitialize d) fun _ _ => rfl
  unfold Windows admaDeviceOpen
  cases hmap : mapBars i i.resources (deviceDefaultInitialize d) with
  | none =>
    rw [hmap] at hend
    cases hend with
    | outside hno =>
      constructor
      · rintro ⟨status, d', heq, -⟩
        cases heq
      · exact fun h => absurd h.1 hno
  | some result =>
    rw [hmap] at hend
    cases hend with
    | refused hstops hfits hframe =>
      exact ⟨fun _ => ⟨hfits, .inl hstops⟩, fun _ => ⟨_, _, rfl, fun h => absurd h (by decide)⟩⟩
    | mapped hgoes hfits hframe hfilled hcount =>
      have hcount' := hcount.trans (Nat.zero_add _)
      have hwindows := openMapped_windows_iff build i _
        fun length => configMapped_iff rfl hfilled hcount' length
      constructor
      · intro h
        exact ⟨hfits, .inr (hwindows.mp h)⟩
      · rintro ⟨-, ⟨x, hx, hstops⟩ | h⟩
        · exact absurd hstops (hgoes x hx)
        · exact hwindows.mpr h

/-- Two memory resources of 64 KiB each, and all else succeeds. -/
def twoBars : AdmaOpenInput where
  resources := [.memory 0xF0000000 0x10000, .memory 0xF0010000 0x10000]
  mapIoSpace := fun n => some (0x80000000 + n * 0x10000)
  a2pMask := 0xFFF00000
  dmaEnablerStatus := statusSuccess
  commonBufferStatus := fun _ => statusSuccess
  dmaTransactionStatus := fun _ => statusSuccess
  interruptsStatus := statusSuccess

/-- The Cyclone build opens the device, with the registers of the engines far outside the config
BAR. -/
theorem twoBars_not_windows : ¬ Windows .cyclone4 twoBars zeroed := by
  have hopen : (admaDeviceOpen .cyclone4 twoBars zeroed).all fun opened =>
      ntSuccess opened.1 && !(blocks .cyclone4 opened.2).all opened.2.contains := by decide
  rintro ⟨status, d', heq, hwindows⟩
  rw [heq, Option.all_some, Bool.and_eq_true, Bool.not_eq_true'] at hopen
  rw [← Bool.not_eq_true, List.all_eq_true] at hopen
  exact hopen.2 (hwindows hopen.1)

end Adma

end Xadma
