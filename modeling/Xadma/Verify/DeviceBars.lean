import Xadma.Libxdma.Device

/-!
# The table of BARs

The table holds the BARs that were mapped, in order (`Table`). `XDMA_DeviceOpen` fills it without a
bound and probes the BARs at fixed offsets; with at most three memory resources
`XDMA_DeviceClose` unmaps what it finds there, wherever the open has stopped.
-/

namespace Xadma

/-- The table holds the BARs of `done` in order. -/
structure Table (done : List BarMapping) (d : XdmaDevice) : Prop where
  count : d.numBars = done.length
  bounded : done.length ≤ xdmaMaxNumBars
  entry : ∀ (k : Fin xdmaMaxNumBars) (m : BarMapping), done[k.val]? = some m →
    d.bar k = some m.address ∧ d.barLength k = m.length

/-- The lengths of the memory resources in order. -/
def memoryLengths : List CmResource → List (BitVec 32)
  | [] => []
  | .memory _ length :: resources => length :: memoryLengths resources
  | _ :: resources => memoryLengths resources

variable {i : OpenInput} {w w' : DeviceWorld} {d d' : XdmaDevice}
  {done : List BarMapping}

theorem Table.congr (h : Table done d) (hcount : d'.numBars = d.numBars) (hbar : d'.bar = d.bar)
    (hlength : d'.barLength = d.barLength) : Table done d' := by
  obtain ⟨hnum, hbounded, hentry⟩ := h
  exact ⟨hcount.trans hnum, hbounded, fun k m hm => by rw [hbar, hlength]; exact hentry k m hm⟩

/-! ## `MapBARs` -/

/-- The BARs `new` were mapped and entered into the table. -/
structure Extends (done new : List BarMapping) (w w' : DeviceWorld) : Prop where
  table : Table (done ++ new) w'.device
  mappings : w'.mappings = w.mappings ++ new.map LedgerEvent.acquire
  reads : w'.reads = w.reads
  regs : w'.device.interruptRegs = w.device.interruptRegs

/-- What the loop of `MapBARs` comes to. -/
inductive MapEnd (i : OpenInput) (lengths : List (BitVec 32)) (done : List BarMapping)
    (w : DeviceWorld) : Option (NtStatus × DeviceWorld) → Prop
  /-- Three BARs were mapped, and there is a resource for another one. -/
  | outside (hlong : xdmaMaxNumBars < done.length + lengths.length)
    (hmapped : ∀ k, done.length ≤ k → k < xdmaMaxNumBars → i.mapIoSpace k ≠ none) :
    MapEnd i lengths done w none
  | refused {w' : DeviceWorld} (new : List BarMapping) (hnew : Extends done new w w') (k : Nat)
    (hlt : k < done.length + lengths.length) (hbound : k < xdmaMaxNumBars)
    (hnone : i.mapIoSpace k = none) :
    MapEnd i lengths done w (some (statusDeviceConfigurationError, w'))
  | mapped {w' : DeviceWorld} (new : List BarMapping) (hnew : Extends done new w w')
    (hlengths : new.map BarMapping.length = lengths)
    (hmapped : ∀ k, done.length ≤ k → k < done.length + lengths.length →
      i.mapIoSpace k ≠ none) :
    MapEnd i lengths done w (some (statusSuccess, w'))

theorem Extends.none (h : Table done w.device) : Extends done [] w w :=
  ⟨by rwa [List.append_nil], by simp, rfl, rfl⟩

theorem Extends.cons {m : BarMapping} {new : List BarMapping} {w₁ : DeviceWorld}
    (h : Extends (done ++ [m]) new w₁ w')
    (hmappings : w₁.mappings = w.mappings ++ [.acquire m]) (hreads : w₁.reads = w.reads)
    (hregs : w₁.device.interruptRegs = w.device.interruptRegs) : Extends done (m :: new) w w' := by
  obtain ⟨htable, hmap, hread, hreg⟩ := h
  refine ⟨?_, ?_, hread.trans hreads, hreg.trans hregs⟩
  · rwa [List.append_assoc] at htable
  · rw [hmap, hmappings, List.append_assoc]
    rfl

theorem Table.append (h : Table done d) (hlt : d.numBars < xdmaMaxNumBars) (m : BarMapping) :
    Table (done ++ [m]) { d with
      barLength := Function.update d.barLength ⟨d.numBars, hlt⟩ m.length
      bar := Function.update d.bar ⟨d.numBars, hlt⟩ (some m.address)
      numBars := d.numBars + 1 } := by
  obtain ⟨hcount, hbounded, hentry⟩ := h
  have hlength : (done ++ [m]).length = done.length + 1 := by simp
  refine ⟨(congrArg (· + 1) hcount).trans hlength.symm, by omega, fun k m' hm' => ?_⟩
  by_cases hk : k = ⟨d.numBars, hlt⟩
  · have hval : k.val = done.length := (congrArg Fin.val hk).trans hcount
    rw [hval, List.getElem?_concat_length] at hm'
    cases hm'
    simp [hk]
  · have hne : k.val ≠ done.length := fun hval => hk (Fin.ext (hval.trans hcount.symm))
    have hin := (List.getElem?_eq_some_iff.mp hm').1
    rw [List.getElem?_append_left (by omega)] at hm'
    simpa [Function.update_of_ne hk] using hentry k m' hm'

/-- A BAR that could not be mapped is not counted. -/
theorem Table.refuse (h : Table done d) (hlt : d.numBars < xdmaMaxNumBars) (length : BitVec 32)
    (address : Option Nat) : Table done { d with
      barLength := Function.update d.barLength ⟨d.numBars, hlt⟩ length
      bar := Function.update d.bar ⟨d.numBars, hlt⟩ address } := by
  obtain ⟨hcount, hbounded, hentry⟩ := h
  refine ⟨hcount, hbounded, fun k m hm => ?_⟩
  have hk := (List.getElem?_eq_some_iff.mp hm).1
  have hne : k ≠ ⟨d.numBars, hlt⟩ := fun heq => by
    have hval : k.val = d.numBars := congrArg Fin.val heq
    omega
  simpa [Function.update_of_ne hne] using hentry k m hm

/-- What the rest of the loop comes to after a BAR was mapped, seen from before that BAR. -/
theorem MapEnd.cons {lengths : List (BitVec 32)} {m : BarMapping} {w₁ : DeviceWorld}
    {result : Option (NtStatus × DeviceWorld)} (h : MapEnd i lengths (done ++ [m]) w₁ result)
    (hfirst : i.mapIoSpace done.length ≠ none)
    (hmappings : w₁.mappings = w.mappings ++ [.acquire m]) (hreads : w₁.reads = w.reads)
    (hregs : w₁.device.interruptRegs = w.device.interruptRegs) :
    MapEnd i (m.length :: lengths) done w result := by
  have hlength : (done ++ [m]).length = done.length + 1 := by simp
  have hlengths : (m.length :: lengths).length = lengths.length + 1 := rfl
  cases h with
  | outside hlong hmapped =>
    refine .outside (by omega) fun k hge hk => ?_
    by_cases hne : k = done.length
    · exact hne ▸ hfirst
    · exact hmapped k (by omega) hk
  | refused new hnew k hk hbound hnone =>
    exact .refused (m :: new) (hnew.cons hmappings hreads hregs) k (by omega) hbound hnone
  | mapped new hnew hnews hmapped =>
    refine .mapped (m :: new) (hnew.cons hmappings hreads hregs) ?_ fun k hge hk => ?_
    · rw [List.map_cons, hnews]
    · by_cases hne : k = done.length
      · exact hne ▸ hfirst
      · exact hmapped k (by omega) (by omega)

theorem mapBars_end (resources : List CmResource) (h : Table done w.device) :
    MapEnd i (memoryLengths resources) done w (mapBars i resources w) := by
  induction resources generalizing done w with
  | nil =>
    refine .mapped [] (.none h) rfl fun k hge hlt => ?_
    exact absurd hlt (Nat.not_lt.mpr hge)
  | cons resource resources ih =>
    cases resource with
    | interrupt message => exact ih h
    | other => exact ih h
    | memory start length =>
      have hcount := h.count
      have hlengths : (memoryLengths (.memory start length :: resources)).length =
          (memoryLengths resources).length + 1 := rfl
      unfold mapBars
      split
      · next hlt =>
        simp only
        split
        · next hnone =>
          refine .refused [] ⟨?_, by simp, rfl, rfl⟩ w.device.numBars (by omega) hlt hnone
          rw [List.append_nil]
          exact h.refuse hlt length _
        · next address hsome =>
          have htable := h.append hlt ⟨address, length⟩
          rw [← hsome] at htable
          have hfirst : i.mapIoSpace done.length ≠ none := by
            rw [← hcount, hsome]
            exact Option.some_ne_none address
          refine MapEnd.cons (m := ⟨address, length⟩) (ih ?_) hfirst rfl rfl rfl
          exact htable
      · next hge =>
        refine .outside (by omega) fun k hk hbound => ?_
        omega

/-! ## `IdentifyBars` -/

/-- The search has read the identifiers of a BAR that comes no later than the config BAR. -/
def Probed (i : OpenInput) (done : List BarMapping) (read : IdentifierRead) : Prop :=
  ∃ k m, done[k]? = some m ∧ (∀ j < k, i.isConfig j = false) ∧
    (read = ⟨k, irqBlockOffset, m.length⟩ ∨ read = ⟨k, configBlockOffset, m.length⟩)

/-- `found` is the first config BAR from `idx` on, or past the end. -/
structure Found (i : OpenInput) (done : List BarMapping) (idx : Nat) (w : DeviceWorld)
    (found : Nat) (w' : DeviceWorld) : Prop where
  device : w'.device = w.device
  mappings : w'.mappings = w.mappings
  le : found ≤ done.length
  skipped : ∀ j, idx ≤ j → j < found → i.isConfig j = false
  config : found < done.length → i.isConfig found = true
  reads : ∀ read, read ∈ w'.reads ↔ read ∈ w.reads ∨ ∃ k m, idx ≤ k ∧ k ≤ found ∧
    done[k]? = some m ∧
    (read = ⟨k, irqBlockOffset, m.length⟩ ∨ read = ⟨k, configBlockOffset, m.length⟩)

/-- The two identifiers of a BAR were read. -/
def DeviceWorld.probed (w : DeviceWorld) (idx : Nat) (length : BitVec 32) : DeviceWorld :=
  { w with reads := w.reads ++ [⟨idx, irqBlockOffset, length⟩, ⟨idx, configBlockOffset, length⟩] }

theorem DeviceWorld.mem_probed {idx : Nat} {length : BitVec 32} {read : IdentifierRead} :
    read ∈ (w.probed idx length).reads ↔ read ∈ w.reads ∨
      (read = ⟨idx, irqBlockOffset, length⟩ ∨ read = ⟨idx, configBlockOffset, length⟩) := by
  simp [probed]

theorem isConfigBar_eq (h : Table done w.device) {idx : Nat} {m : BarMapping}
    (hm : done[idx]? = some m) :
    isConfigBar i idx w = some (i.isConfig idx, w.probed idx m.length) := by
  have hidx := (List.getElem?_eq_some_iff.mp hm).1
  have hlt : idx < xdmaMaxNumBars := Nat.lt_of_lt_of_le hidx h.bounded
  have hlength := (h.entry ⟨idx, hlt⟩ m hm).2
  unfold isConfigBar DeviceWorld.probed
  rw [dif_pos hlt, hlength]

theorem Found.pastEnd : Found i done done.length w done.length w := by
  refine ⟨rfl, rfl, Nat.le_refl _, fun j hge hlt => ?_, fun hlt => ?_, fun read => ?_⟩
  · exact absurd hlt (Nat.not_lt.mpr hge)
  · exact absurd hlt (Nat.lt_irrefl _)
  · refine ⟨.inl, ?_⟩
    rintro (hread | ⟨k, m, hge, hle, hm, -⟩)
    · exact hread
    · have hin := (List.getElem?_eq_some_iff.mp hm).1
      omega

theorem Found.here {idx : Nat} {m : BarMapping} (hm : done[idx]? = some m)
    (hconfig : i.isConfig idx = true) : Found i done idx w idx (w.probed idx m.length) := by
  have hidx := (List.getElem?_eq_some_iff.mp hm).1
  refine ⟨rfl, rfl, Nat.le_of_lt hidx, fun j hge hlt => ?_, fun _ => hconfig, fun read => ?_⟩
  · exact absurd hlt (Nat.not_lt.mpr hge)
  · rw [DeviceWorld.mem_probed]
    refine or_congr_right ⟨fun hread => ⟨idx, m, Nat.le_refl idx, Nat.le_refl idx, hm, hread⟩, ?_⟩
    rintro ⟨k, m', hge, hle, hm', hread⟩
    obtain rfl : k = idx := Nat.le_antisymm hle hge
    rw [hm] at hm'
    cases hm'
    exact hread

/-- The BAR at `idx` is not the config BAR, and the search has gone on behind it. -/
theorem Found.skip {idx found : Nat} {m : BarMapping} (hm : done[idx]? = some m)
    (hconfig : i.isConfig idx = false) (hle : idx + 1 ≤ found)
    (h : Found i done (idx + 1) (w.probed idx m.length) found w') :
    Found i done idx w found w' := by
  refine ⟨h.device, h.mappings, h.le, fun j hge hlt => ?_, h.config, fun read => ?_⟩
  · by_cases hne : j = idx
    · exact hne ▸ hconfig
    · exact h.skipped j (by omega) hlt
  · rw [h.reads, DeviceWorld.mem_probed, or_assoc]
    refine or_congr_right ⟨?_, ?_⟩
    · rintro (hread | ⟨k, m', hge, hk, hm', hread⟩)
      · exact ⟨idx, m, Nat.le_refl idx, by omega, hm, hread⟩
      · exact ⟨k, m', by omega, hk, hm', hread⟩
    · rintro ⟨k, m', hge, hk, hm', hread⟩
      by_cases hne : k = idx
      · subst hne
        rw [hm] at hm'
        cases hm'
        exact .inl hread
      · exact .inr ⟨k, m', by omega, hk, hm', hread⟩

theorem findConfigBar_found {rest idx : Nat} (h : Table done w.device)
    (hrest : idx + rest = done.length) :
    ∃ found w', findConfigBar i rest idx w = some (found, w') ∧ idx ≤ found ∧
      Found i done idx w found w' := by
  induction rest generalizing idx w with
  | zero =>
    obtain rfl : idx = done.length := hrest
    exact ⟨done.length, w, rfl, Nat.le_refl _, .pastEnd⟩
  | succ rest ih =>
    have hidx : idx < done.length := by omega
    have hm : done[idx]? = some done[idx] := List.getElem?_eq_getElem hidx
    simp only [findConfigBar, isConfigBar_eq h hm, Option.bind_eq_bind, Option.bind_some]
    cases hconfig : i.isConfig idx with
    | true => exact ⟨idx, _, rfl, Nat.le_refl idx, .here hm hconfig⟩
    | false =>
      have hsucc : idx + 1 + rest = done.length := by omega
      obtain ⟨found, w', hfind, hge, hfound⟩ :=
        ih (w := w.probed idx done[idx].length) h hsucc
      exact ⟨found, w', hfind, by omega, hfound.skip hm hconfig hge⟩

/-- The BAR is in the table and mapped. -/
def XdmaDevice.Mapped (d : XdmaDevice) (idx : Int) : Prop :=
  ∃ k : Fin xdmaMaxNumBars, idx = k.val ∧ k.val < d.numBars ∧ d.bar k ≠ none

structure BarIndices (d : XdmaDevice) : Prop where
  config : d.Mapped d.configBarIdx
  user : d.userBarIdx = -1 ∨ d.Mapped d.userBarIdx
  bypass : d.bypassBarIdx = -1 ∨ d.Mapped d.bypassBarIdx
  userConfig : d.userBarIdx ≠ d.configBarIdx
  bypassConfig : d.bypassBarIdx ≠ d.configBarIdx
  userBypass : d.userBarIdx = -1 ∨ d.userBarIdx ≠ d.bypassBarIdx

theorem Table.mapped (h : Table done d) {k : Nat} (hk : k < done.length) : d.Mapped k := by
  have hlt : k < xdmaMaxNumBars := Nat.lt_of_lt_of_le hk h.bounded
  refine ⟨⟨k, hlt⟩, rfl, by rw [h.count]; exact hk, ?_⟩
  rw [(h.entry ⟨k, hlt⟩ done[k] (List.getElem?_eq_getElem hk)).1]
  exact Option.some_ne_none _

/-- What `IdentifyBars` leaves. -/
structure Identified (i : OpenInput) (done : List BarMapping) (w : DeviceWorld) (status : NtStatus)
    (w' : DeviceWorld) : Prop where
  table : Table done w'.device
  mappings : w'.mappings = w.mappings
  regs : w'.device.interruptRegs = w.device.interruptRegs
  reads : ∀ read, read ∈ w'.reads ↔ read ∈ w.reads ∨ Probed i done read
  indices : ntSuccess status = true →
    w'.device.configBarIdx < done.length ∧ BarIndices w'.device

theorem Found.probed {found : Nat} (h : Found i done 0 w found w') (read : IdentifierRead) :
    read ∈ w'.reads ↔ read ∈ w.reads ∨ Probed i done read := by
  rw [h.reads]
  refine or_congr_right ⟨?_, ?_⟩
  · rintro ⟨k, m, -, hle, hm, hread⟩
    exact ⟨k, m, hm, fun j hj => h.skipped j (Nat.zero_le j) (Nat.lt_of_lt_of_le hj hle), hread⟩
  · rintro ⟨k, m, hm, hskipped, hread⟩
    refine ⟨k, m, Nat.zero_le k, Nat.le_of_not_lt fun hlt => ?_, hm, hread⟩
    have hin := (List.getElem?_eq_some_iff.mp hm).1
    have hconfig := h.config (by omega)
    rw [hskipped found hlt] at hconfig
    cases hconfig

theorem identifyBars_identified (h : Table done w.device) :
    ∃ status w', identifyBars i w = some (status, w') ∧ Identified i done w status w' := by
  have hcount := h.count
  have hbounded : done.length ≤ 3 := h.bounded
  obtain ⟨found, w₁, hfind, -, hfound⟩ := findConfigBar_found (i := i) h (Nat.zero_add _)
  have htable : Table done w₁.device := hfound.device ▸ h
  have hle := hfound.le
  have hregs : w₁.device.interruptRegs = w.device.interruptRegs :=
    congrArg XdmaDevice.interruptRegs hfound.device
  simp only [identifyBars, hcount, hfind, Option.bind_eq_bind, Option.bind_some]
  split
  · next hend =>
    refine ⟨_, _, rfl, htable.congr rfl rfl rfl, hfound.mappings, hregs, hfound.probed, ?_⟩
    exact fun hsuccess => absurd hsuccess (by decide)
  · next hne =>
    have hlt : found < done.length := by omega
    refine ⟨_, _, rfl, htable.congr rfl rfl rfl, hfound.mappings, hregs, hfound.probed,
      fun _ => ⟨hlt, ?_⟩⟩
    have hmapped : ∀ k : Nat, k < done.length → XdmaDevice.Mapped _ (k : Int) := fun k hk =>
      Table.mapped (htable.congr rfl rfl rfl) hk
    refine ⟨hmapped found hlt, ?_, ?_, ?_, ?_, ?_⟩
    all_goals simp only
    · split
      · exact .inr (hmapped 0 (by omega))
      · exact .inl rfl
    · split
      · next htwo =>
        have hlast : ((done.length : Int) - 1) = ((done.length - 1 : Nat) : Int) := by omega
        rw [hlast]
        exact .inr (hmapped (done.length - 1) (by omega))
      · exact .inl rfl
    · split <;> omega
    · split <;> omega
    · split
      · right
        split <;> omega
      · exact .inl rfl

/-! ## `XDMA_DeviceOpen` -/

/-- The interrupt registers are in a BAR that is mapped. -/
def RegsMapped (done : List BarMapping) (d : XdmaDevice) : Prop :=
  ∀ regs, d.interruptRegs = some regs → ∃ m ∈ done, m.address = regs.base

theorem BarAddr.run_uses {regs : BarAddr} (h : ∃ m ∈ done, m.address = regs.base)
    (vectors : List (VectorReg × BitVec 32)) :
    Ledger.run done (regs.uses vectors) = some done := by
  obtain ⟨m, hm, haddress⟩ := h
  apply Ledger.run_uses
  intro fits hfits
  obtain ⟨_, -, rfl⟩ := List.mem_map.mp hfits
  exact List.any_eq_true.mpr ⟨m, hm, beq_iff_eq.mpr haddress⟩

/-- The device is open with the BARs of `done`, and nothing was mapped or unmapped on the way. -/
structure Opened (done : List BarMapping) (w w' : DeviceWorld) : Prop where
  table : Table done w'.device
  regs : RegsMapped done w'.device
  mappings : ∃ es, w'.mappings = w.mappings ++ es ∧ Ledger.run done es = some done

theorem Opened.of_same (htable : Table done w'.device) (hregs : w'.device.interruptRegs = none)
    (hmappings : w'.mappings = w.mappings) : Opened done w w' := by
  refine ⟨htable, fun regs hsome => ?_, [], by rw [hmappings, List.append_nil], rfl⟩
  rw [hregs] at hsome
  cases hsome

/-- The vector registers are written in the config BAR. -/
theorem getRegisterModules_opened (h : Table done w.device)
    (hidx : w.device.configBarIdx < done.length) (hindices : BarIndices w.device)
    (vectors : List (VectorReg × BitVec 32)) :
    ∃ w₁ w', getRegisterModules w = some w₁ ∧ writeInterruptRegs vectors w₁ = some w' ∧
      Opened done w w' ∧ w'.reads = w.reads ∧
      w'.device.configBarIdx = w.device.configBarIdx ∧ BarIndices w'.device := by
  have hlt : w.device.configBarIdx < xdmaMaxNumBars := Nat.lt_of_lt_of_le hidx h.bounded
  have hbar := (h.entry ⟨_, hlt⟩ done[w.device.configBarIdx] (List.getElem?_eq_getElem hidx)).1
  have hmapped : ∃ m ∈ done, m.address = done[w.device.configBarIdx].address :=
    ⟨_, List.getElem_mem hidx, rfl⟩
  obtain ⟨hconfig, huser, hbypass, huc, hbc, hub⟩ := hindices
  simp only [getRegisterModules, dif_pos hlt, hbar, Option.map_some]
  refine ⟨_, _, rfl, rfl, ⟨h.congr rfl rfl rfl, ?_, _, rfl, BarAddr.run_uses hmapped _⟩, rfl, rfl,
    ⟨hconfig, huser, hbypass, huc, hbc, hub⟩⟩
  rintro regs ⟨⟩
  exact hmapped

theorem openIdentified_opened (h : Table done w.device)
    (hidx : w.device.configBarIdx < done.length) (hindices : BarIndices w.device) :
    ∃ status w', openIdentified i w = some (status, w') ∧ Opened done w w' ∧
      w'.reads = w.reads ∧ BarIndices w'.device := by
  obtain ⟨w₁, w', hmodules, hwrite, hopened, hreads, hsame, hindices'⟩ :=
    getRegisterModules_opened h hidx hindices (setupInterrupts i.interrupts i.resources).vectors
  have hlt : w'.device.configBarIdx < xdmaMaxNumBars := by
    rw [hsame]
    exact Nat.lt_of_lt_of_le hidx h.bounded
  simp only [openIdentified, hmodules, hwrite, Option.bind_eq_bind, Option.bind_some, probeEngines,
    if_pos hlt]
  split
  · exact ⟨_, w', rfl, hopened, hreads, hindices'⟩
  · split
    · exact ⟨_, w', rfl, hopened, hreads, hindices'⟩
    · exact ⟨_, w', rfl, hopened, hreads, hindices'⟩

theorem openMapped_opened (h : Table done w.device) (hregs : w.device.interruptRegs = none) :
    ∃ status w', openMapped i w = some (status, w') ∧ Opened done w w' ∧
      (∀ read, read ∈ w'.reads ↔ read ∈ w.reads ∨ Probed i done read) ∧
      (ntSuccess status = true → BarIndices w'.device) := by
  obtain ⟨status, w₁, hidentify, hidentified⟩ := identifyBars_identified (i := i) h
  simp only [openMapped, hidentify, Option.bind_eq_bind, Option.bind_some]
  cases hsuccess : ntSuccess status with
  | false =>
    refine ⟨status, w₁, rfl, ?_, hidentified.reads, fun hyes => ?_⟩
    · exact .of_same hidentified.table (hidentified.regs.trans hregs) hidentified.mappings
    · rw [hsuccess] at hyes
      cases hyes
  | true =>
    obtain ⟨hidx, hindices⟩ := hidentified.indices hsuccess
    obtain ⟨status', w', hopen, hopened, hreads, hindices'⟩ :=
      openIdentified_opened (i := i) hidentified.table hidx hindices
    refine ⟨status', w', hopen, ⟨hopened.table, hopened.regs, ?_⟩, ?_, fun _ => hindices'⟩
    · rw [← hidentified.mappings]
      exact hopened.mappings
    · rw [hreads]
      exact hidentified.reads

theorem table_default : Table [] (deviceDefaultInitialize w).device :=
  ⟨rfl, Nat.zero_le _, fun _ _ hm => nomatch hm⟩

/-! ## The table is indexed and the BARs are read inside their bounds -/

/-- The four bytes of the identifier are in the BAR. -/
def IdentifierRead.Inside (read : IdentifierRead) : Prop :=
  read.offset + 4 ≤ read.length.toNat

instance (read : IdentifierRead) : Decidable read.Inside :=
  inferInstanceAs (Decidable (_ ≤ _))

/-- The open gets to its end without an index past the table, reads identifiers inside the BARs, and
on success leaves BAR indices that are right. -/
def BarsSafe (i : OpenInput) (d : XdmaDevice) : Prop :=
  ∃ status w', xdmaDeviceOpen i ⟨d, [], []⟩ = some (status, w') ∧
    (∀ read ∈ w'.reads, read.Inside) ∧ (ntSuccess status = true → BarIndices w'.device)

structure BarsFit (i : OpenInput) : Prop where
  /-- `MapBARs` comes to three BARs at most. -/
  table : (memoryLengths i.resources).length ≤ xdmaMaxNumBars ∨
    ∃ k < xdmaMaxNumBars, i.mapIoSpace k = none
  /-- If all BARs are mapped, each up to the config BAR has the two identifiers. -/
  probes : (∀ k < (memoryLengths i.resources).length, i.mapIoSpace k ≠ none) →
    ∀ k length, (memoryLengths i.resources)[k]? = some length →
      (∀ j < k, i.isConfig j = false) → configBlockOffset + 4 ≤ length.toNat

theorem probed_inside_iff {lengths : List (BitVec 32)}
    (hlengths : done.map BarMapping.length = lengths) :
    (∀ read, Probed i done read → read.Inside) ↔
      ∀ k length, lengths[k]? = some length → (∀ j < k, i.isConfig j = false) →
        configBlockOffset + 4 ≤ length.toNat := by
  have hoffset : irqBlockOffset ≤ configBlockOffset := by decide
  subst hlengths
  constructor
  · intro hinside k length hlength hskipped
    rw [List.getElem?_map, Option.map_eq_some_iff] at hlength
    obtain ⟨m, hm, rfl⟩ := hlength
    exact hinside _ ⟨k, m, hm, hskipped, .inr rfl⟩
  · rintro hfit read ⟨k, m, hm, hskipped, hread⟩
    have hlength : (done.map BarMapping.length)[k]? = some m.length := by
      rw [List.getElem?_map, hm]
      rfl
    have hconfig := hfit k m.length hlength hskipped
    rcases hread with rfl | rfl
    · exact Nat.le_trans (Nat.add_le_add_right hoffset 4) hconfig
    · exact hconfig

theorem xdmaDeviceOpen_barsSafe_iff (i : OpenInput) (d : XdmaDevice) :
    BarsSafe i d ↔ BarsFit i := by
  have hend := mapBars_end (i := i) i.resources (table_default (w := ⟨d, [], []⟩))
  unfold BarsSafe xdmaDeviceOpen
  generalize mapBars i i.resources (deviceDefaultInitialize ⟨d, [], []⟩) = result at hend
  cases hend with
  | outside hlong hmapped =>
    rw [List.length_nil, Nat.zero_add] at hlong
    refine iff_of_false ?_ ?_
    · rintro ⟨status, w', hopen, -⟩
      cases hopen
    · rintro ⟨hshort | ⟨k, hk, hnone⟩, -⟩
      · omega
      · exact hmapped k (Nat.zero_le k) hk hnone
  | refused new hnew k hlt hbound hnone =>
    rw [List.length_nil, Nat.zero_add] at hlt
    refine iff_of_true ⟨_, _, rfl, ?_, fun hsuccess => absurd hsuccess (by decide)⟩
      ⟨.inr ⟨k, hbound, hnone⟩, fun hmapped => absurd hnone (hmapped k hlt)⟩
    intro read hread
    rw [hnew.reads] at hread
    cases hread
  | mapped new hnew hlengths hmapped =>
    have htable : Table new _ := hnew.table
    obtain ⟨status, w', hopen, -, hreads, hindices⟩ :=
      openMapped_opened (i := i) htable hnew.regs
    have hall : ∀ k < (memoryLengths i.resources).length, i.mapIoSpace k ≠ none := fun k hk =>
      hmapped k (Nat.zero_le k) (by rwa [List.length_nil, Nat.zero_add])
    have hshort : (memoryLengths i.resources).length ≤ xdmaMaxNumBars := by
      rw [← hlengths, List.length_map]
      exact htable.bounded
    have hread : ∀ read, read ∈ w'.reads ↔ Probed i new read := fun read => by
      rw [hreads, hnew.reads]
      exact or_iff_right List.not_mem_nil
    have hsuccess : ntSuccess statusSuccess = true := by decide
    simp only [Option.bind_eq_bind, Option.bind_some, hsuccess, Bool.not_true, Bool.false_eq_true,
      if_false, hopen]
    constructor
    · rintro ⟨status', w'', heq, hinside, -⟩
      cases heq
      refine ⟨.inl hshort, fun _ => (probed_inside_iff hlengths).mp fun read hprobed => ?_⟩
      exact hinside read ((hread read).mpr hprobed)
    · rintro ⟨-, hprobes⟩
      refine ⟨status, w', rfl, fun read hmem => ?_, hindices⟩
      exact (probed_inside_iff hlengths).mpr (hprobes hall) read ((hread read).mp hmem)

/-- Two BARs of 64 KB, the second of which has the identifiers, and a message-signalled
interrupt. -/
def OpenInput.sample : OpenInput where
  resources := [.memory 0x10000 0x10000, .interrupt true, .memory 0x20000 0x10000]
  mapIoSpace := fun k => some (0x100000 * (k + 1))
  identifier := fun idx _ => if idx = 1 then xdmaId else 0
  interrupts := ⟨fun _ => statusSuccess, .ok 1, statusSuccess, 1⟩
  dmaEnablerStatus := statusSuccess
  engineStatus := statusSuccess

/-- The device context before the first open. -/
def XdmaDevice.fresh : XdmaDevice := ⟨0, fun _ => none, fun _ => 0, 0, 0, 0, none, none, none⟩

theorem xdmaDeviceOpen_barsSafe_two : BarsSafe .sample .fresh := by
  apply (xdmaDeviceOpen_barsSafe_iff .sample .fresh).mpr
  refine ⟨.inl (by decide), fun _ k length hlength _ => ?_⟩
  have hmem := List.mem_of_getElem? hlength
  rcases List.mem_pair.mp hmem with rfl | rfl
  · decide
  · decide

/-- A fourth memory resource is entered past the table, and a BAR of 4 KB in front of the config BAR
is read at 0x2000. -/
theorem xdmaDeviceOpen_outside :
    ¬ BarsSafe { OpenInput.sample with
      resources := [.memory 0x10000 0x10000, .memory 0x20000 0x10000, .memory 0x30000 0x10000,
        .memory 0x40000 0x10000, .interrupt true] } .fresh ∧
    ¬ BarsSafe { OpenInput.sample with
      resources := [.memory 0x10000 0x1000, .memory 0x20000 0x10000, .interrupt true] } .fresh := by
  constructor
  · have hnone : (xdmaDeviceOpen { OpenInput.sample with
        resources := [.memory 0x10000 0x10000, .memory 0x20000 0x10000, .memory 0x30000 0x10000,
          .memory 0x40000 0x10000, .interrupt true] } ⟨.fresh, [], []⟩).isSome = false := by decide
    rintro ⟨status, w', hopen, -⟩
    rw [hopen] at hnone
    cases hnone
  · have hread : ((xdmaDeviceOpen { OpenInput.sample with
        resources := [.memory 0x10000 0x1000, .memory 0x20000 0x10000, .interrupt true] }
          ⟨.fresh, [], []⟩).any fun x =>
        x.2.reads.contains ⟨0, irqBlockOffset, 0x1000⟩) = true := by decide
    rintro ⟨status, w', hopen, hinside, -⟩
    rw [hopen] at hread
    have hmem := List.contains_iff_mem.mp hread
    exact absurd (hinside _ hmem) (by decide)

/-! ## `XDMA_DeviceClose` -/

/-- What is still to be unmapped is entered behind `idx`. -/
def Remaining (d : XdmaDevice) (idx : Nat) (left : List BarMapping) : Prop :=
  ∀ k m, left[k]? = some m → ∃ h : idx + k < xdmaMaxNumBars,
    d.bar ⟨idx + k, h⟩ = some m.address ∧ d.barLength ⟨idx + k, h⟩ = m.length

theorem unmapBars_unmaps {left : List BarMapping} {idx : Nat}
    (h : Remaining w.device idx left) :
    ∃ w', unmapBars left.length idx w = some w' ∧
      w'.mappings = w.mappings ++ left.map LedgerEvent.release := by
  induction left generalizing idx w with
  | nil => exact ⟨w, rfl, by simp⟩
  | cons m left ih =>
    obtain ⟨hlt, hbar, hlength⟩ := h 0 m rfl
    simp only [Nat.add_zero] at hlt hbar hlength
    rw [List.length_cons, unmapBars]
    simp only [dif_pos hlt, hbar, hlength]
    generalize hw₁ : DeviceWorld.mk _ _ _ = w₁
    have hremaining : Remaining w₁.device (idx + 1) left := by
      intro k m' hm'
      obtain ⟨hk, hbar', hlength'⟩ := h (k + 1) m' hm'
      have hidx : idx + 1 + k = idx + (k + 1) := by omega
      have hne : (⟨idx + (k + 1), hk⟩ : Fin xdmaMaxNumBars) ≠ ⟨idx, hlt⟩ := fun heq => by
        have hval : idx + (k + 1) = idx := congrArg Fin.val heq
        omega
      simp only [hidx]
      refine ⟨hk, ?_, ?_⟩
      all_goals rw [← hw₁]
      · exact (Function.update_of_ne hne none w.device.bar).trans hbar'
      · exact hlength'
    obtain ⟨w', hunmap, hmappings⟩ := ih hremaining
    refine ⟨w', hunmap, ?_⟩
    rw [hmappings, ← hw₁, List.append_assoc]
    rfl

theorem Table.remaining (h : Table done d) : Remaining d 0 done := by
  intro k m hm
  have hk := (List.getElem?_eq_some_iff.mp hm).1
  have hlt : k < xdmaMaxNumBars := Nat.lt_of_lt_of_le hk h.bounded
  simp only [Nat.zero_add]
  exact ⟨hlt, h.entry ⟨k, hlt⟩ m hm⟩

theorem xdmaDeviceClose_closes (h : Table done w.device) (hregs : RegsMapped done w.device) :
    ∃ w' es, xdmaDeviceClose w = some w' ∧ w'.mappings = w.mappings ++ es ∧
      Ledger.run done es = some [] := by
  have hcount := h.count
  cases hsome : w.device.interruptRegs with
  | none =>
    obtain ⟨w', hunmap, hmappings⟩ := unmapBars_unmaps h.remaining
    refine ⟨w', _, ?_, hmappings, Ledger.run_releases done⟩
    simp only [xdmaDeviceClose, resetVectors, hsome, Option.bind_eq_bind, Option.bind_some, hcount]
    exact hunmap
  | some regs =>
    have huses := BarAddr.run_uses (hregs regs hsome) (singleVectors 0)
    obtain ⟨w', hunmap, hmappings⟩ := unmapBars_unmaps (w := { w with
      mappings := w.mappings ++ regs.uses (singleVectors 0) }) h.remaining
    refine ⟨w', _, ?_, ?_, Ledger.run_trans huses (Ledger.run_releases done)⟩
    · simp only [xdmaDeviceClose, resetVectors, writeInterruptRegs, hsome, Option.bind_eq_bind,
        Option.bind_some, hcount]
      exact hunmap
    · rw [hmappings, List.append_assoc]

/-! ## Every sequence of opens and closes -/

/-- At most three memory resources. -/
def OpenInput.Small (i : OpenInput) : Prop :=
  (memoryLengths i.resources).length ≤ xdmaMaxNumBars

theorem xdmaDeviceOpen_opened (hsmall : i.Small) :
    ∃ status w' done es, xdmaDeviceOpen i w = some (status, w') ∧ Table done w'.device ∧
      RegsMapped done w'.device ∧ w'.mappings = w.mappings ++ es ∧
      Ledger.run [] es = some done := by
  have hsmall : (memoryLengths i.resources).length ≤ xdmaMaxNumBars := hsmall
  have hend := mapBars_end (i := i) i.resources (table_default (w := w))
  unfold xdmaDeviceOpen
  generalize mapBars i i.resources (deviceDefaultInitialize w) = result at hend
  cases hend with
  | outside hlong hmapped =>
    rw [List.length_nil, Nat.zero_add] at hlong
    exact absurd hlong (Nat.not_lt.mpr hsmall)
  | refused new hnew k hlt hbound hnone =>
    have hregs := hnew.regs
    refine ⟨_, _, new, _, rfl, hnew.table, fun regs hsome => ?_, hnew.mappings,
      Ledger.run_acquires new⟩
    rw [hregs] at hsome
    cases hsome
  | mapped new hnew hlengths hmapped =>
    have htable : Table new _ := hnew.table
    obtain ⟨status, w', hopen, hopened, -, -⟩ := openMapped_opened (i := i) htable hnew.regs
    obtain ⟨es, hmappings, hrun⟩ := hopened.mappings
    have hsuccess : ntSuccess statusSuccess = true := by decide
    simp only [Option.bind_eq_bind, Option.bind_some, hsuccess, Bool.not_true, Bool.false_eq_true,
      if_false, hopen]
    refine ⟨status, w', new, _, rfl, hopened.table, hopened.regs, ?_,
      Ledger.run_trans (Ledger.run_acquires new) hrun⟩
    rw [hmappings, hnew.mappings, List.append_assoc]
    rfl

/-- Each BAR is unmapped as often as it was mapped, and each unmap and each write to a vector
register was to a BAR that was mapped then. -/
def DeviceWorld.Settled (w : DeviceWorld) : Prop := Ledger.run [] w.mappings = some []

/-- Each unmap and each write to a vector register was to a BAR that was mapped then. -/
def DeviceWorld.Consistent (w : DeviceWorld) : Prop := (Ledger.run [] w.mappings).isSome = true

theorem deviceRounds_settled {rounds : List OpenInput} (hsmall : ∀ i ∈ rounds, i.Small)
    (h : w.Settled) : ∃ w', deviceRounds rounds w = some w' ∧ w'.Settled := by
  induction rounds generalizing w with
  | nil => exact ⟨w, rfl, h⟩
  | cons i rounds ih =>
    obtain ⟨status, w₁, done, es, hopen, htable, hregs, hmappings, hrun⟩ :=
      xdmaDeviceOpen_opened (w := w) (hsmall i List.mem_cons_self)
    obtain ⟨w₂, es', hclose, hmappings', hrun'⟩ := xdmaDeviceClose_closes htable hregs
    have hsettled : w₂.Settled := by
      unfold DeviceWorld.Settled
      rw [hmappings', hmappings]
      exact Ledger.run_trans (Ledger.run_trans h hrun) hrun'
    obtain ⟨w', hrounds, hsettled'⟩ :=
      ih (fun i hi => hsmall i (List.mem_cons_of_mem _ hi)) hsettled
    refine ⟨w', ?_, hsettled'⟩
    simp only [deviceRounds, hopen, hclose, Option.bind_eq_bind, Option.bind_some]
    exact hrounds

theorem deviceRounds_balanced (rounds : List OpenInput) (last : OpenInput) (d : XdmaDevice)
    (hsmall : ∀ i ∈ rounds, i.Small) (hlast : last.Small) :
    ∃ w, deviceRounds rounds ⟨d, [], []⟩ = some w ∧ w.Settled ∧
      ∃ status w', xdmaDeviceOpen last w = some (status, w') ∧ w'.Consistent := by
  obtain ⟨w, hrounds, hsettled⟩ :=
    deviceRounds_settled hsmall (show DeviceWorld.Settled ⟨d, [], []⟩ from rfl)
  obtain ⟨status, w', done, es, hopen, -, -, hmappings, hrun⟩ :=
    xdmaDeviceOpen_opened (w := w) hlast
  refine ⟨w, hrounds, hsettled, status, w', hopen, ?_⟩
  unfold DeviceWorld.Consistent
  rw [hmappings, Ledger.run_trans hsettled hrun]
  rfl

/-- A first open that cannot map its second BAR, and a second one that succeeds. -/
theorem deviceRounds_balanced_two : ∃ w,
    deviceRounds [{ OpenInput.sample with mapIoSpace := fun k => if k = 0 then some 1 else none },
      .sample] ⟨.fresh, [], []⟩ = some w ∧ w.Settled ∧
      ∃ status w', xdmaDeviceOpen .sample w = some (status, w') ∧ w'.Consistent := by
  have hsample : OpenInput.sample.Small := (by decide : 2 ≤ 3)
  apply deviceRounds_balanced _ .sample .fresh _ hsample
  intro i hi
  rcases List.mem_pair.mp hi with rfl | rfl
  · exact hsample
  · exact hsample

end Xadma
