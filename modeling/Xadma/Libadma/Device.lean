import Xadma.Libxdma.Device
import Xadma.Libadma.Engine

/-!
# Opening the Altera device (`libadma/adevice.c`, `libadma/adma_engine.c`)

`ADMA_DeviceOpen` maps the memory resources into a table of six BARs and installs the register
blocks at fixed offsets of a BAR with a fixed index. Past the end of the table, and behind an access
to memory that is not mapped, there is no next state.
-/

namespace Xadma

def admaMaxNumBars : Nat := 6

def cmResourceMemoryLarge40 : BitVec 16 := 0x0200
def cmResourceMemoryLarge48 : BitVec 16 := 0x0400
def cmResourceMemoryLarge64 : BitVec 16 := 0x0800

/-- A descriptor of the translated resource list. -/
inductive AdmaResource
  | memory (start : BitVec 64) (length : BitVec 32)
  /-- The flags say in which unit the length is. -/
  | memoryLarge (flags : BitVec 16) (start : BitVec 64) (length : BitVec 32)
  | interrupt (message : Bool)
  | other
  deriving DecidableEq, Repr

/-! ## Register blocks -/

/-- A part of a BAR, which need not be mapped. -/
structure RegBlock where
  bar : Fin admaMaxNumBars
  offset : Nat
  size : Nat
  deriving DecidableEq, Repr

/-- The 32-bit register at `offset` of the block. -/
def RegBlock.field (block : RegBlock) (offset : Nat) : RegBlock :=
  ⟨block.bar, block.offset + offset, 4⟩

def sizeofAdmaConfigRegs : Nat := 0x64
def sizeofAdmaA2pTransTbl : Nat := 0x10
def sizeofAdmaIrqRegs : Nat := 0x20
def sizeofAdmaSgdmaRegs : Nat := 0x100
def sizeofModularSgdmaCsr : Nat := 0x1C
def sizeofModularSgdmaStandardDescriptor : Nat := 0x10
def sizeofModularSgdmaResponse : Nat := 0x8

def admaBlockOffset : Nat := 0x100
def admaSgdmaBlockOffset : Nat := 0x0
def admaEngineOffset : Nat := 0x100
def admaConfigBlockOffset : Nat := 0
def a2pTransTblOffset : Nat := 0x1000
def admaIrqRegsOffset : Nat := 0x40
def modularSgdmaDescriptorRegOffset : Nat := 0x6000020
def modularSgdmaCsrRegOffset : Nat := 0x6000000
def modularSgdmaResponseRegOffset : Nat := 0x40c0

/-- The register pointers of an engine, unset in a zeroed context. -/
structure AdmaEngine where
  regs : Option RegBlock
  sgdma : Option RegBlock
  modSgdmaCsr : Option RegBlock
  modSgdmaStdDes : Option RegBlock
  modSgdmaExtDes : Option RegBlock
  modSgdmaResponse : Option RegBlock
  enabled : Bool

structure AdmaDevice where
  numBars : Nat
  /-- The kernel virtual address of the BAR with the length that is mapped, or `NULL`. -/
  bar : Fin admaMaxNumBars → Option BarMapping
  barLength : Fin admaMaxNumBars → BitVec 32
  configBarIdx : Fin admaMaxNumBars
  userBarIdx : Int
  bypassBarIdx : Int
  configRegs : Option RegBlock
  interruptRegs : Option RegBlock
  a2pTransTbl : Option RegBlock
  a2pMask : BitVec 32
  /-- There is one channel. -/
  engine : DirToDev → AdmaEngine

/-- The block is in a BAR that is mapped, and in the part of it that is. -/
def AdmaDevice.contains (d : AdmaDevice) (block : RegBlock) : Bool :=
  (d.bar block.bar).any fun mapping => block.offset + block.size ≤ mapping.length.toNat

/-- An access to the registers. -/
def AdmaDevice.access (d : AdmaDevice) (blocks : List RegBlock) : Option Unit :=
  if blocks.all d.contains then some () else none

/-- What one call of `ADMA_DeviceOpen` finds. -/
structure AdmaOpenInput where
  resources : List AdmaResource
  /-- What `MmMapIoSpace` returns, by the number of BARs counted before. -/
  mapIoSpace : Nat → Option Nat
  /-- What `a2pAddrLo0` reads as when all its bits were written. -/
  a2pMask : BitVec 32
  dmaEnablerStatus : NtStatus
  commonBufferStatus : DirToDev → NtStatus
  dmaTransactionStatus : DirToDev → NtStatus
  /-- What `SetupInterrupts` comes to. -/
  interruptsStatus : NtStatus

namespace Adma

/-- A device context as the framework allocates it. -/
def zeroed : AdmaDevice where
  numBars := 0
  bar := fun _ => none
  barLength := fun _ => 0
  configBarIdx := ⟨0, by decide⟩
  userBarIdx := 0
  bypassBarIdx := 0
  configRegs := none
  interruptRegs := none
  a2pTransTbl := none
  a2pMask := 0
  engine := fun _ => ⟨none, none, none, none, none, none, false⟩

/-! ## The table -/

def deviceDefaultInitialize (d : AdmaDevice) : AdmaDevice :=
  { d with
    numBars := 0
    bar := fun _ => none
    barLength := fun _ => 0
    -- according to UG-01145 Page149
    configBarIdx := ⟨1, by decide⟩
    userBarIdx := -1
    bypassBarIdx := -1
    configRegs := none
    interruptRegs := none
    engine := fun dir => { d.engine dir with enabled := false } }

/-- Fill the entry at `numBars`; it is counted unless the BAR is `NULL`. -/
def fillBar (d : AdmaDevice) (barLength : BitVec 32)
    (bar : Option BarMapping → Option BarMapping) : Option (NtStatus × AdmaDevice) :=
  if h : d.numBars < admaMaxNumBars then
    let k : Fin admaMaxNumBars := ⟨d.numBars, h⟩
    let d := { d with
      barLength := Function.update d.barLength k barLength
      bar := Function.update d.bar k (bar (d.bar k)) }
    match d.bar k with
    | none => some (statusDeviceConfigurationError, d)
    | some _ => some (statusSuccess, { d with numBars := d.numBars + 1 })
  else none

def mmMapIoSpace (i : AdmaOpenInput) (d : AdmaDevice) (length : BitVec 32) : Option BarMapping :=
  (i.mapIoSpace d.numBars).map fun address => ⟨address, length⟩

/-- One resource in the loop of `MapBARs`. -/
def mapResource (i : AdmaOpenInput) (d : AdmaDevice) :
    AdmaResource → Option (NtStatus × AdmaDevice)
  | .memory _ length => fillBar d length fun _ => mmMapIoSpace i d length
  | .memoryLarge flags _ length =>
    if flags &&& cmResourceMemoryLarge40 ≠ 0 then
      -- only a part of it is used
      fillBar d 0x10000 fun _ => mmMapIoSpace i d 0x10000
    -- the other two kinds are not mapped
    else if flags &&& cmResourceMemoryLarge48 ≠ 0 then fillBar d (length <<< 16) id
    else if flags &&& cmResourceMemoryLarge64 ≠ 0 then fillBar d length id
    else some (statusSuccess, { d with numBars := d.numBars + 1 })
  | .interrupt _ | .other => some (statusSuccess, d)

/-- The loop over the resources. -/
def mapBars (i : AdmaOpenInput) :
    List AdmaResource → AdmaDevice → Option (NtStatus × AdmaDevice)
  | [], d => some (statusSuccess, d)
  | resource :: resources, d => do
    let (status, d) ← mapResource i d resource
    if !ntSuccess status then return (status, d) else mapBars i resources d

def configBar : AdmaBuild → Fin admaMaxNumBars
  | .arria10 => ⟨0, by decide⟩
  | .cyclone4 => ⟨1, by decide⟩

def identifyBars (build : AdmaBuild) (d : AdmaDevice) : AdmaDevice :=
  match build with
  | .arria10 => { d with userBarIdx := 1, configBarIdx := configBar build, bypassBarIdx := -1 }
  | .cyclone4 => { d with userBarIdx := 0, configBarIdx := configBar build }

def getRegisterModules (d : AdmaDevice) : AdmaDevice :=
  { d with
    configRegs := some ⟨d.configBarIdx, admaConfigBlockOffset, sizeofAdmaConfigRegs⟩
    a2pTransTbl := some ⟨d.configBarIdx, a2pTransTblOffset, sizeofAdmaA2pTransTbl⟩
    interruptRegs := some ⟨d.configBarIdx, admaIrqRegsOffset, sizeofAdmaIrqRegs⟩ }

/-! ## The engines -/

def dirIndex : DirToDev → Nat
  | .h2c => 0
  | .c2h => 1

/-- The SGDMA registers of the Arria 10 build; the only channel is 0. -/
def sgdmaBlock (bar : Fin admaMaxNumBars) (dir : DirToDev) : RegBlock :=
  ⟨bar, dirIndex dir * admaBlockOffset + 0 * admaEngineOffset + admaSgdmaBlockOffset,
    sizeofAdmaSgdmaRegs⟩

/-- The register pointers that `EngineCreate` assigns. -/
def assignRegs (build : AdmaBuild) (bar : Fin admaMaxNumBars) (dir : DirToDev)
    (engine : AdmaEngine) : AdmaEngine :=
  match build with
  | .arria10 => { engine with sgdma := some (sgdmaBlock bar dir) }
  | .cyclone4 =>
    { engine with
      modSgdmaCsr := some ⟨bar, modularSgdmaCsrRegOffset, sizeofModularSgdmaCsr⟩
      modSgdmaStdDes :=
        some ⟨bar, modularSgdmaDescriptorRegOffset, sizeofModularSgdmaStandardDescriptor⟩
      modSgdmaResponse := some ⟨bar, modularSgdmaResponseRegOffset, sizeofModularSgdmaResponse⟩ }

def setEngine (d : AdmaDevice) (dir : DirToDev) (engine : AdmaEngine) : AdmaDevice :=
  { d with engine := Function.update d.engine dir engine }

/-- The registers that give the hardware the descriptor buffer. -/
def descriptorBufferFields (sgdma : RegBlock) : List RegBlock :=
  -- rcStatusDescLo, rcStatusDescHi, epDescFifoLo and epDescFifoHi
  [sgdma.field 0x0, sgdma.field 0x4, sgdma.field 0x8, sgdma.field 0xC]

def engineCreateDescriptorBuffer (i : AdmaOpenInput) (d : AdmaDevice) (dir : DirToDev) :
    Option NtStatus :=
  if !ntSuccess (i.commonBufferStatus dir) then some (i.commonBufferStatus dir)
  else do
    let sgdma ← (d.engine dir).sgdma
    d.access (descriptorBufferFields sgdma)
    return i.commonBufferStatus dir

/-- Behind the descriptor buffer. -/
def engineCreateTransaction (i : AdmaOpenInput) (d : AdmaDevice) (dir : DirToDev) :
    NtStatus × AdmaDevice :=
  if !ntSuccess (i.dmaTransactionStatus dir) then (i.dmaTransactionStatus dir, d)
  else (i.dmaTransactionStatus dir, setEngine d dir { d.engine dir with enabled := true })

def engineCreate (build : AdmaBuild) (i : AdmaOpenInput) (d : AdmaDevice) (dir : DirToDev) :
    Option (NtStatus × AdmaDevice) := do
  let d := setEngine d dir (assignRegs build d.configBarIdx dir (d.engine dir))
  match build with
  | .arria10 =>
    let status ← engineCreateDescriptorBuffer i d dir
    if !ntSuccess status then return (status, d) else return engineCreateTransaction i d dir
  | .cyclone4 => return engineCreateTransaction i d dir

/-- The loop over the directions. -/
def probeEngines (build : AdmaBuild) (i : AdmaOpenInput) :
    List DirToDev → AdmaDevice → Option (NtStatus × AdmaDevice)
  | [], d => some (statusSuccess, d)
  | dir :: dirs, d => do
    let (status, d) ← engineCreate build i d dir
    if !ntSuccess status then return (status, d) else probeEngines build i dirs d

/-! ## `ADMA_DeviceOpen` and `ADMA_DeviceClose` -/

/-- Behind the translation mask. -/
def openMasked (build : AdmaBuild) (i : AdmaOpenInput) (d : AdmaDevice) :
    Option (NtStatus × AdmaDevice) := do
  if !ntSuccess i.dmaEnablerStatus then return (i.dmaEnablerStatus, d)
  else do
    let (status, d) ← probeEngines build i [.h2c, .c2h] d
    if !ntSuccess status then return (status, d)
    -- `EnginesAssignInterrupt` behind it does not fail
    else return (i.interruptsStatus, d)

/-- Behind `MapBARs`. -/
def openMapped (build : AdmaBuild) (i : AdmaOpenInput) (d : AdmaDevice) :
    Option (NtStatus × AdmaDevice) := do
  let d := getRegisterModules (identifyBars build d)
  let a2pTransTbl ← d.a2pTransTbl
  -- `a2pAddrLo0` is written and read back
  d.access [a2pTransTbl.field 0x0]
  let d := { d with a2pMask := i.a2pMask }
  if d.a2pMask = 0 then return (statusInternalError, d)
  else openMasked build i d

def admaDeviceOpen (build : AdmaBuild) (i : AdmaOpenInput) (d : AdmaDevice) :
    Option (NtStatus × AdmaDevice) := do
  let (status, d) ← mapBars i i.resources (deviceDefaultInitialize d)
  if !ntSuccess status then return (status, d)
  else openMapped build i d

/-- The pointers stay as they are. -/
def admaDeviceClose (d : AdmaDevice) : AdmaDevice := { d with bar := fun _ => none }

end Adma

end Xadma
