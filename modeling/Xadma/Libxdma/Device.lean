import Xadma.Theory.Ledger
import Xadma.Libxdma.InterruptSetup

/-!
# Opening and closing the device (`libxdma/device.c`)

`XDMA_DeviceOpen` maps the memory resources into a table of three BARs, looks for the config BAR by
its identifiers and sets up interrupts and engines. `XDMA_DeviceClose` unmaps what the table holds.
Past the end of the table there is no next state.
-/

namespace Xadma

def xdmaMaxNumBars : Nat := 3

def xdmaIdMask : BitVec 32 := 0xFFF00000
def xdmaId : BitVec 32 := 0x1FC00000

def blockOffset : Nat := 0x1000
def irqBlockOffset : Nat := 2 * blockOffset
def configBlockOffset : Nat := 3 * blockOffset
def sgdmaCommonBlockOffset : Nat := 6 * blockOffset

def statusDeviceConfigurationError : NtStatus := 0xC0000182
def statusDriverInternalError : NtStatus := 0xC0000183

/-- A place in a mapped BAR. -/
structure BarAddr where
  base : Nat
  offset : Nat
  deriving DecidableEq, Repr

structure XdmaDevice where
  numBars : Nat
  /-- The kernel virtual address of the BAR, or `NULL`. -/
  bar : Fin xdmaMaxNumBars → Option Nat
  barLength : Fin xdmaMaxNumBars → BitVec 32
  configBarIdx : Nat
  userBarIdx : Int
  bypassBarIdx : Int
  configRegs : Option BarAddr
  interruptRegs : Option BarAddr
  sgdmaRegs : Option BarAddr

/-- What `MmMapIoSpace` has mapped. -/
structure BarMapping where
  address : Nat
  length : BitVec 32
  deriving DecidableEq, Repr

/-- A read of an identifier, and the length of the BAR it goes to. -/
structure IdentifierRead where
  bar : Nat
  offset : Nat
  length : BitVec 32
  deriving DecidableEq, Repr

/-- The device, with the calls that map and unmap, the writes to the vector registers and the reads
of identifiers so far. -/
structure DeviceWorld where
  device : XdmaDevice
  mappings : List (LedgerEvent BarMapping)
  reads : List IdentifierRead

/-- What one call of `XDMA_DeviceOpen` finds. -/
structure OpenInput where
  resources : List CmResource
  /-- What `MmMapIoSpace` returns, by the number of BARs mapped before. -/
  mapIoSpace : Nat → Option Nat
  /-- The identifiers, by BAR and offset. -/
  identifier : Nat → Nat → BitVec 32
  interrupts : InterruptInput
  dmaEnablerStatus : NtStatus
  /-- What `EngineCreate` comes to for the engines that exist. -/
  engineStatus : NtStatus

/-! ## The table -/

def deviceDefaultInitialize (w : DeviceWorld) : DeviceWorld :=
  { w with
    device :=
      { numBars := 0
        bar := fun _ => none
        barLength := fun _ => 0
        configBarIdx := 0
        userBarIdx := -1
        bypassBarIdx := -1
        configRegs := none
        interruptRegs := none
        sgdmaRegs := none } }

/-- The loop over the resources. -/
def mapBars (i : OpenInput) : List CmResource → DeviceWorld → Option (NtStatus × DeviceWorld)
  | [], w => some (statusSuccess, w)
  | .memory _ length :: resources, w =>
    if h : w.device.numBars < xdmaMaxNumBars then
      let k : Fin xdmaMaxNumBars := ⟨w.device.numBars, h⟩
      let device := { w.device with
        barLength := Function.update w.device.barLength k length
        bar := Function.update w.device.bar k (i.mapIoSpace w.device.numBars) }
      match i.mapIoSpace w.device.numBars with
      | none => some (statusDeviceConfigurationError, { w with device := device })
      | some address =>
        mapBars i resources { w with
          device := { device with numBars := w.device.numBars + 1 }
          mappings := w.mappings ++ [.acquire ⟨address, length⟩] }
    else none
  | _ :: resources, w => mapBars i resources w

/-- The identifiers of the BAR, which `IsConfigBAR` compares. -/
def OpenInput.isConfig (i : OpenInput) (idx : Nat) : Bool :=
  i.identifier idx irqBlockOffset &&& xdmaIdMask == xdmaId &&
    i.identifier idx configBlockOffset &&& xdmaIdMask == xdmaId

def isConfigBar (i : OpenInput) (idx : Nat) (w : DeviceWorld) : Option (Bool × DeviceWorld) :=
  if h : idx < xdmaMaxNumBars then
    let length := w.device.barLength ⟨idx, h⟩
    some (i.isConfig idx, { w with
      reads := w.reads ++
        [⟨idx, irqBlockOffset, length⟩, ⟨idx, configBlockOffset, length⟩] })
  else none

/-- The loop over `rest` BARs from `idx` on. -/
def findConfigBar (i : OpenInput) : (rest idx : Nat) → DeviceWorld → Option (Nat × DeviceWorld)
  -- not found: past-the-end index
  | 0, idx, w => some (idx, w)
  | rest + 1, idx, w => do
    let (found, w) ← isConfigBar i idx w
    if found then return (idx, w) else findConfigBar i rest (idx + 1) w

def identifyBars (i : OpenInput) (w : DeviceWorld) : Option (NtStatus × DeviceWorld) := do
  let numBars := w.device.numBars
  let (configBarIdx, w) ← findConfigBar i numBars 0 w
  if configBarIdx = numBars then
    return (statusDriverInternalError,
      { w with device := { w.device with configBarIdx := configBarIdx } })
  else
    return (statusSuccess, { w with
      device := { w.device with
        configBarIdx := configBarIdx
        userBarIdx := if configBarIdx = 1 then 0 else -1
        bypassBarIdx := if numBars - configBarIdx = 2 then numBars - 1 else -1 } })

def getRegisterModules (w : DeviceWorld) : Option DeviceWorld :=
  if h : w.device.configBarIdx < xdmaMaxNumBars then
    let configBarAddr := w.device.bar ⟨w.device.configBarIdx, h⟩
    some { w with
      device := { w.device with
        configRegs := configBarAddr.map fun base => ⟨base, configBlockOffset⟩
        interruptRegs := configBarAddr.map fun base => ⟨base, irqBlockOffset⟩
        sgdmaRegs := configBarAddr.map fun base => ⟨base, sgdmaCommonBlockOffset⟩ } }
  else none

/-! ## The vector registers -/

/-- One use of the BAR for each write. -/
def BarAddr.uses (regs : BarAddr) (vectors : List (VectorReg × BitVec 32)) :
    List (LedgerEvent BarMapping) :=
  (vectors.map fun _ => fun mapping : BarMapping => mapping.address == regs.base).map
    LedgerEvent.use

/-- The writes to the vector registers; `NULL` cannot be written to. -/
def writeInterruptRegs (vectors : List (VectorReg × BitVec 32)) (w : DeviceWorld) :
    Option DeviceWorld :=
  match w.device.interruptRegs with
  | none => if vectors = [] then some w else none
  | some regs => some { w with mappings := w.mappings ++ regs.uses vectors }

/-! ## `XDMA_DeviceOpen` and `XDMA_DeviceClose` -/

/-- The engines are looked up in the config BAR. -/
def probeEngines (i : OpenInput) (w : DeviceWorld) : Option (NtStatus × DeviceWorld) :=
  if w.device.configBarIdx < xdmaMaxNumBars then some (i.engineStatus, w) else none

/-- Behind `IdentifyBars`. -/
def openIdentified (i : OpenInput) (w : DeviceWorld) : Option (NtStatus × DeviceWorld) := do
  let w ← getRegisterModules w
  let setup := setupInterrupts i.interrupts i.resources
  let w ← writeInterruptRegs setup.vectors w
  if !ntSuccess setup.status then return (setup.status, w)
  else if !ntSuccess i.dmaEnablerStatus then return (i.dmaEnablerStatus, w)
  else probeEngines i w

/-- Behind `MapBARs`. -/
def openMapped (i : OpenInput) (w : DeviceWorld) : Option (NtStatus × DeviceWorld) := do
  let (status, w) ← identifyBars i w
  if !ntSuccess status then return (status, w)
  else openIdentified i w

def xdmaDeviceOpen (i : OpenInput) (w : DeviceWorld) : Option (NtStatus × DeviceWorld) := do
  let (status, w) ← mapBars i i.resources (deviceDefaultInitialize w)
  if !ntSuccess status then return (status, w)
  else openMapped i w

/-- The loop over `rest` BARs from `idx` on. -/
def unmapBars : (rest idx : Nat) → DeviceWorld → Option DeviceWorld
  | 0, _, w => some w
  | rest + 1, idx, w =>
    if h : idx < xdmaMaxNumBars then
      match w.device.bar ⟨idx, h⟩ with
      | none => unmapBars rest (idx + 1) w
      | some address =>
        unmapBars rest (idx + 1) { w with
          device := { w.device with bar := Function.update w.device.bar ⟨idx, h⟩ none }
          mappings := w.mappings ++ [.release ⟨address, w.device.barLength ⟨idx, h⟩⟩] }
    else none

def resetVectors (w : DeviceWorld) : Option DeviceWorld :=
  match w.device.interruptRegs with
  | none => some w
  | some _ => writeInterruptRegs (singleVectors 0) w

def xdmaDeviceClose (w : DeviceWorld) : Option DeviceWorld := do
  let w ← resetVectors w
  unmapBars w.device.numBars 0 w

/-- `EvtDevicePrepareHardware` and `EvtDeviceReleaseHardware` take turns. -/
def deviceRounds : List OpenInput → DeviceWorld → Option DeviceWorld
  | [], w => some w
  | i :: rounds, w => do
    let (_, w) ← xdmaDeviceOpen i w
    let w ← xdmaDeviceClose w
    deviceRounds rounds w

end Xadma
