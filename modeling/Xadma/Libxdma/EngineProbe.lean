import Mathlib.Logic.Function.Basic
import Xadma.Libxdma.EngineRegs
import Xadma.Libxdma.InterruptSetup

/-!
# Probing the engines (`libxdma/dma_engine.c`)

`ProbeEngines` looks for an engine in each place of the config BAR and sets it up. The interrupt bit
of an engine and the context of its interrupt go by the number of engines found before, not by its
place. `XDMA_EngineSetPollMode` then takes the engines to the mode that is configured.
-/

namespace Xadma

namespace Probe

/-! ## Bits and offsets -/

def xdmaIdMask : BitVec 32 := 0xFFF00000#32
def xdmaId : BitVec 32 := 0x1FC00000#32
def xdmaIdStBit : BitVec 32 := bitN 15

def blockOffset : Nat := 0x1000
def sgdmaBlockOffset : Nat := 4 * blockOffset
def engineOffset : Nat := 0x100

def xdmaCtrlIeAll : BitVec 32 :=
  bitN 1 ||| bitN 2 ||| bitN 3 ||| bitN 4 ||| bitN 5 ||| 0x1f#32 <<< 9 ||| 0x1f#32 <<< 14 |||
    0x1f#32 <<< 19
def xdmaCtrlIeIdleStopped : BitVec 32 := bitN 6
def xdmaCtrlNonIncrAddr : BitVec 32 := bitN 25
def xdmaCtrlPollMode : BitVec 32 := bitN 26

/-- `XDMA_ENG_IRQ_NUM` -/
def xdmaEngIrqNum : Nat := 1

/-- Where the registers of an engine are in the config BAR; its SGDMA registers are behind. -/
def offset (slot : EngineSlot) : Nat :=
  (match slot.dir with
    | .h2c => 0
    | .c2h => blockOffset) + slot.channel * engineOffset

/-! ## The device -/

/-- What the routines use of `XDMA_ENGINE_REGS` and `XDMA_SGDMA_REGS`. -/
structure Regs where
  identifier : BitVec 32
  control : BitVec 32
  alignments : BitVec 32
  pollModeWbLo : BitVec 32
  pollModeWbHi : BitVec 32
  intEnableMask : BitVec 32
  firstDescLo : BitVec 32
  firstDescHi : BitVec 32
  firstDescAdj : BitVec 32
  deriving DecidableEq

inductive EngineWork
  | processTransfer
  | processRing
  deriving DecidableEq, Repr

/-- `engines[channel][dir]` -/
structure Engine where
  enabled : Bool
  poll : Bool
  channel : Nat
  dir : DirToDev
  regs : Nat
  sgdma : Nat
  type : EngineType
  addressMode : AddressMode
  irqBitMask : BitVec 32
  alignment : AlignmentData
  work : Option EngineWork
  deriving DecidableEq

structure Device where
  engine : EngineSlot → Engine
  /-- `channelInterrupts[index] != NULL` -/
  channelInterrupt : Nat → Bool
  /-- `engine` in the context of `channelInterrupts[index]`. -/
  context : Nat → Option EngineSlot
  /-- The registers at an offset of the config BAR. -/
  regs : Nat → Regs
  creditModeEnable : BitVec 32

namespace Device

def setEngine (d : Device) (slot : EngineSlot) (f : Engine → Engine) : Device :=
  { d with engine := Function.update d.engine slot (f (d.engine slot)) }

def setRegs (d : Device) (place : Nat) (f : Regs → Regs) : Device :=
  { d with regs := Function.update d.regs place (f (d.regs place)) }

end Device

/-- What the framework answers while an engine is created. -/
structure CreateInput where
  pollWbStatus : NtStatus
  pollWbBuffer : BitVec 64
  descBufferStatus : NtStatus
  descBuffer : BitVec 64
  dmaTransactionStatus : NtStatus
  /-- What `EngineCreateRingBuffer` comes to. -/
  ringBufferStatus : NtStatus
  deriving DecidableEq

/-! ## `EngineCreate` -/

def engineExists (d : Device) (slot : EngineSlot) : Bool :=
  (d.regs (offset slot)).identifier &&& xdmaIdMask == xdmaId

/-- Bind msi interrupt context with this engine. -/
def bindContext (slot : EngineSlot) (index : Nat) (d : Device) : Device :=
  if d.channelInterrupt index then { d with context := Function.update d.context index (some slot) }
  else d

/-- What an engine may interrupt for. -/
def interruptSources (engine : Engine) : BitVec 32 :=
  if engine.type = .st ∧ engine.dir = .c2h then xdmaCtrlIeAll ||| xdmaCtrlIeIdleStopped
  else xdmaCtrlIeAll

def engineConfigureInterrupt (slot : EngineSlot) (index : Nat) (d : Device) : Device :=
  let d := bindContext slot index (d.setEngine slot fun engine =>
    { engine with
      irqBitMask := ((1#32 <<< xdmaEngIrqNum) - 1#32) <<< (index * xdmaEngIrqNum) })
  -- enable interrupts
  let regVal := interruptSources (d.engine slot)
  d.setRegs (d.engine slot).regs fun regs =>
    { regs with
      intEnableMask := regs.intEnableMask ||| regVal
      control := regs.control ||| regVal }

def engineCreatePollWriteBackBuffer (i : CreateInput) (slot : EngineSlot) (d : Device) :
    NtStatus × Device :=
  if !ntSuccess i.pollWbStatus then (i.pollWbStatus, d)
  else (i.pollWbStatus, d.setRegs (d.engine slot).regs fun regs =>
    { regs with
      pollModeWbLo := lowPart i.pollWbBuffer
      pollModeWbHi := highPart i.pollWbBuffer })

def engineCreateDescriptorBuffer (i : CreateInput) (slot : EngineSlot) (d : Device) :
    NtStatus × Device :=
  if !ntSuccess i.descBufferStatus then (i.descBufferStatus, d)
  else (i.descBufferStatus, d.setRegs (d.engine slot).regs fun regs =>
    { regs with
      firstDescLo := lowPart i.descBuffer
      firstDescHi := highPart i.descBuffer
      firstDescAdj := 0 })

/-- Whether there is a ring, and what works on the engine. -/
def engineCreateWork (i : CreateInput) (slot : EngineSlot) (d : Device) : NtStatus × Device :=
  if (d.engine slot).type = .st ∧ (d.engine slot).dir = .c2h then
    let d := d.setEngine slot fun engine => { engine with work := some .processRing }
    if !ntSuccess i.ringBufferStatus then (i.ringBufferStatus, d)
    else (i.ringBufferStatus, { d with
      creditModeEnable := d.creditModeEnable ||| bitN (d.engine slot).channel <<< 16 })
  else
    (i.dmaTransactionStatus, d.setEngine slot fun engine =>
      { engine with work := some .processTransfer })

/-- What `EngineCreate` finds out from the registers. -/
def engineIdentify (slot : EngineSlot) (d : Device) : Device :=
  let regs := d.regs (offset slot)
  d.setEngine slot fun engine =>
    { engine with
      channel := slot.channel
      dir := slot.dir
      regs := offset slot
      sgdma := offset slot + sgdmaBlockOffset
      type := if regs.identifier &&& xdmaIdStBit ≠ 0 then .st else .mm
      addressMode := if regs.control &&& xdmaCtrlNonIncrAddr ≠ 0 then .fixed else .contiguous }

def engineCreate (i : CreateInput) (slot : EngineSlot) (engineIndex : Nat) (d : Device) :
    NtStatus × Device :=
  let d := engineConfigureInterrupt slot engineIndex (engineIdentify slot d)
  let (status, d) := engineCreatePollWriteBackBuffer i slot d
  if !ntSuccess status then (status, d)
  else
    let d := d.setEngine slot fun engine =>
      { engine with alignment := engineGetAlignments (d.regs engine.regs).alignments }
    let (status, d) := engineCreateDescriptorBuffer i slot d
    if !ntSuccess status then (status, d)
    else if !ntSuccess i.dmaTransactionStatus then (i.dmaTransactionStatus, d)
    else
      let (status, d) := engineCreateWork i slot d
      if !ntSuccess status then (status, d)
      else (status, d.setEngine slot fun engine => { engine with enabled := true })

/-! ## `ProbeEngines` -/

/-- The loop over the places of the engines. -/
def probeLoop (i : EngineSlot → CreateInput) :
    List EngineSlot → (engineIndex : Nat) → Device → NtStatus × Device
  | [], _, d => (statusSuccess, d)
  | slot :: slots, engineIndex, d =>
    if engineExists d slot then
      let (status, d) := engineCreate (i slot) slot engineIndex d
      if !ntSuccess status then (status, d) else probeLoop i slots (engineIndex + 1) d
    else probeLoop i slots engineIndex d

def probeEngines (i : EngineSlot → CreateInput) (d : Device) : NtStatus × Device :=
  probeLoop i engineSlots 0 d

/-! ## `XDMA_EngineSetPollMode` -/

def xdmaEngineSetPollMode (slot : EngineSlot) (pollMode : Bool) (d : Device) : Device :=
  if (d.engine slot).enabled then
    let d := d.setRegs (d.engine slot).regs fun regs =>
      if pollMode then
        { regs with control := (regs.control ||| xdmaCtrlPollMode) &&& ~~~ xdmaCtrlIeAll }
      else
        { regs with control := (regs.control &&& ~~~ xdmaCtrlPollMode) ||| xdmaCtrlIeAll }
    d.setEngine slot fun engine => { engine with poll := pollMode }
  else d

/-- `EvtDevicePrepareHardware` behind `XDMA_DeviceOpen`. -/
def setPollModes (pollMode : Bool) (d : Device) : Device :=
  engineSlots.foldl (fun d slot => xdmaEngineSetPollMode slot pollMode d) d

/-- What `DeviceDefaultInitialize` leaves of the engines. -/
def deviceDefaultInitialize (d : Device) : Device :=
  { d with engine := fun slot => { d.engine slot with enabled := false, poll := false } }

/-- What `XDMA_DeviceOpen` does with the interrupts and the engines of a device that is opened for
the first time: no handle is left of an earlier round. -/
def openFirst (i : InterruptInput) (resources : List CmResource) (is : EngineSlot → CreateInput)
    (d : Device) : NtStatus × Device :=
  let setup := setupInterrupts i resources
  let d := { deviceDefaultInitialize d with
    channelInterrupt := fun k => setup.objects.any (·.handler == .channel k)
    context := fun _ => none }
  if !ntSuccess setup.status then (setup.status, d) else probeEngines is d

end Probe

end Xadma
