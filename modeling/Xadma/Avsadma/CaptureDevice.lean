import Xadma.Theory.Prog
import Xadma.Libadma.Device

/-!
# The capture device (`avsadma/device.cpp`)

`PnpStart` maps the BARs, connects the interrupt, sets up DMA, makes the simulation object and
computes the register pointers. `PnpStop` takes the BARs and the buffers back. What they call, and
every access through a pointer, is one atomic call: `CaptureOp.effect` is what it does, and
`CaptureOp.valid` says that the memory it goes to is there.
-/

namespace Xadma

def statusInsufficientResources : NtStatus := 0xC000009A
def statusSharingViolation : NtStatus := 0xC0000043

namespace Capture

/-! ## Memory -/

/-- A mapping that `MmMapIoSpace` made. No number is given out twice. -/
structure IoMapping where
  id : Nat
  length : BitVec 32
  deriving DecidableEq, Repr

/-- `m_DmaBar` and `m_VideoBar`. -/
inductive CaptureBar
  | dma
  | video
  deriving DecidableEq, Repr

/-- A pointer computed from a BAR, which may have been `NULL`. -/
structure BarPointer where
  base : Option IoMapping
  offset : Nat
  deriving DecidableEq, Repr

/-- The register pointers of the Cyclone build. -/
inductive CaptureReg
  | extendDescriptor
  | csr
  | response
  | frameBuffer
  | clockVideo
  deriving DecidableEq, Repr

def CaptureReg.offset : CaptureReg → Nat
  | extendDescriptor => 0x4080
  | csr => 0x40a0
  | response => 0x40c0
  | frameBuffer => 0x4040
  | clockVideo => 0x4000

def CaptureReg.size : CaptureReg → Nat
  | extendDescriptor => 0x20
  | csr => 0x1C
  | response => 0x8
  | frameBuffer => 0x30
  | clockVideo => 0x38

/-- In the order of their assignments. -/
def captureRegs : List CaptureReg := [.extendDescriptor, .csr, .response, .frameBuffer, .clockVideo]

/-- The descriptor buffers of the Arria 10 build and the video buffer of the Cyclone build. -/
inductive CommonBuffer
  | rdDesc
  | wrDesc
  | video
  deriving DecidableEq, Repr

def commonBuffers : AdmaBuild → List CommonBuffer
  | .arria10 => [.rdDesc, .wrDesc]
  | .cyclone4 => [.video]

/-- The two sets of SGDMA registers of the Arria 10 build. -/
inductive SgdmaSide
  | rd
  | wr
  deriving DecidableEq, Repr

def admaDirRegOffset : Nat := 0x100

def SgdmaSide.offset : SgdmaSide → Nat
  | rd => 0
  | wr => admaDirRegOffset

def SgdmaSide.buffer : SgdmaSide → CommonBuffer
  | rd => .rdDesc
  | wr => .wrDesc

/-- `ADMA_RD_DTS_ADDR` and `ADMA_WR_DTS_ADDR`. -/
def SgdmaSide.dtsAddr : SgdmaSide → BitVec 32
  | rd => 0x80000000
  | wr => 0x80002000

def frameBufferNum : Nat := 5

/-- The members of the simulation object that `PnpStart` fills. -/
inductive SimulationField
  | sgdmaReg (side : SgdmaSide)
  | result (side : SgdmaSide)
  | descriptor (side : SgdmaSide)
  | frameBufferReg (index : Nat)
  deriving DecidableEq, Repr

/-- What `m_HardwareSimulation` points to. `delete` leaves the pointer as it is. -/
inductive Simulation
  | null
  | live
  | freed
  deriving DecidableEq, Repr

/-! ## Pins -/

inductive KsState
  | stop
  | acquire
  | pause
  | run
  deriving DecidableEq, Repr

inductive HardwareState
  | stopped
  | paused
  | running
  deriving DecidableEq, Repr, Inhabited

/-- What a pin keeps of its own. -/
structure CapturePin where
  hardwareState : HardwareState
  acquiredResources : Bool
  deriving DecidableEq, Repr, Inhabited

/-! ## The device -/

structure CaptureDevice where
  /-- The flag of AVStream. -/
  started : Bool
  numberOfBars : BitVec 32
  numberOfIntrs : BitVec 32
  bar : CaptureBar → Option IoMapping
  /-- The mappings that are there. -/
  mapped : Nat → Bool
  nextMapping : Nat
  /-- `IoConnectInterruptEx` succeeded. No routine disconnects. -/
  connected : Bool
  dmaAdapter : Bool
  /-- The address of the buffer is not `NULL`. -/
  buffer : CommonBuffer → Bool
  simulation : Simulation
  /-- `m_AdmaRdSgdmaReg` and `m_AdmaWrSgdmaReg` of the simulation object. -/
  sgdmaReg : SgdmaSide → BarPointer
  reg : CaptureReg → BarPointer
  pinsWithResources : Nat
  captureSink : Option Nat
  pin : Nat → CapturePin

/-- A device as `DispatchCreate` makes it, in zeroed memory, with pins that did nothing. -/
def zeroed : CaptureDevice where
  started := false
  numberOfBars := 0
  numberOfIntrs := 0
  bar := fun _ => none
  mapped := fun _ => false
  nextMapping := 0
  connected := false
  dmaAdapter := false
  buffer := fun _ => false
  simulation := .null
  sgdmaReg := fun _ => ⟨none, 0⟩
  reg := fun _ => ⟨none, 0⟩
  pinsWithResources := 0
  captureSink := none
  pin := fun _ => ⟨.stopped, false⟩

/-- The pointer was computed from a BAR that is mapped. -/
def CaptureDevice.reaches (d : CaptureDevice) (p : BarPointer) : Bool :=
  p.base.any fun m => d.mapped m.id

/-- All registers of the block are in a BAR that is mapped. -/
def CaptureDevice.covers (d : CaptureDevice) (r : CaptureReg) : Bool :=
  (d.reg r).base.any fun m => d.mapped m.id && (d.reg r).offset + r.size ≤ m.length.toNat

/-! ## Calls -/

inductive CaptureOp
  | readStarted
  | setStarted (started : Bool)
  | createFilterFactory
  | countBar
  | countIntr
  | readCounts
  /-- `MmMapIoSpace` for the resource at `index`. -/
  | mapIoSpace (index : Nat) (bar : CaptureBar) (length : BitVec 32)
  | connectInterrupt
  | getDmaAdapter
  | queryInterface
  | allocateCommonBuffer (buffer : CommonBuffer)
  | zeroBuffer (buffer : CommonBuffer)
  | readBufferPa (buffer : CommonBuffer)
  | readBufferSize (buffer : CommonBuffer)
  | newSimulation
  | addToObjectBag
  | deleteSimulation
  | writeSimulation (field : SimulationField)
  | readSgdma (side : SgdmaSide) (offset : Nat)
  | writeSgdma (side : SgdmaSide) (offset : Nat) (value : BitVec 32)
  | assignReg (r : CaptureReg)
  | readReg (r : CaptureReg) (offset : Nat)
  | writeReg (r : CaptureReg) (offset : Nat) (value : BitVec 32)
  | readDmaAdapter
  | putDmaAdapter
  | readBuffer (buffer : CommonBuffer)
  | freeCommonBuffer (buffer : CommonBuffer)
  | readBar (bar : CaptureBar)
  | unmapIoSpace (bar : CaptureBar)
  | clearBar (bar : CaptureBar)
  | compareExchangePins
  | exchangePins
  | createImageSynth
  | setCaptureSink (pin : Nat)
  | clearCaptureSink
  | readCaptureSink
  | pinAttemptProcessing (sink : Option Nat)
  | readPin (pin : Nat)
  | setHardwareState (pin : Nat) (hardwareState : HardwareState)
  | setAcquiredResources (pin : Nat) (acquired : Bool)
  | returnFromIsr
  deriving DecidableEq

abbrev CaptureOp.Res : CaptureOp → Type
  | .readStarted | .mapIoSpace .. | .getDmaAdapter | .allocateCommonBuffer _ | .newSimulation
  | .readDmaAdapter | .readBuffer _ | .readBar _ => Bool
  | .createFilterFactory | .connectInterrupt | .queryInterface | .addToObjectBag
  | .createImageSynth => NtStatus
  | .readCounts => BitVec 32 × BitVec 32
  | .readBufferPa _ => BitVec 64
  | .readBufferSize _ | .readSgdma .. | .readReg .. => BitVec 32
  | .compareExchangePins => Nat
  | .readCaptureSink => Option Nat
  | .readPin _ => CapturePin
  | _ => Unit

instance (op : CaptureOp) : Inhabited op.Res := by
  cases op <;> exact ⟨default⟩

instance (op : CaptureOp) : DecidableEq op.Res := by
  cases op <;> infer_instance

abbrev CaptureProg := Prog CaptureOp CaptureOp.Res

def CaptureOp.perform (op : CaptureOp) : CaptureProg op.Res := Prog.perform op

/-- The answer that the device has for a call; `none` if it comes from elsewhere. -/
def CaptureOp.look (d : CaptureDevice) : (op : CaptureOp) → Option op.Res
  | .readStarted => some d.started
  | .readCounts => some (d.numberOfBars, d.numberOfIntrs)
  | .readDmaAdapter => some d.dmaAdapter
  | .readBuffer b => some (d.buffer b)
  | .readBar bar => some (d.bar bar).isSome
  | .compareExchangePins => some d.pinsWithResources
  | .readCaptureSink => some d.captureSink
  | .readPin pin => some (d.pin pin)
  | _ => none

def CaptureDevice.setPin (d : CaptureDevice) (pin : Nat) (p : CapturePin) : CaptureDevice :=
  { d with pin := Function.update d.pin pin p }

/-- The BAR is set to what `MmMapIoSpace` returned. -/
def CaptureDevice.mapBar (d : CaptureDevice) (bar : CaptureBar) (length : BitVec 32) :
    Bool → CaptureDevice
  | true =>
    { d with
      bar := Function.update d.bar bar (some ⟨d.nextMapping, length⟩)
      mapped := Function.update d.mapped d.nextMapping true
      nextMapping := d.nextMapping + 1 }
  | false => { d with bar := Function.update d.bar bar none }

def CaptureDevice.unmapBar (d : CaptureDevice) (bar : CaptureBar) : CaptureDevice :=
  match d.bar bar with
  | some m => { d with mapped := Function.update d.mapped m.id false }
  | none => d

def CaptureOp.effect : (op : CaptureOp) → op.Res → CaptureDevice → CaptureDevice
  | .setStarted started, _, d => { d with started }
  | .countBar, _, d => { d with numberOfBars := d.numberOfBars + 1 }
  | .countIntr, _, d => { d with numberOfIntrs := d.numberOfIntrs + 1 }
  | .mapIoSpace _ bar length, r, d => d.mapBar bar length r
  | .connectInterrupt, status, d => { d with connected := d.connected || ntSuccess status }
  | .getDmaAdapter, r, d => { d with dmaAdapter := r }
  | .allocateCommonBuffer b, r, d => { d with buffer := Function.update d.buffer b r }
  | .newSimulation, r, d => { d with simulation := if r then .live else .null }
  | .deleteSimulation, _, d => { d with simulation := .freed }
  | .writeSimulation (.sgdmaReg side), _, d =>
    { d with sgdmaReg := Function.update d.sgdmaReg side ⟨d.bar .dma, side.offset⟩ }
  | .assignReg r, _, d => { d with reg := Function.update d.reg r ⟨d.bar .dma, r.offset⟩ }
  | .putDmaAdapter, _, d => { d with dmaAdapter := false }
  | .freeCommonBuffer b, _, d => { d with buffer := Function.update d.buffer b false }
  | .unmapIoSpace bar, _, d => d.unmapBar bar
  | .clearBar bar, _, d => { d with bar := Function.update d.bar bar none }
  | .compareExchangePins, old, d => if old = 0 then { d with pinsWithResources := 1 } else d
  | .exchangePins, _, d => { d with pinsWithResources := 0 }
  | .setCaptureSink pin, _, d => { d with captureSink := some pin }
  | .clearCaptureSink, _, d => { d with captureSink := none }
  | .setHardwareState pin hardwareState, _, d =>
    d.setPin pin { d.pin pin with hardwareState := hardwareState }
  | .setAcquiredResources pin acquired, _, d =>
    d.setPin pin { d.pin pin with acquiredResources := acquired }
  | _, _, d => d

/-- The call does not go through a BAR pointer that is `NULL` or unmapped, a `NULL` buffer or a
simulation object that is not there. -/
def CaptureOp.valid (d : CaptureDevice) : CaptureOp → Bool
  | .zeroBuffer b => d.buffer b
  | .writeSimulation _ => d.simulation = .live
  | .readSgdma side _ | .writeSgdma side .. => d.simulation = .live && d.reaches (d.sgdmaReg side)
  | .readReg r _ | .writeReg r .. => d.reaches (d.reg r)
  | _ => true

/-- The effect of a call that is valid. -/
def CaptureOp.act (op : CaptureOp) (d : CaptureDevice) (r : op.Res) : Option CaptureDevice :=
  if op.valid d then some (op.effect r d) else none

/-- The answers of a routine that runs alone; `env` has those that the device has not. -/
def answer (env : (op : CaptureOp) → op.Res) (op : CaptureOp) (d : CaptureDevice) : op.Res :=
  (op.look d).getD (env op)

/-! ## Starting -/

/-- Map a BAR, which fails if the address is `NULL`. -/
def mapBar (index : Nat) (bar : CaptureBar) (length : BitVec 32) : CaptureProg NtStatus := do
  let mapped : Bool ← (CaptureOp.mapIoSpace index bar length).perform
  if mapped then return statusSuccess else return statusDeviceConfigurationError

/-- One resource in the loop of `MapResources`. -/
def mapResource (index : Nat) : AdmaResource → CaptureProg NtStatus
  | .memory _ length => do
    CaptureOp.countBar.perform
    mapBar index .dma length
  | .memoryLarge flags _ _ => do
    CaptureOp.countBar.perform
    -- only a part of it is used, from 2 GB on
    if flags &&& cmResourceMemoryLarge40 ≠ 0 then mapBar index .video 0x10000
    else return statusSuccess
  | .interrupt _ => do
    -- level, vector and affinity go nowhere
    CaptureOp.countIntr.perform
    return statusSuccess
  | .other => return statusSuccess

/-- The loop over the resources, the first of which is at `index`. -/
def mapResourcesFrom : Nat → List AdmaResource → CaptureProg NtStatus
  | _, [] => return statusSuccess
  | index, resource :: resources => do
    let status ← mapResource index resource
    if !ntSuccess status then return status else mapResourcesFrom (index + 1) resources

def mapResources (resources : List AdmaResource) : CaptureProg NtStatus := do
  let status ← mapResourcesFrom 0 resources
  if !ntSuccess status then return status
  else do
    let counts : BitVec 32 × BitVec 32 ← CaptureOp.readCounts.perform
    if counts.1 < 1 ∨ counts.2 < 1 then return statusDeviceConfigurationError else return status

def setupInterrupts : CaptureProg NtStatus := CaptureOp.connectInterrupt.perform

/-- Allocate and zero the buffers in order. -/
def allocateBuffers (status : NtStatus) : List CommonBuffer → CaptureProg NtStatus
  | [] => return status
  | b :: bs => do
    let allocated : Bool ← (CaptureOp.allocateCommonBuffer b).perform
    if !allocated then return statusInsufficientResources
    else do
      (CaptureOp.zeroBuffer b).perform
      allocateBuffers status bs

def setupDma (build : AdmaBuild) : CaptureProg NtStatus := do
  let adapter : Bool ← CaptureOp.getDmaAdapter.perform
  if !adapter then return statusInsufficientResources
  else do
    -- the adapter is registered with AVStream one way or the other
    let status : NtStatus ← CaptureOp.queryInterface.perform
    allocateBuffers status (commonBuffers build)

/-- The members of the simulation object in the order of their assignments. -/
def simulationFields : List SimulationField :=
  [.sgdmaReg .rd, .sgdmaReg .wr, .result .rd, .descriptor .rd, .result .wr, .descriptor .wr] ++
    (List.range frameBufferNum).map .frameBufferReg

/-- Give the hardware the address of a descriptor buffer. The arguments of a trace are evaluated in
every release build, and in a debug build if its level is enabled: `traced`. -/
def giveDescriptorBuffer (traced : Bool) (side : SgdmaSide) : CaptureProg Unit := do
  let pa : BitVec 64 ← (CaptureOp.readBufferPa side.buffer).perform
  (CaptureOp.writeSgdma side 0x0 (lowPart pa)).perform
  (CaptureOp.writeSgdma side 0x4 (highPart pa)).perform
  (CaptureOp.writeSgdma side 0x8 side.dtsAddr).perform
  (CaptureOp.writeSgdma side 0xC 0).perform
  Prog.when (traced = true) (do
    let _ : BitVec 32 ← (CaptureOp.readSgdma side 0x0).perform
    let _ : BitVec 32 ← (CaptureOp.readSgdma side 0x4).perform)

/-- What `PnpStart` does with the BARs once the simulation object was made. -/
def assignRegisters (build : AdmaBuild) (traced : Bool) : CaptureProg Unit :=
  match build with
  | .arria10 => do
    Prog.forEach simulationFields fun field => (CaptureOp.writeSimulation field).perform
    Prog.forEach [.rd, .wr] (giveDescriptorBuffer traced)
  | .cyclone4 => Prog.forEach captureRegs fun r => (CaptureOp.assignReg r).perform

/-- The initial start, behind the filter factory. -/
def startHardware (build : AdmaBuild) (traced : Bool) (resources : List AdmaResource) :
    CaptureProg NtStatus := do
  -- the three statuses are not looked at
  let _ : NtStatus ← mapResources resources
  let _ : NtStatus ← setupInterrupts
  let _ : NtStatus ← setupDma build
  let created : Bool ← CaptureOp.newSimulation.perform
  if !created then return statusInsufficientResources
  else do
    let status : NtStatus ← CaptureOp.addToObjectBag.perform
    Prog.when (ntSuccess status = false) CaptureOp.deleteSimulation.perform
    -- also behind the `delete`
    assignRegisters build traced
    return status

def createFilter : CaptureProg NtStatus := do
  let started : Bool ← CaptureOp.readStarted.perform
  if started then return statusSuccess else CaptureOp.createFilterFactory.perform

def pnpStart (build : AdmaBuild) (traced : Bool) (resources : List AdmaResource) :
    CaptureProg NtStatus := do
  let status ← createFilter
  if !ntSuccess status then return status
  else do
    let started : Bool ← CaptureOp.readStarted.perform
    if started then return status else startHardware build traced resources

/-! ## Stopping -/

def freeBuffer (b : CommonBuffer) : CaptureProg Unit := do
  let allocated : Bool ← (CaptureOp.readBuffer b).perform
  Prog.when (allocated = true) (CaptureOp.freeCommonBuffer b).perform

def unmapBar (bar : CaptureBar) : CaptureProg Unit := do
  let mapped : Bool ← (CaptureOp.readBar bar).perform
  Prog.when (mapped = true) (do
    (CaptureOp.unmapIoSpace bar).perform
    (CaptureOp.clearBar bar).perform)

def unmapResources : CaptureProg Unit := do
  unmapBar .dma
  unmapBar .video

def pnpStop (build : AdmaBuild) : CaptureProg Unit := do
  let adapter : Bool ← CaptureOp.readDmaAdapter.perform
  Prog.when (adapter = true) (do
    Prog.forEach (commonBuffers build) freeBuffer
    CaptureOp.putDmaAdapter.perform)
  unmapResources

/-! ## The interrupt -/

def csrIrqSetMask : BitVec 32 := bitN 9

/-- `AdmaInterruptMessageService`, which has the text of `AdmaInterruptHandler`. It reads pointers
that only the Cyclone build assigns. -/
def interruptMessageService (traced : Bool) : CaptureProg Bool := do
  let reg : BitVec 32 ← (CaptureOp.readReg .csr 0x0).perform
  Prog.when (reg &&& csrIrqSetMask ≠ 0) (do
    Prog.when (traced = true) (do
      let _ : BitVec 32 ← (CaptureOp.readReg .response 0x0).perform)
    (CaptureOp.writeReg .csr 0x0 (reg &&& ~~~ csrIrqSetMask)).perform
    let capPin : Option Nat ← CaptureOp.readCaptureSink.perform
    (CaptureOp.pinAttemptProcessing capPin).perform)
  let reg : BitVec 32 ← (CaptureOp.readReg .frameBuffer 0x8).perform
  Prog.when (reg ≠ 0) (CaptureOp.writeReg .frameBuffer 0x8 0).perform
  return true

end Capture

end Xadma
