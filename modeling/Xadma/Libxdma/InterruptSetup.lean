import Xadma.Libxdma.Interrupt

/-!
# Setting up the interrupts (`libxdma/interrupt.c`, `libxdma/pcie_common.h`)

`SetupInterrupts` creates the interrupt objects of the device and writes to its vector registers
which interrupt each source raises. The number of interrupt resources and of MSI vectors decides
between three modes.
-/

namespace Xadma

def xdmaMaxChanIrq : Nat := 2 * xdmaMaxNumChannels
def xdmaMaxNumIrq : Nat := xdmaMaxUserIrq + xdmaMaxChanIrq

/-- A descriptor of the translated resource list. -/
inductive CmResource
  | memory (start : BitVec 64) (length : BitVec 32)
  /-- `message` is the flag `CM_RESOURCE_INTERRUPT_MESSAGE`. -/
  | interrupt (message : Bool)
  | other
  deriving DecidableEq, Repr

/-! ## The vector registers -/

inductive VectorReg
  | user (i : Nat)
  | channel (i : Nat)
  deriving DecidableEq, Repr

def buildVectorReg (a b c d : BitVec 32) : BitVec 32 :=
  0#32 ||| (a &&& 0x1f) <<< 0 ||| (b &&& 0x1f) <<< 8 ||| (c &&& 0x1f) <<< 16 |||
    (d &&& 0x1f) <<< 24

/-- What `SetupMsixInterrupts` and `SetupMultiMsiInterrupts` write. -/
def messageVectors : List (VectorReg × BitVec 32) :=
  -- first 16 msg IDs are user irq
  [(.user 0, buildVectorReg 0 1 2 3), (.user 1, buildVectorReg 4 5 6 7),
    (.user 2, buildVectorReg 8 9 10 11), (.user 3, buildVectorReg 12 13 14 15),
    -- next 8 are dma channel
    (.channel 0, buildVectorReg 16 17 18 19), (.channel 1, buildVectorReg 20 21 22 23)]

/-- What `SetupSingleInterrupt` writes. -/
def singleVectors (vectorValue : BitVec 32) : List (VectorReg × BitVec 32) :=
  [(.user 0, vectorValue), (.user 1, vectorValue), (.user 2, vectorValue), (.user 3, vectorValue),
    (.channel 0, vectorValue), (.channel 1, vectorValue)]

/-- The registers after these writes. -/
def writeVectors (vectors : VectorReg → BitVec 32) :
    List (VectorReg × BitVec 32) → VectorReg → BitVec 32
  | [] => vectors
  | (reg, value) :: writes => writeVectors (Function.update vectors reg value) writes

/-! ## Interrupt objects -/

/-- Whose callbacks an interrupt object has. -/
inductive InterruptHandler
  /-- `EvtUserInterruptIsr` and `EvtUserInterruptDpc` with `eventId`. -/
  | user (eventId : Nat)
  /-- `EvtChannelInterruptIsr` and `EvtChannelInterruptDpc` of `channelInterrupts[index]`. -/
  | channel (index : Nat)
  /-- `EvtInterruptIsr` and `EvtInterruptDpc`, for all sources. -/
  | device
  deriving DecidableEq, Repr

structure InterruptObject where
  handler : InterruptHandler
  message : Bool
  /-- The interrupt resources before that of the object, and the objects created for the same
  resource before. -/
  resource : Nat
  sibling : Nat
  /-- The messages of the resource. -/
  messageCount : Nat
  deriving DecidableEq, Repr

/-- What the routines find in the device and in the framework. -/
structure InterruptInput where
  /-- What `WdfInterruptCreate` returns, by the number of objects created before. -/
  create : Nat → NtStatus
  numMsiVectors : Except NtStatus (BitVec 16)
  /-- What reading the pin comes to, and the pin: 1=A, 2=B, 3=C, 4=D. -/
  pinStatus : NtStatus
  pin : BitVec 8

/-- The objects that were created, and the status of the last call. -/
structure Created where
  status : NtStatus
  objects : List InterruptObject

/-- The three routines that create an object differ in its callbacks. -/
def setupInterrupt (i : InterruptInput) (s : Created) (o : InterruptObject) : Created :=
  let status := i.create s.objects.length
  ⟨status, if ntSuccess status then s.objects ++ [o] else s.objects⟩

def setupUserInterrupt (i : InterruptInput) (s : Created) (index : Nat) (message : Bool)
    (resource sibling messageCount : Nat) : Created :=
  setupInterrupt i s ⟨.user index, message, resource, sibling, messageCount⟩

def setupChannelInterrupt (i : InterruptInput) (s : Created) (index : Nat) (message : Bool)
    (resource sibling messageCount : Nat) : Created :=
  setupInterrupt i s ⟨.channel index, message, resource, sibling, messageCount⟩

def setupDeviceInterrupt (i : InterruptInput) (s : Created) (message : Bool) : Created :=
  setupInterrupt i s ⟨.device, message, 0, 0, 1⟩

/-! ## The modes -/

/-- What the set-up leaves: its status, the objects and the writes to the vector registers. -/
structure InterruptSetup where
  status : NtStatus
  objects : List InterruptObject
  vectors : List (VectorReg × BitVec 32)

/-- The first interrupt resource. -/
def firstInterrupt : List CmResource → Option Bool
  | [] => none
  | .interrupt message :: _ => some message
  | _ :: resources => firstInterrupt resources

def setupSingleInterrupt (i : InterruptInput) (resources : List CmResource) : InterruptSetup :=
  match firstInterrupt resources with
  | none => ⟨statusInternalError, [], singleVectors 0⟩
  | some message =>
    let s := setupDeviceInterrupt i ⟨statusInternalError, []⟩ message
    if !ntSuccess s.status then ⟨s.status, s.objects, []⟩
    else if message then ⟨statusSuccess, s.objects, singleVectors 0⟩
    else if !ntSuccess i.pinStatus then ⟨i.pinStatus, s.objects, []⟩
    else
      -- Windows: A=1, B=2, C=3, D=4; XDMA: A=0, B=1, C=2, D=3
      ⟨statusSuccess, s.objects, singleVectors (i.pin.setWidth 32 - 1)⟩

/-- The loop over the resources. -/
def msixLoop (i : InterruptInput) :
    List CmResource → (interruptCount : Nat) → Created → Created
  | [], _, s => s
  | resource :: resources, interruptCount, s =>
    if interruptCount < xdmaMaxNumIrq then
      match resource with
      | .interrupt message =>
        let s :=
          if interruptCount < xdmaMaxUserIrq then
            setupUserInterrupt i s interruptCount message interruptCount 0 1
          else
            setupChannelInterrupt i s (interruptCount - xdmaMaxUserIrq) message interruptCount 0 1
        if ntSuccess s.status then msixLoop i resources (interruptCount + 1) s else s
      | _ => msixLoop i resources interruptCount s
    else s

def setupMsixInterrupts (i : InterruptInput) (resources : List CmResource) : InterruptSetup :=
  let s := msixLoop i resources 0 ⟨statusSuccess, []⟩
  ⟨s.status, s.objects, if ntSuccess s.status then messageVectors else []⟩

/-- A loop that stops at the first failure. -/
def setupEach (setup : Created → Nat → Created) : List Nat → Created → Created
  | [], s => s
  | n :: ns, s =>
    let s := setup s n
    if ntSuccess s.status then setupEach setup ns s else s

def setupMultiMsiInterrupts (i : InterruptInput) (resources : List CmResource)
    (numVectors : BitVec 16) : InterruptSetup :=
  match firstInterrupt resources with
  | none => ⟨statusInternalError, [], messageVectors⟩
  | some message =>
    let s := setupEach (fun s n => setupUserInterrupt i s n message 0 n numVectors.toNat)
      (List.range xdmaMaxUserIrq) ⟨statusInternalError, []⟩
    if !ntSuccess s.status then ⟨s.status, s.objects, []⟩
    else
      let s := setupEach (fun s n => setupChannelInterrupt i s n message 0 (xdmaMaxUserIrq + n)
        numVectors.toNat) (List.range (2 * xdmaMaxNumChannels)) s
      if !ntSuccess s.status then ⟨s.status, s.objects, []⟩
      else ⟨statusSuccess, s.objects, messageVectors⟩

def countInterruptResources : List CmResource → Nat
  | [] => 0
  | .interrupt _ :: resources => countInterruptResources resources + 1
  | _ :: resources => countInterruptResources resources

/-- `numMsiVectors` after `GetNumMsiVectors`, a failure of which is only traced. -/
def InterruptInput.msiVectors (i : InterruptInput) : BitVec 16 :=
  match i.numMsiVectors with
  | .ok numMsiVectors => numMsiVectors
  | .error _ => 0

def setupInterrupts (i : InterruptInput) (resources : List CmResource) : InterruptSetup :=
  if xdmaMaxNumIrq ≤ countInterruptResources resources then setupMsixInterrupts i resources
  else if xdmaMaxNumIrq ≤ i.msiVectors.toNat then
    setupMultiMsiInterrupts i resources i.msiVectors
  else setupSingleInterrupt i resources

end Xadma
