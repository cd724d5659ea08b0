import Xadma.Theory.Prog
import Xadma.Libxdma.DmaEngine
import Xadma.Libxdma.Transfer

/-!
# Programming the Altera engines (`libadma/adma_engine.c`, `libadma/areg.h`)

`ADMA_EngineProgramDma` has two branches. In the `ALTERA_ARRIA10` build it writes the elements to a
table of descriptors in host memory and hands the last of them over with the last pointer; in the
Cyclone build it writes each element to the descriptor port of a modular SGDMA dispatcher. Both
program the entry of the address translation table before.
-/

namespace Xadma

inductive AdmaBuild
  | arria10
  | cyclone4
  deriving DecidableEq, Repr

/-- A list as the framework hands it over, with a first element. -/
@[ext] structure SgList where
  elements : List SgElement
  nonempty : elements ≠ []

instance : DecidableEq SgList := fun _ _ => decidable_of_iff _ SgList.ext_iff.symm

def SgList.first (sgList : SgList) : SgElement := sgList.elements.head sgList.nonempty

def admaMaxDescriptorNum : BitVec 32 := 128

structure AdmaDescriptor where
  srcAddrLo : BitVec 32
  srcAddrHi : BitVec 32
  dstAddrLo : BitVec 32
  dstAddrHi : BitVec 32
  control : BitVec 32
  deriving DecidableEq, Repr

/-- `ADMA_MODULAR_SGDMA_STANDARD_DESCRIPTOR`. -/
structure ModularSgdmaDescriptor where
  readAddress : BitVec 32
  writeAddress : BitVec 32
  transferLength : BitVec 32
  control : BitVec 32
  deriving DecidableEq, Repr

def descriptorControlTransferCompleteIrqMask : BitVec 32 := bitN 14
def descriptorControlGoMask : BitVec 32 := bitN 31

/-! ## Calls -/

/-- The accesses to registers and to the descriptor table. -/
inductive AdmaOp
  | writeA2pAddrLo0 (value : BitVec 32)
  | writeA2pAddrHi0 (value : BitVec 32)
  | readDmaLastPtr
  | writeDescriptor (id : BitVec 32) (descriptor : AdmaDescriptor)
  | writeDmaLastPtr (id : BitVec 32)
  | writeStatus (value : BitVec 32)
  | writeReadAddress (value : BitVec 32)
  | writeWriteAddress (value : BitVec 32)
  | writeTransferLength (value : BitVec 32)
  | writeControl (value : BitVec 32)
  | engineStart
  deriving DecidableEq

abbrev AdmaOp.Res : AdmaOp → Type
  | .readDmaLastPtr => BitVec 32
  | _ => Unit

abbrev AdmaProg := Prog AdmaOp AdmaOp.Res

def AdmaOp.perform (o : AdmaOp) : AdmaProg o.Res := Prog.perform o

/-! ## `ADMA_EngineProgramDma` -/

/-- What the Arria 10 branch writes to the table for an element. -/
def arria10Descriptor (direction : WdfDmaDirection) (id : BitVec 32) (deviceOffset : BitVec 64)
    (e : SgElement) : AdmaDescriptor :=
  let hostAddrLo := lowPart e.address
  let hostAddrHi := highPart e.address
  let deviceAddrLo := lowPart (limitTo32 deviceOffset)
  let deviceAddrHi := lowPart (limitTo32 (deviceOffset.sshiftRight 32))
  { control := id <<< 18 ||| e.length
    srcAddrLo := if direction = .writeToDevice then hostAddrLo else deviceAddrLo
    srcAddrHi := if direction = .writeToDevice then hostAddrHi else deviceAddrHi
    dstAddrLo := if direction = .writeToDevice then deviceAddrLo else hostAddrLo
    dstAddrHi := if direction = .writeToDevice then deviceAddrHi else hostAddrHi }

/-- The slot behind `id`. -/
def nextId (id : BitVec 32) : BitVec 32 := (id + 1) % admaMaxDescriptorNum

/-- The loop of the Arria 10 branch, which leaves `deviceOffset` as it is. -/
def arria10Loop (direction : WdfDmaDirection) (deviceOffset : BitVec 64) :
    BitVec 32 → List SgElement → AdmaProg (BitVec 32)
  | id, [] => .ret id
  | id, e :: rest => do
    let id := nextId id
    (AdmaOp.writeDescriptor id (arria10Descriptor direction id deviceOffset e)).perform
    arria10Loop direction deviceOffset id rest

/-- What the Cyclone branch writes to the descriptor port for an element. -/
def cyclone4Descriptor (a2pMask : BitVec 32) (direction : WdfDmaDirection)
    (deviceOffset : BitVec 64) (e : SgElement) : ModularSgdmaDescriptor :=
  let hostAddrLo := lowPart e.address
  let deviceAddrLo := lowPart (limitTo32 deviceOffset)
  { readAddress := if direction = .writeToDevice then hostAddrLo else deviceAddrLo
    writeAddress :=
      if direction = .writeToDevice then deviceAddrLo else hostAddrLo &&& ~~~ a2pMask
    transferLength := e.length
    control := descriptorControlTransferCompleteIrqMask ||| descriptorControlGoMask }

/-- The four writes to the port; the last one commits the descriptor. -/
def writePort (descriptor : ModularSgdmaDescriptor) : AdmaProg Unit := do
  (AdmaOp.writeReadAddress descriptor.readAddress).perform
  (AdmaOp.writeWriteAddress descriptor.writeAddress).perform
  (AdmaOp.writeTransferLength descriptor.transferLength).perform
  (AdmaOp.writeControl descriptor.control).perform

/-- The loop of the Cyclone branch. -/
def cyclone4Loop (a2pMask : BitVec 32) (direction : WdfDmaDirection) :
    BitVec 64 → List SgElement → AdmaProg Unit
  | _, [] => .ret ()
  | deviceOffset, e :: rest => do
    writePort (cyclone4Descriptor a2pMask direction deviceOffset e)
    cyclone4Loop a2pMask direction (deviceOffset + e.length.setWidth 64) rest

/-- The call for one fragment, behind its first statements: `deviceOffset` is the local variable. -/
structure ProgramCall where
  direction : WdfDmaDirection
  deviceOffset : BitVec 64
  sgList : SgList
  deriving DecidableEq

/-- A fragment of a request, as the first statements find it. -/
structure AdmaRequestFragment where
  direction : WdfDmaDirection
  /-- The `DeviceOffset` of the request. -/
  deviceOffset : BitVec 64
  bytesTransferred : Nat
  sgList : SgList
  deriving DecidableEq

def AdmaRequestFragment.call (w : PointerWidth) (f : AdmaRequestFragment) : ProgramCall :=
  ⟨f.direction, startOffset w f.deviceOffset f.bytesTransferred, f.sgList⟩

/-- The entry of the translation table for a list. -/
def SgList.a2pAddrLo0 (sgList : SgList) (a2pMask : BitVec 32) : BitVec 32 :=
  lowPart sgList.first.address &&& a2pMask ||| 0x1

def SgList.a2pAddrHi0 (sgList : SgList) : BitVec 32 := highPart sgList.first.address

def admaEngineProgramDma (build : AdmaBuild) (a2pMask : BitVec 32) (call : ProgramCall) :
    AdmaProg Unit := do
  (AdmaOp.writeA2pAddrLo0 (call.sgList.a2pAddrLo0 a2pMask)).perform
  (AdmaOp.writeA2pAddrHi0 call.sgList.a2pAddrHi0).perform
  match build with
  | .arria10 => do
    -- id = 0~127 or 0xFF
    let id : BitVec 32 ← AdmaOp.readDmaLastPtr.perform
    let id ← arria10Loop call.direction call.deviceOffset id call.sgList.elements
    AdmaOp.engineStart.perform
    (AdmaOp.writeDmaLastPtr id).perform
  | .cyclone4 => do
    (AdmaOp.writeStatus 0).perform
    cyclone4Loop a2pMask call.direction call.deviceOffset call.sgList.elements
    AdmaOp.engineStart.perform

/-! ## The registers -/

/-- The registers, the descriptor table of the engine and the descriptors that were committed. -/
structure AdmaRegs where
  a2pAddrLo0 : BitVec 32
  a2pAddrHi0 : BitVec 32
  dmaLastPtr : BitVec 32
  table : BitVec 32 → AdmaDescriptor
  status : BitVec 32
  port : ModularSgdmaDescriptor
  committed : List ModularSgdmaDescriptor

namespace AdmaRegs

/-- The control word goes to the port, and commits the descriptor that is there if it says so. -/
def commit (s : AdmaRegs) (control : BitVec 32) : AdmaRegs :=
  let port := { s.port with control := control }
  { s with
    port := port
    committed :=
      if control &&& descriptorControlGoMask = 0 then s.committed else s.committed ++ [port] }

/-- The last pointer is read as the device gives it. -/
def act : (o : AdmaOp) → AdmaRegs → o.Res → Option AdmaRegs
  | .writeA2pAddrLo0 value, s, _ => some { s with a2pAddrLo0 := value }
  | .writeA2pAddrHi0 value, s, _ => some { s with a2pAddrHi0 := value }
  | .readDmaLastPtr, s, _ => some s
  | .writeDescriptor id descriptor, s, _ =>
    some { s with table := Function.update s.table id descriptor }
  | .writeDmaLastPtr id, s, _ => some { s with dmaLastPtr := id }
  | .writeStatus value, s, _ => some { s with status := value }
  | .writeReadAddress value, s, _ => some { s with port := { s.port with readAddress := value } }
  | .writeWriteAddress value, s, _ => some { s with port := { s.port with writeAddress := value } }
  | .writeTransferLength value, s, _ =>
    some { s with port := { s.port with transferLength := value } }
  | .writeControl value, s, _ => some (s.commit value)
  | .engineStart, s, _ => some s

/-- The device gives `lastPtr` as its last pointer. -/
def answer (lastPtr : BitVec 32) (o : AdmaOp) (_ : AdmaRegs) : o.Res :=
  match o with
  | .readDmaLastPtr => lastPtr
  | .writeA2pAddrLo0 _ | .writeA2pAddrHi0 _ | .writeDescriptor .. | .writeDmaLastPtr _
  | .writeStatus _ | .writeReadAddress _ | .writeWriteAddress _ | .writeTransferLength _
  | .writeControl _ | .engineStart => ()

/-- What a call that is not disturbed leaves. -/
def program (build : AdmaBuild) (a2pMask lastPtr : BitVec 32) (call : ProgramCall) (s : AdmaRegs) :
    Option AdmaRegs :=
  (Prog.exec act (answer lastPtr) (admaEngineProgramDma build a2pMask call) s).map Prod.snd

end AdmaRegs

/-! ## `EnginePollTransfer` -/

/-- The body is under `#if 0`. -/
def admaEngineProcessTransfer : TransferProg Unit := .ret ()

/-- The loop has the text of `libxdma`, with the same masks. -/
def admaEnginePollTransfer (bound : Nat) : TransferProg NtStatus := do
  let expected : BitVec 32 ← TransferOp.numDescriptors.perform
  let status ← awaitWriteback expected bound
  if ntSuccess status then do
    admaEngineProcessTransfer
    return statusSuccess
  else return status

end Xadma
