import Xadma.Libxdma.Reg

/-!
# The configuration space of the device (`libxdma/pcie_common.h`)

`FindCapability` follows the capability list of the device through the bus interface. The file
`libadma/apcie_common.h` has the same text.
-/

namespace Xadma

def statusNoInterface : NtStatus := 0xC00002B9#32

def pciCommonHdrLength : Nat := 64
def pciMultifunction : BitVec 8 := 0x80#8
def pciBridgeType : BitVec 8 := 0x01#8
def pciCardbusBridgeType : BitVec 8 := 0x02#8
def pciStatusCapabilitiesList : BitVec 16 := 0x0010#16
def pciCapabilityIdMsi : BitVec 32 := 0x05#32

/-- `sizeof(PCI_CAPABILITIES_HEADER)` -/
def sizeofPciCapabilitiesHeader : Nat := 2

/-- The configuration space behind the bus interface, and the reads that return data. -/
structure PciBus where
  config : BitVec 8 → BitVec 8
  delivers : Nat → Bool

/-- The bytes that read number `read` returns. The space ends behind byte 255. -/
def PciBus.getBusData (bus : PciBus) (read offset length : Nat) : List (BitVec 8) :=
  if bus.delivers read then
    ((List.range' offset length).filter (· < 256)).map fun o => bus.config (BitVec.ofNat 8 o)
  else []

structure PciCapabilitiesHeader where
  capabilityID : BitVec 8
  next : BitVec 8
  deriving DecidableEq, Repr

/-- The returned bytes over what the buffer held before. -/
def PciCapabilitiesHeader.fill (entry : PciCapabilitiesHeader) :
    List (BitVec 8) → PciCapabilitiesHeader
  | [] => entry
  | [capabilityID] => { entry with capabilityID }
  | capabilityID :: next :: _ => { capabilityID, next }

structure PciCommonHeader where
  status : BitVec 16
  headerType : BitVec 8
  type0CapabilitiesPtr : BitVec 8
  type1CapabilitiesPtr : BitVec 8
  type2CapabilitiesPtr : BitVec 8
  deriving DecidableEq, Repr

/-- A word of the little-endian space. -/
def wordAt (bytes : List (BitVec 8)) (offset : Nat) : BitVec 16 :=
  bytes.getD (offset + 1) 0 ++ bytes.getD offset 0

def PciCommonHeader.ofBytes (bytes : List (BitVec 8)) : PciCommonHeader :=
  { status := wordAt bytes 0x06
    headerType := bytes.getD 0x0e 0
    type0CapabilitiesPtr := bytes.getD 0x34 0
    type1CapabilitiesPtr := bytes.getD 0x34 0
    type2CapabilitiesPtr := bytes.getD 0x14 0 }

/-- The offset to the capabilities list for the type of the header. -/
def PciCommonHeader.capabilitiesPtr (pciHeader : PciCommonHeader) : BitVec 8 :=
  if pciHeader.headerType &&& ~~~pciMultifunction = pciBridgeType then
    pciHeader.type1CapabilitiesPtr
  else if pciHeader.headerType &&& ~~~pciMultifunction = pciCardbusBridgeType then
    pciHeader.type2CapabilitiesPtr
  else pciHeader.type0CapabilitiesPtr

/-- The loop of `FindCapability` for at most `bound` tests of its condition, with the number of the
next read. The buffer `pcieCapabilities` is kept from one read to the next. -/
def findCapabilityLoop (bus : PciBus) (capabilityID : BitVec 32) :
    (bound : Nat) → (read : Nat) → (capabilityOffset : BitVec 8) →
      (pcieCapabilities : PciCapabilitiesHeader) → Option (BitVec 8 × Nat)
  | 0, _, _, _ => none
  | bound + 1, read, capabilityOffset, pcieCapabilities =>
    if capabilityOffset ≠ 0 then
      let pcieCapabilities := pcieCapabilities.fill
        (bus.getBusData read capabilityOffset.toNat sizeofPciCapabilitiesHeader)
      if pcieCapabilities.capabilityID.setWidth 32 = capabilityID then
        some (capabilityOffset, read + 1) -- Found the capability
      else
        -- This is some other capability. Keep looking.
        findCapabilityLoop bus capabilityID bound (read + 1) pcieCapabilities.next pcieCapabilities
    else some (capabilityOffset, read)

def findCapability (bus : PciBus) (bound read : Nat) (pciHeader : PciCommonHeader)
    (capabilityID : BitVec 32) : Option (BitVec 8 × Nat) :=
  if pciHeader.status &&& pciStatusCapabilitiesList = 0 then some (0, read)
  else findCapabilityLoop bus capabilityID bound read pciHeader.capabilitiesPtr ⟨0, 0⟩

/-- `interfaceStatus` is what `WdfFdoQueryForInterface` returns. -/
def getNumMsiVectors (bus : PciBus) (bound : Nat) (interfaceStatus : NtStatus) :
    Option (Except NtStatus (BitVec 16)) :=
  if !ntSuccess interfaceStatus then some (.error interfaceStatus)
  else
    let pciHeader := bus.getBusData 0 0 pciCommonHdrLength
    if pciHeader.length ≠ pciCommonHdrLength then some (.error statusInvalidDeviceRequest)
    else do
      let (msiCapabilityOffset, read) ←
        findCapability bus bound 1 (.ofBytes pciHeader) pciCapabilityIdMsi
      if msiCapabilityOffset = 0 then return .error statusNoInterface
      let messageControl :=
        bus.getBusData read (msiCapabilityOffset.toNat + sizeofPciCapabilitiesHeader) 2
      if messageControl.length ≠ 2 then return .error statusInternalError
      return .ok (1#16 <<< ((wordAt messageControl 0 &&& 0x70) >>> 4))

end Xadma
