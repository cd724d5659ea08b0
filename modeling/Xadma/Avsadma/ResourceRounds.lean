import Xadma.Theory.Ledger
import Xadma.Theory.Machine
import Xadma.Avsadma.CaptureDevice

/-!
# The resources of the capture device, round after round (`avsadma/device.cpp`)

`MapResources` with what it reads of a resource and what it keeps in the members of the device, and
`UnmapResources`. Neither sets the counters back, and both may be called again.
-/

namespace Xadma

namespace Capture

/-! ## The resource list -/

def cmResourceInterruptMessage : BitVec 32 := 0x2

/-- The member of the union of an interrupt resource. -/
inductive UnionMember
  | messageInterrupt
  | interrupt
  deriving DecidableEq, Repr

/-- What a member of the union holds: `u.MessageInterrupt.Translated` or `u.Interrupt`. -/
structure InterruptView where
  level : BitVec 32
  vector : BitVec 32
  affinity : BitVec 64
  deriving DecidableEq, Repr

structure InterruptResource where
  flags : BitVec 16
  shareDisposition : BitVec 8
  messageInterrupt : InterruptView
  interrupt : InterruptView
  /-- `u.MessageInterrupt.Raw.MessageCount` -/
  messageCount : BitVec 16
  deriving DecidableEq, Repr

def InterruptResource.view (resource : InterruptResource) : UnionMember → InterruptView
  | .messageInterrupt => resource.messageInterrupt
  | .interrupt => resource.interrupt

/-- The member that the flags of a resource stand for. -/
def memberOf (flags : BitVec 32) : UnionMember :=
  if flags &&& cmResourceInterruptMessage ≠ 0 then .messageInterrupt else .interrupt

inductive PartialDescriptor
  | port
  | memory (start : BitVec 64) (length : BitVec 32)
  /-- The length is in units of 256 bytes where the flags say `CM_RESOURCE_MEMORY_LARGE_40`. -/
  | memoryLarge (flags : BitVec 16) (start : BitVec 64) (length : BitVec 32)
  | interrupt (resource : InterruptResource)
  | other
  deriving DecidableEq, Repr

/-- A partial resource list. `Count` is a `ULONG`. -/
structure PartialResourceList where
  descriptors : List PartialDescriptor
  count_lt : descriptors.length < 2 ^ 32

/-! ## The members of the device -/

/-- A mapping as `MmMapIoSpace` makes it and `MmUnmapIoSpace` undoes it. -/
structure IoSpace where
  base : BitVec 64
  length : BitVec 32
  deriving DecidableEq, Repr

/-- The members that the two routines use; below `m_ShareDisposition`, what is only recorded for the
proofs. -/
structure ResourceMembers where
  numberOfBARs : BitVec 32
  /-- `m_DmaBar` and `m_VideoBar`, which may be `NULL`. -/
  bar : CaptureBar → Option (BitVec 64)
  /-- `m_DmaBarLen` and `m_VideoBarLen`. -/
  barLen : CaptureBar → BitVec 32
  numberOfIntrs : BitVec 32
  interruptLevel : BitVec 8
  interruptVector : BitVec 32
  interruptAffinity : BitVec 64
  interruptFlags : BitVec 32
  messageCount : BitVec 16
  shareDisposition : BitVec 8
  /-- The calls of `MmMapIoSpace` that succeeded and those of `MmUnmapIoSpace`. -/
  ioCalls : List (LedgerEvent IoSpace)
  /-- The interrupt resource that was recorded last, and the member it was read through. -/
  readFrom : Option (InterruptResource × UnionMember)

/-- The device in zeroed memory. -/
def ResourceMembers.zeroed : ResourceMembers where
  numberOfBARs := 0
  bar := fun _ => none
  barLen := fun _ => 0
  numberOfIntrs := 0
  interruptLevel := 0
  interruptVector := 0
  interruptAffinity := 0
  interruptFlags := 0
  messageCount := 0
  shareDisposition := 0
  ioCalls := []
  readFrom := none

/-- What `MmMapIoSpace` returns for a resource, by its index, the start and the length. -/
abbrev MapAnswers := Nat → BitVec 64 → BitVec 32 → Option (BitVec 64)

namespace ResourceMembers

/-- Set a BAR to what `MmMapIoSpace` returned. -/
def mapIoSpace (s : ResourceMembers) (bar : CaptureBar) (length : BitVec 32)
    (base : Option (BitVec 64)) : NtStatus × ResourceMembers :=
  let s := { s with
    barLen := Function.update s.barLen bar length
    bar := Function.update s.bar bar base }
  match base with
  | none => (statusDeviceConfigurationError, s)
  | some base => (statusSuccess, { s with ioCalls := s.ioCalls ++ [.acquire ⟨base, length⟩] })

/-- Save the interrupt specific information. The flags consulted are those of the member, which are
assigned behind that. -/
def saveInterrupt (s : ResourceMembers) (resource : InterruptResource) : ResourceMembers :=
  let member := memberOf s.interruptFlags
  { s with
    interruptLevel := (resource.view member).level.setWidth 8
    interruptVector := (resource.view member).vector
    interruptAffinity := (resource.view member).affinity
    messageCount :=
      if member = .messageInterrupt then resource.messageCount else s.messageCount
    interruptFlags := resource.flags.setWidth 32
    shareDisposition := resource.shareDisposition
    readFrom := some (resource, member) }

/-- One resource in the loop of `MapResources`. -/
def mapResource (answers : MapAnswers) (i : Nat) (s : ResourceMembers) :
    PartialDescriptor → NtStatus × ResourceMembers
  | .port | .other => (statusSuccess, s)
  | .memory start length =>
    mapIoSpace { s with numberOfBARs := s.numberOfBARs + 1 } .dma length (answers i start length)
  | .memoryLarge flags start _ =>
    let s := { s with numberOfBARs := s.numberOfBARs + 1 }
    if flags &&& cmResourceMemoryLarge40 ≠ 0 then
      -- the length of the resource is overwritten; offset to 2GB
      mapIoSpace s .video 0x10000 (answers i (start + 0x80000000) 0x10000)
    else (statusSuccess, s)
  | .interrupt resource =>
    let s := { s with numberOfIntrs := s.numberOfIntrs + 1 }
    if s.numberOfIntrs > 1 then (statusSuccess, s) else (statusSuccess, s.saveInterrupt resource)

/-- The loop over the resources, the first of which is at index `i`. -/
def mapResourcesFrom (answers : MapAnswers) :
    Nat → List PartialDescriptor → ResourceMembers → NtStatus × ResourceMembers
  | _, [], s => (statusSuccess, s)
  | i, resource :: resources, s =>
    let r := s.mapResource answers i resource
    if !ntSuccess r.1 then r else mapResourcesFrom answers (i + 1) resources r.2

def mapResources (answers : MapAnswers) (list : PartialResourceList) (s : ResourceMembers) :
    NtStatus × ResourceMembers :=
  let r := mapResourcesFrom answers 0 list.descriptors s
  if !ntSuccess r.1 then r
  else if r.2.numberOfBARs < 1 ∨ r.2.numberOfIntrs < 1 then
    (statusDeviceConfigurationError, r.2)
  else r

/-- One branch of `UnmapResources`. -/
def unmapBar (bar : CaptureBar) (s : ResourceMembers) : ResourceMembers :=
  match s.bar bar with
  | none => s
  | some base => { s with
      bar := Function.update s.bar bar none
      ioCalls := s.ioCalls ++ [.release ⟨base, s.barLen bar⟩] }

def unmapResources (s : ResourceMembers) : ResourceMembers :=
  (s.unmapBar .dma).unmapBar .video

end ResourceMembers

/-! ## Rounds -/

inductive ResourceCall
  /-- `MapResources`, whose status `PnpStart` ignores. -/
  | map (list : PartialResourceList) (answers : MapAnswers)
  /-- `UnmapResources`, from `PnpStop`. -/
  | unmap

def resourceRounds : Machine ResourceMembers ResourceCall where
  step
    | .map list answers, s => some (s.mapResources answers list).2
    | .unmap, s => some s.unmapResources

end Capture

end Xadma
