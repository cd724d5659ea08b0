import Xadma.Libxdma.DmaEngine

/-!
# BAR access from device files (`sys/file_io.c`, `ADMA_Driver/file_io.c`)

Both drivers have the same `ValidateBarParams`, `ReadBarToRequest` and `WriteBarFromRequest`; their
`EvtIoRead` and `EvtIoWrite` differ in the device nodes only.
-/

namespace Xadma

def PointerWidth.bits : PointerWidth → Nat
  | .w32 => 32
  | .w64 => 64

inductive Driver
  | xdma
  | adma
  deriving DecidableEq, Repr

inductive DevNodeType
  | user
  | control
  | events
  | bypass
  | h2c
  | c2h
  | ah2c
  | ac2h
  | unknown
  deriving DecidableEq, Repr

/-- A mapped BAR: `barLength` bytes of device memory from `bar` on, which do not wrap. -/
structure Bar (w : PointerWidth) where
  bar : BitVec w.bits
  barLength : BitVec 32
  inRange : bar.toNat + barLength.toNat ≤ 2 ^ w.bits

/-- The file context of a device node, and the BAR its pointer leads to. -/
structure FileContext (w : PointerWidth) where
  devType : DevNodeType
  bar : Bar w

/-- A read or write request, and what the framework answers to the calls made for it. -/
structure IoRequest (w : PointerWidth) where
  deviceOffset : BitVec 64
  length : BitVec w.bits
  /-- `WdfRequestRetrieveOutputMemory` or `WdfRequestRetrieveInputMemory` -/
  retrieveMemory : NtStatus
  /-- `WdfRequestForwardToIoQueue` -/
  forwardToIoQueue : NtStatus
  /-- `EvtReadUserEvent` -/
  readUserEvent : NtStatus

/-- `READ_REGISTER_BUFFER_*` and `WRITE_REGISTER_BUFFER_*`: `count` units of `size` bytes. -/
structure RegisterAccess (w : PointerWidth) where
  addr : BitVec w.bits
  size : Nat
  count : Nat
  deriving DecidableEq

/-- The device addresses of the bytes of an access. -/
def RegisterAccess.bytes {w : PointerWidth} (a : RegisterAccess w) : List (BitVec w.bits) :=
  (List.range (a.size * a.count)).map fun i => a.addr + BitVec.ofNat w.bits i

variable {w : PointerWidth}

/-- `lengths` are the BAR lengths the device has. No routine of either driver calls it. -/
def validateBarParams (lengths : List (BitVec 32)) (nBar : Nat) (offset length : BitVec w.bits) :
    NtStatus :=
  if length = 0 then statusInvalidDeviceRequest
  else match lengths[nBar]? with
    | none => statusInvalidDeviceRequest
    | some barLength =>
      if (offset + length).toNat ≥ barLength.toNat then statusInvalidDeviceRequest
      else statusSuccess

/-- The register access of `ReadBarToRequest` and `WriteBarFromRequest`: the unit depends on the
length, which is cut to a `ULONG`. -/
def barAccess (addr length : BitVec w.bits) : RegisterAccess w :=
  let ulongLength := length.toNat % 2 ^ 32
  if length.toNat % 4 = 0 then ⟨addr, 4, ulongLength / 4⟩
  else if length.toNat % 2 = 0 then ⟨addr, 2, ulongLength / 2⟩
  else ⟨addr, 1, ulongLength⟩

def readBarToRequest (request : IoRequest w) (bar : BitVec w.bits) :
    NtStatus × List (RegisterAccess w) :=
  let offset := request.deviceOffset.setWidth w.bits
  let length := request.length
  if length = 0 then (statusInvalidDeviceRequest, [])
  else
    let readAddr := bar + offset
    let status := request.retrieveMemory
    if !ntSuccess status then (status, [])
    else (status, [barAccess readAddr length])

def writeBarFromRequest (request : IoRequest w) (bar : BitVec w.bits) :
    NtStatus × List (RegisterAccess w) :=
  let offset := request.deviceOffset.setWidth w.bits
  let length := request.length
  if length = 0 then (statusInvalidDeviceRequest, [])
  else
    let writeAddr := bar + offset
    let status := request.retrieveMemory
    if !ntSuccess status then (status, [])
    else (status, [barAccess writeAddr length])

/-- What becomes of a request: its completion, unless it is forwarded, and the device memory that
was touched. -/
structure IoOutcome (w : PointerWidth) where
  completed : Option (NtStatus × Nat)
  accesses : List (RegisterAccess w)

/-- A request that a BAR routine has handled is completed with its length, any request that failed
with the status. -/
def finishBar (length : BitVec w.bits) (r : NtStatus × List (RegisterAccess w)) : IoOutcome w :=
  ⟨some (if ntSuccess r.1 then (r.1, length.toNat) else (r.1, 0)), r.2⟩

/-- A request that was handed on is completed here only if that failed. -/
def finishHandedOn (status : NtStatus) : IoOutcome w :=
  ⟨if ntSuccess status then none else some (status, 0), []⟩

def evtIoRead (driver : Driver) (file : FileContext w) (request : IoRequest w) : IoOutcome w :=
  match file.devType with
  | .user | .control | .bypass =>
    finishBar request.length (readBarToRequest request file.bar.bar)
  | .events => finishHandedOn request.readUserEvent
  | .c2h => finishHandedOn request.forwardToIoQueue
  | .ac2h =>
    match driver with
    | .adma => finishHandedOn request.forwardToIoQueue
    | .xdma => finishHandedOn statusInvalidDeviceRequest
  | .h2c | .ah2c | .unknown => finishHandedOn statusInvalidDeviceRequest

def evtIoWrite (driver : Driver) (file : FileContext w) (request : IoRequest w) : IoOutcome w :=
  match file.devType with
  | .user | .control | .bypass =>
    finishBar request.length (writeBarFromRequest request file.bar.bar)
  | .h2c => finishHandedOn request.forwardToIoQueue
  | .ah2c =>
    match driver with
    | .adma => finishHandedOn request.forwardToIoQueue
    | .xdma => finishHandedOn statusInvalidDeviceRequest
  | .events | .c2h | .ac2h | .unknown => finishHandedOn statusInvalidDeviceRequest

end Xadma
