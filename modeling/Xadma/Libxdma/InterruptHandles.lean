import Mathlib.Logic.Function.Basic
import Xadma.Libxdma.Device

/-!
# The handles of the interrupt objects (`libxdma/interrupt.c`, `dma_engine.c`, `device.c`)

`userEvents[].irq`, `channelInterrupts[]` and `lineInterrupt` take the handles of the interrupt
objects. The routines that create an object go on to its context whatever the creation comes to,
`EngineConfigureInterrupt` takes a handle from `channelInterrupts[]`, and nothing resets these
tables. The framework deletes the objects when the hardware is released.
-/

namespace Xadma

namespace Handles

/-- A handle that is passed to `GetIrqContext`, and the objects that there are at that moment. -/
structure ContextUse where
  handle : Option Nat
  live : List Nat
  deriving DecidableEq, Repr

/-- The tables; below them the objects of the framework. -/
structure World where
  irq : InterruptHandler → Option Nat
  /-- The objects that were created in this round. -/
  live : List Nat
  /-- The handles given out so far, which are not given out again. -/
  issued : Nat
  uses : List ContextUse

/-- What one call of `XDMA_DeviceOpen` finds. -/
structure RoundInput where
  resources : List CmResource
  /-- What `MapBARs` and `IdentifyBars` come to. -/
  barStatus : NtStatus
  interrupts : InterruptInput
  /-- A call of `WdfInterruptCreate` that fails sets the handle to `NULL`. -/
  clearsHandle : Bool
  dmaEnablerStatus : NtStatus
  engineExists : EngineSlot → Bool
  /-- What `EngineCreate` comes to behind `EngineConfigureInterrupt`. -/
  engineStatus : EngineSlot → NtStatus

/-! ## Creating an object -/

def getIrqContext (handle : Option Nat) (w : World) : World :=
  { w with uses := w.uses ++ [⟨handle, w.live⟩] }

def wdfInterruptCreate (i : RoundInput) (handler : InterruptHandler) (w : World) :
    NtStatus × World :=
  let status := i.interrupts.create w.live.length
  if ntSuccess status then
    (status, { w with
      irq := Function.update w.irq handler (some w.issued)
      live := w.live ++ [w.issued]
      issued := w.issued + 1 })
  else if i.clearsHandle then
    (status, { w with irq := Function.update w.irq handler none })
  else (status, w)

/-- A failure is only traced before the context is used. -/
def setupInterrupt (i : RoundInput) (handler : InterruptHandler) (w : World) : NtStatus × World :=
  let (status, w) := wdfInterruptCreate i handler w
  (status, getIrqContext (w.irq handler) w)

def setupUserInterrupt (i : RoundInput) (index : Nat) (w : World) : NtStatus × World :=
  setupInterrupt i (.user index) w

def setupChannelInterrupt (i : RoundInput) (index : Nat) (w : World) : NtStatus × World :=
  setupInterrupt i (.channel index) w

def setupDeviceInterrupt (i : RoundInput) (w : World) : NtStatus × World :=
  setupInterrupt i .device w

/-! ## The modes -/

def setupSingleInterrupt (i : RoundInput) (w : World) : NtStatus × World :=
  match firstInterrupt i.resources with
  | none => (statusInternalError, w)
  | some message =>
    let (status, w) := setupDeviceInterrupt i w
    if !ntSuccess status then (status, w)
    else if message then (statusSuccess, w)
    else if !ntSuccess i.interrupts.pinStatus then (i.interrupts.pinStatus, w)
    else (statusSuccess, w)

/-- The loop over the resources. -/
def msixLoop (i : RoundInput) :
    List CmResource → (interruptCount : Nat) → NtStatus × World → NtStatus × World
  | [], _, s => s
  | resource :: resources, interruptCount, s =>
    if interruptCount < xdmaMaxNumIrq then
      match resource with
      | .interrupt _ =>
        let s :=
          if interruptCount < xdmaMaxUserIrq then setupUserInterrupt i interruptCount s.2
          else setupChannelInterrupt i (interruptCount - xdmaMaxUserIrq) s.2
        if ntSuccess s.1 then msixLoop i resources (interruptCount + 1) s else s
      | _ => msixLoop i resources interruptCount s
    else s

def setupMsixInterrupts (i : RoundInput) (w : World) : NtStatus × World :=
  msixLoop i i.resources 0 (statusSuccess, w)

/-- A loop that stops at the first failure. -/
def setupEach {α : Type} (setup : α → World → NtStatus × World) :
    List α → NtStatus × World → NtStatus × World
  | [], s => s
  | n :: ns, s =>
    let s := setup n s.2
    if ntSuccess s.1 then setupEach setup ns s else s

def setupMultiMsiInterrupts (i : RoundInput) (w : World) : NtStatus × World :=
  match firstInterrupt i.resources with
  | none => (statusInternalError, w)
  | some _ =>
    let s := setupEach (setupUserInterrupt i) (List.range xdmaMaxUserIrq) (statusInternalError, w)
    if !ntSuccess s.1 then s
    else
      let s := setupEach (setupChannelInterrupt i) (List.range (2 * xdmaMaxNumChannels)) s
      if !ntSuccess s.1 then s else (statusSuccess, s.2)

def setupInterrupts (i : RoundInput) (w : World) : NtStatus × World :=
  if xdmaMaxNumIrq ≤ countInterruptResources i.resources then setupMsixInterrupts i w
  else if xdmaMaxNumIrq ≤ i.interrupts.msiVectors.toNat then setupMultiMsiInterrupts i w
  else setupSingleInterrupt i w

/-! ## The engines -/

/-- Bind msi interrupt context with this engine. -/
def engineConfigureInterrupt (index : Nat) (w : World) : World :=
  match w.irq (.channel index) with
  | none => w
  | some handle => getIrqContext (some handle) w

def engineCreate (i : RoundInput) (engine : EngineSlot) (engineIndex : Nat) (w : World) :
    NtStatus × World :=
  (i.engineStatus engine, engineConfigureInterrupt engineIndex w)

/-- The loop over the engines. -/
def probeEngines (i : RoundInput) : List EngineSlot → (engineIndex : Nat) → World → NtStatus × World
  | [], _, w => (statusSuccess, w)
  | engine :: engines, engineIndex, w =>
    if i.engineExists engine then
      let (status, w) := engineCreate i engine engineIndex w
      if !ntSuccess status then (status, w) else probeEngines i engines (engineIndex + 1) w
    else probeEngines i engines engineIndex w

/-! ## Rounds -/

def xdmaDeviceOpen (i : RoundInput) (w : World) : NtStatus × World :=
  if !ntSuccess i.barStatus then (i.barStatus, w)
  else
    let (status, w) := setupInterrupts i w
    if !ntSuccess status then (status, w)
    else if !ntSuccess i.dmaEnablerStatus then (i.dmaEnablerStatus, w)
    else probeEngines i engineSlots 0 w

/-- `XDMA_DeviceClose` leaves the tables alone; the framework deletes the objects. -/
def releaseHardware (w : World) : World := { w with live := [] }

def deviceRounds : List RoundInput → World → World
  | [], w => w
  | i :: rounds, w => deviceRounds rounds (releaseHardware (xdmaDeviceOpen i w).2)

/-- The context of a new device. -/
def zeroed : World := ⟨fun _ => none, [], 0, []⟩

end Handles

end Xadma
