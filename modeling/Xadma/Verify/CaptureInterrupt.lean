import Xadma.Avsadma.CapturePin
import Xadma.Theory.RelyGuarantee
import Xadma.Verify.CaptureStart

/-!
# The service routine of the capture driver

The service routine goes through the register pointers and the capture sink without a look at them.
It is connected before the pointers are computed and never disconnected, so its safety rests on when
it is invoked, on what the hardware reports, and on when `PnpStop` and the pins run.
-/

namespace Xadma

namespace Capture

open Threads

variable {w w' : CaptureWorld} {t : CaptureThread} {op : CaptureOp} {traced : Bool}

/-- The BAR reaches to the end of the registers that the service routine reads; the response
registers are the last of them. -/
def CaptureDevice.holdsIsrRegs (d : CaptureDevice) : Bool :=
  (d.bar .dma).any fun m =>
    CaptureReg.response.offset + CaptureReg.response.size ≤ m.length.toNat

/-- The steps that keep clear of the service routine: it is invoked only between the assignment of
the register pointers and the unmapping of a BAR that is mapped and long enough; it is not under way
when that BAR is unmapped; the hardware reports a completion only while a pin has the capture sink;
the sink is not cleared while the routine is on the way to it; and a device that is not started is
not started again before it was stopped. -/
def timely (w : CaptureWorld) : CaptureLabel → Bool
  | .start (.isr _) _ => w.phase = .up && w.device.holdsIsrRegs
  | .start .pnp (.start _) => w.device.started || w.phase = .down
  | .call (.isr _) (.readReg .csr _) (reg : BitVec 32) =>
    reg &&& csrIrqSetMask = 0 || w.device.captureSink.isSome
  | .call .pnp (.unmapIoSpace .dma) _ => w.inIsr.isEmpty
  | .call (.pin _) .clearCaptureSink _ => w.completing.isEmpty
  | _ => true

/-- While it is up, the register pointers are of the BAR. -/
structure CaptureInv (w : CaptureWorld) : Prop where
  mapped : w.phase ≠ .down → ∀ m, w.device.bar .dma = some m → w.device.mapped m.id = true
  regs : w.phase = .up → ∀ r ∈ isrRegs, w.device.reg r = ⟨w.device.bar .dma, r.offset⟩
  isr : w.inIsr ≠ [] → w.phase = .up ∧ w.device.holdsIsrRegs = true
  sink : w.completing ≠ [] → w.device.captureSink ≠ none
  kept : w.faulted = false

/-- What a thread relies on. Only plug and play starts, stops, maps and unmaps. -/
structure SameHardware (w w' : CaptureWorld) : Prop where
  phase : w'.phase = w.phase
  bar : w'.device.bar = w.device.bar
  mapped : w'.device.mapped = w.device.mapped
  reg : w'.device.reg = w.device.reg

structure SameIsr (id : Nat) (w w' : CaptureWorld) : Prop where
  inIsr : id ∈ w'.inIsr ↔ id ∈ w.inIsr
  completing : id ∈ w'.completing ↔ id ∈ w.completing

def CaptureRely : CaptureThread → CaptureWorld → CaptureWorld → Prop
  | .pnp => fun w w' => SameHardware w w' ∧ w'.device.started = w.device.started
  | .pin _ => fun _ _ => True
  | .isr id => SameIsr id

abbrev CaptureSafe (traced : Bool) (t : CaptureThread) {α : Type} (p : CaptureProg α)
    (Q : α → CaptureWorld → Prop) (w : CaptureWorld) : Prop :=
  Safe (captureThreads traced) (fun w l => timely w l = true) CaptureInv CaptureRely t p Q w

abbrev CaptureStable (t : CaptureThread) (P : CaptureWorld → Prop) : Prop :=
  Stable CaptureInv CaptureRely t P

/-! ## Steps -/

theorem act_eq {r : op.Res} (h : (captureThreads traced).act t op w r = some w') :
    op.possible w.device r = true ∧
      w' = { w.record op r t with device := op.effect r w.device } := by
  simp only [captureThreads, CaptureWorld.act] at h
  split at h
  · next hpossible => exact ⟨hpossible, (Option.some.inj h).symm⟩
  · cases h

/-- An answer that the device has is the one that is given. -/
theorem CaptureOp.possible.look {d : CaptureDevice} {r r' : op.Res}
    (h : op.possible d r = true) (hlook : op.look d = some r') : r' = r := by
  rw [CaptureOp.possible, hlook] at h
  exact of_decide_eq_true h

/-- The invariant speaks of little of the device. -/
theorem CaptureInv.frame (h : CaptureInv w) (hw : SameHardware w w')
    (hisr : w'.inIsr ≠ [] → w.inIsr ≠ []) (hsink : w'.completing ≠ [] →
      w'.device.captureSink ≠ none) (hkept : w'.faulted = false) : CaptureInv w' := by
  refine ⟨fun hphase m hm => ?_, fun hphase r hr => ?_, fun hne => ?_, hsink, hkept⟩
  · rw [hw.mapped]
    exact h.mapped (hw.phase ▸ hphase) m (hw.bar ▸ hm)
  · rw [hw.reg, hw.bar]
    exact h.regs (hw.phase ▸ hphase) r hr
  · obtain ⟨hphase, hholds⟩ := h.isr (hisr hne)
    refine ⟨hw.phase.trans hphase, ?_⟩
    rw [CaptureDevice.holdsIsrRegs, hw.bar]
    exact hholds

/-! ## The pointers -/

theorem isrRegs_end : ∀ r ∈ isrRegs,
    r.offset + r.size ≤ CaptureReg.response.offset + CaptureReg.response.size := by
  decide

/-- While it is up, a BAR that is long enough has all the registers. -/
theorem CaptureInv.coversIsr (h : CaptureInv w) (hphase : w.phase = .up)
    (hholds : w.device.holdsIsrRegs = true) : w.device.coversIsr = true := by
  rw [CaptureDevice.holdsIsrRegs, Option.any_eq_true] at hholds
  obtain ⟨m, hbar, hlength⟩ := hholds
  have hmapped : w.device.mapped m.id = true :=
    h.mapped (by rw [hphase]; exact CapturePhase.noConfusion) m hbar
  apply List.all_eq_true.mpr
  intro r hr
  rw [CaptureDevice.covers, h.regs hphase r hr, hbar, Option.any_some, hmapped, Bool.true_and]
  exact decide_eq_true (Nat.le_trans (isrRegs_end r hr) (of_decide_eq_true hlength))

/-! ## The service routine -/

/-- The calls of the service routine. -/
inductive IsrCall : CaptureOp → Prop
  | readReg (r : CaptureReg) (offset : Nat) : IsrCall (.readReg r offset)
  | writeReg (r : CaptureReg) (offset : Nat) (value : BitVec 32) :
    IsrCall (.writeReg r offset value)
  | readCaptureSink : IsrCall .readCaptureSink
  | pinAttemptProcessing (sink : Option Nat) : IsrCall (.pinAttemptProcessing sink)
  | returnFromIsr : IsrCall .returnFromIsr

variable {id : Nat}

theorem mem_filter_ne {l : List Nat} {other : Nat} (hne : other ≠ id) :
    other ∈ l.filter (· ≠ id) ↔ other ∈ l := by
  rw [List.mem_filter, and_iff_left]
  exact decide_eq_true hne

/-- A service routine records nothing about the others. -/
theorem IsrCall.sameIsr (hcall : IsrCall op) {r : op.Res} {other : Nat} (hne : other ≠ id) :
    SameIsr other w { w.record op r (.isr id) with device := op.effect r w.device } := by
  cases hcall with
  | readReg reg offset =>
    refine ⟨Iff.rfl, ?_⟩
    cases reg with
    | csr =>
      simp only [CaptureWorld.record, CaptureOp.completingAfter]
      split
      · exact List.mem_cons.trans (or_iff_right hne)
      · exact Iff.rfl
    | _ => exact Iff.rfl
  | readCaptureSink => exact ⟨Iff.rfl, mem_filter_ne hne⟩
  | returnFromIsr => exact ⟨mem_filter_ne hne, Iff.rfl⟩
  | _ => exact ⟨Iff.rfl, Iff.rfl⟩

theorem IsrCall.effect_eq (hcall : IsrCall op) {r : op.Res} {d : CaptureDevice} :
    op.effect r d = d := by
  cases hcall <;> rfl

theorem inIsrAfter_subset {l : List Nat} (h : op.inIsrAfter id l ≠ []) : l ≠ [] := by
  intro hnil
  apply h
  rw [hnil]
  cases op <;> rfl

/-- A step of a service routine that is under way. -/
theorem IsrCall.inv (hcall : IsrCall op) (hi : CaptureInv w) (hin : id ∈ w.inIsr) {r : op.Res}
    (hact : (captureThreads traced).act (.isr id) op w r = some w')
    (hsink : op.completingAfter id w.completing r ≠ [] → w.device.captureSink ≠ none)
    (hattempt : op ≠ .pinAttemptProcessing none) :
    CaptureInv w' ∧ (∀ u, u ≠ .isr id → CaptureRely u w w') ∧
      w'.inIsr = op.inIsrAfter id w.inIsr ∧
      w'.completing = op.completingAfter id w.completing r := by
  obtain ⟨-, rfl⟩ := act_eq hact
  have hdevice : op.effect r w.device = w.device := hcall.effect_eq
  have hsame : SameHardware w { w.record op r (.isr id) with device := op.effect r w.device } := by
    rw [hdevice]
    exact ⟨rfl, rfl, rfl, rfl⟩
  refine ⟨?_, ?_, rfl, rfl⟩
  · apply hi.frame hsame inIsrAfter_subset
    · rw [hdevice]
      exact hsink
    · obtain ⟨hphase, hholds⟩ := hi.isr (List.ne_nil_of_mem hin)
      have hfaults : op.faults w.device = false := by
        rw [CaptureOp.faults, hi.coversIsr hphase hholds, decide_eq_false hattempt]
        rfl
      exact Bool.or_eq_false_iff.mpr ⟨hi.kept, hfaults⟩
  · intro u hu
    cases u with
    | pnp => exact ⟨hsame, congrArg CaptureDevice.started hdevice⟩
    | pin _ => trivial
    | isr other => exact hcall.sameIsr fun heq => hu (congrArg CaptureThread.isr heq)

/-- The routine is under way, and on the way to the capture sink if `c`. -/
def Under (id : Nat) (c : Prop) (w : CaptureWorld) : Prop :=
  id ∈ w.inIsr ∧ (c → id ∈ w.completing)

theorem Under.stable (c : Prop) : CaptureStable (.isr id) (Under id c) :=
  fun _ _ _ _ hr h => ⟨hr.inIsr.mpr h.1, fun hc => hr.completing.mpr (h.2 hc)⟩

theorem Under.sink {c : Prop} (h : Under id c w) (hi : CaptureInv w) (hc : c) :
    w.device.captureSink ≠ none :=
  hi.sink (List.ne_nil_of_mem (h.2 hc))

/-- An access that nothing is recorded about. -/
theorem access_safe {c : Prop} (hcall : IsrCall op) (h : Under id c w)
    (hcompleting : ∀ l (r : op.Res), op.completingAfter id l r = l)
    (hinIsr : ∀ l, op.inIsrAfter id l = l) (hattempt : op ≠ .pinAttemptProcessing none) :
    CaptureSafe traced (.isr id) op.perform (fun _ => Under id c) w := by
  apply Safe.perform (Under id c) (Under.stable c) (fun _ => Under.stable c) h
  intro w r w' hi h _ hact
  have hsink : op.completingAfter id w.completing r ≠ [] → w.device.captureSink ≠ none := by
    rw [hcompleting]
    exact hi.sink
  obtain ⟨hi', hrely, hin, hcompl⟩ := hcall.inv hi h.1 hact hsink hattempt
  rw [hinIsr] at hin
  rw [hcompleting] at hcompl
  exact ⟨hi', hrely, hin ▸ h.1, fun hc => hcompl ▸ h.2 hc⟩

/-- The hardware reports a completion only while a pin has the capture sink. -/
theorem readCsr_safe (h : Under id False w) :
    CaptureSafe traced (.isr id) (CaptureOp.readReg .csr 0x0).perform
      (fun (reg : BitVec 32) => Under id (reg &&& csrIrqSetMask ≠ 0)) w := by
  apply Safe.perform (Under id False) (Under.stable False) (fun _ => Under.stable _) h
  intro w (reg : BitVec 32) w' hi h hl hact
  by_cases hset : reg &&& csrIrqSetMask ≠ 0
  · have hcompleting : (CaptureOp.readReg .csr 0x0).completingAfter id w.completing reg =
        id :: w.completing := if_pos hset
    have hsome : w.device.captureSink ≠ none := by
      have htimely :
          (decide (reg &&& csrIrqSetMask = 0) || w.device.captureSink.isSome) = true := hl
      rw [decide_eq_false hset, Bool.false_or] at htimely
      exact Option.isSome_iff_ne_none.mp htimely
    obtain ⟨hi', hrely, hin, hcompl⟩ :=
      (IsrCall.readReg .csr 0x0).inv hi h.1 hact (fun _ => hsome) nofun
    rw [hcompleting] at hcompl
    exact ⟨hi', hrely, hin ▸ h.1, fun _ => hcompl ▸ List.mem_cons_self⟩
  · have hcompleting : (CaptureOp.readReg .csr 0x0).completingAfter id w.completing reg =
        w.completing := if_neg hset
    obtain ⟨hi', hrely, hin, -⟩ := (IsrCall.readReg .csr 0x0).inv hi h.1 hact
      (fun hne => hi.sink (hcompleting ▸ hne)) nofun
    exact ⟨hi', hrely, hin ▸ h.1, fun hset' => absurd hset' hset⟩

theorem readCaptureSink_safe (h : Under id True w) :
    CaptureSafe traced (.isr id) CaptureOp.readCaptureSink.perform
      (fun (sink : Option Nat) w => Under id False w ∧ sink ≠ none) w := by
  apply Safe.perform (Under id True) (Under.stable True)
    (fun _ => (Under.stable False).and (Stable.const _)) h
  intro w (sink : Option Nat) w' hi h _ hact
  have hsome : w.device.captureSink ≠ none := h.sink hi trivial
  obtain ⟨hi', hrely, hin, -⟩ := IsrCall.readCaptureSink.inv hi h.1 hact (fun _ => hsome) nofun
  have hlook : w.device.captureSink = sink := CaptureOp.possible.look (act_eq hact).1 rfl
  exact ⟨hi', hrely, ⟨hin ▸ h.1, False.elim⟩, hlook ▸ hsome⟩

theorem returnFromIsr_safe (h : Under id False w) :
    CaptureSafe traced (.isr id) CaptureOp.returnFromIsr.perform (fun _ _ => True) w := by
  apply Safe.perform (Under id False) (Under.stable False) (fun _ => Stable.const True) h
  intro w r w' hi h _ hact
  obtain ⟨hi', hrely, -⟩ := IsrCall.returnFromIsr.inv hi h.1 hact hi.sink nofun
  exact ⟨hi', hrely, trivial⟩

/-- What the routine does about a completion that it saw. -/
theorem completion_safe (reg : BitVec 32) (h : Under id True w) :
    CaptureSafe traced (.isr id) (do
      Prog.when (traced = true) (do
        let _ : BitVec 32 ← (CaptureOp.readReg .response 0x0).perform)
      (CaptureOp.writeReg .csr 0x0 (reg &&& ~~~ csrIrqSetMask)).perform
      let capPin : Option Nat ← CaptureOp.readCaptureSink.perform
      (CaptureOp.pinAttemptProcessing capPin).perform) (fun _ => Under id False) w := by
  have htrace : CaptureSafe traced (.isr id) (Prog.when (traced = true) (do
      let _ : BitVec 32 ← (CaptureOp.readReg .response 0x0).perform))
      (fun _ => Under id True) w := by
    apply Safe.when (Under.stable True) h
    intro _
    apply (access_safe (.readReg .response 0x0) h (fun _ _ => rfl) (fun _ => rfl) nofun).bind
    intro _ w h
    exact Safe.ret (Under.stable True) h
  apply htrace.bind
  intro _ w h
  apply (access_safe (.writeReg .csr 0x0 _) h (fun _ _ => rfl) (fun _ => rfl) nofun).bind
  intro _ w h
  apply (readCaptureSink_safe h).bind
  intro (sink : Option Nat) w ⟨h, hsink⟩
  apply access_safe (.pinAttemptProcessing sink) h (fun _ _ => rfl) (fun _ => rfl)
  intro heq
  cases heq
  exact hsink rfl

theorem interruptMessageService_safe (h : Under id False w) :
    CaptureSafe traced (.isr id) (interruptMessageService traced)
      (fun _ => Under id False) w := by
  apply (readCsr_safe h).bind
  intro (reg : BitVec 32) w h
  have hcompletion : CaptureSafe traced (.isr id) (Prog.when (reg &&& csrIrqSetMask ≠ 0) _)
      (fun _ => Under id False) w :=
    Safe.when (Under.stable False) ⟨h.1, False.elim⟩ fun hset =>
      completion_safe reg ⟨h.1, fun _ => h.2 hset⟩
  apply hcompletion.bind
  intro _ w h
  apply (access_safe (.readReg .frameBuffer 0x8) h (fun _ _ => rfl) (fun _ => rfl) nofun).bind
  intro (reg : BitVec 32) w h
  have hclear : CaptureSafe traced (.isr id) (Prog.when (reg ≠ 0)
      (CaptureOp.writeReg .frameBuffer 0x8 0).perform) (fun _ => Under id False) w := by
    apply Safe.when (Under.stable False) h
    intro _
    exact access_safe (.writeReg .frameBuffer 0x8 0) h (fun _ _ => rfl) (fun _ => rfl) nofun
  apply hclear.bind
  intro _ w h
  exact Safe.ret (Under.stable False) h

theorem serviceInterrupt_safe (h : Under id False w) :
    CaptureSafe traced (.isr id) (serviceInterrupt traced) (fun _ _ => True) w := by
  apply (interruptMessageService_safe h).bind
  intro _ w h
  exact returnFromIsr_safe h

/-! ## The pins -/

/-- The calls of the pins. -/
inductive PinCall : CaptureOp → Prop
  | readReg (r : CaptureReg) (offset : Nat) : PinCall (.readReg r offset)
  | writeReg (r : CaptureReg) (offset : Nat) (value : BitVec 32) :
    PinCall (.writeReg r offset value)
  | readBufferPa (b : CommonBuffer) : PinCall (.readBufferPa b)
  | readBufferSize (b : CommonBuffer) : PinCall (.readBufferSize b)
  | compareExchangePins : PinCall .compareExchangePins
  | exchangePins : PinCall .exchangePins
  | createImageSynth : PinCall .createImageSynth
  | setCaptureSink (pin : Nat) : PinCall (.setCaptureSink pin)
  | clearCaptureSink : PinCall .clearCaptureSink
  | readPin (pin : Nat) : PinCall (.readPin pin)
  | setHardwareState (pin : Nat) (hardwareState : HardwareState) :
    PinCall (.setHardwareState pin hardwareState)
  | setAcquiredResources (pin : Nat) (acquired : Bool) :
    PinCall (.setAcquiredResources pin acquired)

/-- A call that neither reads nor writes the members of a pin. -/
def CaptureOp.sparesPins : CaptureOp → Bool
  | readPin _ | setHardwareState .. | setAcquiredResources .. => false
  | _ => true

/-- The calls in what a pin calls the device for. -/
structure DeviceCall (op : CaptureOp) : Prop where
  pinCall : PinCall op
  spares : op.sparesPins = true

theorem all_pinCall {α : Type} {p : CaptureProg α} (h : p.All DeviceCall) : p.All PinCall :=
  h.mono fun _ hcall => hcall.pinCall

theorem all_sparesPins {α : Type} {p : CaptureProg α} (h : p.All DeviceCall) :
    p.All fun op => op.sparesPins = true :=
  h.mono fun _ hcall => hcall.spares

variable {pin : Nat}

theorem modifyReg_all (r : CaptureReg) (offset : Nat) (f : BitVec 32 → BitVec 32) :
    (modifyReg r offset f).All DeviceCall :=
  Prog.All.bind (.perform ⟨.readReg r offset, rfl⟩) fun reg =>
    .perform ⟨.writeReg r offset (f reg), rfl⟩

theorem start_all : start.All DeviceCall := by
  apply Prog.All.bind (.perform ⟨.writeReg .extendDescriptor 0x0 0, rfl⟩)
  intro _
  apply Prog.All.bind (.perform ⟨.readBufferPa .video, rfl⟩)
  intro pa
  apply Prog.All.bind (.perform ⟨.writeReg .extendDescriptor 0x4 _, rfl⟩)
  intro _
  apply Prog.All.bind (.perform ⟨.readBufferSize .video, rfl⟩)
  intro size
  apply Prog.All.bind (.perform ⟨.writeReg .extendDescriptor 0x8 _, rfl⟩)
  intro _
  apply Prog.All.bind (.perform ⟨.writeReg .extendDescriptor 0xC _, rfl⟩)
  intro _
  apply Prog.All.bind (.perform ⟨.writeReg .extendDescriptor 0x10 _, rfl⟩)
  intro _
  apply Prog.All.bind (.perform ⟨.writeReg .extendDescriptor 0x1C _, rfl⟩)
  intro _
  apply (modifyReg_all .csr 0x4 _).bind
  intro _
  apply (modifyReg_all .frameBuffer 0x0 _).bind
  intro _
  apply (modifyReg_all .clockVideo 0x4 _).bind
  intro _
  exact (modifyReg_all .clockVideo 0x0 _).bind fun _ => trivial

theorem stop_all : stop.All DeviceCall := by
  apply (modifyReg_all .clockVideo 0x0 _).bind
  intro _
  apply (modifyReg_all .frameBuffer 0x0 _).bind
  intro _
  exact (modifyReg_all .csr 0x4 _).bind fun _ => trivial

theorem pause_all (pausing : Bool) : (pause pausing).All DeviceCall := by
  cases pausing with
  | false => exact start_all.bind fun _ => trivial
  | true => exact stop_all.bind fun _ => trivial

theorem startHardwareFrom_all (hardwareState : HardwareState) :
    (startHardwareFrom hardwareState).All DeviceCall := by
  cases hardwareState with
  | paused => exact pause_all false
  | stopped => exact start_all
  | running => exact start_all

theorem releaseHardwareResources_all : releaseHardwareResources.All DeviceCall :=
  Prog.All.bind (.perform ⟨.clearCaptureSink, rfl⟩) fun _ =>
    .perform ⟨.exchangePins, rfl⟩

theorem acquireHardwareResources_all : (acquireHardwareResources pin).All DeviceCall := by
  apply Prog.All.bind (.perform ⟨.compareExchangePins, rfl⟩)
  intro old
  split
  · apply Prog.All.bind (.perform ⟨.createImageSynth, rfl⟩)
    intro status
    split
    · exact Prog.All.bind (.perform ⟨.setCaptureSink pin, rfl⟩) fun _ => trivial
    · exact releaseHardwareResources_all.bind fun _ => trivial
  · exact trivial

theorem stopHardware_all : (stopHardware pin).All PinCall := by
  apply Prog.All.bind (.perform (.readPin pin))
  intro p
  exact .when ((all_pinCall stop_all).bind fun _ => .perform (.setHardwareState pin .stopped))

theorem setState_all (toState fromState : KsState) :
    (setState pin toState fromState).All PinCall := by
  cases toState with
  | stop =>
    apply stopHardware_all.bind
    intro _
    apply Prog.All.bind (.perform (.readPin pin))
    intro p
    have hrelease : (do
        releaseHardwareResources
        (CaptureOp.setAcquiredResources pin false).perform : CaptureProg Unit).All PinCall :=
      (all_pinCall releaseHardwareResources_all).bind fun _ =>
        .perform (.setAcquiredResources pin false)
    exact (Prog.All.when hrelease).bind fun _ => trivial
  | acquire =>
    simp only [setState]
    split
    · apply (all_pinCall acquireHardwareResources_all).bind
      intro status
      exact Prog.All.bind (.perform (.setAcquiredResources pin _)) fun _ => trivial
    · exact stopHardware_all.bind fun _ => trivial
  | pause =>
    simp only [setState]
    split
    · apply (all_pinCall (pause_all true)).bind
      intro status
      exact (Prog.All.when (.perform (.setHardwareState pin .paused))).bind fun _ => trivial
    · exact trivial
  | run =>
    apply Prog.All.bind (.perform (.readPin pin))
    intro p
    apply (all_pinCall (startHardwareFrom_all p.hardwareState)).bind
    intro status
    exact (Prog.All.when (.perform (.setHardwareState pin .running))).bind fun _ => trivial

/-- The sink is cleared only while no service routine is on the way to it. -/
theorem PinCall.inv (hcall : PinCall op) (hi : CaptureInv w) {r : op.Res}
    (hl : timely w (.call (.pin pin) op r) = true)
    (hact : (captureThreads traced).act (.pin pin) op w r = some w') :
    CaptureInv w' ∧ ∀ u, u ≠ .pin pin → CaptureRely u w w' := by
  obtain ⟨-, rfl⟩ := act_eq hact
  have hsame : SameHardware w { w with device := op.effect r w.device } ∧
      (op.effect r w.device).started = w.device.started := by
    cases hcall with
    | compareExchangePins =>
      simp only [CaptureOp.effect]
      split <;> exact ⟨⟨rfl, rfl, rfl, rfl⟩, rfl⟩
    | _ => exact ⟨⟨rfl, rfl, rfl, rfl⟩, rfl⟩
  constructor
  · apply hi.frame hsame.1 id _ hi.kept
    intro hne
    cases hcall with
    | clearCaptureSink => exact absurd (List.isEmpty_iff.mp hl) hne
    | setCaptureSink pin => exact Option.some_ne_none pin
    | compareExchangePins =>
      simp only [CaptureOp.effect]
      split <;> exact hi.sink hne
    | _ => exact hi.sink hne
  · intro u _
    cases u with
    | pnp => exact hsame
    | pin _ => trivial
    | isr id => exact ⟨Iff.rfl, Iff.rfl⟩

theorem changeState_safe (toState fromState : KsState) :
    CaptureSafe traced (.pin pin) (changeState pin toState fromState) (fun _ _ => True) w := by
  have hall : (changeState pin toState fromState).All PinCall :=
    (setState_all toState fromState).bind fun _ => trivial
  apply Safe.all (Stable.const True) hall trivial
  intro op hop w r w' hi _ hl hact
  obtain ⟨hi', hrely⟩ := hop.inv hi hl hact
  exact ⟨hi', hrely, trivial⟩

end Capture

end Xadma
