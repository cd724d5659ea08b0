import Xadma.Verify.CaptureInterrupt

/-!
# Runs of the capture driver

What `PnpStart` and `PnpStop` do next to the service routine. As long as every step of a run is
timely, no service routine goes through a pointer to nothing; without that, it does so as soon as
the interrupt is connected.
-/

namespace Xadma

namespace Capture

open Threads

variable {w w' : CaptureWorld} {t : CaptureThread} {op : CaptureOp} {traced : Bool} {id : Nat}

/-! ## Plug and play -/

/-- No service routine is under way as long as the pointers are not assigned. -/
theorem CaptureInv.idle (hi : CaptureInv w) (hphase : w.phase ≠ .up) : w.inIsr = [] := by
  by_contra hne
  exact hphase (hi.isr hne).1

theorem CaptureInv.idle_of_null (hi : CaptureInv w) (hbar : w.device.bar .dma = none) :
    w.inIsr = [] := by
  by_contra hne
  have hholds := (hi.isr hne).2
  rw [CaptureDevice.holdsIsrRegs, hbar] at hholds
  cases hholds

/-- A step of plug and play keeps the invariant if it leaves the pointers right. -/
theorem CaptureInv.pnp (hi : CaptureInv w) {r : op.Res}
    (hact : (captureThreads traced).act .pnp op w r = some w')
    (hmapped : w'.phase ≠ .down → ∀ m, w'.device.bar .dma = some m → w'.device.mapped m.id = true)
    (hregs : w'.phase = .up → ∀ r ∈ isrRegs, w'.device.reg r = ⟨w'.device.bar .dma, r.offset⟩)
    (hisr : w.inIsr ≠ [] → w'.phase = .up ∧ w'.device.holdsIsrRegs = true)
    (hsink : w'.device.captureSink = w.device.captureSink) :
    CaptureInv w' ∧ ∀ u, u ≠ .pnp → CaptureRely u w w' := by
  obtain ⟨-, rfl⟩ := act_eq hact
  refine ⟨⟨hmapped, hregs, hisr, ?_, hi.kept⟩, fun u hu => ?_⟩
  · rw [hsink]
    exact hi.sink
  · cases u with
    | pnp => exact absurd rfl hu
    | pin _ => trivial
    | isr id => exact ⟨Iff.rfl, Iff.rfl⟩

/-- A step that leaves all of it as it is. -/
theorem CaptureInv.pnp_frame (hi : CaptureInv w) {r : op.Res}
    (hact : (captureThreads traced).act .pnp op w r = some w') (hsame : SameHardware w w')
    (hsink : w'.device.captureSink = w.device.captureSink) :
    CaptureInv w' ∧ ∀ u, u ≠ .pnp → CaptureRely u w w' := by
  have hframe : CaptureInv { w with phase := w'.phase, device := w'.device } :=
    hi.frame ⟨hsame.phase, hsame.bar, hsame.mapped, hsame.reg⟩ id
      (fun hne => hsink ▸ hi.sink hne) hi.kept
  exact hi.pnp hact hframe.mapped hframe.regs hframe.isr hsink

/-- Behind a stop and before the first start there is no BAR. -/
def Settled (w : CaptureWorld) : Prop := w.phase = .down → w.device.bar .dma = none

theorem Settled.of_ne (h : w.phase ≠ .down) : Settled w := fun hdown => absurd hdown h

theorem Settled.stable : CaptureStable .pnp Settled := by
  intro w w' _ _ ⟨hr, _⟩ h hdown
  rw [hr.bar]
  exact h (hr.phase ▸ hdown)

theorem down_stable : CaptureStable .pnp fun w => w.phase = .down :=
  fun _ _ _ _ hr h => hr.1.phase.trans h

def Starting (w : CaptureWorld) : Prop := w.phase = .starting

theorem Starting.stable : CaptureStable .pnp Starting :=
  fun _ _ _ _ hr h => hr.1.phase.trans h

theorem Starting.ne_up (h : Starting w) : w.phase ≠ .up := by
  rw [h]
  exact CapturePhase.noConfusion

theorem Starting.ne_down (h : Starting w) : w.phase ≠ .down := by
  rw [h]
  exact CapturePhase.noConfusion

theorem Starting.settled (h : Starting w) : Settled w := .of_ne h.ne_down

theorem ne_up_of_down (h : w.phase = .down) : w.phase ≠ .up := by
  rw [h]
  exact CapturePhase.noConfusion

theorem ne_down_of_up (h : w.phase = .up) : w.phase ≠ .down := by
  rw [h]
  exact CapturePhase.noConfusion

/-- The calls of the set-up routines. -/
inductive SetsUp : CaptureOp → Prop
  | prepares {op : CaptureOp} (h : Prepares op) : SetsUp op
  | connectInterrupt : SetsUp .connectInterrupt
  | zeroBuffer (b : CommonBuffer) : SetsUp (.zeroBuffer b)

theorem allocateBuffers_all (status : NtStatus) (bs : List CommonBuffer) :
    (allocateBuffers status bs).All SetsUp := by
  induction bs with
  | nil => exact trivial
  | cons b bs ih =>
    apply Prog.All.bind (.perform (.prepares (.allocateCommonBuffer b)))
    intro allocated
    split
    · exact trivial
    · exact Prog.All.bind (.perform (.zeroBuffer b)) fun _ => ih

theorem setupDma_all : (setupDma .cyclone4).All SetsUp := by
  apply Prog.All.bind (.perform (.prepares .getDmaAdapter))
  intro adapter
  split
  · exact trivial
  · exact Prog.All.bind (.perform (.prepares .queryInterface)) fun status =>
      allocateBuffers_all status _

/-- What is mapped stays mapped. -/
theorem mapBar_mapped {d : CaptureDevice} (h : ∀ m, d.bar .dma = some m → d.mapped m.id = true)
    (bar : CaptureBar) (length : BitVec 32) (r : Bool) (m : IoMapping)
    (hm : (d.mapBar bar length r).bar .dma = some m) :
    (d.mapBar bar length r).mapped m.id = true := by
  cases r with
  | false =>
    cases bar with
    | dma => cases hm
    | video => exact h m hm
  | true =>
    by_cases heq : m.id = d.nextMapping
    · exact heq ▸ Function.update_self ..
    · have hold : d.bar .dma = some m := by
        cases bar with
        | dma => cases hm; exact absurd rfl heq
        | video => exact hm
      exact (Function.update_of_ne heq ..).trans (h m hold)

theorem SetsUp.step (hcall : SetsUp op) (hi : CaptureInv w) (h : Starting w) {r : op.Res}
    (hact : (captureThreads traced).act .pnp op w r = some w') :
    CaptureInv w' ∧ (∀ u, u ≠ .pnp → CaptureRely u w w') ∧ Starting w' := by
  have hidle : w.inIsr = [] := hi.idle h.ne_up
  have hw' : w'.phase = .starting ∧ w'.device.captureSink = w.device.captureSink ∧
      ∀ m, w'.device.bar .dma = some m → w'.device.mapped m.id = true := by
    obtain ⟨-, rfl⟩ := act_eq hact
    cases hcall with
    | prepares hop =>
      cases hop with
      | mapIoSpace _ bar length =>
        refine ⟨h, ?_, mapBar_mapped (hi.mapped h.ne_down) bar length r⟩
        cases r <;> rfl
      | _ => exact ⟨h, rfl, hi.mapped h.ne_down⟩
    | connectInterrupt => exact ⟨h, rfl, hi.mapped h.ne_down⟩
    | zeroBuffer b => exact ⟨h, rfl, hi.mapped h.ne_down⟩
  obtain ⟨hphase, hsink, hmapped⟩ := hw'
  have hpnp := hi.pnp hact (fun _ => hmapped) (fun hup => by rw [hphase] at hup; cases hup)
    (fun hne => absurd hidle hne) hsink
  exact ⟨hpnp.1, hpnp.2, hphase⟩

theorem setsUp_safe {α : Type} {p : CaptureProg α} (hp : p.All SetsUp) (h : Starting w) :
    CaptureSafe traced .pnp p (fun _ => Starting) w := by
  apply Safe.all Starting.stable hp h
  intro op hop w r w' hi h _ hact
  exact hop.step hi h hact

/-- The pointers `rs` are assigned. -/
def Assigned (rs : List CaptureReg) (w : CaptureWorld) : Prop :=
  Starting w ∧ ∀ r ∈ rs, w.device.reg r = ⟨w.device.bar .dma, r.offset⟩

theorem Assigned.stable (rs : List CaptureReg) : CaptureStable .pnp (Assigned rs) := by
  intro w w' hi hi' hr h
  refine ⟨Starting.stable w w' hi hi' hr h.1, fun r hmem => ?_⟩
  rw [hr.1.reg, hr.1.bar]
  exact h.2 r hmem

theorem up_stable : CaptureStable .pnp fun w => w.phase = .up :=
  fun _ _ _ _ hr h => hr.1.phase.trans h

/-- What the assignment of a pointer does. -/
theorem act_assignReg {reg : CaptureReg} {u : Unit}
    (hact : (captureThreads traced).act .pnp (.assignReg reg) w u = some w') :
    w' = { w with
      phase := (CaptureOp.assignReg reg).phaseAfter w.phase
      device := { w.device with
        reg := Function.update w.device.reg reg ⟨w.device.bar .dma, reg.offset⟩ } } :=
  (act_eq hact).2

theorem update_assigned {d : CaptureDevice} {reg : CaptureReg} {rs : List CaptureReg}
    (h : ∀ r ∈ rs, d.reg r = ⟨d.bar .dma, r.offset⟩) (r : CaptureReg) (hr : r ∈ reg :: rs) :
    Function.update d.reg reg ⟨d.bar .dma, reg.offset⟩ r = ⟨d.bar .dma, r.offset⟩ := by
  by_cases heq : r = reg
  · exact heq ▸ Function.update_self ..
  · exact (Function.update_of_ne heq ..).trans (h r ((List.mem_cons.mp hr).resolve_left heq))

theorem assignReg_safe (reg : CaptureReg) {rs : List CaptureReg} (hne : reg ≠ .frameBuffer)
    (h : Assigned rs w) :
    CaptureSafe traced .pnp (CaptureOp.assignReg reg).perform
      (fun _ => Assigned (reg :: rs)) w := by
  apply Safe.perform (Assigned rs) (Assigned.stable rs) (fun _ => Assigned.stable _) h
  intro w u w' hi h _ hact
  have hstarting : w.phase = .starting := h.1
  have hphase : (CaptureOp.assignReg reg).phaseAfter w.phase = .starting := by
    rw [hstarting]
    cases reg with
    | frameBuffer => exact absurd rfl hne
    | _ => rfl
  have hw' := act_assignReg hact
  rw [hphase] at hw'
  have hidle : w.inIsr = [] := hi.idle h.1.ne_up
  have hmapped := hi.mapped h.1.ne_down
  obtain ⟨hi', hrely⟩ := hi.pnp hact (hw' ▸ fun _ => hmapped)
    (hw' ▸ fun hup => nomatch hup) (fun hisr => absurd hidle hisr) (hw' ▸ rfl)
  refine ⟨hi', hrely, hw' ▸ rfl, ?_⟩
  rw [hw']
  exact update_assigned h.2

/-- With this pointer, all that the service routine reads are assigned. -/
theorem assignFrameBuffer_safe (h : Assigned [.response, .csr, .extendDescriptor] w) :
    CaptureSafe traced .pnp (CaptureOp.assignReg .frameBuffer).perform
      (fun _ w => w.phase = .up) w := by
  apply Safe.perform _ (Assigned.stable _) (fun _ => up_stable) h
  intro w u w' hi h _ hact
  have hw' := act_assignReg hact
  have hidle : w.inIsr = [] := hi.idle h.1.ne_up
  have hmapped := hi.mapped h.1.ne_down
  have hregs : ∀ r ∈ isrRegs, w'.device.reg r = ⟨w'.device.bar .dma, r.offset⟩ := by
    intro r hr
    have hmem : r ∈ CaptureReg.frameBuffer :: [.response, .csr, .extendDescriptor] := by
      revert r
      decide
    rw [hw']
    exact update_assigned h.2 r hmem
  obtain ⟨hi', hrely⟩ := hi.pnp hact (hw' ▸ fun _ => hmapped) (fun _ => hregs)
    (fun hisr => absurd hidle hisr) (hw' ▸ rfl)
  exact ⟨hi', hrely, hw' ▸ rfl⟩

theorem assignClockVideo_safe (h : w.phase = .up) :
    CaptureSafe traced .pnp (CaptureOp.assignReg .clockVideo).perform
      (fun _ w => w.phase = .up) w := by
  apply Safe.perform _ up_stable (fun _ => up_stable) h
  intro w u w' hi h _ hact
  have hw' := act_assignReg hact
  have hregs : ∀ r ∈ isrRegs, w'.device.reg r = ⟨w'.device.bar .dma, r.offset⟩ := by
    intro r hr
    rw [hw']
    exact update_assigned (hi.regs h) r (List.mem_cons_of_mem _ hr)
  have hmapped := hi.mapped (ne_down_of_up h)
  obtain ⟨hi', hrely⟩ := hi.pnp hact (hw' ▸ fun _ => hmapped) (fun _ => hregs)
    (hw' ▸ fun hisr => hi.isr hisr) (hw' ▸ rfl)
  exact ⟨hi', hrely, hw' ▸ h⟩

theorem assignRegisters_safe (h : Starting w) :
    CaptureSafe traced .pnp (assignRegisters .cyclone4 traced) (fun _ => Settled) w := by
  have hnone : Assigned [] w := ⟨h, fun _ hr => nomatch hr⟩
  apply (assignReg_safe .extendDescriptor nofun hnone).bind
  intro _ w h
  apply (assignReg_safe .csr nofun h).bind
  intro _ w h
  apply (assignReg_safe .response nofun h).bind
  intro _ w h
  apply (assignFrameBuffer_safe h).bind
  intro _ w h
  apply (assignClockVideo_safe h).bind
  intro _ w h
  exact Safe.ret Settled.stable (.of_ne (ne_down_of_up h))

theorem startHardware_safe (h : Starting w) (resources : List AdmaResource) :
    CaptureSafe traced .pnp (startHardware .cyclone4 traced resources) (fun _ => Settled) w := by
  apply (setsUp_safe ((mapResources_all resources).mono fun _ => .prepares) h).bind
  intro _ w h
  apply (setsUp_safe (.perform .connectInterrupt) h).bind
  intro _ w h
  apply (setsUp_safe setupDma_all h).bind
  intro _ w h
  apply (setsUp_safe (.perform (.prepares .newSimulation)) h).bind
  intro created w h
  cases created with
  | false => exact Safe.ret Settled.stable h.settled
  | true =>
    apply (setsUp_safe (.perform (.prepares .addToObjectBag)) h).bind
    intro status w h
    apply (setsUp_safe (.when (.perform (.prepares .deleteSimulation))) h).bind
    intro _ w h
    apply (assignRegisters_safe h).bind
    intro _ w h
    exact Safe.ret Settled.stable h

/-- Before the first look at the flag: the device was started, or it may be. -/
def Ready (w : CaptureWorld) : Prop :=
  Settled w ∧ (w.device.started = false → w.phase = .down)

theorem Ready.stable : CaptureStable .pnp Ready := by
  intro w w' hi hi' hr h
  refine ⟨Settled.stable w w' hi hi' hr h.1, fun hstarted => ?_⟩
  exact hr.1.phase.trans (h.2 (hr.2.symm.trans hstarted))

/-- Before the second look at the flag: the device was started, or this start was begun. -/
def Begun (w : CaptureWorld) : Prop := Settled w ∧ (w.device.started = false → Starting w)

theorem Begun.stable : CaptureStable .pnp Begun := by
  intro w w' hi hi' hr h
  refine ⟨Settled.stable w w' hi hi' hr h.1, fun hstarted => ?_⟩
  exact Starting.stable w w' hi hi' hr (h.2 (hr.2.symm.trans hstarted))

theorem started_stable (b : Bool) : CaptureStable .pnp fun w => w.device.started = b :=
  fun _ _ _ _ hr h => hr.2.trans h

/-- A call that only looks at the device. -/
theorem look_safe {P : CaptureWorld → Prop} {Q : op.Res → CaptureWorld → Prop}
    (hP : CaptureStable .pnp P) (hQ : ∀ r, CaptureStable .pnp (Q r))
    (hquiet : ∀ (w : CaptureWorld) (r : op.Res),
      { w.record op r .pnp with device := op.effect r w.device } = w)
    (hlook : ∀ (w : CaptureWorld) (r : op.Res), P w → op.possible w.device r = true → Q r w)
    (h : P w) :
    CaptureSafe traced .pnp op.perform Q w := by
  apply Safe.perform P hP hQ h
  intro w r w' hi h _ hact
  obtain ⟨hpossible, hw'⟩ := act_eq hact
  have hsame : w' = w := hw'.trans (hquiet w r)
  subst hsame
  obtain ⟨hi', hrely⟩ := hi.pnp_frame hact ⟨rfl, rfl, rfl, rfl⟩ rfl
  exact ⟨hi', hrely, hlook w' r h hpossible⟩

theorem readStarted_safe {P : CaptureWorld → Prop} (hP : CaptureStable .pnp P) (h : P w) :
    CaptureSafe traced .pnp CaptureOp.readStarted.perform
      (fun b w => P w ∧ w.device.started = b) w := by
  have hstable (b : Bool) : CaptureStable .pnp fun w => P w ∧ w.device.started = b :=
    hP.and (started_stable b)
  apply look_safe hP hstable (fun _ _ => rfl) _ h
  exact fun w b h hpossible => ⟨h, CaptureOp.possible.look hpossible rfl⟩

theorem createFilterFactory_safe (h : Settled w ∧ w.phase = .down) :
    CaptureSafe traced .pnp CaptureOp.createFilterFactory.perform (fun _ => Starting) w := by
  apply Safe.perform _ (Settled.stable.and down_stable) (fun _ => Starting.stable) h
  intro w status w' hi ⟨h, hdown⟩ _ hact
  have hidle : w.inIsr = [] := hi.idle (ne_up_of_down hdown)
  have hw' : w' = { w with phase := .starting } := (act_eq hact).2
  have hmapped : ∀ m, w'.device.bar .dma = some m → w'.device.mapped m.id = true := by
    intro m hm
    rw [hw', h hdown] at hm
    cases hm
  obtain ⟨hi', hrely⟩ := hi.pnp hact (fun _ => hmapped) (hw' ▸ fun hup => nomatch hup)
    (fun hisr => absurd hidle hisr) (hw' ▸ rfl)
  exact ⟨hi', hrely, hw' ▸ rfl⟩

theorem createFilter_safe (h : Ready w) :
    CaptureSafe traced .pnp createFilter (fun _ => Begun) w := by
  apply (readStarted_safe Ready.stable h).bind
  intro started w ⟨h, hstarted⟩
  cases started with
  | true =>
    refine Safe.ret Begun.stable ⟨h.1, fun hnot => ?_⟩
    rw [hstarted] at hnot
    cases hnot
  | false =>
    apply (createFilterFactory_safe ⟨h.1, h.2 hstarted⟩).mono
    exact fun _ _ h => ⟨h.settled, fun _ => h⟩

theorem pnpStart_safe (h : Ready w) (resources : List AdmaResource) :
    CaptureSafe traced .pnp (pnpStart .cyclone4 traced resources) (fun _ => Settled) w := by
  apply (createFilter_safe h).bind
  intro status w h
  split
  · exact Safe.ret Settled.stable h.1
  · apply (readStarted_safe Begun.stable h).bind
    intro started w ⟨h, hstarted⟩
    cases started with
    | true => exact Safe.ret Settled.stable h.1
    | false => exact startHardware_safe (h.2 hstarted) resources

theorem startDevice_safe (h : Ready w) (resources : List AdmaResource) :
    CaptureSafe traced .pnp (startDevice traced resources) (fun _ => Settled) w := by
  apply (pnpStart_safe h resources).bind
  intro status w h
  apply Safe.when Settled.stable h
  intro _
  apply Safe.perform Settled Settled.stable (fun _ => Settled.stable) h
  intro w u w' hi h _ hact
  have hw' : w' = { w with device := { w.device with started := true } } := (act_eq hact).2
  subst hw'
  obtain ⟨hi', hrely⟩ := hi.pnp_frame hact ⟨rfl, rfl, rfl, rfl⟩ rfl
  exact ⟨hi', hrely, h⟩

/-! ## Stopping -/

def BarNull (w : CaptureWorld) : Prop := w.device.bar .dma = none

theorem BarNull.stable : CaptureStable .pnp BarNull := by
  intro w w' _ _ hr h
  rw [BarNull, hr.1.bar]
  exact h

theorem freeBuffers_safe {α : Type} {p : CaptureProg α} (hp : p.All Frees) (h : Settled w) :
    CaptureSafe traced .pnp p (fun _ => Settled) w := by
  apply Safe.all Settled.stable hp h
  intro op hop w r w' hi h _ hact
  have hw' : w' = { w with device := w'.device } ∧ w'.device.bar = w.device.bar ∧
      w'.device.mapped = w.device.mapped ∧ w'.device.reg = w.device.reg ∧
      w'.device.captureSink = w.device.captureSink := by
    obtain ⟨-, rfl⟩ := act_eq hact
    cases hop <;> exact ⟨rfl, rfl, rfl, rfl, rfl⟩
  obtain ⟨hw', hbar, hmapped, hreg, hsink⟩ := hw'
  have hphase : w'.phase = w.phase := by rw [hw']
  obtain ⟨hi', hrely⟩ := hi.pnp_frame hact ⟨hphase, hbar, hmapped, hreg⟩ hsink
  refine ⟨hi', hrely, fun hdown => ?_⟩
  rw [hbar]
  exact h (hphase ▸ hdown)

theorem readBar_safe (h : Settled w) :
    CaptureSafe traced .pnp (CaptureOp.readBar .dma).perform
      (fun b w => Settled w ∧ (b = false → BarNull w)) w := by
  have hstable (b : Bool) : CaptureStable .pnp fun w => Settled w ∧ (b = false → BarNull w) :=
    Settled.stable.and fun w w' hi hi' hr h hb => BarNull.stable w w' hi hi' hr (h hb)
  apply look_safe Settled.stable hstable (fun _ _ => rfl) _ h
  intro w b h hpossible
  have hlook : (w.device.bar .dma).isSome = b := CaptureOp.possible.look hpossible rfl
  refine ⟨h, fun hb => ?_⟩
  rw [BarNull, ← Option.isNone_iff_eq_none, ← Option.isSome_eq_false_iff]
  exact hlook.trans hb

/-- No service routine is under way when the BAR is unmapped. -/
theorem unmapIoSpace_safe (h : Settled w) :
    CaptureSafe traced .pnp (CaptureOp.unmapIoSpace .dma).perform
      (fun _ w => w.phase = .down) w := by
  apply Safe.perform Settled Settled.stable (fun _ => down_stable) h
  intro w u w' hi h hl hact
  have hidle : w.inIsr = [] := List.isEmpty_iff.mp hl
  have hw' : w' = { w with phase := .down, device := w.device.unmapBar .dma } := (act_eq hact).2
  have hsink : (w.device.unmapBar .dma).captureSink = w.device.captureSink := by
    unfold CaptureDevice.unmapBar
    split <;> rfl
  obtain ⟨hi', hrely⟩ := hi.pnp hact (hw' ▸ fun hne => absurd rfl hne)
    (hw' ▸ fun hup => nomatch hup) (fun hisr => absurd hidle hisr) (hw' ▸ hsink)
  exact ⟨hi', hrely, hw' ▸ rfl⟩

theorem clearBar_safe (h : w.phase = .down) :
    CaptureSafe traced .pnp (CaptureOp.clearBar .dma).perform (fun _ => BarNull) w := by
  apply Safe.perform _ down_stable (fun _ => BarNull.stable) h
  intro w u w' hi h _ hact
  have hidle : w.inIsr = [] := hi.idle (ne_up_of_down h)
  have hw' : w' = { w with device := { w.device with
      bar := Function.update w.device.bar .dma none } } := (act_eq hact).2
  have hcleared : Function.update w.device.bar .dma none .dma = none := Function.update_self ..
  have hnull : BarNull w' := by
    rw [BarNull, hw']
    exact hcleared
  have hdown : w'.phase = .down := hw' ▸ h
  obtain ⟨hi', hrely⟩ := hi.pnp hact (fun hne => absurd hdown hne)
    (fun hup => by rw [hdown] at hup; cases hup) (fun hisr => absurd hidle hisr) (hw' ▸ rfl)
  exact ⟨hi', hrely, hnull⟩

theorem unmapDmaBar_safe (h : Settled w) :
    CaptureSafe traced .pnp (unmapBar .dma) (fun _ => BarNull) w := by
  apply (readBar_safe h).bind
  intro mapped w ⟨h, hnull⟩
  cases mapped with
  | false => exact Safe.ret BarNull.stable (hnull rfl)
  | true =>
    apply (unmapIoSpace_safe h).bind
    intro _ w h
    exact clearBar_safe h

/-- The calls that unmap the other BAR. -/
inductive UnmapsVideo : CaptureOp → Prop
  | readBar : UnmapsVideo (.readBar .video)
  | unmapIoSpace : UnmapsVideo (.unmapIoSpace .video)
  | clearBar : UnmapsVideo (.clearBar .video)

theorem unmapVideoBar_all : (unmapBar .video).All UnmapsVideo := by
  apply Prog.All.bind (.perform .readBar)
  intro mapped
  exact .when (Prog.All.bind (.perform .unmapIoSpace) fun _ => .perform .clearBar)

theorem unmapVideoBar_safe (h : BarNull w) :
    CaptureSafe traced .pnp (unmapBar .video) (fun _ => BarNull) w := by
  apply Safe.all BarNull.stable unmapVideoBar_all h
  intro op hop w r w' hi h _ hact
  have hidle : w.inIsr = [] := hi.idle_of_null h
  have hw' : w'.phase = w.phase ∧ w'.device.bar .dma = w.device.bar .dma ∧
      w'.device.reg = w.device.reg ∧ w'.device.captureSink = w.device.captureSink := by
    obtain ⟨-, rfl⟩ := act_eq hact
    cases hop with
    | unmapIoSpace =>
      simp only [CaptureOp.effect, CaptureDevice.unmapBar]
      split <;> exact ⟨rfl, rfl, rfl, rfl⟩
    | _ => exact ⟨rfl, rfl, rfl, rfl⟩
  obtain ⟨hphase, hbar, hreg, hsink⟩ := hw'
  have hnull : BarNull w' := hbar.trans h
  have hmapped : ∀ m, w'.device.bar .dma = some m → w'.device.mapped m.id = true := by
    intro m hm
    rw [hnull] at hm
    cases hm
  have hregs : w'.phase = .up → ∀ r ∈ isrRegs,
      w'.device.reg r = ⟨w'.device.bar .dma, r.offset⟩ := by
    intro hup r hr
    rw [hreg, hbar]
    exact hi.regs (hphase ▸ hup) r hr
  obtain ⟨hi', hrely⟩ := hi.pnp hact (fun _ => hmapped) hregs (fun hisr => absurd hidle hisr) hsink
  exact ⟨hi', hrely, hnull⟩

theorem pnpStop_safe (h : Settled w) :
    CaptureSafe traced .pnp (pnpStop .cyclone4) (fun _ => BarNull) w := by
  apply (freeBuffers_safe (.perform .readDmaAdapter) h).bind
  intro adapter w h
  have hfree : (Prog.when (adapter = true) (do
      Prog.forEach (commonBuffers .cyclone4) freeBuffer
      CaptureOp.putDmaAdapter.perform)).All Frees :=
    .when ((Prog.All.forEach freeBuffer_all _).bind fun _ => .perform .putDmaAdapter)
  apply (freeBuffers_safe hfree h).bind
  intro _ w h
  apply (unmapDmaBar_safe h).bind
  intro _ w h
  exact unmapVideoBar_safe h

theorem stopDevice_safe (h : Settled w) :
    CaptureSafe traced .pnp stopDevice (fun _ => Settled) w := by
  apply (pnpStop_safe h).bind
  intro _ w h
  apply Safe.perform BarNull BarNull.stable (fun _ => Settled.stable) h
  intro w u w' hi h _ hact
  have hidle : w.inIsr = [] := hi.idle_of_null h
  have hw' : w' = { w with phase := .down, device := { w.device with started := false } } :=
    (act_eq hact).2
  obtain ⟨hi', hrely⟩ := hi.pnp hact (hw' ▸ fun hne => absurd rfl hne)
    (hw' ▸ fun hup => nomatch hup) (fun hisr => absurd hidle hisr) (hw' ▸ rfl)
  exact ⟨hi', hrely, hw' ▸ fun _ => h⟩

/-! ## Every run -/

/-- What an idle thread left behind. -/
def CaptureIdle : CaptureThread → CaptureWorld → Prop
  | .pnp => Settled
  | .pin _ | .isr _ => fun _ => True

theorem captureInv_created : CaptureInv .created :=
  ⟨fun hne => absurd rfl hne, nofun, fun hne => absurd rfl hne, fun hne => absurd rfl hne, rfl⟩

/-- The service routine is invoked only while it is up. -/
theorem enterIsr_inv (hi : CaptureInv w) (hphase : w.phase = .up)
    (hholds : w.device.holdsIsrRegs = true) :
    CaptureInv (w.enterIsr id) ∧ ∀ u, u ≠ .isr id → CaptureRely u w (w.enterIsr id) := by
  have hcovers := hi.coversIsr hphase hholds
  constructor
  · refine ⟨hi.mapped, hi.regs, fun _ => ⟨hphase, hholds⟩, hi.sink, ?_⟩
    exact Bool.or_eq_false_iff.mpr ⟨hi.kept, by rw [hcovers]; rfl⟩
  · intro u hu
    cases u with
    | pnp => exact ⟨⟨rfl, rfl, rfl, rfl⟩, rfl⟩
    | pin _ => trivial
    | isr other =>
      have hne : other ≠ id := fun heq => hu (congrArg CaptureThread.isr heq)
      exact ⟨List.mem_cons.trans (or_iff_right hne), Iff.rfl⟩

theorem captureRely_refl (u : CaptureThread) : CaptureRely u w w := by
  cases u with
  | pnp => exact ⟨⟨rfl, rfl, rfl, rfl⟩, rfl⟩
  | pin _ => trivial
  | isr id => exact ⟨Iff.rfl, Iff.rfl⟩

theorem serviceInterrupt_not_faulted
    {c : Config CaptureOp CaptureOp.Res CaptureWorld CaptureThread}
    (h : (captureThreads traced).Reach (fun w l => timely w l = true) captureConfig c) :
    c.state.faulted = false := by
  refine (Reach.safe (I := CaptureInv) (R := CaptureRely) (Q := CaptureIdle)
    captureInv_created ?_ ?_ ?_ h).1.kept
  · intro t
    cases t with
    | pnp => exact Safe.ret Settled.stable fun _ => rfl
    | pin _ => exact Safe.ret (Stable.const True) trivial
    | isr _ => exact Safe.ret (Stable.const True) trivial
  · intro e
    exact e.elim
  · intro t a w w' p hi hq hl hstart
    cases t with
    | pnp =>
      cases a with
      | start resources =>
        cases hstart
        have htimely : (w.device.started || decide (w.phase = .down)) = true := hl
        have hready : Ready w := by
          refine ⟨hq, fun hstarted => ?_⟩
          rw [hstarted, Bool.false_or] at htimely
          exact of_decide_eq_true htimely
        exact ⟨hi, fun u _ => captureRely_refl u, startDevice_safe hready resources⟩
      | stop =>
        cases hstart
        exact ⟨hi, fun u _ => captureRely_refl u, stopDevice_safe hq⟩
      | setState _ _ => cases hstart
      | interrupt => cases hstart
    | pin n =>
      cases a with
      | setState toState fromState =>
        cases hstart
        exact ⟨hi, fun u _ => captureRely_refl u, changeState_safe toState fromState⟩
      | _ => cases hstart
    | isr id =>
      cases a with
      | interrupt =>
        simp only [captureThreads, CaptureThread.start] at hstart
        split at hstart
        · cases hstart
          obtain ⟨hphase, hholds⟩ := Bool.and_eq_true_iff.mp hl
          obtain ⟨hi', hrely⟩ := enterIsr_inv hi (of_decide_eq_true hphase) hholds
          exact ⟨hi', hrely, serviceInterrupt_safe ⟨List.mem_cons_self, False.elim⟩⟩
        · cases hstart
      | _ => cases hstart

/-! ## Two runs -/

/-- `PnpStart` up to the connection of the interrupt. -/
def connectingRun : List CaptureLabel :=
  [.start .pnp (.start [.memory 0xFE000000 0x8000, .interrupt false]),
    .call .pnp .readStarted false, .call .pnp .createFilterFactory statusSuccess,
    .call .pnp .readStarted false,
    .call .pnp .countBar (), .call .pnp (.mapIoSpace 0 .dma 0x8000) true,
    .call .pnp .countIntr (), .call .pnp .readCounts (1, 1),
    .call .pnp .connectInterrupt statusSuccess]

/-- The rest of `PnpStart`, a pin that acquires the hardware, and a service routine on the way to
its sink. -/
def completingRun : List CaptureLabel :=
  connectingRun ++
  [.call .pnp .getDmaAdapter true, .call .pnp .queryInterface statusSuccess,
    .call .pnp (.allocateCommonBuffer .video) true, .call .pnp (.zeroBuffer .video) (),
    .call .pnp .newSimulation true, .call .pnp .addToObjectBag statusSuccess] ++
  captureRegs.map (fun r => .call .pnp (.assignReg r) ()) ++
  [.call .pnp (.setStarted true) (),
    .start (.pin 0) (.setState .acquire .stop),
    .call (.pin 0) .compareExchangePins (0 : Nat), .call (.pin 0) .createImageSynth statusSuccess,
    .call (.pin 0) (.setCaptureSink 0) (),
    .start (.isr 0) .interrupt, .call (.isr 0) (.readReg .csr 0x0) csrIrqSetMask]

theorem serviceInterrupt_not_faulted_completing :
    ∃ c, (captureThreads false).Reach (fun w l => timely w l = true) captureConfig c ∧
      c.state.completing = [0] ∧ c.state.faulted = false := by
  have hrun : ∃ c, (captureThreads false).Reach (fun w l => timely w l = true) captureConfig c ∧
      decide (c.state.completing = [0]) = true :=
    Reach.exists_of_run completingRun (fun w : CaptureWorld => w.completing = [0]) (by decide)
  obtain ⟨c, hreach, hcompleting⟩ := hrun
  exact ⟨c, hreach, of_decide_eq_true hcompleting, serviceInterrupt_not_faulted hreach⟩

/-- The line is shared, and the service routine goes through a pointer that is not assigned yet. -/
theorem serviceInterrupt_faults :
    ∃ c, (captureThreads false).Reach (fun _ _ => True) captureConfig c ∧ c.state.faulted = true :=
  Reach.exists_of_run
    (connectingRun ++
      [.start (.isr 0) .interrupt, .call (.isr 0) (.readReg .csr 0x0) (0 : BitVec 32)])
    CaptureWorld.faulted (by decide)

end Capture

end Xadma
