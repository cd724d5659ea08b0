import Xadma.Libxdma.EngineProbe
import Xadma.Verify.InterruptRouting

/-!
# Which engine an interrupt gets to

The k-th engine that is found has the k-th channel bit and the k-th interrupt context, wherever the
hardware has left out engines. With the vector registers this takes the interrupt of an engine to
the object that works on this engine, and on no other.
-/

namespace Xadma

theorem bitN_and_of_ne {i j : Nat} (h : i ≠ j) : bitN i &&& bitN j = 0 := by
  apply BitVec.eq_of_getLsbD_eq
  intro b hb
  simp only [bitN, BitVec.getLsbD_and, BitVec.getLsbD_shiftLeft, BitVec.getLsbD_one]
  by_cases hi : b = i
  · have hj : b ≠ j := fun hj => h (hi.symm.trans hj)
    grind
  · grind

namespace Probe

/-- An engine behind `EngineCreate`. -/
def Engine.created (regs : Regs) (slot : EngineSlot) (index : Nat) (poll : Bool) : Engine :=
  let type := if regs.identifier &&& xdmaIdStBit ≠ 0 then EngineType.st else .mm
  { enabled := true
    poll := poll
    channel := slot.channel
    dir := slot.dir
    regs := offset slot
    sgdma := offset slot + sgdmaBlockOffset
    type := type
    addressMode := if regs.control &&& xdmaCtrlNonIncrAddr ≠ 0 then .fixed else .contiguous
    irqBitMask := bitN index
    alignment := engineGetAlignments regs.alignments
    work := some (if type = .st ∧ slot.dir = .c2h then .processRing else .processTransfer) }

/-- The engine in a place is set up as number `index`. -/
structure SetUp (d : Device) (slot : EngineSlot) (index : Nat) (d' : Device) : Prop where
  engine : d'.engine slot =
    .created (d.regs (offset slot)) slot index (d.engine slot).poll
  context : d.channelInterrupt index = true → d'.context index = some slot
  control : (d'.regs (offset slot)).control =
    (d.regs (offset slot)).control ||| interruptSources (d'.engine slot)

/-- What is left alone while the engines in `slots` are set up from number `index` on. -/
structure Kept (d : Device) (slots : List EngineSlot) (index : Nat) (d' : Device) : Prop where
  engines : ∀ slot ∉ slots, d'.engine slot = d.engine slot
  contexts : ∀ k < index, d'.context k = d.context k
  handles : d'.channelInterrupt = d.channelInterrupt
  regs : ∀ a, a ∉ slots.map offset → d'.regs a = d.regs a

variable {i : CreateInput} {is : EngineSlot → CreateInput} {d d' : Device} {slot : EngineSlot}
  {slots : List EngineSlot} {index k : Nat} {status : NtStatus}

/-! ## One engine -/

/-- The engine in `slot` is being set up as number `index`. So far it holds `engine`, and `control`
is in its control register. -/
structure Under (d : Device) (slot : EngineSlot) (index : Nat) (engine : Engine)
    (control : BitVec 32) (s : Device) : Prop where
  engine : s.engine slot = engine
  control : (s.regs (offset slot)).control = control
  identifier : (s.regs (offset slot)).identifier = (d.regs (offset slot)).identifier
  alignments : (s.regs (offset slot)).alignments = (d.regs (offset slot)).alignments
  engines : ∀ slot', slot' ≠ slot → s.engine slot' = d.engine slot'
  regs : ∀ a, a ≠ offset slot → s.regs a = d.regs a
  contexts : ∀ k, k ≠ index → s.context k = d.context k
  bound : s.context index = d.context index ∨ s.context index = some slot
  handles : s.channelInterrupt = d.channelInterrupt

variable {engine : Engine} {control : BitVec 32} {s : Device}

theorem Under.setEngine {f : Engine → Engine} (h : Under d slot index engine control s) :
    Under d slot index (f engine) control (s.setEngine slot f) := by
  refine ⟨?_, h.control, h.identifier, h.alignments, fun slot' hne => ?_, h.regs, h.contexts,
    h.bound, h.handles⟩
  · simp only [Device.setEngine, Function.update_self, h.engine]
  · simp only [Device.setEngine, Function.update_of_ne hne, h.engines slot' hne]

/-- A write to a register of the engine. -/
theorem Under.setRegs {f : Regs → Regs} {control' : BitVec 32}
    (h : Under d slot index engine control s) (hregs : engine.regs = offset slot)
    (hf : ∀ regs, (f regs).identifier = regs.identifier ∧ (f regs).alignments = regs.alignments)
    (hcontrol : ∀ regs, regs.control = control → (f regs).control = control') :
    Under d slot index engine control' (s.setRegs (s.engine slot).regs f) := by
  rw [h.engine, hregs]
  refine ⟨h.engine, ?_, ?_, ?_, h.engines, fun a hne => ?_, h.contexts, h.bound, h.handles⟩
  · simp only [Device.setRegs, Function.update_self, hcontrol _ h.control]
  · simp only [Device.setRegs, Function.update_self, (hf _).1, h.identifier]
  · simp only [Device.setRegs, Function.update_self, (hf _).2, h.alignments]
  · simp only [Device.setRegs, Function.update_of_ne hne, h.regs a hne]

theorem Under.bindContext (h : Under d slot index engine control s) :
    Under d slot index engine control (bindContext slot index s) ∧
      (d.channelInterrupt index = true →
        (Probe.bindContext slot index s).context index = some slot) := by
  unfold Probe.bindContext
  rw [h.handles]
  split
  · refine ⟨⟨h.engine, h.control, h.identifier, h.alignments, h.engines, h.regs, fun k hne => ?_,
      .inr (Function.update_self ..), rfl⟩, fun _ => Function.update_self ..⟩
    simp only [Function.update_of_ne hne, h.contexts k hne]
  · next hnone => exact ⟨h, fun hhandle => absurd hhandle hnone⟩

/-- The engine has the bit of its number, and so has the context if there is one. Its interrupt
sources are enabled. -/
theorem Under.configureInterrupt (h : Under d slot index engine control s)
    (hregs : engine.regs = offset slot) :
    Under d slot index { engine with irqBitMask := bitN index }
        (control ||| interruptSources { engine with irqBitMask := bitN index })
        (engineConfigureInterrupt slot index s) ∧
      (d.channelInterrupt index = true →
        (engineConfigureInterrupt slot index s).context index = some slot) := by
  have hmask : ((1#32 <<< xdmaEngIrqNum) - 1#32) <<< (index * xdmaEngIrqNum) = bitN index := by
    rw [xdmaEngIrqNum, Nat.mul_one]
    rfl
  unfold engineConfigureInterrupt
  rw [hmask]
  obtain ⟨hbound, hcontext⟩ :=
    (h.setEngine (f := fun engine => { engine with irqBitMask := bitN index })).bindContext
  refine ⟨hbound.setRegs hregs (fun _ => ⟨rfl, rfl⟩) fun regs hregs => ?_, hcontext⟩
  rw [hregs, hbound.engine]

theorem Under.identify :
    Under d slot index
      { d.engine slot with
        channel := slot.channel
        dir := slot.dir
        regs := offset slot
        sgdma := offset slot + sgdmaBlockOffset
        type := if (d.regs (offset slot)).identifier &&& xdmaIdStBit ≠ 0 then .st else .mm
        addressMode := if (d.regs (offset slot)).control &&& xdmaCtrlNonIncrAddr ≠ 0 then .fixed
          else .contiguous }
      (d.regs (offset slot)).control (engineIdentify slot d) := by
  have hnow : Under d slot index (d.engine slot) (d.regs (offset slot)).control d :=
    ⟨rfl, rfl, rfl, rfl, fun _ _ => rfl, fun _ _ => rfl, fun _ _ => rfl, .inl rfl, rfl⟩
  exact hnow.setEngine (f := fun engine => { engine with
    channel := slot.channel
    dir := slot.dir
    regs := offset slot
    sgdma := offset slot + sgdmaBlockOffset
    type := if (d.regs (offset slot)).identifier &&& xdmaIdStBit ≠ 0 then .st else .mm
    addressMode := if (d.regs (offset slot)).control &&& xdmaCtrlNonIncrAddr ≠ 0 then .fixed
      else .contiguous })

theorem Under.createPollWriteBackBuffer (h : Under d slot index engine control s)
    (hregs : engine.regs = offset slot)
    (hcreate : engineCreatePollWriteBackBuffer i slot s = (status, d')) :
    Under d slot index engine control d' ∧ d'.context = s.context := by
  unfold engineCreatePollWriteBackBuffer at hcreate
  split at hcreate
  · cases hcreate
    exact ⟨h, rfl⟩
  · cases hcreate
    exact ⟨h.setRegs hregs (fun _ => ⟨rfl, rfl⟩) fun _ hcontrol => hcontrol, rfl⟩

theorem Under.createDescriptorBuffer (h : Under d slot index engine control s)
    (hregs : engine.regs = offset slot)
    (hcreate : engineCreateDescriptorBuffer i slot s = (status, d')) :
    Under d slot index engine control d' ∧ d'.context = s.context := by
  unfold engineCreateDescriptorBuffer at hcreate
  split at hcreate
  · cases hcreate
    exact ⟨h, rfl⟩
  · cases hcreate
    exact ⟨h.setRegs hregs (fun _ => ⟨rfl, rfl⟩) fun _ hcontrol => hcontrol, rfl⟩

theorem Under.createWork (h : Under d slot index engine control s)
    (hcreate : engineCreateWork i slot s = (status, d')) :
    Under d slot index { engine with
        work := some (if engine.type = .st ∧ engine.dir = .c2h then .processRing
          else .processTransfer) } control d' ∧ d'.context = s.context := by
  unfold engineCreateWork at hcreate
  rw [h.engine] at hcreate
  split at hcreate
  · next hring =>
    have hset := h.setEngine (f := fun engine => { engine with work := some .processRing })
    rw [if_pos hring]
    simp only at hcreate
    split at hcreate
    · cases hcreate
      exact ⟨hset, rfl⟩
    · cases hcreate
      exact ⟨⟨hset.engine, hset.control, hset.identifier, hset.alignments, hset.engines, hset.regs,
        hset.contexts, hset.bound, hset.handles⟩, rfl⟩
  · next hring =>
    cases hcreate
    rw [if_neg hring]
    exact ⟨h.setEngine (f := fun engine => { engine with work := some .processTransfer }), rfl⟩

theorem engineCreate_spec (h : engineCreate i slot index d = (status, d'))
    (hok : ntSuccess status = true) :
    SetUp d slot index d' ∧ Under d slot index (d'.engine slot) (d'.regs (offset slot)).control
      d' := by
  have hidentified : Under d slot index _ _ (engineIdentify slot d) := Under.identify
  obtain ⟨hconfigured, hcontext⟩ := hidentified.configureInterrupt rfl
  unfold engineCreate at h
  cases hwb : engineCreatePollWriteBackBuffer i slot (engineConfigureInterrupt slot index
    (engineIdentify slot d)) with
  | mk wbStatus d₁ =>
    obtain ⟨h₁, hcontext₁⟩ := hconfigured.createPollWriteBackBuffer rfl hwb
    have h₂ := h₁.setEngine (f := fun engine =>
      { engine with alignment := engineGetAlignments (d₁.regs engine.regs).alignments })
    simp only [hwb] at h
    split at h
    · next hfail =>
      cases h
      simp [hok] at hfail
    · cases hdesc : engineCreateDescriptorBuffer i slot (d₁.setEngine slot fun engine =>
        { engine with alignment := engineGetAlignments (d₁.regs engine.regs).alignments }) with
      | mk descStatus d₃ =>
        obtain ⟨h₃, hcontext₃⟩ := h₂.createDescriptorBuffer rfl hdesc
        simp only [hdesc] at h
        split at h
        · next hfail =>
          cases h
          simp [hok] at hfail
        · split at h
          · next hfail =>
            cases h
            simp [hok] at hfail
          · cases hwork : engineCreateWork i slot d₃ with
            | mk workStatus d₄ =>
              obtain ⟨h₄, hcontext₄⟩ := h₃.createWork hwork
              simp only [hwork] at h
              split at h
              · next hfail =>
                cases h
                simp [hok] at hfail
              · cases h
                have h₅ := h₄.setEngine (f := fun engine => { engine with enabled := true })
                refine ⟨⟨h₅.engine.trans ?_, fun hhandle => ?_, ?_⟩,
                  { h₅ with engine := rfl, control := rfl }⟩
                · simp only [Engine.created, h₁.alignments]
                · change d₄.context index = some slot
                  rw [hcontext₄, hcontext₃]
                  change d₁.context index = some slot
                  rw [hcontext₁]
                  exact hcontext hhandle
                · rw [h₅.control, h₅.engine]
                  rfl

/-! ## The loop -/

/-- The k-th engine that is found in `slots` is set up as number `index + k`. -/
structure Probed (d : Device) (slots : List EngineSlot) (index : Nat) (d' : Device) : Prop
    extends Kept d slots index d' where
  missing : ∀ slot ∈ slots, engineExists d slot = false →
    d'.engine slot = d.engine slot ∧ d'.regs (offset slot) = d.regs (offset slot)
  found : ∀ k slot, (slots.filter (engineExists d))[k]? = some slot →
    SetUp d slot (index + k) d'
  bound : ∀ k slot, d'.context k = some slot → d.context k = some slot ∨
    ∃ j, k = index + j ∧ (slots.filter (engineExists d))[j]? = some slot

variable {first : EngineSlot} {rest : List EngineSlot} {d₁ : Device}

theorem engineExists_congr (h : d'.regs (offset slot) = d.regs (offset slot)) :
    engineExists d' slot = engineExists d slot := by
  rw [engineExists, engineExists, h]

theorem ne_first (hdistinct : offset first ∉ rest.map offset) (hmem : slot ∈ rest) :
    slot ≠ first ∧ offset slot ≠ offset first := by
  have hoffset : offset slot ≠ offset first := fun heq =>
    hdistinct (heq ▸ List.mem_map_of_mem hmem)
  exact ⟨fun heq => hoffset (congrArg offset heq), hoffset⟩

/-- The first engine is there and has been set up. -/
theorem Probed.create (hdistinct : offset first ∉ rest.map offset)
    (hexists : engineExists d first = true) (hsetUp : SetUp d first index d₁)
    (hunder : Under d first index (d₁.engine first) control d₁)
    (h : Probed d₁ rest (index + 1) d') :
    Probed d (first :: rest) index d' := by
  have hsame : ∀ slot ∈ rest, engineExists d₁ slot = engineExists d slot := fun slot hmem =>
    engineExists_congr (hunder.regs _ (ne_first hdistinct hmem).2)
  refine ⟨⟨fun slot hmem => ?_, fun k hk => ?_, h.handles.trans hunder.handles, fun a ha => ?_⟩,
    fun slot hmem hnone => ?_, fun k slot hk => ?_, fun k slot hk => ?_⟩
  · rw [List.mem_cons, not_or] at hmem
    rw [h.engines slot hmem.2, hunder.engines slot hmem.1]
  · rw [h.contexts k (by omega), hunder.contexts k (by omega)]
  · rw [List.map_cons, List.mem_cons, not_or] at ha
    rw [h.regs a ha.2, hunder.regs a ha.1]
  · rcases List.mem_cons.mp hmem with rfl | hmem
    · rw [hexists] at hnone
      cases hnone
    · obtain ⟨hne, hoffset⟩ := ne_first hdistinct hmem
      obtain ⟨hengine, hregs⟩ := h.missing slot hmem ((hsame slot hmem).trans hnone)
      exact ⟨hengine.trans (hunder.engines slot hne), hregs.trans (hunder.regs _ hoffset)⟩
  · rw [List.filter_cons_of_pos hexists] at hk
    cases k with
    | zero =>
      cases hk
      have hkept : d'.engine first = d₁.engine first :=
        h.engines first fun hmem => (ne_first hdistinct hmem).1 rfl
      refine ⟨hkept.trans hsetUp.engine, fun hhandle => ?_, ?_⟩
      · exact (h.contexts index (Nat.lt_succ_self _)).trans (hsetUp.context hhandle)
      · rw [h.regs _ hdistinct, hkept]
        exact hsetUp.control
    | succ k =>
      rw [List.getElem?_cons_succ, ← List.filter_congr hsame] at hk
      have hmem : slot ∈ rest := List.mem_of_mem_filter (List.mem_of_getElem? hk)
      obtain ⟨hengine, hcontext, hcontrol⟩ := h.found k slot hk
      obtain ⟨hne, hoffset⟩ := ne_first hdistinct hmem
      rw [show index + (k + 1) = index + 1 + k by omega]
      refine ⟨?_, fun hhandle => hcontext ?_, ?_⟩
      · rw [hengine, hunder.regs _ hoffset, hunder.engines slot hne]
      · rw [hunder.handles]
        exact hhandle
      · rw [hcontrol, hunder.regs _ hoffset]
  · rw [List.filter_cons_of_pos hexists, ← List.filter_congr hsame]
    rcases h.bound k slot hk with hbefore | ⟨j, rfl, hj⟩
    · by_cases hindex : k = index
      · subst hindex
        rcases hunder.bound with hkept | hown
        · exact .inl (hkept ▸ hbefore)
        · exact .inr ⟨0, rfl, hown.symm.trans hbefore⟩
      · exact .inl (hunder.contexts k hindex ▸ hbefore)
    · exact .inr ⟨j + 1, by omega, hj⟩

/-- There is no engine in the first place. -/
theorem Probed.skip (hdistinct : offset first ∉ rest.map offset)
    (hexists : ¬ engineExists d first = true) (h : Probed d rest index d') :
    Probed d (first :: rest) index d' := by
  refine ⟨⟨fun slot hmem => ?_, h.contexts, h.handles, fun a ha => ?_⟩,
    fun slot hmem hnone => ?_, fun k slot hk => ?_, fun k slot hk => ?_⟩
  · exact h.engines slot fun hrest => hmem (List.mem_cons_of_mem _ hrest)
  · exact h.regs a fun hrest => ha (List.mem_cons_of_mem _ hrest)
  · rcases List.mem_cons.mp hmem with rfl | hmem
    · exact ⟨h.engines slot fun hrest => (ne_first hdistinct hrest).1 rfl, h.regs _ hdistinct⟩
    · exact h.missing slot hmem hnone
  · rw [List.filter_cons_of_neg hexists] at hk
    exact h.found k slot hk
  · rw [List.filter_cons_of_neg hexists]
    exact h.bound k slot hk

theorem probed_of_probeLoop (hdistinct : (slots.map offset).Nodup)
    (h : probeLoop is slots index d = (status, d')) (hok : ntSuccess status = true) :
    Probed d slots index d' := by
  induction slots generalizing index d with
  | nil =>
    cases h
    refine ⟨⟨fun _ _ => rfl, fun _ _ => rfl, rfl, fun _ _ => rfl⟩, ?_, fun k slot hk => ?_,
      fun _ _ hk => .inl hk⟩
    · exact fun slot hmem => absurd hmem (List.not_mem_nil)
    · simp at hk
  | cons first rest ih =>
    rw [List.map_cons, List.nodup_cons] at hdistinct
    obtain ⟨hfirst, hrest⟩ := hdistinct
    unfold probeLoop at h
    split at h
    · next hexists =>
      cases hcreate : engineCreate (is first) first index d with
      | mk createStatus d₁ =>
        simp only [hcreate] at h
        split at h
        · next hfail =>
          cases h
          simp [hok] at hfail
        · next hcreated =>
          obtain ⟨hsetUp, hunder⟩ := engineCreate_spec hcreate (by simpa using hcreated)
          exact (ih hrest h).create hfirst hexists hsetUp hunder
    · next hexists => exact (ih hrest h).skip hfirst hexists

/-! ## The way of an interrupt -/

/-- An interrupt object with these callbacks works on the engine when channel bit `k` is raised:
`EvtChannelInterruptDpc` on that of its context, `EvtInterruptDpc` on those with the bit. -/
def WorksOn (d : Device) (k : Nat) : InterruptHandler → EngineSlot → Prop
  | .user _, _ => False
  | .channel index, slot => d.context index = some slot
  | .device, slot =>
    slot ∈ engineSlots ∧ (d.engine slot).enabled = true ∧ bitN k &&& (d.engine slot).irqBitMask ≠ 0

theorem bitN_and_self (hk : k < xdmaMaxChanIrq) : bitN k &&& bitN k ≠ 0 := by
  have hall : ∀ k : Fin xdmaMaxChanIrq, bitN k &&& bitN k ≠ 0 := by decide
  exact hall ⟨k, hk⟩

/-- There are no more engines than channel bits. -/
theorem number_lt {p : EngineSlot → Bool} (h : (engineSlots.filter p)[k]? = some slot) :
    k < xdmaMaxChanIrq :=
  (List.getElem?_eq_some_iff.mp h).1.trans_le (List.length_filter_le p engineSlots)

theorem Probed.worksOn {o : InterruptObject} {source : Fin xdmaMaxChanIrq}
    (h : Probed d engineSlots 0 d') (hdisabled : ∀ slot, (d.engine slot).enabled = false)
    (hhandle : o.handler = .channel source → d.channelInterrupt source = true)
    (hservices : o.handler.Services (.channel source))
    (hk : (engineSlots.filter (engineExists d))[source.val]? = some slot) (slot' : EngineSlot) :
    WorksOn d' source o.handler slot' ↔ slot' = slot := by
  obtain ⟨hengine, hcontext, -⟩ := h.found source slot hk
  rw [Nat.zero_add] at hengine hcontext
  cases hhandler : o.handler with
  | user eventId =>
    rw [hhandler] at hservices
    exact hservices.elim
  | channel index =>
    rw [hhandler] at hservices
    have hindex : index = source := hservices
    subst hindex
    rw [WorksOn, hcontext (hhandle hhandler), Option.some.injEq]
    exact eq_comm
  | device =>
    constructor
    · rintro ⟨hmem, henabled, hbit⟩
      by_cases hexists : engineExists d slot' = true
      · obtain ⟨j, hj⟩ := List.getElem?_of_mem (List.mem_filter.mpr ⟨hmem, hexists⟩)
        have hmask : (d'.engine slot').irqBitMask = bitN j := by
          rw [(h.found j slot' hj).engine, Nat.zero_add]
          rfl
        rw [hmask] at hbit
        have hsame : source.val = j := by_contra fun hne => hbit (bitN_and_of_ne hne)
        rw [← hsame, hk] at hj
        exact (Option.some.inj hj).symm
      · rw [(h.missing slot' hmem (Bool.eq_false_of_not_eq_true hexists)).1, hdisabled] at henabled
        cases henabled
    · rintro rfl
      refine ⟨List.mem_of_mem_filter (List.mem_of_getElem? hk), ?_, ?_⟩
      · rw [hengine]
        rfl
      · rw [hengine]
        exact bitN_and_self source.isLt

theorem routed_of_routable {vectors : VectorReg → BitVec 32} {i : InterruptInput}
    {resources : List CmResource} (hok : ntSuccess (setupInterrupts i resources).status = true)
    (h : Routable i resources) : Routed i.pin vectors (setupInterrupts i resources) := by
  unfold Routable at h
  unfold setupInterrupts at hok ⊢
  split
  · next hcount =>
    rw [if_pos hcount] at h hok
    exact (setupMsixInterrupts_routed_iff hcount hok).mpr h
  · next hcount =>
    rw [if_neg hcount] at h hok
    split
    · next hnum =>
      rw [if_pos hnum] at h hok
      exact (setupMultiMsiInterrupts_routed_iff hnum hok).mpr h
    · next hnum =>
      rw [if_neg hnum] at h hok
      exact (setupSingleInterrupt_routed_iff hok).mpr h

/-- Whichever of the eight engines the hardware has and in each of the three modes: the interrupt
that the k-th engine raises is that of an object that works on this engine and on no other. -/
theorem openFirst_interrupts {i : InterruptInput} {resources : List CmResource}
    {vectors : VectorReg → BitVec 32} (hopen : openFirst i resources is d = (status, d'))
    (hok : ntSuccess status = true) (hroutable : Routable i resources)
    (hk : (engineSlots.filter (engineExists d))[k]? = some slot) :
    ∃ (source : Fin xdmaMaxChanIrq) (o : InterruptObject), source.val = k ∧
      Routes i.pin (writeVectors vectors (setupInterrupts i resources).vectors)
        (setupInterrupts i resources).objects (.channel source) o ∧
      ∀ slot', WorksOn d' k o.handler slot' ↔ slot' = slot := by
  unfold openFirst at hopen
  simp only at hopen
  split at hopen
  · next hfail =>
    cases hopen
    simp [hok] at hfail
  · next hsetup =>
    have hrouted : Routed i.pin vectors (setupInterrupts i resources) :=
      routed_of_routable (by simpa using hsetup) hroutable
    obtain ⟨o, hroutes⟩ := hrouted (.channel ⟨k, number_lt hk⟩)
    have hprobed := probed_of_probeLoop (by decide) hopen hok
    refine ⟨⟨k, number_lt hk⟩, o, rfl, hroutes, ?_⟩
    refine hprobed.worksOn (fun _ => rfl) (fun hhandler => ?_) hroutes.services hk
    exact List.any_eq_true.mpr ⟨o, hroutes.mem, beq_iff_eq.mpr hhandler⟩

/-- The engine in an interrupt context has the bit of the context. -/
theorem openFirst_context {i : InterruptInput} {resources : List CmResource}
    (hopen : openFirst i resources is d = (status, d')) (hok : ntSuccess status = true)
    (hcontext : d'.context k = some slot) :
    k < xdmaMaxChanIrq ∧ (d'.engine slot).irqBitMask = bitN k := by
  unfold openFirst at hopen
  simp only at hopen
  split at hopen
  · next hfail =>
    cases hopen
    simp [hok] at hfail
  · have hprobed := probed_of_probeLoop (by decide) hopen hok
    rcases hprobed.bound k slot hcontext with hnone | ⟨j, rfl, hj⟩
    · cases hnone
    · rw [Nat.zero_add]
      refine ⟨number_lt hj, ?_⟩
      rw [(hprobed.found j slot hj).engine, Nat.zero_add]
      rfl

/-! ## The mode of the engines -/

/-- The work of the engine is `EngineProcessRing`. -/
abbrev Engine.Ring (engine : Engine) : Prop := engine.type = .st ∧ engine.dir = .c2h

/-- What `XDMA_EngineSetPollMode` writes of the control register. -/
def modeBits : BitVec 32 := xdmaCtrlPollMode ||| xdmaCtrlIeAll

/-- The engine and the driver agree on who finds out that a transfer is done: in poll mode the
hardware writes back and does not interrupt for it. A ring interrupts in either mode when its engine
stops idle. The hardware had `control` in the register before the driver. -/
structure Device.InMode (d : Device) (control : BitVec 32) (slot : EngineSlot) (pollMode : Bool) :
    Prop where
  poll : (d.engine slot).poll = pollMode
  writeback : (d.regs (offset slot)).control &&& xdmaCtrlPollMode =
    if pollMode then xdmaCtrlPollMode else 0
  interrupts : (d.regs (offset slot)).control &&& xdmaCtrlIeAll =
    if pollMode then 0 else xdmaCtrlIeAll
  idleStopped : (d.regs (offset slot)).control &&& xdmaCtrlIeIdleStopped =
    if (d.engine slot).Ring then xdmaCtrlIeIdleStopped else control &&& xdmaCtrlIeIdleStopped
  others : (d.regs (offset slot)).control &&& ~~~ (modeBits ||| xdmaCtrlIeIdleStopped) =
    control &&& ~~~ (modeBits ||| xdmaCtrlIeIdleStopped)

/-- What is left alone while the engines in `slots` are taken to a mode. -/
structure ModeKept (d : Device) (slots : List EngineSlot) (d' : Device) : Prop where
  enabled : ∀ slot, (d'.engine slot).enabled = (d.engine slot).enabled
  place : ∀ slot, (d'.engine slot).regs = (d.engine slot).regs
  engines : ∀ slot, slot ∉ slots ∨ (d.engine slot).enabled = false →
    d'.engine slot = d.engine slot
  regs : ∀ a, (∀ slot ∈ slots, (d.engine slot).enabled = true → (d.engine slot).regs ≠ a) →
    d'.regs a = d.regs a

/-- The registers of the engines that are enabled are in their places. -/
def Device.Placed (d : Device) : Prop :=
  ∀ slot, (d.engine slot).enabled = true → (d.engine slot).regs = offset slot

theorem ModeKept.placed (h : ModeKept d slots d') (hplaced : d.Placed) : d'.Placed :=
  fun slot hon => (h.place slot).trans (hplaced slot ((h.enabled slot).symm.trans hon))

theorem ModeKept.inMode {p : Bool} (h : ModeKept d slots d') (hslot : slot ∉ slots)
    (hregs : ∀ slot' ∈ slots, (d.engine slot').enabled = true →
      (d.engine slot').regs ≠ offset slot)
    (hmode : d.InMode control slot p) : d'.InMode control slot p := by
  have hengine : d'.engine slot = d.engine slot := h.engines slot (.inl hslot)
  have hcontrol : d'.regs (offset slot) = d.regs (offset slot) := h.regs _ hregs
  obtain ⟨hpoll, hwriteback, hinterrupts, hidle, hothers⟩ := hmode
  refine ⟨?_, ?_, ?_, ?_, ?_⟩
  · rw [hengine, hpoll]
  · rw [hcontrol, hwriteback]
  · rw [hcontrol, hinterrupts]
  · rw [hcontrol, hengine, hidle]
  · rw [hcontrol, hothers]

theorem xdmaEngineSetPollMode_kept {p : Bool} :
    ModeKept d [slot] (xdmaEngineSetPollMode slot p d) := by
  unfold xdmaEngineSetPollMode
  split
  · next hon =>
    refine ⟨fun slot' => ?_, fun slot' => ?_, fun slot' hslot' => ?_, fun a ha => ?_⟩
    · by_cases hne : slot' = slot
      · subst hne
        simp [Device.setEngine, Device.setRegs]
      · simp [Device.setEngine, Device.setRegs, hne]
    · by_cases hne : slot' = slot
      · subst hne
        simp [Device.setEngine, Device.setRegs]
      · simp [Device.setEngine, Device.setRegs, hne]
    · have hne : slot' ≠ slot := by
        rintro rfl
        rcases hslot' with hnot | hoff
        · exact hnot (List.mem_singleton.mpr rfl)
        · rw [hon] at hoff
          cases hoff
      simp [Device.setEngine, Device.setRegs, hne]
    · have hne := ha slot (List.mem_singleton.mpr rfl) hon
      simp [Device.setEngine, Device.setRegs, hne.symm]
  · exact ⟨fun _ => rfl, fun _ => rfl, fun _ _ => rfl, fun _ _ => rfl⟩

theorem or_and_not_and_of_disjoint {x set clear : BitVec 32} (h : set &&& clear = 0) :
    ((x ||| set) &&& ~~~ clear) &&& set = set ∧ ((x ||| set) &&& ~~~ clear) &&& clear = 0 := by
  constructor
  · ext b hb
    have hbit := congrArg (fun v : BitVec 32 => v[b]) h
    simp at hbit ⊢
    grind
  · ext b hb
    simp

theorem and_not_or_and_of_disjoint {x set clear : BitVec 32} (h : set &&& clear = 0) :
    ((x &&& ~~~ clear) ||| set) &&& set = set ∧ ((x &&& ~~~ clear) ||| set) &&& clear = 0 := by
  constructor
  · ext b hb
    simp
    grind
  · ext b hb
    have hbit := congrArg (fun v : BitVec 32 => v[b]) h
    simp at hbit ⊢
    grind

/-- Bits apart from those that are set and cleared are left. -/
theorem or_and_not_and_of_apart {x set clear kept : BitVec 32} (hset : set &&& kept = 0)
    (hclear : clear &&& kept = 0) :
    ((x ||| set) &&& ~~~ clear) &&& kept = x &&& kept ∧
      ((x &&& ~~~ clear) ||| set) &&& kept = x &&& kept := by
  constructor
  all_goals
    ext b hb
    have hsetBit := congrArg (fun v : BitVec 32 => v[b]) hset
    have hclearBit := congrArg (fun v : BitVec 32 => v[b]) hclear
    simp at hsetBit hclearBit ⊢
    grind

/-- The control register of an engine that is enabled. -/
def modeControl (pollMode : Bool) (control : BitVec 32) : BitVec 32 :=
  if pollMode then (control ||| xdmaCtrlPollMode) &&& ~~~ xdmaCtrlIeAll
  else (control &&& ~~~ xdmaCtrlPollMode) ||| xdmaCtrlIeAll

theorem modeControl_and {p : Bool} {kept c : BitVec 32} (hkept : modeBits &&& kept = 0) :
    modeControl p c &&& kept = c &&& kept := by
  have hpoll : xdmaCtrlPollMode &&& kept = 0 := by
    have hpart : xdmaCtrlPollMode = xdmaCtrlPollMode &&& modeBits := by decide
    rw [hpart, BitVec.and_assoc, hkept]
    exact BitVec.and_zero
  have hinterrupts : xdmaCtrlIeAll &&& kept = 0 := by
    have hpart : xdmaCtrlIeAll = xdmaCtrlIeAll &&& modeBits := by decide
    rw [hpart, BitVec.and_assoc, hkept]
    exact BitVec.and_zero
  cases p with
  | true => exact (or_and_not_and_of_apart hpoll hinterrupts).1
  | false => exact (or_and_not_and_of_apart hinterrupts hpoll).2

theorem xdmaEngineSetPollMode_inMode {p : Bool} (hon : (d.engine slot).enabled = true)
    (hregs : (d.engine slot).regs = offset slot)
    (hcontrol : (d.regs (offset slot)).control = control ||| interruptSources (d.engine slot)) :
    (xdmaEngineSetPollMode slot p d).InMode control slot p := by
  have hpoll : xdmaCtrlPollMode &&& xdmaCtrlIeAll = 0 := by decide
  have hinterrupts : xdmaCtrlIeAll &&& xdmaCtrlPollMode = 0 := by decide
  have hnow : ((xdmaEngineSetPollMode slot p d).regs (offset slot)).control =
      modeControl p (control ||| interruptSources (d.engine slot)) := by
    rw [xdmaEngineSetPollMode, if_pos hon]
    simp only [Device.setEngine, Device.setRegs, hregs, Function.update_self, ← hcontrol]
    cases p <;> rfl
  have hring : ((xdmaEngineSetPollMode slot p d).engine slot).Ring ↔ (d.engine slot).Ring := by
    rw [xdmaEngineSetPollMode, if_pos hon]
    simp only [Device.setEngine, Device.setRegs, Function.update_self, Engine.Ring]
  refine ⟨?_, ?_, ?_, ?_, ?_⟩
  · simp [xdmaEngineSetPollMode, hon, Device.setEngine]
  · rw [hnow]
    cases p with
    | true => exact (or_and_not_and_of_disjoint hpoll).1
    | false => exact (and_not_or_and_of_disjoint hinterrupts).2
  · rw [hnow]
    cases p with
    | true => exact (or_and_not_and_of_disjoint hpoll).2
    | false => exact (and_not_or_and_of_disjoint hinterrupts).1
  · rw [hnow, modeControl_and (by decide), if_congr hring rfl rfl, interruptSources]
    split
    · ext b hb
      simp
      grind
    · rw [BitVec.and_or_distrib_right]
      have hapart : xdmaCtrlIeAll &&& xdmaCtrlIeIdleStopped = 0 := by decide
      rw [hapart]
      exact BitVec.or_zero
  · have hsources : interruptSources (d.engine slot) &&&
        ~~~ (modeBits ||| xdmaCtrlIeIdleStopped) = 0 := by
      rw [interruptSources]
      split <;> decide
    rw [hnow, modeControl_and (by decide), BitVec.and_or_distrib_right, hsources]
    exact BitVec.or_zero

/-- The interrupt sources of the engines that are enabled are, beside what the hardware had in
their control registers. -/
def Device.Configured (control : EngineSlot → BitVec 32) (d : Device) (slots : List EngineSlot) :
    Prop :=
  ∀ slot ∈ slots, (d.engine slot).enabled = true →
    (d.regs (offset slot)).control = control slot ||| interruptSources (d.engine slot)

theorem Device.Configured.keep {control : EngineSlot → BitVec 32}
    (h : d.Configured control (first :: rest)) (hfirst : offset first ∉ rest.map offset)
    (hplaced : d.Placed) (hstep : ModeKept d [first] d') : d'.Configured control rest := by
  intro slot hmem hon
  obtain ⟨hne, hoffset⟩ := ne_first hfirst hmem
  have hon' : (d.engine slot).enabled = true := (hstep.enabled slot).symm.trans hon
  have hengine : d'.engine slot = d.engine slot :=
    hstep.engines slot (.inl fun hin => hne (List.mem_singleton.mp hin))
  have hregs : d'.regs (offset slot) = d.regs (offset slot) :=
    hstep.regs _ fun slot' hin hslot' => by
      rw [List.mem_singleton.mp hin] at hslot' ⊢
      rw [hplaced first hslot']
      exact hoffset.symm
  rw [hengine, hregs]
  exact h slot (List.mem_cons_of_mem _ hmem) hon'

/-- The loop over the engines: each one that is enabled gets to the mode and stays in it. -/
theorem setPollModes_loop {p : Bool} {control : EngineSlot → BitVec 32}
    (hdistinct : (slots.map offset).Nodup) (hplaced : d.Placed)
    (hconfigured : d.Configured control slots) :
    ModeKept d slots (slots.foldl (fun d slot => xdmaEngineSetPollMode slot p d) d) ∧
      ∀ slot ∈ slots, (d.engine slot).enabled = true →
        (slots.foldl (fun d slot => xdmaEngineSetPollMode slot p d) d).InMode (control slot)
          slot p := by
  induction slots generalizing d with
  | nil =>
    exact ⟨⟨fun _ => rfl, fun _ => rfl, fun _ _ => rfl, fun _ _ => rfl⟩, fun _ h => by cases h⟩
  | cons first rest ih =>
    rw [List.map_cons, List.nodup_cons] at hdistinct
    obtain ⟨hfirst, hrest⟩ := hdistinct
    have hstep : ModeKept d [first] (xdmaEngineSetPollMode first p d) := xdmaEngineSetPollMode_kept
    obtain ⟨hkept, hmode⟩ := ih hrest (hstep.placed hplaced)
      (hconfigured.keep hfirst hplaced hstep)
    rw [List.foldl_cons]
    refine ⟨⟨fun slot => ?_, fun slot => ?_, fun slot hslot => ?_, fun a ha => ?_⟩,
      fun slot hmem hon => ?_⟩
    · rw [hkept.enabled, hstep.enabled]
    · rw [hkept.place, hstep.place]
    · have hnot : slot ∉ rest ∨ (d.engine slot).enabled = false := hslot.imp_left fun h hmem =>
        h (List.mem_cons_of_mem _ hmem)
      have hnot' : slot ∉ [first] ∨ (d.engine slot).enabled = false := hslot.imp_left fun h hmem =>
        h (List.mem_singleton.mp hmem ▸ List.mem_cons_self)
      rw [hkept.engines slot (hnot.imp_right (hstep.enabled slot).trans), hstep.engines slot hnot']
    · rw [hkept.regs a fun slot hmem hon => ?_, hstep.regs a fun slot hmem => ?_]
      · rw [List.mem_singleton.mp hmem]
        exact ha first List.mem_cons_self
      · rw [hstep.place]
        exact ha slot (List.mem_cons_of_mem _ hmem) ((hstep.enabled slot).symm.trans hon)
    · rcases List.mem_cons.mp hmem with rfl | hmem
      · refine hkept.inMode (fun hmem => (ne_first hfirst hmem).1 rfl) (fun slot' hmem hon' => ?_)
          (xdmaEngineSetPollMode_inMode hon (hplaced _ hon)
            (hconfigured slot List.mem_cons_self hon))
        rw [hstep.placed hplaced slot' hon']
        exact (ne_first hfirst hmem).2
      · exact hmode slot hmem ((hstep.enabled slot).trans hon)

theorem Probed.enabled (h : Probed d engineSlots 0 d')
    (hdisabled : ∀ slot, (d.engine slot).enabled = false) (hslot : slot ∈ engineSlots) :
    (d'.engine slot).enabled = engineExists d slot := by
  cases hexists : engineExists d slot with
  | true =>
    obtain ⟨k, hk⟩ := List.getElem?_of_mem (List.mem_filter.mpr ⟨hslot, hexists⟩)
    rw [(h.found k slot hk).engine]
    rfl
  | false => rw [(h.missing slot hslot hexists).1, hdisabled]

theorem Probed.placed (h : Probed d engineSlots 0 d')
    (hdisabled : ∀ slot, (d.engine slot).enabled = false) : d'.Placed := by
  intro slot hon
  have hmem : slot ∈ engineSlots := by
    by_contra hnot
    rw [h.engines slot hnot, hdisabled] at hon
    cases hon
  rw [h.enabled hdisabled hmem] at hon
  obtain ⟨k, hk⟩ := List.getElem?_of_mem (List.mem_filter.mpr ⟨hmem, hon⟩)
  rw [(h.found k slot hk).engine]
  rfl

theorem Probed.configured (h : Probed d engineSlots 0 d')
    (hdisabled : ∀ slot, (d.engine slot).enabled = false) :
    d'.Configured (fun slot => (d.regs (offset slot)).control) engineSlots := by
  intro slot hmem hon
  rw [h.enabled hdisabled hmem] at hon
  obtain ⟨k, hk⟩ := List.getElem?_of_mem (List.mem_filter.mpr ⟨hmem, hon⟩)
  exact (h.found k slot hk).control

/-- When the hardware is prepared, each engine that is there is in the mode that is configured, and
nothing has been written to the places without an engine. -/
theorem setPollModes_mode {i : InterruptInput} {resources : List CmResource}
    (hopen : openFirst i resources is d = (status, d')) (hok : ntSuccess status = true)
    (pollMode : Bool) (hslot : slot ∈ engineSlots) :
    ((setPollModes pollMode d').engine slot).enabled = engineExists d slot ∧
      (engineExists d slot = true →
        (setPollModes pollMode d').InMode (d.regs (offset slot)).control slot pollMode) ∧
      (engineExists d slot = false →
        (setPollModes pollMode d').regs (offset slot) = d.regs (offset slot)) := by
  unfold openFirst at hopen
  simp only at hopen
  split at hopen
  · next hfail =>
    cases hopen
    simp [hok] at hfail
  · have hdistinct : (engineSlots.map offset).Nodup := by decide
    have hprobed := probed_of_probeLoop hdistinct hopen hok
    have henabled := hprobed.enabled (fun _ => rfl) hslot
    have hplaced := hprobed.placed fun _ => rfl
    obtain ⟨hkept, hmode⟩ := setPollModes_loop (p := pollMode) hdistinct hplaced
      (hprobed.configured fun _ => rfl)
    refine ⟨(hkept.enabled slot).trans henabled, fun hexists => ?_, fun hnone => ?_⟩
    · exact hmode slot hslot (henabled.trans hexists)
    · refine (hkept.regs _ fun slot' hmem hon heq => ?_).trans
        (hprobed.missing slot hslot hnone).2
      rw [hplaced slot' hon] at heq
      have hsame : slot' = slot := List.inj_on_of_nodup_map hdistinct hmem hslot heq
      rw [hsame, henabled] at hon
      exact absurd (hnone.symm.trans hon) Bool.false_ne_true

theorem xdmaEngineSetPollMode_keeps (slot : EngineSlot) (p : Bool) (d : Device) :
    (xdmaEngineSetPollMode slot p d).context = d.context ∧ ∀ slot',
      ((xdmaEngineSetPollMode slot p d).engine slot').irqBitMask = (d.engine slot').irqBitMask := by
  unfold xdmaEngineSetPollMode
  split
  · refine ⟨rfl, fun slot' => ?_⟩
    by_cases hne : slot' = slot
    · subst hne
      simp [Device.setEngine, Device.setRegs]
    · simp [Device.setEngine, Device.setRegs, hne]
  · exact ⟨rfl, fun _ => rfl⟩

theorem setPollModes_loop_keeps {p : Bool} {d : Device} {slots : List EngineSlot} :
    (slots.foldl (fun d slot => xdmaEngineSetPollMode slot p d) d).context = d.context ∧ ∀ slot,
      ((slots.foldl (fun d slot => xdmaEngineSetPollMode slot p d) d).engine slot).irqBitMask =
        (d.engine slot).irqBitMask := by
  induction slots generalizing d with
  | nil => exact ⟨rfl, fun _ => rfl⟩
  | cons first rest ih =>
    obtain ⟨hcontext, hmask⟩ := xdmaEngineSetPollMode_keeps first p d
    obtain ⟨hcontext', hmask'⟩ := ih (d := xdmaEngineSetPollMode first p d)
    exact ⟨hcontext'.trans hcontext, fun slot => (hmask' slot).trans (hmask slot)⟩

/-- The mode has nothing to do with the way of an interrupt. -/
theorem setPollModes_keeps {p : Bool} {d : Device} :
    (setPollModes p d).context = d.context ∧ ∀ slot,
      ((setPollModes p d).engine slot).irqBitMask = (d.engine slot).irqBitMask :=
  setPollModes_loop_keeps

/-! ## A device with gaps -/

/-- The hardware has `H2C_0`, `H2C_2` and the streaming engine `C2H_1`. -/
def gapDevice : Device where
  engine := fun slot =>
    ⟨false, false, slot.channel, slot.dir, 0, 0, .mm, .contiguous, 0, ⟨0, 0, 0⟩, none⟩
  channelInterrupt := fun _ => false
  context := fun _ => none
  regs := fun a =>
    ⟨if a = 0x1100 then xdmaId ||| xdmaIdStBit else if a ∈ [0, 0x200] then xdmaId else 0,
      0, 0, 0, 0, 0, 0, 0, 0⟩
  creditModeEnable := 0

def gapInput : CreateInput := ⟨statusSuccess, 0, statusSuccess, 0, statusSuccess, statusSuccess⟩

/-- One message for each source. -/
def messageResources : List CmResource := List.replicate xdmaMaxNumIrq (.interrupt true)

def gapOpen : NtStatus × Device :=
  openFirst (.sample 0) messageResources (fun _ => gapInput) gapDevice

theorem openFirst_interrupts_gap :
    ∃ (source : Fin xdmaMaxChanIrq) (o : InterruptObject), source.val = 2 ∧
      Routes 0 (writeVectors (fun _ => 0) (setupInterrupts (.sample 0) messageResources).vectors)
        (setupInterrupts (.sample 0) messageResources).objects (.channel source) o ∧
      ∀ slot', WorksOn gapOpen.2 2 o.handler slot' ↔ slot' = ⟨.c2h, 1⟩ := by
  have hok : ntSuccess gapOpen.1 = true := by decide
  have hroutable : Routable (.sample 0) messageResources := by
    have hmessages : ∀ n < xdmaMaxNumIrq, (interruptsOf messageResources)[n]? ≠ some false := by
      decide
    exact fun n hn hline => absurd hline (hmessages n hn)
  have hopen : openFirst (.sample 0) messageResources (fun _ => gapInput) gapDevice =
      (gapOpen.1, gapOpen.2) := rfl
  have hthird : (engineSlots.filter (engineExists gapDevice))[2]? = some ⟨.c2h, 1⟩ := by decide
  exact openFirst_interrupts hopen hok hroutable hthird

theorem setPollModes_mode_gap :
    ((setPollModes true gapOpen.2).engine ⟨.c2h, 1⟩).enabled = true ∧
      (setPollModes true gapOpen.2).InMode 0 ⟨.c2h, 1⟩ true := by
  have hok : ntSuccess gapOpen.1 = true := by decide
  have hopen : openFirst (.sample 0) messageResources (fun _ => gapInput) gapDevice =
      (gapOpen.1, gapOpen.2) := rfl
  obtain ⟨henabled, hmode, -⟩ := setPollModes_mode hopen hok true
    (show ⟨.c2h, 1⟩ ∈ engineSlots by decide)
  have hexists : engineExists gapDevice ⟨.c2h, 1⟩ = true := by decide
  exact ⟨henabled.trans hexists, hmode hexists⟩

end Probe

end Xadma
