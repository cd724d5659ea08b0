import Mathlib.Tactic.FinCases
import Xadma.Libxdma.InterruptSetup

/-!
# Which interrupt a source raises

A source raises the message, or the pin, that the field of its vector register names, and it is
served if the object of that interrupt has its handler. With messages the fields are the numbers of
the sources, and so are the positions of the objects. With a single line the registers hold the pin
in their first field only.
-/

namespace Xadma

/-- A source of interrupts of the device. -/
inductive IrqSource
  | user (k : Fin xdmaMaxUserIrq)
  | channel (k : Fin xdmaMaxChanIrq)
  deriving DecidableEq, Repr

namespace IrqSource

def number : IrqSource → Nat
  | .user k => k
  | .channel k => xdmaMaxUserIrq + k

/-- The register that has the field of the source, and its place there. -/
def reg : IrqSource → VectorReg
  | .user k => .user (k / 4)
  | .channel k => .channel (k / 4)

def lane : IrqSource → Nat
  | .user k => k % 4
  | .channel k => k % 4

def field (source : IrqSource) (vectors : VectorReg → BitVec 32) : BitVec 5 :=
  (vectors source.reg >>> (8 * source.lane)).setWidth 5

end IrqSource

def InterruptHandler.Services : InterruptHandler → IrqSource → Prop
  | .user eventId, .user k => eventId = k
  | .channel index, .channel k => index = k
  | .device, _ => True
  | _, _ => False

/-- The messages of the device are numbered in the order of the resources, and those of one resource
in the order in which its objects are created. -/
def InterruptObject.position (o : InterruptObject) : Nat := o.resource + o.sibling

/-- The field names the message or the pin of the object; a field counts the pins from 0=A. -/
def InterruptObject.Named (o : InterruptObject) (pin : BitVec 8) (field : BitVec 5) : Prop :=
  if o.message = true then field.toNat = o.position ∧ o.sibling < o.messageCount
  else field.toNat + 1 = pin.toNat

/-- The source raises the interrupt of the one object that services it. -/
structure Routes (pin : BitVec 8) (vectors : VectorReg → BitVec 32) (objects : List InterruptObject)
    (source : IrqSource) (o : InterruptObject) : Prop where
  mem : o ∈ objects
  services : o.handler.Services source
  only : ∀ o' ∈ objects, o'.handler.Services source → o' = o
  inOrder : o.handler = .device ∨ o.position = source.number
  named : o.Named pin (source.field vectors)

def Routed (pin : BitVec 8) (vectors : VectorReg → BitVec 32) (setup : InterruptSetup) : Prop :=
  ∀ source, ∃ o, Routes pin (writeVectors vectors setup.vectors) setup.objects source o

/-- The interrupt resources in order. -/
def interruptsOf : List CmResource → List Bool
  | [] => []
  | .interrupt message :: resources => message :: interruptsOf resources
  | _ :: resources => interruptsOf resources

/-- Every interrupt resource that is used is message-signalled, or it is a line with the pin that
the fields of its sources name. -/
def Routable (i : InterruptInput) (resources : List CmResource) : Prop :=
  if xdmaMaxNumIrq ≤ countInterruptResources resources then
    ∀ n < xdmaMaxNumIrq, (interruptsOf resources)[n]? = some false → i.pin.toNat = n + 1
  else if xdmaMaxNumIrq ≤ i.msiVectors.toNat then
    firstInterrupt resources ≠ some false
  else firstInterrupt resources = some false → i.pin = 1

variable {i : InterruptInput} {resources : List CmResource} {s : Created} {pin : BitVec 8}
  {vectors : VectorReg → BitVec 32} {status : NtStatus} {objects : List InterruptObject}

/-! ## Fields and handlers -/

theorem IrqSource.number_lt (source : IrqSource) : source.number < xdmaMaxNumIrq := by
  cases source with
  | user k => exact Nat.lt_of_lt_of_le k.isLt (Nat.le_add_right _ _)
  | channel k => exact Nat.add_lt_add_left k.isLt _

/-- A register that is written holds the value written last. -/
theorem writeVectors_lookup {writes : List (VectorReg × BitVec 32)} {reg : VectorReg}
    {value : BitVec 32} (h : writes.reverse.lookup reg = some value) :
    writeVectors vectors writes reg = value := by
  suffices heq : writeVectors vectors writes reg =
      (writes.reverse.lookup reg).getD (vectors reg) by
    rw [heq, h]
    rfl
  clear h
  induction writes generalizing vectors with
  | nil => rfl
  | cons write writes ih =>
    obtain ⟨written, value⟩ := write
    rw [writeVectors, ih, List.reverse_cons, List.lookup_append]
    cases hlater : writes.reverse.lookup reg with
    | some later => rfl
    | none =>
      by_cases hreg : reg = written
      · subst hreg
        simp
      · simp [List.lookup_cons, Function.update_of_ne hreg, beq_eq_false_iff_ne.mpr hreg]

theorem field_messageVectors (source : IrqSource) (vectors : VectorReg → BitVec 32) :
    (source.field (writeVectors vectors messageVectors)).toNat = source.number := by
  have hfield : ∃ value, messageVectors.reverse.lookup source.reg = some value ∧
      ((value >>> (8 * source.lane)).setWidth 5).toNat = source.number := by
    cases source with
    | user k =>
      fin_cases k
      all_goals exact ⟨_, rfl, by decide⟩
    | channel k =>
      fin_cases k
      all_goals exact ⟨_, rfl, by decide⟩
  obtain ⟨value, hlookup, hnumber⟩ := hfield
  rw [IrqSource.field, writeVectors_lookup hlookup, hnumber]

theorem field_singleVectors (source : IrqSource) (vectors : VectorReg → BitVec 32)
    (value : BitVec 32) :
    source.field (writeVectors vectors (singleVectors value)) =
      (value >>> (8 * source.lane)).setWidth 5 := by
  have hlookup : (singleVectors value).reverse.lookup source.reg = some value := by
    cases source with
    | user k => fin_cases k <;> rfl
    | channel k => fin_cases k <;> rfl
  rw [IrqSource.field, writeVectors_lookup hlookup]

/-- The handler for the source with this number. -/
def numberedHandler (n : Nat) : InterruptHandler :=
  if n < xdmaMaxUserIrq then .user n else .channel (n - xdmaMaxUserIrq)

theorem numberedHandler_services {n : Nat} (source : IrqSource) :
    (numberedHandler n).Services source ↔ n = source.number := by
  unfold numberedHandler
  cases source with
  | user k =>
    split
    · exact Iff.rfl
    · next hn =>
      constructor
      · exact False.elim
      · rintro rfl
        exact hn k.isLt
  | channel k =>
    split
    · next hn =>
      constructor
      · exact False.elim
      · rintro rfl
        exact absurd hn (Nat.not_lt.mpr (Nat.le_add_right _ _))
    · next hn =>
      simp only [InterruptHandler.Services, IrqSource.number]
      omega

theorem exists_source {n : Nat} (hn : n < xdmaMaxNumIrq) : ∃ source : IrqSource,
    source.number = n := by
  by_cases huser : n < xdmaMaxUserIrq
  · exact ⟨.user ⟨n, huser⟩, rfl⟩
  · refine ⟨.channel ⟨n - xdmaMaxUserIrq, ?_⟩, ?_⟩
    · have : xdmaMaxNumIrq = xdmaMaxUserIrq + xdmaMaxChanIrq := rfl
      omega
    · simp only [IrqSource.number]
      omega

/-! ## Messages -/

/-- One object for each source, in the order of their numbers. -/
theorem routed_messages_iff {f : Nat → InterruptObject}
    (hmem : ∀ o, o ∈ objects ↔ ∃ n < xdmaMaxNumIrq, o = f n)
    (hhandler : ∀ n, (f n).handler = numberedHandler n)
    (hposition : ∀ n, (f n).position = n)
    (hcount : ∀ n < xdmaMaxNumIrq, (f n).sibling < (f n).messageCount) :
    Routed pin vectors ⟨status, objects, messageVectors⟩ ↔
      ∀ n < xdmaMaxNumIrq, (f n).message = false → pin.toNat = n + 1 := by
  constructor
  · intro hrouted n hn hline
    obtain ⟨source, rfl⟩ := exists_source hn
    obtain ⟨o, hroutes⟩ := hrouted source
    obtain ⟨m, hm, rfl⟩ := (hmem o).mp hroutes.mem
    have hservices := hroutes.services
    rw [hhandler, numberedHandler_services] at hservices
    subst hservices
    have hnamed := hroutes.named
    unfold InterruptObject.Named at hnamed
    rw [hline, if_neg Bool.false_ne_true, field_messageVectors] at hnamed
    exact hnamed.symm
  · intro hlines source
    have hn := source.number_lt
    refine ⟨f source.number, (hmem _).mpr ⟨_, hn, rfl⟩, ?_, ?_, .inr (hposition _), ?_⟩
    · rw [hhandler, numberedHandler_services]
    · intro o' ho' hservices
      obtain ⟨m, hm, rfl⟩ := (hmem o').mp ho'
      rw [hhandler, numberedHandler_services] at hservices
      rw [hservices]
    · unfold InterruptObject.Named
      rw [field_messageVectors]
      split
      · exact ⟨(hposition _).symm, hcount _ hn⟩
      · next hline => exact (hlines _ hn (Bool.eq_false_of_not_eq_true hline)).symm

/-! ## One resource for each source -/

theorem length_interruptsOf (resources : List CmResource) :
    (interruptsOf resources).length = countInterruptResources resources := by
  induction resources with
  | nil => rfl
  | cons resource resources ih =>
    cases resource with
    | interrupt message => simp [interruptsOf, countInterruptResources, ih]
    | memory start length => exact ih
    | other => exact ih

theorem setupInterrupt_objects {o : InterruptObject}
    (h : ntSuccess (setupInterrupt i s o).status = true) :
    (setupInterrupt i s o).objects = s.objects ++ [o] :=
  if_pos h

/-- The object that `SetupMsixInterrupts` creates for an interrupt resource. -/
def msixObject (message : Bool) (n : Nat) : InterruptObject :=
  ⟨numberedHandler n, message, n, 0, 1⟩

theorem msixObject_eq (message : Bool) (n : Nat) :
    (if n < xdmaMaxUserIrq then setupUserInterrupt i s n message n 0 1
      else setupChannelInterrupt i s (n - xdmaMaxUserIrq) message n 0 1) =
      setupInterrupt i s (msixObject message n) := by
  unfold msixObject numberedHandler
  split <;> rfl

/-- The loop goes by the interrupt resources only. -/
theorem msixLoop_objects {n : Nat} (hok : ntSuccess (msixLoop i resources n s).status = true) :
    (msixLoop i resources n s).objects = s.objects ++
      (((interruptsOf resources).take (xdmaMaxNumIrq - n)).zipIdx n).map
        fun x => msixObject x.1 x.2 := by
  induction resources generalizing n s with
  | nil => simp [msixLoop, interruptsOf]
  | cons resource resources ih =>
    unfold msixLoop at hok ⊢
    split at hok
    · next hn =>
      rw [if_pos hn]
      cases resource with
      | memory start length => exact ih hok
      | other => exact ih hok
      | interrupt message =>
        have htake : xdmaMaxNumIrq - n = xdmaMaxNumIrq - (n + 1) + 1 := by omega
        simp only [msixObject_eq] at hok ⊢
        split at hok
        · next hcreated =>
          rw [if_pos hcreated, ih hok, setupInterrupt_objects hcreated, interruptsOf, htake,
            List.take_succ_cons, List.zipIdx_cons, List.map_cons, List.append_assoc]
          rfl
        · next hfailed => exact absurd hok hfailed
    · next hn =>
      rw [if_neg hn, Nat.sub_eq_zero_of_le (Nat.le_of_not_lt hn)]
      simp

theorem setupMsixInterrupts_routed_iff
    (hcount : xdmaMaxNumIrq ≤ countInterruptResources resources)
    (hok : ntSuccess (setupMsixInterrupts i resources).status = true) :
    Routed pin vectors (setupMsixInterrupts i resources) ↔
      ∀ n < xdmaMaxNumIrq, (interruptsOf resources)[n]? = some false → pin.toNat = n + 1 := by
  have hlength : xdmaMaxNumIrq ≤ (interruptsOf resources).length := by
    rw [length_interruptsOf]
    exact hcount
  have hok : ntSuccess (msixLoop i resources 0 ⟨statusSuccess, []⟩).status = true := hok
  have hobjects := msixLoop_objects hok
  unfold setupMsixInterrupts
  simp only [hok, if_true, hobjects]
  rw [routed_messages_iff
    (f := fun n => msixObject ((interruptsOf resources)[n]?.getD true) n)
    _ (fun n => rfl) (fun n => rfl) fun n _ => Nat.zero_lt_one]
  · constructor
    · intro hlines n hn hline
      exact hlines n hn (by simp [msixObject, hline])
    · intro hlines n hn hline
      have hlt : n < (interruptsOf resources).length := Nat.lt_of_lt_of_le hn hlength
      apply hlines n hn
      simpa [msixObject, hlt] using hline
  · intro o
    simp only [List.nil_append, List.mem_map, Prod.exists, List.mk_mem_zipIdx_iff_getElem?,
      List.getElem?_take, Nat.sub_zero]
    constructor
    · rintro ⟨message, n, hn, rfl⟩
      split at hn
      · next hlt => exact ⟨n, hlt, by rw [hn]; rfl⟩
      · cases hn
    · rintro ⟨n, hn, rfl⟩
      have hlt : n < (interruptsOf resources).length := Nat.lt_of_lt_of_le hn hlength
      exact ⟨(interruptsOf resources)[n], n, by simp [hn, hlt], by simp [hlt]⟩

/-! ## One resource for all messages -/

theorem setupEach_objects {setup : Created → Nat → Created} {object : Nat → InterruptObject}
    (hsetup : ∀ s n, setup s n = setupInterrupt i s (object n)) {ns : List Nat} (hne : ns ≠ [])
    (hok : ntSuccess (setupEach setup ns s).status = true) :
    (setupEach setup ns s).objects = s.objects ++ ns.map object := by
  induction ns generalizing s with
  | nil => exact absurd rfl hne
  | cons n ns ih =>
    simp only [setupEach, hsetup] at hok ⊢
    split at hok
    · next hcreated =>
      rw [if_pos hcreated, List.map_cons]
      cases ns with
      | nil => exact setupInterrupt_objects hcreated
      | cons m ns =>
        rw [ih (List.cons_ne_nil m ns) hok, setupInterrupt_objects hcreated, List.append_assoc]
        rfl
    · next hfailed => exact absurd hok hfailed

/-- The object that `SetupMultiMsiInterrupts` creates for a source. -/
def multiMsiObject (message : Bool) (messageCount n : Nat) : InterruptObject :=
  ⟨numberedHandler n, message, 0, n, messageCount⟩

theorem mem_multiMsiObjects {message : Bool} {messageCount : Nat} (o : InterruptObject) :
    o ∈ (List.range xdmaMaxUserIrq).map
          (fun n => (⟨.user n, message, 0, n, messageCount⟩ : InterruptObject)) ++
        (List.range (2 * xdmaMaxNumChannels)).map
          (fun n => ⟨.channel n, message, 0, xdmaMaxUserIrq + n, messageCount⟩) ↔
      ∃ n < xdmaMaxNumIrq, o = multiMsiObject message messageCount n := by
  have hnum : xdmaMaxNumIrq = xdmaMaxUserIrq + 2 * xdmaMaxNumChannels := rfl
  simp only [List.mem_append, List.mem_map, List.mem_range]
  constructor
  · rintro (⟨n, hn, rfl⟩ | ⟨n, hn, rfl⟩)
    · exact ⟨n, by omega, by simp [multiMsiObject, numberedHandler, hn]⟩
    · exact ⟨xdmaMaxUserIrq + n, by omega, by simp [multiMsiObject, numberedHandler]⟩
  · rintro ⟨n, hn, rfl⟩
    by_cases huser : n < xdmaMaxUserIrq
    · exact .inl ⟨n, huser, by simp [multiMsiObject, numberedHandler, huser]⟩
    · refine .inr ⟨n - xdmaMaxUserIrq, by omega, ?_⟩
      have hn' : xdmaMaxUserIrq + (n - xdmaMaxUserIrq) = n := by omega
      simp [multiMsiObject, numberedHandler, huser, hn']

theorem setupMultiMsiInterrupts_routed_iff {numVectors : BitVec 16}
    (hnum : xdmaMaxNumIrq ≤ numVectors.toNat)
    (hok : ntSuccess (setupMultiMsiInterrupts i resources numVectors).status = true) :
    Routed pin vectors (setupMultiMsiInterrupts i resources numVectors) ↔
      firstInterrupt resources ≠ some false := by
  unfold setupMultiMsiInterrupts at hok ⊢
  cases hfirst : firstInterrupt resources with
  | none =>
    rw [hfirst] at hok
    exact absurd (show ntSuccess statusInternalError = true from hok) (by decide)
  | some message =>
    simp only [hfirst, Bool.not_eq_true'] at hok ⊢
    split at hok
    · next hfailed => rw [hfailed] at hok; cases hok
    · next huser =>
      split at hok
      · next hfailed => rw [hfailed] at hok; cases hok
      · next hchannel =>
        have hobjects : (setupEach
            (fun s n => setupChannelInterrupt i s n message 0 (xdmaMaxUserIrq + n) numVectors.toNat)
            (List.range (2 * xdmaMaxNumChannels))
            (setupEach (fun s n => setupUserInterrupt i s n message 0 n numVectors.toNat)
              (List.range xdmaMaxUserIrq) ⟨statusInternalError, []⟩)).objects =
            ([] ++ (List.range xdmaMaxUserIrq).map
              (fun n => (⟨.user n, message, 0, n, numVectors.toNat⟩ : InterruptObject))) ++
            (List.range (2 * xdmaMaxNumChannels)).map
              fun n => ⟨.channel n, message, 0, xdmaMaxUserIrq + n, numVectors.toNat⟩ := by
          rw [← setupEach_objects (fun _ _ => rfl) (by decide) (Bool.eq_true_of_not_eq_false huser)]
          exact setupEach_objects (fun _ _ => rfl) (by decide)
            (Bool.eq_true_of_not_eq_false hchannel)
        rw [if_neg huser, if_neg hchannel, hobjects, List.nil_append,
          routed_messages_iff (f := multiMsiObject message numVectors.toNat) mem_multiMsiObjects
            (fun n => rfl) (fun n => Nat.zero_add n) fun n hn => Nat.lt_of_lt_of_le hn hnum]
        constructor
        · intro hlines hline
          have hfalse : message = false := Option.some.inj hline
          have h0 := hlines 0 (by decide) hfalse
          have h1 := hlines 1 (by decide) hfalse
          omega
        · intro hmessage n _ hline
          have hfalse : message = false := hline
          exact absurd (congrArg some hfalse) hmessage

/-! ## One interrupt for all sources -/

theorem InterruptHandler.services_device (source : IrqSource) :
    InterruptHandler.device.Services source := by
  cases source <;> trivial

theorem field_zero (n : Nat) : ((0 : BitVec 32) >>> n).setWidth 5 = (0 : BitVec 5) := by
  simp

/-- Only the first field of a register has the pin. -/
theorem field_pin_iff (pin : BitVec 8) :
    (∀ source : IrqSource, (((pin.setWidth 32 - 1) >>> (8 * source.lane)).setWidth 5).toNat + 1 =
      pin.toNat) ↔ pin = 1 := by
  constructor
  · intro h
    have hsecond := h (.user ⟨1, by decide⟩)
    clear h
    revert pin
    decide
  · rintro rfl source
    have hzero : (1 : BitVec 8).setWidth 32 - 1 = (0 : BitVec 32) := by decide
    rw [hzero, field_zero]
    rfl

theorem routed_single_iff {message : Bool} {value : BitVec 32} :
    Routed pin vectors ⟨status, [⟨.device, message, 0, 0, 1⟩], singleVectors value⟩ ↔
      ∀ source : IrqSource, (⟨.device, message, 0, 0, 1⟩ : InterruptObject).Named pin
        ((value >>> (8 * source.lane)).setWidth 5) := by
  constructor
  · intro hrouted source
    obtain ⟨o, hroutes⟩ := hrouted source
    have hnamed := hroutes.named
    rw [field_singleVectors, List.mem_singleton.mp hroutes.mem] at hnamed
    exact hnamed
  · intro hnamed source
    refine ⟨_, List.mem_singleton_self _, InterruptHandler.services_device source, ?_, .inl rfl, ?_⟩
    · exact fun o' ho' _ => List.mem_singleton.mp ho'
    · rw [field_singleVectors]
      exact hnamed source

theorem setupSingleInterrupt_routed_iff
    (hok : ntSuccess (setupSingleInterrupt i resources).status = true) :
    Routed i.pin vectors (setupSingleInterrupt i resources) ↔
      (firstInterrupt resources = some false → i.pin = 1) := by
  unfold setupSingleInterrupt at hok ⊢
  cases hfirst : firstInterrupt resources with
  | none =>
    rw [hfirst] at hok
    exact absurd (show ntSuccess statusInternalError = true from hok) (by decide)
  | some message =>
    simp only [hfirst, Bool.not_eq_true'] at hok ⊢
    split at hok
    · next hfailed => rw [hfailed] at hok; cases hok
    · next hcreated =>
      have hobjects : (setupDeviceInterrupt i ⟨statusInternalError, []⟩ message).objects =
          [⟨.device, message, 0, 0, 1⟩] :=
        setupInterrupt_objects (Bool.eq_true_of_not_eq_false hcreated)
      rw [if_neg hcreated, hobjects]
      cases message with
      | true =>
        simp only [if_true]
        rw [routed_single_iff]
        refine iff_of_true (fun source => ?_) fun hline => Bool.noConfusion (Option.some.inj hline)
        rw [field_zero]
        exact ⟨rfl, Nat.zero_lt_one⟩
      | false =>
        simp only [Bool.false_eq_true, if_false] at hok ⊢
        split at hok
        · next hfailed => rw [hfailed] at hok; cases hok
        · next hread =>
          rw [if_neg hread, routed_single_iff, ← field_pin_iff]
          exact ⟨fun hnamed _ => hnamed, fun hnamed => hnamed trivial⟩

/-! ## The three modes -/

theorem setupInterrupts_routed_iff (i : InterruptInput) (resources : List CmResource)
    (vectors : VectorReg → BitVec 32)
    (hok : ntSuccess (setupInterrupts i resources).status = true) :
    Routed i.pin vectors (setupInterrupts i resources) ↔ Routable i resources := by
  unfold setupInterrupts at hok ⊢
  unfold Routable
  by_cases hcount : xdmaMaxNumIrq ≤ countInterruptResources resources
  · rw [if_pos hcount] at hok
    rw [if_pos hcount, if_pos hcount]
    exact setupMsixInterrupts_routed_iff hcount hok
  · rw [if_neg hcount] at hok
    rw [if_neg hcount, if_neg hcount]
    split at hok
    · next hnum =>
      rw [if_pos hnum, if_pos hnum]
      exact setupMultiMsiInterrupts_routed_iff hnum hok
    · next hnum =>
      rw [if_neg hnum, if_neg hnum]
      exact setupSingleInterrupt_routed_iff hok

/-- Every object can be created, and the pin can be read. -/
def InterruptInput.sample (pin : BitVec 8) : InterruptInput :=
  ⟨fun _ => statusSuccess, .ok 1, statusSuccess, pin⟩

/-- A line interrupt at the pin A. -/
theorem setupInterrupts_routed_pinA : Routed 1 (fun _ => 0)
    (setupInterrupts (.sample 1) [.memory 0 0x10000, .interrupt false]) := by
  have hok : ntSuccess (setupInterrupts (.sample 1)
    [.memory 0 0x10000, .interrupt false]).status = true := by decide
  exact (setupInterrupts_routed_iff (.sample 1) _ (fun _ => 0) hok).mpr fun _ => rfl

/-- At the pin B only the first source of each register is routed to it. -/
theorem setupInterrupts_misroutes_pinB :
    ntSuccess (setupInterrupts (.sample 2) [.memory 0 0x10000, .interrupt false]).status = true ∧
      ¬ Routed 2 (fun _ => 0)
        (setupInterrupts (.sample 2) [.memory 0 0x10000, .interrupt false]) := by
  refine ⟨by decide, fun hrouted => ?_⟩
  obtain ⟨o, hroutes⟩ := hrouted (.user ⟨1, by decide⟩)
  have hmem := List.mem_singleton.mp hroutes.mem
  have hnamed := hroutes.named
  rw [hmem] at hnamed
  unfold InterruptObject.Named at hnamed
  exact absurd hnamed (by decide)

end Xadma
