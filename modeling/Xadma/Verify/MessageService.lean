import Xadma.Theory.RelyGuarantee
import Xadma.Libxdma.MessageInterrupt
import Xadma.Verify.EngineProbe

/-!
# Work routines with one interrupt for each source

A source is masked from its ISR until its DPC has called the work routine, so that the routine of
one engine never runs twice at a time, and no interrupt goes by without it. A file that is opened
on an engine in between takes this away: the source is unmasked under the DPC.
-/

namespace Xadma

open Threads

/-- What there is of one interrupt object. -/
structure MessageView (T : Type) where
  enabled : Bool
  dpcQueued : Nat
  serving : List T
  working : List T
  owed : Bool

variable {T : Type}

def MessageWorld.view (s : MessageWorld T) (o : MessageObject) : MessageView T :=
  ⟨s.enabled o, s.dpcQueued o, s.serving o, s.working o, s.owed o⟩

/-- The work routine of the source runs at most once at a time. While the source is enabled it does
not run at all, and there is no interrupt left that it has not run for. -/
structure MessageWorld.Serialized (s : MessageWorld T) (o : MessageObject) : Prop where
  one : (s.working o).length ≤ 1
  idle : s.enabled o = true → s.working o = [] ∧ s.dpcQueued o = 0
  served : s.enabled o = true → s.registered o = true → s.owed o = false

/-- A file is opened on an engine in interrupt mode only while its interrupt is enabled. -/
def opensUnmasked (s : MessageWorld T) :
    Label MessageOp MessageOp.Res T MessageEvent MessageObject → Bool
  | .env (.fileCreate index) => s.poll index || s.enabled (.channel index)
  | _ => true

/-- Each context has the bit with its own number. -/
def NumberedMasks (irqBitMask : Nat → Option (BitVec 32)) : Prop :=
  ∀ index mask, irqBitMask index = some mask → mask = bitN index

variable {s s' : MessageWorld T} {o o' : MessageObject}

/-! ## Bits of different sources -/

theorem or_and_of_disjoint {x b b' : BitVec 32} (h : b &&& b' = 0) :
    (x ||| b) &&& b' = x &&& b' := by
  rw [BitVec.and_or_distrib_right, h]
  simp

theorem and_not_and_of_disjoint {x b b' : BitVec 32} (h : b &&& b' = 0) :
    (x &&& ~~~ b) &&& b' = x &&& b' := by
  apply BitVec.eq_of_getLsbD_eq
  intro i hi
  have hbit : (b &&& b').getLsbD i = false := by rw [h]; simp
  simp only [BitVec.getLsbD_and, BitVec.getLsbD_not, hi, decide_true, Bool.true_and] at hbit ⊢
  cases hb : b.getLsbD i <;> cases hb' : b'.getLsbD i <;> simp_all

section
variable (hmasks : NumberedMasks s.irqBitMask)
include hmasks

/-- The bits of two sources in one register. -/
theorem bits_and_of_ne {i j : Nat} (h : i ≠ j) :
    s.bits (.channel i) &&& s.bits (.channel j) = 0 := by
  simp only [MessageWorld.bits]
  cases hi : s.irqBitMask i with
  | none => simp
  | some mask =>
    cases hj : s.irqBitMask j with
    | none => simp
    | some mask' =>
      rw [hmasks i mask hi, hmasks j mask' hj]
      exact bitN_and_of_ne h

theorem enabled_setEnable_of_ne (h : o' ≠ o) : (s.setEnable o).enabled o' = s.enabled o' := by
  cases o with
  | user i =>
    cases o' with
    | user j =>
      have hne : i ≠ j := fun heq => h (heq ▸ rfl)
      exact congrArg (· != 0) (or_and_of_disjoint (bitN_and_of_ne hne))
    | channel j => rfl
  | channel i =>
    cases o' with
    | user j => rfl
    | channel j =>
      have hne : i ≠ j := fun heq => h (heq ▸ rfl)
      exact congrArg (· != 0) (or_and_of_disjoint (bits_and_of_ne hmasks hne))

theorem enabled_clearEnable_of_ne (h : o' ≠ o) : (s.clearEnable o).enabled o' = s.enabled o' := by
  cases o with
  | user i =>
    cases o' with
    | user j =>
      have hne : i ≠ j := fun heq => h (heq ▸ rfl)
      exact congrArg (· != 0) (and_not_and_of_disjoint (bitN_and_of_ne hne))
    | channel j => rfl
  | channel i =>
    cases o' with
    | user j => rfl
    | channel j =>
      have hne : i ≠ j := fun heq => h (heq ▸ rfl)
      exact congrArg (· != 0) (and_not_and_of_disjoint (bits_and_of_ne hmasks hne))

end

theorem enabled_clearEnable_self : (s.clearEnable o).enabled o = false := by
  have hnone : ∀ x b : BitVec 32, ((x &&& ~~~ b) &&& b != 0) = false := by
    intro x b
    rw [BitVec.and_assoc, BitVec.and_comm (~~~ b), BitVec.and_not_self]
    simp
  cases o with
  | user i => exact hnone _ _
  | channel i => exact hnone _ _

theorem enabled_setEnable_self (h : s.bits o ≠ 0) : (s.setEnable o).enabled o = true := by
  have hset : ∀ x b : BitVec 32, b ≠ 0 → ((x ||| b) &&& b != 0) = true := by
    intro x b hb
    have hand : (x ||| b) &&& b = b := by
      apply BitVec.eq_of_getLsbD_eq
      intro i hi
      rw [BitVec.getLsbD_and, BitVec.getLsbD_or]
      cases x.getLsbD i <;> cases b.getLsbD i <;> rfl
    rw [hand]
    exact bne_iff_ne.mpr hb
  cases o with
  | user i => exact hset _ _ h
  | channel i => exact hset _ _ h

theorem enabled_congr (hchannel : s'.channelIntEnable = s.channelIntEnable)
    (huser : s'.userIntEnable = s.userIntEnable) (hmasks : s'.irqBitMask = s.irqBitMask) :
    s'.enabled o = s.enabled o := by
  cases o with
  | user i => simp only [MessageWorld.enabled, MessageWorld.bits, huser]
  | channel i => simp only [MessageWorld.enabled, MessageWorld.bits, hchannel, hmasks]

theorem bits_congr (h : s'.irqBitMask = s.irqBitMask) : s'.bits o = s.bits o := by
  cases o with
  | user i => rfl
  | channel i => exact congrArg (Option.getD · 0) (congrFun h i)

theorem bits_of_enabled (h : s.enabled o = true) : s.bits o ≠ 0 := by
  intro hzero
  cases o with
  | user i => simp [MessageWorld.enabled, hzero] at h
  | channel i => simp [MessageWorld.enabled, hzero] at h

theorem registered_congr (h : s'.userWork = s.userWork) : s'.registered o = s.registered o := by
  cases o with
  | user i => exact congrFun h i
  | channel i => rfl

theorem setEnable_keeps : (s.setEnable o).irqBitMask = s.irqBitMask ∧
    (s.setEnable o).userWork = s.userWork ∧ (s.setEnable o).dpcQueued = s.dpcQueued ∧
    (s.setEnable o).serving = s.serving ∧ (s.setEnable o).working = s.working ∧
    (s.setEnable o).owed = s.owed := by
  cases o <;> exact ⟨rfl, rfl, rfl, rfl, rfl, rfl⟩

theorem clearEnable_keeps : (s.clearEnable o).irqBitMask = s.irqBitMask ∧
    (s.clearEnable o).userWork = s.userWork ∧ (s.clearEnable o).dpcQueued = s.dpcQueued ∧
    (s.clearEnable o).serving = s.serving ∧ (s.clearEnable o).working = s.working ∧
    (s.clearEnable o).owed = s.owed := by
  cases o <;> exact ⟨rfl, rfl, rfl, rfl, rfl, rfl⟩

/-! ## The invariant -/

/-- A source is masked while a DPC is to come or on its way, and there is one at most. -/
structure ObjectInv (registered : Bool) (v : MessageView T) : Prop where
  once : v.serving.length + v.dpcQueued ≤ 1
  masked : 0 < v.serving.length + v.dpcQueued → v.enabled = false
  working : v.working = [] ∨ v.working = v.serving
  owed : v.owed = true → registered = true → 0 < v.serving.length + v.dpcQueued

structure MessageInv (s : MessageWorld T) : Prop where
  masks : NumberedMasks s.irqBitMask
  objects : ∀ o, ObjectInv (s.registered o) (s.view o)

/-- The thread that runs the DPC of an object finds it as it left it. -/
structure MessageRely (t : T) (s s' : MessageWorld T) : Prop where
  view : ∀ o, s.serving o = [t] → s'.view o = s.view o
  registered : ∀ o, s'.registered o = s.registered o

/-- A step for one object. -/
theorem MessageInv.step (hi : MessageInv s) (s' : MessageWorld T) (o : MessageObject) (p : T → Prop)
    (hmasks : s'.irqBitMask = s.irqBitMask) (hwork : s'.userWork = s.userWork)
    (hothers : ∀ o', o' ≠ o → s'.view o' = s.view o')
    (hobject : ObjectInv (s.registered o) (s'.view o))
    (hserving : ∀ u, p u → s.serving o ≠ [u]) :
    MessageInv s' ∧ ∀ u, p u → MessageRely u s s' := by
  refine ⟨⟨hmasks ▸ hi.masks, fun o' => ?_⟩, fun u hu => ⟨fun o' ho' => ?_,
    fun _ => registered_congr hwork⟩⟩
  · rw [registered_congr hwork]
    by_cases ho : o' = o
    · subst ho
      exact hobject
    · rw [hothers o' ho]
      exact hi.objects o'
  · refine hothers o' fun ho => ?_
    subst ho
    exact hserving u hu ho'

/-- A step that the objects do not show. -/
theorem MessageInv.unchanged (hi : MessageInv s) (s' : MessageWorld T)
    (hmasks : s'.irqBitMask = s.irqBitMask) (hwork : s'.userWork = s.userWork)
    (hview : ∀ o, s'.view o = s.view o) : MessageInv s' ∧ ∀ u, MessageRely u s s' := by
  refine ⟨⟨hmasks ▸ hi.masks, fun o => ?_⟩, fun u => ⟨fun o _ => hview o,
    fun _ => registered_congr hwork⟩⟩
  rw [registered_congr hwork, hview o]
  exact hi.objects o

theorem MessageInv.serialized (hi : MessageInv s) (o : MessageObject) : s.Serialized o := by
  obtain ⟨honce, hmasked, hworking, howed⟩ := hi.objects o
  have hlen : (s.serving o).length ≤ 1 := (Nat.le_add_right _ _).trans honce
  have hnone : s.enabled o = true → (s.serving o).length + s.dpcQueued o = 0 := by
    intro henabled
    by_contra hne
    have hmask : s.enabled o = false := hmasked (Nat.pos_of_ne_zero hne)
    rw [henabled] at hmask
    cases hmask
  refine ⟨?_, fun henabled => ⟨?_, ?_⟩, fun henabled hregistered => ?_⟩
  · rcases hworking with hw | hw
    · have hw' : s.working o = [] := hw
      rw [hw']
      exact Nat.zero_le 1
    · have hw' : s.working o = s.serving o := hw
      rw [hw']
      exact hlen
  · have hserving : s.serving o = [] := by
      have hzero := hnone henabled
      exact List.length_eq_zero_iff.mp (by omega)
    rcases hworking with hw | hw
    · exact hw
    · exact hw.trans hserving
  · have := hnone henabled
    omega
  · by_contra howes
    have hpos : 0 < (s.serving o).length + s.dpcQueued o :=
      howed (Bool.eq_true_of_not_eq_false howes) hregistered
    have := hnone henabled
    omega

/-! ## Interrupts and files -/

/-- The thread runs the DPC of the object; `begun` says that the work routine has begun. -/
structure Serves (t : T) (o : MessageObject) (working : List T) (begun : Prop)
    (s : MessageWorld T) : Prop where
  serving : s.serving o = [t]
  working : s.working o = working
  served : begun → s.registered o = true → s.owed o = false

variable {t : T} {working : List T} {begun : Prop}

theorem Serves.stable : Stable MessageInv MessageRely t (Serves t o working begun) := by
  intro s s' _ _ hr h
  have hview := hr.view o h.serving
  have hserving : s'.serving o = s.serving o := congrArg MessageView.serving hview
  have hworking : s'.working o = s.working o := congrArg MessageView.working hview
  have howed : s'.owed o = s.owed o := congrArg MessageView.owed hview
  refine ⟨hserving.trans h.serving, hworking.trans h.working, fun hb hregistered => ?_⟩
  rw [howed]
  exact h.served hb (hr.registered o ▸ hregistered)

theorem Serves.others (h : Serves t o working begun s) (u : T) (hu : u ≠ t) :
    s.serving o ≠ [u] := by
  rw [h.serving]
  exact fun heq => hu (List.singleton_inj.mp heq).symm

/-- Nothing is on its way for a source that is enabled. -/
theorem MessageInv.free (hi : MessageInv s) (h : s.enabled o = true) :
    s.serving o = [] ∧ s.dpcQueued o = 0 ∧ s.working o = [] := by
  obtain ⟨-, hmasked, -, -⟩ := hi.objects o
  obtain ⟨hworking, hqueued⟩ := (hi.serialized o).idle h
  refine ⟨?_, hqueued, hworking⟩
  by_contra hne
  have hpos : 0 < (s.serving o).length + s.dpcQueued o :=
    Nat.add_pos_left (List.length_pos_iff.mpr hne) _
  have hmask : s.enabled o = false := hmasked hpos
  rw [h] at hmask
  cases hmask

theorem MessageInv.isr {again : Bool} (hi : MessageInv s)
    (h : s.evtMessageIsr o again = some s') : MessageInv s' ∧ ∀ u, MessageRely u s s' := by
  unfold MessageWorld.evtMessageIsr at h
  split at h
  · cases h
  · next hgo =>
    have henabled : s.enabled o = true := by
      cases he : s.enabled o with
      | true => rfl
      | false => exact absurd (.inr he) hgo
    obtain ⟨hserving, hqueued, hworking⟩ := hi.free henabled
    obtain ⟨hmasks, hwork, -, hserving', hworking', -⟩ := clearEnable_keeps (s := s) (o := o)
    rw [if_neg (by omega), hqueued] at h
    cases h
    have hcount : ((s.clearEnable o).serving o).length +
        Function.update s.dpcQueued o (0 + 1) o = 1 := by
      rw [hserving', hserving, Function.update_self]
      rfl
    have hmasked : (s.clearEnable o).enabled o = false := enabled_clearEnable_self
    have hstep := hi.step { s.clearEnable o with
        dpcQueued := Function.update s.dpcQueued o (0 + 1)
        owed := Function.update s.owed o true } o (fun _ => True) hmasks hwork
      (fun o' ho' => ?_) ⟨hcount.le, fun _ => (enabled_congr rfl rfl rfl).trans hmasked,
        .inl ((congrFun hworking' o).trans hworking), fun _ _ => Nat.one_pos.trans_eq hcount.symm⟩
      fun u _ => by rw [hserving]; exact fun hnil => nomatch hnil
    · exact ⟨hstep.1, fun u => hstep.2 u trivial⟩
    · simp only [MessageWorld.view, Function.update_of_ne ho', hserving', hworking']
      rw [← enabled_clearEnable_of_ne hi.masks ho']
      congr 1

/-- Unmasking a source that is not masked. -/
theorem MessageInv.setEnable (hi : MessageInv s) (h : s.enabled o = true) :
    MessageInv (s.setEnable o) ∧ ∀ u, MessageRely u s (s.setEnable o) := by
  obtain ⟨hmasks, hwork, hqueued, hserving, hworking, howed⟩ := setEnable_keeps (s := s) (o := o)
  refine hi.unchanged _ hmasks hwork fun o' => ?_
  simp only [MessageWorld.view, hqueued, hserving, hworking, howed]
  by_cases ho : o' = o
  · rw [ho, h, enabled_setEnable_self (bits_of_enabled h)]
  · rw [enabled_setEnable_of_ne hi.masks ho]

/-- Masking a source: a DPC that is on its way finds it masked anyway. -/
theorem MessageInv.clearEnable (hi : MessageInv s) :
    MessageInv (s.clearEnable o) ∧ ∀ u, MessageRely u s (s.clearEnable o) := by
  obtain ⟨hmasks, hwork, hqueued, hserving, hworking, howed⟩ := clearEnable_keeps (s := s) (o := o)
  have hothers : ∀ o', o' ≠ o → (s.clearEnable o).view o' = s.view o' := fun o' ho => by
    simp only [MessageWorld.view, hqueued, hserving, hworking, howed,
      enabled_clearEnable_of_ne hi.masks ho]
  cases h : s.enabled o with
  | false =>
    refine hi.unchanged _ hmasks hwork fun o' => ?_
    by_cases ho : o' = o
    · simp only [MessageWorld.view, hqueued, hserving, hworking, howed]
      rw [ho, h, enabled_clearEnable_self]
    · exact hothers o' ho
  | true =>
    obtain ⟨honce, -, hnone, howes⟩ := hi.objects o
    have hobject : ObjectInv (s.registered o) ((s.clearEnable o).view o) := by
      simp only [MessageWorld.view, hqueued, hserving, hworking, howed]
      exact ⟨honce, fun _ => enabled_clearEnable_self, hnone, howes⟩
    obtain ⟨hi', hr⟩ := hi.step _ o (fun _ => True) hmasks hwork hothers hobject fun u _ => by
      rw [(hi.free h).1]
      exact fun hnil => nomatch hnil
    exact ⟨hi', fun u => hr u trivial⟩

theorem MessageInv.fileCreate {index : Nat} (hi : MessageInv s)
    (h : s.poll index = true ∨ s.enabled (.channel index) = true) :
    MessageInv (s.evtDeviceFileCreate index) ∧
      ∀ u, MessageRely u s (s.evtDeviceFileCreate index) := by
  unfold MessageWorld.evtDeviceFileCreate
  split
  · exact hi.clearEnable
  · next hpoll => exact hi.setEnable (h.resolve_left hpoll)

theorem MessageInv.start (hi : MessageInv s) (h : s.dpcQueued o ≠ 0)
    (hs : s' = { s with
      dpcQueued := Function.update s.dpcQueued o (s.dpcQueued o - 1)
      serving := Function.update s.serving o (t :: s.serving o) }) :
    MessageInv s' ∧ (∀ u, MessageRely u s s') ∧ Serves t o [] False s' := by
  obtain ⟨honce, hmasked, hworking, -⟩ := hi.objects o
  have hle : (s.serving o).length + s.dpcQueued o ≤ 1 := honce
  have hnone : s.serving o = [] := List.length_eq_zero_iff.mp (by omega)
  have hworking' : s.working o = [] := by
    rcases hworking with hw | hw
    · exact hw
    · exact hw.trans hnone
  have henabled : s.enabled o = false := hmasked (by
    change 0 < (s.serving o).length + s.dpcQueued o
    omega)
  have hserving : s'.serving o = [t] := by
    rw [hs]
    simp [hnone]
  have hqueued : s'.dpcQueued o = 0 := by
    rw [hs]
    simp only [Function.update_self]
    omega
  have hcount : (s'.serving o).length + s'.dpcQueued o = 1 := by
    rw [hserving, hqueued]
    rfl
  have hregs : s'.irqBitMask = s.irqBitMask ∧ s'.userWork = s.userWork ∧
      s'.working = s.working := by
    rw [hs]
    exact ⟨rfl, rfl, rfl⟩
  have hsame : ∀ o', s'.enabled o' = s.enabled o' := fun o' => by
    rw [hs]
    exact enabled_congr rfl rfl rfl
  have hw' : s'.working o = [] := (congrFun hregs.2.2 o).trans hworking'
  have hstep := hi.step s' o (fun _ => True) hregs.1 hregs.2.1 (fun o' ho' => ?_)
    ⟨hcount.le, fun _ => (hsame o).trans henabled, .inl hw',
      fun _ _ => Nat.one_pos.trans_eq hcount.symm⟩
    fun u _ => by rw [hnone]; exact fun hnil => nomatch hnil
  · exact ⟨hstep.1, fun u => hstep.2 u trivial, hserving, hw', fun hfalse => hfalse.elim⟩
  · simp only [MessageWorld.view, hsame o']
    rw [hs]
    simp only [Function.update_of_ne ho']

theorem messageInv_config {i : InterruptInput} {resources : List CmResource}
    {is : EngineSlot → Probe.CreateInput} {d d' : Probe.Device} {status : NtStatus}
    {userWork : Nat → Bool} {channel user : BitVec 32}
    (hopen : Probe.openFirst i resources is d = (status, d'))
    (hok : ntSuccess status = true) (pollMode : Bool) :
    MessageInv (messageConfig T (Probe.setPollModes pollMode d') userWork channel user).state := by
  obtain ⟨hcontext, hkept⟩ := Probe.setPollModes_keeps (p := pollMode) (d := d')
  refine ⟨fun index mask hmask => ?_, fun o => ⟨Nat.zero_le 1, ?_, .inl rfl, ?_⟩⟩
  · obtain ⟨slot, hslot, rfl⟩ := Option.map_eq_some_iff.mp hmask
    rw [hkept]
    exact (Probe.openFirst_context hopen hok (hcontext ▸ hslot)).2
  · exact fun hpos => absurd hpos (Nat.lt_irrefl 0)
  · exact fun howed => nomatch howed

/-! ## The DPC -/

variable [DecidableEq T]

abbrev MessageSafe (t : T) {α : Type} (p : MessageProg α) (Q : α → MessageWorld T → Prop)
    (s : MessageWorld T) : Prop :=
  Safe (messageThreads T) (fun s l => opensUnmasked s l = true) MessageInv MessageRely t p Q s

/-- A call on the object by the thread that runs its DPC. -/
theorem MessageSafe.perform {c : MessageOp} {Q : c.Res → MessageWorld T → Prop}
    (hQ : ∀ r, Stable MessageInv MessageRely t (Q r)) (h : Serves t o working begun s)
    (hstep : ∀ s r s', MessageInv s → Serves t o working begun s →
      MessageWorld.act t c s r = some s' → s'.irqBitMask = s.irqBitMask ∧
      s'.userWork = s.userWork ∧ (∀ o', o' ≠ o → s'.view o' = s.view o') ∧
      ObjectInv (s.registered o) (s'.view o) ∧ Q r s') :
    MessageSafe t c.perform Q s := by
  refine Safe.perform _ Serves.stable hQ h fun s r s' hi hs _ ha => ?_
  obtain ⟨hmasks, hwork, hothers, hobject, hq⟩ := hstep s r s' hi hs ha
  obtain ⟨hi', hu⟩ := hi.step _ _ (· ≠ t) hmasks hwork hothers hobject hs.others
  exact ⟨hi', hu, hq⟩

theorem work_messageSafe (h : Serves t o [] begun s) :
    MessageSafe t (MessageOp.work o).perform (fun _ => Serves t o [t] True) s := by
  refine MessageSafe.perform (fun _ => Serves.stable) h fun s r s' hi hs ha => ?_
  cases ha
  obtain ⟨honce, hmasked, -, -⟩ := hi.objects o
  have hworking : Function.update s.working o (t :: s.working o) o = [t] := by
    rw [Function.update_self, hs.working]
  have howed : Function.update s.owed o false o = false := Function.update_self ..
  refine ⟨rfl, rfl, fun o' ho' => ?_, ⟨honce, hmasked, .inr (hworking.trans hs.serving.symm),
    fun howes => ?_⟩, hs.serving, hworking, fun _ _ => howed⟩
  · simp only [MessageWorld.view, Function.update_of_ne ho']
    rfl
  · exact absurd (howed.symm.trans howes) (by simp)

theorem workDone_messageSafe (h : Serves t o [t] begun s) :
    MessageSafe t (MessageOp.workDone o).perform (fun _ => Serves t o [] begun) s := by
  refine MessageSafe.perform (fun _ => Serves.stable) h fun s r s' hi hs ha => ?_
  cases ha
  obtain ⟨honce, hmasked, -, howed⟩ := hi.objects o
  have hworking : Function.update s.working o ((s.working o).erase t) o = [] := by
    rw [Function.update_self, hs.working, List.erase_cons_head]
  refine ⟨rfl, rfl, fun o' ho' => ?_, ⟨honce, hmasked, .inl hworking, howed⟩, hs.serving, hworking,
    hs.served⟩
  simp only [MessageWorld.view, Function.update_of_ne ho']
  rfl

/-- The source is unmasked. -/
theorem enable_messageSafe (h : Serves t o [] True s) :
    MessageSafe t (MessageOp.enable o).perform (fun _ _ => True) s := by
  refine MessageSafe.perform (fun _ => Stable.const _) h fun s r s' hi hs ha => ?_
  cases ha
  obtain ⟨hmasks, hwork, hqueued, hserving, hworking, howed⟩ := setEnable_keeps (s := s) (o := o)
  obtain ⟨honce, -, -, -⟩ := hi.objects o
  have hnone : Function.update s.serving o ((s.serving o).erase t) o = [] := by
    rw [Function.update_self, hs.serving, List.erase_cons_head]
  have hdpc : s.dpcQueued o = 0 := by
    have hle : (s.serving o).length + s.dpcQueued o ≤ 1 := honce
    rw [hs.serving, List.length_singleton] at hle
    omega
  have hcount : (Function.update s.serving o ((s.serving o).erase t) o).length +
      (s.setEnable o).dpcQueued o = 0 := by
    rw [hnone, hqueued, hdpc, List.length_nil]
  refine ⟨hmasks, hwork, fun o' ho' => ?_, ⟨hcount.trans_le (Nat.zero_le 1), fun hpos => ?_,
    .inl ?_, fun howes hregistered => ?_⟩, trivial⟩
  · have henabled := enabled_setEnable_of_ne hi.masks ho'
    simp only [MessageWorld.view, Function.update_of_ne ho', hqueued, hworking, howed]
    rw [← henabled]
    congr 1
  · exact absurd hcount (Nat.ne_of_gt hpos)
  · exact (congrFun hworking o).trans hs.working
  · have hfree : (s.setEnable o).owed o = false :=
      (congrFun howed o).trans (hs.served trivial hregistered)
    exact absurd (hfree.symm.trans howes) (by simp)

/-- The calls that the view does not show. -/
def MessageOp.Still : MessageOp → Prop
  | .workSet _ | .acquireLock _ | .releaseLock _ => True
  | _ => False

theorem MessageOp.Still.step {c : MessageOp} {r : c.Res} (hc : c.Still) (hi : MessageInv s)
    (h : MessageWorld.act t c s r = some s') :
    MessageInv s' ∧ ∀ u, MessageRely u s s' := by
  have hsame : s'.irqBitMask = s.irqBitMask ∧ s'.userWork = s.userWork ∧
      ∀ o, s'.view o = s.view o := by
    cases c with
    | workSet o =>
      simp only [MessageWorld.act] at h
      split at h
      · cases h
        exact ⟨rfl, rfl, fun _ => rfl⟩
      · cases h
    | acquireLock o =>
      simp only [MessageWorld.act] at h
      split at h
      · cases h
      · cases h
        exact ⟨rfl, rfl, fun o' => by cases o' <;> rfl⟩
    | releaseLock o =>
      cases h
      exact ⟨rfl, rfl, fun o' => by cases o' <;> rfl⟩
    | work o | workDone o | enable o => cases hc
  exact hi.unchanged _ hsame.1 hsame.2.1 hsame.2.2

theorem MessageSafe.still {c : MessageOp} (hc : c.Still) (h : Serves t o working begun s) :
    MessageSafe t c.perform (fun _ => Serves t o working begun) s := by
  refine Safe.perform _ Serves.stable (fun _ => Serves.stable) h fun s r s' hi hs _ ha => ?_
  obtain ⟨hi', hr⟩ := hc.step hi ha
  exact ⟨hi', fun u _ => hr u, Serves.stable s s' hi hi' (hr t) hs⟩

theorem MessageSafe.done {c : MessageOp} (hc : c.Still) :
    MessageSafe t c.perform (fun _ _ => True) s := by
  refine Safe.perform (fun _ => True) (Stable.const _) (fun _ => Stable.const _) trivial
    fun s r s' hi _ _ ha => ?_
  obtain ⟨hi', hr⟩ := hc.step hi ha
  exact ⟨hi', fun u _ => hr u, trivial⟩

/-- Nothing is owed to a user event without a handler. -/
theorem workSet_messageSafe (h : Serves t o [] False s) :
    MessageSafe t (MessageOp.workSet o).perform
      (fun r => Serves t o [] (r = false)) s := by
  refine Safe.perform _ Serves.stable (fun _ => Serves.stable) h fun s r s' hi hs _ ha => ?_
  have ha' : MessageWorld.act t (.workSet o) s r = some s' := ha
  obtain ⟨hi', hr⟩ := MessageOp.Still.step (c := .workSet o) trivial hi ha'
  simp only [MessageWorld.act] at ha'
  split at ha'
  · next hregistered =>
    cases ha'
    refine ⟨hi', fun u _ => hr u, hs.serving, hs.working, fun hnone hr' => ?_⟩
    exact absurd (hnone.symm.trans (hregistered.trans hr')) (by simp)
  · cases ha'

theorem reenable_messageSafe (h : Serves t o [] True s) :
    MessageSafe t (reenable o) (fun _ _ => True) s := by
  refine (MessageSafe.still (c := .acquireLock o) trivial h).bind fun _ s h => ?_
  refine (enable_messageSafe h).bind fun _ s _ => ?_
  exact MessageSafe.done trivial

theorem evtMessageDpc_messageSafe (h : Serves t o [] False s) :
    MessageSafe t (evtMessageDpc o) (fun _ _ => True) s := by
  cases o with
  | channel index =>
    refine (work_messageSafe h).bind fun _ s h => ?_
    refine (workDone_messageSafe h).bind fun _ s h => ?_
    exact reenable_messageSafe h
  | user eventId =>
    refine (workSet_messageSafe h).bind fun registered s h => ?_
    have hwork : MessageSafe t (Prog.when (registered = true) do
        (MessageOp.work (.user eventId)).perform
        (MessageOp.workDone (.user eventId)).perform)
        (fun _ => Serves t (.user eventId) [] True) s := by
      cases registered with
      | false => exact Safe.ret Serves.stable ⟨h.serving, h.working, fun _ => h.served rfl⟩
      | true =>
        refine (work_messageSafe h).bind fun _ s h => ?_
        exact workDone_messageSafe h
    exact hwork.bind fun _ s h => reenable_messageSafe h

/-! ## Every run -/

section
variable {i : InterruptInput} {resources : List CmResource} {is : EngineSlot → Probe.CreateInput}
  {d d' : Probe.Device} {status : NtStatus} {userWork : Nat → Bool} {channel user : BitVec 32}
  {pollMode : Bool} {c c' : MessageConfig T}

/-- On any number of processors the work of one source is done by one DPC at a time, and no
interrupt goes by without it, as long as files are opened on unmasked engines only. -/
theorem serialized_of_reach (hopen : Probe.openFirst i resources is d = (status, d'))
    (hok : ntSuccess status = true)
    (h : (messageThreads T).Reach (fun s l => opensUnmasked s l = true)
      (messageConfig T (Probe.setPollModes pollMode d') userWork channel user) c)
    (o : MessageObject) : c.state.Serialized o := by
  have hinv : MessageInv c.state := by
    refine (Reach.safe (I := MessageInv) (R := MessageRely) (Q := fun _ _ => True)
      (messageInv_config hopen hok pollMode) (fun t => Safe.ret (Stable.const _) trivial) ?_ ?_ h).1
    · intro ev s s' hi hl hs
      cases ev with
      | isr o again => exact hi.isr hs
      | fileCreate index =>
        cases hs
        exact hi.fileCreate ((Bool.or_eq_true _ _).mp hl)
    · intro t o s s' p hi _ _ hstart
      simp only [messageThreads] at hstart
      split at hstart
      · cases hstart
      · next hqueued =>
        cases hstart
        obtain ⟨hi', hr, hserves⟩ := hi.start hqueued rfl
        exact ⟨hi', fun u _ => hr u, evtMessageDpc_messageSafe hserves⟩
  exact hinv.serialized o

/-- The source is enabled, or a DPC that is queued or has begun is still to enable it. -/
def MessageConfig.Unmasked (c : MessageConfig T) (o : MessageObject) : Prop :=
  c.state.enabled o = true ∨
    (0 < c.state.dpcQueued o ∧ (evtMessageDpc o).Calls (.enable o)) ∨
    ∃ t, (c.thread t).Calls (.enable o)

omit [DecidableEq T] in
theorem evtMessageDpc_calls (o : MessageObject) : (evtMessageDpc o).Calls (.enable o) := by
  have hreenable : (reenable o).Calls (.enable o) := .inr fun _ => .inl rfl
  cases o with
  | channel index => exact .inr fun _ => .inr fun _ => hreenable
  | user eventId =>
    refine .inr fun registered => ?_
    cases registered with
    | false => exact hreenable
    | true => exact .inr fun _ => .inr fun _ => hreenable

/-- The calls of the DPCs mask nothing. -/
theorem act_keeps {t : T} {op : MessageOp} {r : op.Res}
    (h : MessageWorld.act t op s r = some s') (hmasks : NumberedMasks s.irqBitMask) :
    s'.irqBitMask = s.irqBitMask ∧ s'.poll = s.poll ∧ s'.dpcQueued = s.dpcQueued ∧
      (s.enabled o = true → s'.enabled o = true) := by
  cases op with
  | workSet o' =>
    simp only [MessageWorld.act] at h
    split at h
    · cases h; exact ⟨rfl, rfl, rfl, id⟩
    · cases h
  | acquireLock o' =>
    simp only [MessageWorld.act] at h
    split at h
    · cases h
    · cases h; exact ⟨rfl, rfl, rfl, (enabled_congr rfl rfl rfl).trans⟩
  | work o' | workDone o' | releaseLock o' =>
    cases h
    exact ⟨rfl, rfl, rfl, (enabled_congr rfl rfl rfl).trans⟩
  | enable o' =>
    obtain ⟨hmask, -, hqueued, -, -, -⟩ := setEnable_keeps (s := s) (o := o')
    cases h
    refine ⟨hmask, by cases o' <;> rfl, hqueued, fun henabled => ?_⟩
    refine (enabled_congr rfl rfl rfl).trans ?_
    by_cases ho : o = o'
    · subst ho
      exact enabled_setEnable_self (bits_of_enabled henabled)
    · exact (enabled_setEnable_of_ne hmasks ho).trans henabled

/-- A call: the DPC that makes the call which it was to make has unmasked the source. -/
theorem MessageConfig.Unmasked.call {t : T} {op : MessageOp} {r : op.Res} {k : op.Res → _}
    (h : c.Unmasked o) (hmasks : NumberedMasks c.state.irqBitMask) (hbits : c.state.bits o ≠ 0)
    (hk : c.thread t = .call op k) (hs : MessageWorld.act t op c.state r = some s') :
    MessageConfig.Unmasked ⟨s', Function.update c.thread t (k r)⟩ o := by
  obtain ⟨-, -, hqueued, henabled⟩ := act_keeps (o := o) hs hmasks
  rcases h with h | ⟨hq, hdpc⟩ | ⟨u, hu⟩
  · exact .inl (henabled h)
  · exact .inr (.inl ⟨hqueued ▸ hq, hdpc⟩)
  · by_cases hut : u = t
    · rw [hut, hk] at hu
      rcases hu with rfl | hu
      · cases hs
        exact .inl ((enabled_congr rfl rfl rfl).trans (enabled_setEnable_self hbits))
      · exact .inr (.inr ⟨t, by simpa using hu r⟩)
    · exact .inr (.inr ⟨u, by simpa [hut] using hu⟩)

omit [DecidableEq T] in
theorem isr_keeps {o' : MessageObject} {again : Bool}
    (h : s.evtMessageIsr o' again = some s') (hmasks : NumberedMasks s.irqBitMask) :
    s'.irqBitMask = s.irqBitMask ∧ s'.poll = s.poll ∧ 0 < s'.dpcQueued o' ∧
      ∀ o, o ≠ o' → s'.enabled o = s.enabled o ∧ s'.dpcQueued o = s.dpcQueued o := by
  unfold MessageWorld.evtMessageIsr at h
  split at h
  · cases h
  · obtain ⟨hmask, -⟩ := clearEnable_keeps (s := s) (o := o')
    cases h
    refine ⟨hmask, by cases o' <;> rfl, ?_, fun o ho => ⟨?_, Function.update_of_ne ho ..⟩⟩
    · simp only [Function.update_self]
      split
      · next hagain => exact hagain.1
      · exact Nat.succ_pos _
    · exact (enabled_congr rfl rfl rfl).trans (enabled_clearEnable_of_ne hmasks ho)

omit [DecidableEq T] in
theorem MessageConfig.Unmasked.isr {o' : MessageObject} {again : Bool} (h : c.Unmasked o)
    (hmasks : NumberedMasks c.state.irqBitMask) (hs : c.state.evtMessageIsr o' again = some s') :
    MessageConfig.Unmasked ⟨s', c.thread⟩ o := by
  obtain ⟨-, -, hqueued, hothers⟩ := isr_keeps hs hmasks
  by_cases ho : o = o'
  · exact .inr (.inl ⟨ho ▸ hqueued, evtMessageDpc_calls o⟩)
  · obtain ⟨henabled, hsame⟩ := hothers o ho
    unfold Unmasked
    rw [henabled, hsame]
    exact h

omit [DecidableEq T] in
/-- A file of an engine in interrupt mode unmasks the engine, and no file touches another one. -/
theorem MessageConfig.Unmasked.fileCreate {index : Nat} (h : c.Unmasked o)
    (hmasks : NumberedMasks c.state.irqBitMask) (hbits : c.state.bits o ≠ 0)
    (hmode : ∀ k, o = .channel k → c.state.poll k = false) :
    MessageConfig.Unmasked ⟨c.state.evtDeviceFileCreate index, c.thread⟩ o := by
  unfold MessageWorld.evtDeviceFileCreate
  by_cases ho : o = .channel index
  · subst ho
    rw [hmode index rfl]
    exact .inl (enabled_setEnable_self hbits)
  · unfold Unmasked
    split
    · rw [enabled_clearEnable_of_ne hmasks ho]
      exact h
    · rw [enabled_setEnable_of_ne hmasks ho]
      exact h

/-- The DPC that is taken from the queue is the one that has begun. -/
theorem MessageConfig.Unmasked.start {t : T} {o' : MessageObject} {p : MessageProg Unit}
    (h : c.Unmasked o) (ht : c.thread t = .ret ())
    (hs : (messageThreads T).start t o' c.state = some (s', p)) :
    MessageConfig.Unmasked ⟨s', Function.update c.thread t p⟩ o := by
  simp only [messageThreads] at hs
  split at hs
  · cases hs
  · cases hs
    by_cases ho : o = o'
    · subst ho
      refine .inr (.inr ⟨t, ?_⟩)
      simpa only [Function.update_self] using evtMessageDpc_calls o
    · rcases h with h | ⟨hq, hdpc⟩ | ⟨u, hu⟩
      · exact .inl ((enabled_congr rfl rfl rfl).trans h)
      · refine .inr (.inl ⟨?_, hdpc⟩)
        simpa only [Function.update_of_ne ho] using hq
      · refine .inr (.inr ⟨u, ?_⟩)
        have hut : u ≠ t := by
          rintro rfl
          rw [ht] at hu
          exact hu
        simpa only [Function.update_of_ne hut] using hu

/-- What a source that was enabled keeps, unless it is that of an engine in poll mode. -/
structure UnmaskedInv (c₀ : MessageConfig T) (o : MessageObject) (c : MessageConfig T) : Prop where
  masks : c.state.irqBitMask = c₀.state.irqBitMask
  poll : c.state.poll = c₀.state.poll
  unmasked : c.Unmasked o

theorem unmaskedInv_of_reach {c₀ : MessageConfig T} (hmasks : NumberedMasks c₀.state.irqBitMask)
    (henabled : c₀.state.enabled o = true) (hmode : ∀ k, o = .channel k → c₀.state.poll k = false)
    (h : (messageThreads T).Reach (fun _ _ => True) c₀ c) : UnmaskedInv c₀ o c := by
  induction h with
  | refl => exact ⟨rfl, rfl, .inl henabled⟩
  | @step c c' l _ _ hs ih =>
    obtain ⟨hmask, hpoll, hunmasked⟩ := ih
    have hmasks' : NumberedMasks c.state.irqBitMask := hmask ▸ hmasks
    have hbits : c.state.bits o ≠ 0 := by
      rw [bits_congr hmask]
      exact bits_of_enabled henabled
    cases l with
    | call t op r =>
      obtain ⟨k, s', hk, ha, rfl⟩ := step_call_eq hs
      obtain ⟨hmask', hpoll', -⟩ := act_keeps (o := o) ha hmasks'
      exact ⟨hmask'.trans hmask, hpoll'.trans hpoll, hunmasked.call hmasks' hbits hk ha⟩
    | env ev =>
      obtain ⟨s', ha, rfl⟩ := step_env_eq hs
      cases ev with
      | isr o' again =>
        obtain ⟨hmask', hpoll', -⟩ := isr_keeps ha hmasks'
        exact ⟨hmask'.trans hmask, hpoll'.trans hpoll, hunmasked.isr hmasks' ha⟩
      | fileCreate index =>
        cases ha
        refine ⟨?_, ?_, hunmasked.fileCreate hmasks' hbits (hpoll ▸ hmode)⟩
        · unfold MessageWorld.evtDeviceFileCreate
          split <;> exact hmask
        · unfold MessageWorld.evtDeviceFileCreate
          split <;> exact hpoll
    | start t o' =>
      obtain ⟨s', p, ht, ha, rfl⟩ := step_start_eq hs
      have hstart := hunmasked.start ht ha
      simp only [messageThreads] at ha
      split at ha
      · cases ha
      · cases ha
        exact ⟨hmask, hpoll, hstart⟩

/-- No source that was enabled stays masked, whenever files are opened, but for the engines in poll
mode. -/
theorem unmasked_of_reach (hopen : Probe.openFirst i resources is d = (status, d'))
    (hok : ntSuccess status = true)
    (h : (messageThreads T).Reach (fun _ _ => True)
      (messageConfig T (Probe.setPollModes pollMode d') userWork channel user) c)
    (o : MessageObject)
    (henabled :
      (messageConfig T (Probe.setPollModes pollMode d') userWork channel user).state.enabled o =
        true)
    (hmode : ∀ index, o = .channel index →
      (messageConfig T (Probe.setPollModes pollMode d') userWork channel user).state.poll index =
        false) : c.Unmasked o :=
  (unmaskedInv_of_reach (messageInv_config hopen hok pollMode).masks henabled hmode h).unmasked

end

/-! ## Two processors -/

abbrev MessageLabel := Label MessageOp MessageOp.Res Bool MessageEvent MessageObject

/-- The engines of `Probe.gapDevice` in interrupt mode, with all interrupts enabled. -/
def gapConfig : MessageConfig Bool :=
  messageConfig Bool (Probe.setPollModes false Probe.gapOpen.2) (fun _ => true) 0xFF 0xFFFF

/-- The processor takes an interrupt of the engine `H2C_2` up to its work. -/
def interruptLabels (t : Bool) : List MessageLabel :=
  [.env (.isr (.channel 1) true), .start t (.channel 1), .call t (.work (.channel 1)) ()]

theorem serialized_working : ∃ c,
    (messageThreads Bool).Reach (fun s l => opensUnmasked s l = true) gapConfig c ∧
      c.state.working (.channel 1) = [false] ∧ ∀ o, c.state.Serialized o := by
  have hrun : ∃ c, (messageThreads Bool).Reach (fun s l => opensUnmasked s l = true) gapConfig c ∧
      (c.state.working (.channel 1) == [false]) = true :=
    Reach.exists_of_run (.env (.fileCreate 1) :: interruptLabels false)
      (fun s : MessageWorld Bool => s.working (.channel 1) == [false]) (by decide)
  obtain ⟨c, hc, h⟩ := hrun
  have hok : ntSuccess Probe.gapOpen.1 = true := by decide
  have hopen : Probe.openFirst (.sample 0) Probe.messageResources (fun _ => Probe.gapInput)
      Probe.gapDevice = (Probe.gapOpen.1, Probe.gapOpen.2) := rfl
  exact ⟨c, hc, eq_of_beq h, fun o => serialized_of_reach hopen hok hc o⟩

/-- A file is opened on the engine while its work is done: the next interrupt comes too early, and
the work is done twice at a time. -/
theorem fileCreate_overlaps : ∃ c,
    (messageThreads Bool).Reach (fun _ _ => True) gapConfig c ∧
      ¬ c.state.Serialized (.channel 1) := by
  have hrun : ∃ c, (messageThreads Bool).Reach (fun _ _ => True) gapConfig c ∧
      (c.state.working (.channel 1) == [true, false]) = true :=
    Reach.exists_of_run (interruptLabels false ++ [.env (.fileCreate 1)] ++ interruptLabels true)
      (fun s : MessageWorld Bool => s.working (.channel 1) == [true, false]) (by decide)
  obtain ⟨c, hc, h⟩ := hrun
  refine ⟨c, hc, fun hserialized => ?_⟩
  have hone := hserialized.one
  rw [eq_of_beq h] at hone
  exact absurd hone (by decide)

theorem unmasked_working : ∃ c : MessageConfig Bool,
    (messageThreads Bool).Reach (fun _ _ => True) gapConfig c ∧
      c.state.enabled (.channel 1) = false ∧ c.Unmasked (.channel 1) := by
  have hrun : ∃ c, (messageThreads Bool).Reach (fun _ _ => True) gapConfig c ∧
      (!c.state.enabled (.channel 1)) = true :=
    Reach.exists_of_run (interruptLabels false)
      (fun s : MessageWorld Bool => !s.enabled (.channel 1)) (by decide)
  obtain ⟨c, hc, h⟩ := hrun
  have hok : ntSuccess Probe.gapOpen.1 = true := by decide
  have hopen : Probe.openFirst (.sample 0) Probe.messageResources (fun _ => Probe.gapInput)
      Probe.gapDevice = (Probe.gapOpen.1, Probe.gapOpen.2) := rfl
  have henabled : gapConfig.state.enabled (.channel 1) = true := by decide
  have hmode : ∀ index, MessageObject.channel 1 = .channel index →
      gapConfig.state.poll index = false := by
    intro index hindex
    cases hindex
    decide
  exact ⟨c, hc, by simpa using h, unmasked_of_reach hopen hok hc (.channel 1) henabled hmode⟩

end Xadma
