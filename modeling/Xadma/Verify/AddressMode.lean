import Xadma.Theory.RelyGuarantee
import Xadma.Sys.AddressMode
import Xadma.Verify.EntryQueue

/-!
# Agreement on the address mode

The field takes any word, and `XDMA_EngineProgramDma` and `DescriptorIsAligned` compare it with
different modes. While a DMA request is under way nothing keeps the entry queue from changing it.
-/

namespace Xadma

namespace AddrMode

open Threads

variable {w : PointerWidth} {s s' : World} {engine : XdmaEngine} {file : Entry.File w}

abbrev ModeLabel (w : PointerWidth) := Label (Op w) Op.Res Thread Empty (Start w)

/-- The bit of the device and the field say the same. -/
def World.Alike (s : World) : Prop := s.nonIncrAddr = true ↔ s.addressMode = addressModeFixed

instance (s : World) : Decidable s.Alike := inferInstanceAs (Decidable (_ ↔ _))

/-- The decision is the one for a descriptor of `mode`. -/
def ModeUse.Under (mode : AddressMode) : ModeUse → Prop
  | .offset raw => AddressMode.ofWord raw = .contiguous ↔ mode = .contiguous
  | .align raw => AddressMode.ofWord raw = .fixed ↔ mode = .fixed

def ModeUse.raw : ModeUse → BitVec 32
  | .offset raw => raw
  | .align raw => raw

def chain (engine : XdmaEngine) (raw : BitVec 32) (fragment : Fragment) :
    Option (List DmaDescriptor) :=
  programChain (engine.withMode raw) fragment.direction fragment.deviceOffset fragment.sgList

/-- All descriptors of a request are treated under one mode: its chains are those of its fragments
in this mode, and when it is completed none is missing. -/
structure Uniform (engine : XdmaEngine) (raw : BitVec 32) (s : World) : Prop where
  mode : raw = addressModeContiguous ∨ raw = addressModeFixed
  uses : ∀ u ∈ s.uses, u.Under (.ofWord raw)
  chains : s.chains.map some <+: s.fragments.map (chain engine raw)
  completed : s.underWay = false → s.chains.map some = s.fragments.map (chain engine raw)

/-- The field is one of the two modes, the one that was set last unless it is being changed, and the
mode of the device while a chain is programmed. No SET is completed with success unheard. -/
structure Agrees (engine : XdmaEngine) (s : World) : Prop where
  enumerated : s.addressMode = addressModeContiguous ∨ s.addressMode = addressModeFixed
  set : s.changing = none → s.addressMode = s.requested ∧ s.Alike
  heard : s.missed = false
  device : s.programming = true → s.Alike
  uniform : ∃ raw, Uniform engine raw s

/-- A SET asks for one of the two modes. One that changes the mode is alone: when it gets its
payload no other SET and no DMA request is under way, and none begins before it is completed. -/
def setApart (s : World) : ModeLabel w → Bool
  | .call t (.entry .copyToBuffer) r =>
    !ntSuccess r.1 || (r.2 == addressModeContiguous || r.2 == addressModeFixed) &&
      (r.2 == s.requested || decide (s.setting = {t}) && !s.underWay)
  | .start (.entry _) (.entry request) => !setsMode request || s.changing.isNone
  | .start .dma _ => s.changing.isNone
  | _ => true

def SetApart (s : World) (l : ModeLabel w) : Prop := setApart s l = true

instance (s : World) (l : ModeLabel w) : Decidable (SetApart s l) :=
  inferInstanceAs (Decidable (_ = _))

variable {t : Thread} {raw : BitVec 32}

theorem SetApart.payload {r : NtStatus × BitVec 32}
    (h : SetApart s (.call t (.entry .copyToBuffer) r : ModeLabel w)) (hr : ntSuccess r.1 = true) :
    (r.2 = addressModeContiguous ∨ r.2 = addressModeFixed) ∧
      (r.2 ≠ s.requested → s.setting = {t} ∧ s.underWay = false) := by
  simpa [SetApart, setApart, hr, or_iff_not_imp_left] using h

theorem SetApart.beginSet {n : Nat} {request : Entry.EntryRequest w}
    (h : SetApart s (.start (.entry n) (.entry request) : ModeLabel w))
    (hset : setsMode request = true) : s.changing = none := by
  simpa [SetApart, setApart, hset] using h

theorem SetApart.beginDma {fragments : List Fragment}
    (h : SetApart s (.start .dma (.dma fragments) : ModeLabel w)) : s.changing = none := by
  simpa [SetApart, setApart] using h

/-! ## The invariant -/

/-- The device has the mode that was asked for. -/
def World.BitSet (s : World) : Prop := s.nonIncrAddr = true ↔ s.requested = addressModeFixed

/-- The field has it. -/
def World.FieldSet (s : World) : Prop := s.addressMode = s.requested

structure Inv (engine : XdmaEngine) (s : World) : Prop where
  requested : s.requested = addressModeContiguous ∨ s.requested = addressModeFixed
  enumerated : s.addressMode = addressModeContiguous ∨ s.addressMode = addressModeFixed
  settled : s.changing = none → s.BitSet ∧ s.FieldSet
  alone : ∀ t, s.changing = some t → s.setting = {t} ∧ s.underWay = false
  waiting : s.waiting ⊆ s.setting
  heard : s.missed = false
  programming : s.programming = true → s.underWay = true
  served : ∃ raw, Uniform engine raw s ∧ (s.underWay = true → raw = s.requested)

/-- The comparisons with the two modes agree on a word that is one of them. -/
theorem ModeUse.under_ofWord {u : ModeUse} (h : u.raw = raw) : u.Under (.ofWord raw) := by
  cases u with
  | offset | align =>
    cases h
    exact Iff.rfl

theorem World.alike_of_set (hbit : s.BitSet) (hfield : s.FieldSet) : s.Alike := by
  unfold World.Alike
  rw [show s.addressMode = s.requested from hfield]
  exact hbit

/-- No SET changes the mode while a DMA request is under way. -/
theorem Inv.settled_of_underWay (hi : Inv engine s) (h : s.underWay = true) :
    s.BitSet ∧ s.FieldSet := by
  refine hi.settled (Option.eq_none_iff_forall_ne_some.mpr fun t ht => ?_)
  have hno := (hi.alone t ht).2
  rw [h] at hno
  cases hno

theorem Inv.agrees (hi : Inv engine s) : Agrees engine s := by
  refine ⟨hi.enumerated, fun hnone => ?_, hi.heard, fun hprogramming => ?_, ?_⟩
  · obtain ⟨hbit, hfield⟩ := hi.settled hnone
    exact ⟨hfield, World.alike_of_set hbit hfield⟩
  · obtain ⟨hbit, hfield⟩ := hi.settled_of_underWay (hi.programming hprogramming)
    exact World.alike_of_set hbit hfield
  · obtain ⟨raw, huniform, -⟩ := hi.served
    exact ⟨raw, huniform⟩

theorem nonIncrAddr_eq (s : World) : s.nonIncrAddr = s.control.getLsbD 25 := by
  have hmask : Entry.xdmaCtrlNonIncrAddr = BitVec.twoPow 32 25 := by decide
  unfold World.nonIncrAddr
  rw [hmask, BitVec.and_twoPow]
  cases s.control.getLsbD 25 with
  | true => decide
  | false => decide

/-- The write of a SET for one of the modes leaves the bit as the mode says. -/
theorem bitSet_write (hraw : s.requested = addressModeContiguous ∨ s.requested = addressModeFixed) :
    (s.requested ≠ 0 →
      ({ s with control := s.control ||| Entry.xdmaCtrlNonIncrAddr } : World).BitSet) ∧
    (s.requested = 0 →
      ({ s with control := s.control &&& ~~~ Entry.xdmaCtrlNonIncrAddr } : World).BitSet) := by
  have hset : Entry.xdmaCtrlNonIncrAddr.getLsbD 25 = true := by decide
  constructor
  · intro hne
    rcases hraw with hraw | hraw
    · exact absurd hraw hne
    · have hbit : ({ s with control := s.control ||| Entry.xdmaCtrlNonIncrAddr } :
          World).nonIncrAddr = true := by
        rw [nonIncrAddr_eq, BitVec.getLsbD_or, hset, Bool.or_true]
      exact ⟨fun _ => hraw, fun _ => hbit⟩
  · intro hzero
    have hbit : ({ s with control := s.control &&& ~~~ Entry.xdmaCtrlNonIncrAddr } :
        World).nonIncrAddr = false := by
      rw [nonIncrAddr_eq, BitVec.getLsbD_and, BitVec.getLsbD_not, hset]
      simp
    constructor
    · intro h
      cases hbit.symm.trans h
    · intro h
      cases hzero.symm.trans h

/-! ## What the threads rely on -/

/-- A SET is under way as long as its own request is, and the mode that it asked for stays as it
is. -/
structure EntryRely (t : Thread) (s s' : World) : Prop where
  setting : t ∈ s'.setting ↔ t ∈ s.setting
  waiting : t ∈ s'.waiting ↔ t ∈ s.waiting
  changing : t ∈ s.setting → (s'.changing = some t ↔ s.changing = some t)
  requested : t ∈ s.setting → s'.requested = s.requested
  bit : t ∈ s.setting → s.BitSet → s'.BitSet
  field : t ∈ s.setting → s.FieldSet → s'.FieldSet

/-- Only the queue of the engine works on its requests, in the mode that they began with. -/
structure DmaRely (s s' : World) : Prop where
  underWay : s'.underWay = s.underWay
  requested : s.underWay = true → s'.requested = s.requested
  fragments : s'.fragments = s.fragments
  chains : s'.chains = s.chains

def ModeRely : Thread → World → World → Prop
  | .entry n, s, s' => EntryRely (.entry n) s s'
  | .dma, s, s' => DmaRely s s'

theorem ModeRely.of_rely (hentry : EntryRely t s s') (hdma : t = .dma → DmaRely s s') :
    ModeRely t s s' := by
  cases t with
  | entry n => exact hentry
  | dma => exact hdma rfl

theorem ModeRely.refl : ModeRely t s s :=
  .of_rely ⟨Iff.rfl, Iff.rfl, fun _ => Iff.rfl, fun _ => rfl, fun _ => id, fun _ => id⟩
    fun _ => ⟨rfl, fun _ => rfl, rfl, rfl⟩

abbrev ModeSafe (engine : XdmaEngine) (file : Entry.File w) {α : Type} (t : Thread)
    (p : ModeProg w α) (Q : α → World → Prop) (s : World) : Prop :=
  Safe (modeThreads engine file) SetApart (Inv engine) ModeRely t p Q s

abbrev ModeStable (engine : XdmaEngine) (t : Thread) (P : World → Prop) : Prop :=
  Stable (Inv engine) ModeRely t P

/-! ## `IOCTL_XDMA_ADDRMODE_SET` -/

/-- The thread serves no SET. -/
def Idle (t : Thread) (s : World) : Prop := t ∉ s.setting

/-- It serves one that has not asked for a mode yet. -/
def Begun (t : Thread) (s : World) : Prop := t ∈ s.setting ∧ s.changing ≠ some t

/-- It serves one that has its payload. -/
def Heard (t : Thread) (s : World) : Prop := t ∈ s.setting ∧ t ∉ s.waiting

/-- It serves one that asks for the mode. -/
def Asks (t : Thread) (addrMode : BitVec 32) (s : World) : Prop :=
  Heard t s ∧ s.requested = addrMode

def AsksBit (t : Thread) (addrMode : BitVec 32) (s : World) : Prop :=
  Asks t addrMode s ∧ s.BitSet

/-- The mode that it asks for is set. -/
def IsSet (t : Thread) (s : World) : Prop := Heard t s ∧ s.BitSet ∧ s.FieldSet

variable {n : Nat} {addrMode : BitVec 32}

theorem Idle.stable : ModeStable engine (.entry n) (Idle (.entry n)) :=
  fun _ _ _ _ hr h hin => h (hr.setting.mp hin)

theorem Begun.stable : ModeStable engine (.entry n) (Begun (.entry n)) :=
  fun _ _ _ _ hr h => ⟨hr.setting.mpr h.1, fun hin => h.2 ((hr.changing h.1).mp hin)⟩

theorem Heard.stable : ModeStable engine (.entry n) (Heard (.entry n)) :=
  fun _ _ _ _ hr h => ⟨hr.setting.mpr h.1, fun hin => h.2 (hr.waiting.mp hin)⟩

theorem Asks.stable : ModeStable engine (.entry n) (Asks (.entry n) addrMode) :=
  fun s s' hi hi' hr h => ⟨Heard.stable s s' hi hi' hr h.1, (hr.requested h.1.1).trans h.2⟩

theorem AsksBit.stable : ModeStable engine (.entry n) (AsksBit (.entry n) addrMode) :=
  fun s s' hi hi' hr h => ⟨Asks.stable s s' hi hi' hr h.1, hr.bit h.1.1.1 h.2⟩

theorem IsSet.stable : ModeStable engine (.entry n) (IsSet (.entry n)) :=
  fun s s' hi hi' hr h =>
    ⟨Heard.stable s s' hi hi' hr h.1, hr.bit h.1.1 h.2.1, hr.field h.1.1 h.2.2⟩

/-- While a SET has not asked for a mode yet, no other one changes it. -/
theorem Begun.changing (hi : Inv engine s) (h : Begun t s) : s.changing = none := by
  refine Option.eq_none_iff_forall_ne_some.mpr fun u hu => h.2 ?_
  have hin := h.1
  rw [(hi.alone u hu).1, Finset.mem_singleton] at hin
  rw [hin, hu]

/-- The call that gets the payload. -/
theorem Inv.ask {r : NtStatus × BitVec 32} (hi : Inv engine s) (h : Begun t s)
    (hok : SetApart s (.call t (.entry .copyToBuffer) r : ModeLabel w)) (hr : ntSuccess r.1 = true)
    (hact : World.entryAct (w := w) t .copyToBuffer s r = some s') :
    Inv engine s' ∧ (∀ u, u ≠ t → ModeRely u s s') ∧ Asks t r.2 s' := by
  obtain ⟨hmode, halone⟩ := hok.payload hr
  have hnone := h.changing hi
  simp only [World.entryAct, hr, if_true] at hact
  have hsub : s.waiting.erase t ⊆ s.setting := (Finset.erase_subset _ _).trans hi.waiting
  have hheard : t ∉ s.waiting.erase t := Finset.notMem_erase _ _
  have hothers {u : Thread} (hut : u ≠ t) : u ∈ s.waiting.erase t ↔ u ∈ s.waiting :=
    Finset.mem_erase.trans (and_iff_right hut)
  by_cases hsame : r.2 = s.requested
  · rw [if_pos hsame, hsame] at hact
    cases hact
    obtain ⟨raw, huniform, hcurrent⟩ := hi.served
    refine ⟨{ hi with waiting := hsub, served := ⟨raw, { huniform with }, hcurrent⟩ },
      fun u hut => ?_, ⟨h.1, hheard⟩, hsame.symm⟩
    exact .of_rely ⟨Iff.rfl, hothers hut, fun _ => Iff.rfl, fun _ => rfl, fun _ hbit => hbit,
      fun _ hfield => hfield⟩ fun _ => ⟨rfl, fun _ => rfl, rfl, rfl⟩
  · rw [if_neg hsame] at hact
    cases hact
    obtain ⟨hsetting, hidle⟩ := halone hsame
    refine ⟨⟨hmode, hi.enumerated, fun hno => (Option.some_ne_none t hno).elim, fun u hu => ?_,
      hsub, hi.heard, hi.programming, ?_⟩, fun u hut => ?_, ⟨h.1, hheard⟩, rfl⟩
    · cases hu
      exact ⟨hsetting, hidle⟩
    · obtain ⟨raw, huniform, -⟩ := hi.served
      refine ⟨raw, { huniform with }, fun hunder => ?_⟩
      cases hidle.symm.trans hunder
    · have hnot : u ∉ s.setting := by
        rw [hsetting, Finset.mem_singleton]
        exact hut
      refine .of_rely ⟨Iff.rfl, hothers hut, fun hin => absurd hin hnot,
        fun hin => absurd hin hnot, fun hin => absurd hin hnot, fun hin => absurd hin hnot⟩
        fun _ => ⟨rfl, fun hunder => ?_, rfl, rfl⟩
      cases hidle.symm.trans hunder

/-- The write of the mode that is asked for to the register. -/
theorem Inv.write {control : BitVec 32} (hi : Inv engine s)
    (hbit : ({ s with control := control } : World).BitSet) :
    Inv engine { s with control := control } ∧
      ∀ u, ModeRely u s { s with control := control } := by
  obtain ⟨raw, huniform, hcurrent⟩ := hi.served
  refine ⟨{ hi with
    settled := fun hnone => ⟨hbit, (hi.settled hnone).2⟩
    served := ⟨raw, { huniform with }, hcurrent⟩ }, fun u => ?_⟩
  exact .of_rely ⟨Iff.rfl, Iff.rfl, fun _ => Iff.rfl, fun _ => rfl, fun _ _ => hbit, fun _ h => h⟩
    fun _ => ⟨rfl, fun _ => rfl, rfl, rfl⟩

theorem Inv.assign (hi : Inv engine s) (h : s.requested = addrMode) :
    Inv engine { s with addressMode := addrMode } ∧
      ∀ u, ModeRely u s { s with addressMode := addrMode } := by
  obtain ⟨raw, huniform, hcurrent⟩ := hi.served
  have hfield : ({ s with addressMode := addrMode } : World).FieldSet := h.symm
  refine ⟨{ hi with
    enumerated := h ▸ hi.requested
    settled := fun hnone => ⟨(hi.settled hnone).1, hfield⟩
    served := ⟨raw, { huniform with }, hcurrent⟩ }, fun u => ?_⟩
  exact .of_rely ⟨Iff.rfl, Iff.rfl, fun _ => Iff.rfl, fun _ => rfl, fun _ h => h, fun _ _ => hfield⟩
    fun _ => ⟨rfl, fun _ => rfl, rfl, rfl⟩

/-- A request is completed: it was no SET, or none that asked for a mode, or the mode is set. -/
theorem Inv.complete {status : NtStatus} (hi : Inv engine s)
    (hheard : ntSuccess status = true → t ∉ s.waiting)
    (hset : s.changing = some t → s.BitSet ∧ s.FieldSet) :
    Inv engine (s.complete t status) ∧ ∀ u, u ≠ t → ModeRely u s (s.complete t status) := by
  have hmissed : (s.complete t status).missed = false := by
    have hno : (ntSuccess status && decide (t ∈ s.waiting)) = false := by
      cases hstatus : ntSuccess status with
      | true => exact decide_eq_false (hheard hstatus)
      | false => rfl
    change (s.missed || _) = false
    rw [hi.heard, hno, Bool.or_false]
  obtain ⟨raw, huniform, hcurrent⟩ := hi.served
  refine ⟨{ hi with
    settled := fun hnone => ?_
    alone := fun u hu => ?_
    waiting := Finset.erase_subset_erase t hi.waiting
    heard := hmissed
    served := ⟨raw, { huniform with }, hcurrent⟩ }, fun u hut => ?_⟩
  · by_cases ht : s.changing = some t
    · exact hset ht
    · exact hi.settled (by rwa [World.complete, if_neg ht] at hnone)
  · dsimp only [World.complete] at hu
    split at hu
    · cases hu
    · next ht =>
      obtain ⟨hsetting, hidle⟩ := hi.alone u hu
      have hne : t ∉ ({u} : Finset Thread) := by
        rw [Finset.mem_singleton]
        rintro rfl
        exact ht hu
      refine ⟨?_, hidle⟩
      dsimp only [World.complete]
      rw [hsetting, Finset.erase_eq_of_notMem hne]
  · refine .of_rely ⟨Finset.mem_erase.trans (and_iff_right hut),
      Finset.mem_erase.trans (and_iff_right hut), fun _ => ?_, fun _ => rfl,
      fun _ hbit => hbit, fun _ hfield => hfield⟩ fun _ => ⟨rfl, fun _ => rfl, rfl, rfl⟩
    dsimp only [World.complete]
    split
    · next ht =>
      rw [ht]
      simp [Ne.symm hut]
    · rfl

section
variable {α β : Type}

abbrev EntrySafe (engine : XdmaEngine) (file : Entry.File w) (t : Thread) (p : Entry.EntryProg w α)
    (Q : α → World → Prop) (s : World) : Prop :=
  ModeSafe engine file t (entryProg p) Q s

theorem EntrySafe.bind {p : Entry.EntryProg w α} {f : α → Entry.EntryProg w β}
    {Q : α → World → Prop} {Q' : β → World → Prop} (h : EntrySafe engine file t p Q s)
    (hf : ∀ a s, Q a s → EntrySafe engine file t (f a) Q' s) :
    EntrySafe engine file t (p >>= f) Q' s := by
  unfold EntrySafe entryProg
  rw [Prog.mapOp_bind]
  exact Safe.bind h hf

end

/-- The calls that neither ask for a mode nor write it nor complete the request. -/
def Quiet : Entry.EntryOp w → Prop
  | .copyToBuffer | .writeControlW1S _ | .writeControlW1C _ | .assignAddressMode _ => False
  | .complete .. => False
  | _ => True

theorem Quiet.act {o : Entry.EntryOp w} {r : o.Res} (ho : Quiet o)
    (h : World.entryAct t o s r = some s') : s' = s := by
  cases o with
  | copyToBuffer | writeControlW1S | writeControlW1C | assignAddressMode | complete => cases ho
  | getQueueContext queue =>
    cases queue with
    | none => cases h
    | some queue => exact (Option.some.inj h).symm
  | readControl =>
    simp only [World.entryAct] at h
    split at h
    · exact (Option.some.inj h).symm
    · cases h
  | _ => exact (Option.some.inj h).symm

theorem EntrySafe.quiet {o : Entry.EntryOp w} (ho : Quiet o) (h : Begun (.entry n) s) :
    EntrySafe engine file (.entry n) o.perform (fun _ => Begun (.entry n)) s := by
  refine Safe.perform _ Begun.stable (fun _ => Begun.stable) h fun s r s' hi h _ ha => ?_
  have hsame : s' = s := ho.act ha
  rw [hsame]
  exact ⟨hi, fun u _ => .refl, h⟩

/-- A SET on its way to its completion. -/
def SetResult (t : Thread) (status : NtStatus) (s : World) : Prop :=
  if ntSuccess status then IsSet t s else Begun t s

theorem SetResult.stable {status : NtStatus} :
    ModeStable engine (.entry n) (SetResult (.entry n) status) := by
  unfold SetResult
  split
  · exact IsSet.stable
  · exact Begun.stable

theorem SetResult.failed {status : NtStatus} (hfail : (!ntSuccess status) = true)
    (h : Begun t s) : SetResult t status s := by
  rw [Bool.not_eq_true'] at hfail
  simpa [SetResult, hfail] using h

theorem copyToBuffer_safe (h : Begun (.entry n) s) :
    EntrySafe engine file (.entry n) Entry.EntryOp.copyToBuffer.perform
      (fun r s => if ntSuccess r.1 then Asks (.entry n) r.2 s else Begun (.entry n) s) s := by
  refine Safe.perform _ Begun.stable (fun r => ?_) h fun s r s' hi h hok ha => ?_
  · split
    · exact Asks.stable
    · exact Begun.stable
  · split
    · next hr => exact hi.ask h hok hr ha
    · next hr =>
      have hsame : s' = s := by
        have hact : World.entryAct (w := w) (.entry n) .copyToBuffer s r = some s' := ha
        rw [World.entryAct, if_neg hr] at hact
        exact (Option.some.inj hact).symm
      rw [hsame]
      exact ⟨hi, fun u _ => .refl, h⟩

theorem writeNonIncrAddr_safe (h : Asks (.entry n) addrMode s) :
    EntrySafe engine file (.entry n) (Entry.writeNonIncrAddr addrMode)
      (fun _ => AsksBit (.entry n) addrMode) s := by
  unfold Entry.writeNonIncrAddr
  split
  · next hne =>
    refine Safe.perform _ Asks.stable (fun _ => AsksBit.stable) h fun s r s' hi h _ ha => ?_
    cases ha
    have hbit := (bitSet_write hi.requested).1 (h.2 ▸ hne)
    obtain ⟨hi', hrely⟩ := hi.write hbit
    exact ⟨hi', fun u _ => hrely u, h, hbit⟩
  · next hzero =>
    refine Safe.perform _ Asks.stable (fun _ => AsksBit.stable) h fun s r s' hi h _ ha => ?_
    cases ha
    have hbit := (bitSet_write hi.requested).2 (h.2 ▸ not_not.mp hzero)
    obtain ⟨hi', hrely⟩ := hi.write hbit
    exact ⟨hi', fun u _ => hrely u, h, hbit⟩

theorem assignAddressMode_safe (h : AsksBit (.entry n) addrMode s) :
    EntrySafe engine file (.entry n) (Entry.EntryOp.assignAddressMode addrMode).perform
      (fun _ => IsSet (.entry n)) s := by
  refine Safe.perform _ AsksBit.stable (fun _ => IsSet.stable) h fun s r s' hi h _ ha => ?_
  cases ha
  obtain ⟨⟨hin, hrequested⟩, hbit⟩ := h
  obtain ⟨hi', hrely⟩ := hi.assign hrequested
  exact ⟨hi', fun u _ => hrely u, hin, hbit, hrequested.symm⟩

/-- `IoctlSetAddrMode` sets the bit and the field to its payload, or fails before. -/
theorem ioctlSetAddrMode_safe (h : Begun (.entry n) s) :
    EntrySafe engine file (.entry n) Entry.ioctlSetAddrMode (SetResult (.entry n)) s := by
  refine (EntrySafe.quiet (o := .retrieveInputMemory) trivial h).bind fun status s h => ?_
  split
  · next hfail => exact Safe.ret SetResult.stable (.failed hfail h)
  · refine copyToBuffer_safe h |>.bind fun copied s h => ?_
    split
    · next hfail =>
      rw [Bool.not_eq_true'] at hfail
      rw [if_neg (by simp [hfail])] at h
      exact Safe.ret SetResult.stable (.failed (by simp [hfail]) h)
    · next hsuccess =>
      have hsuccess : ntSuccess copied.1 = true := by simpa using hsuccess
      rw [if_pos hsuccess] at h
      refine (writeNonIncrAddr_safe h).bind fun _ s h => ?_
      refine (assignAddressMode_safe h).bind fun _ s h => ?_
      refine Safe.ret SetResult.stable ?_
      rwa [SetResult, if_pos hsuccess]

theorem complete_safe {status : NtStatus} {information : Nat} (h : SetResult (.entry n) status s) :
    EntrySafe engine file (.entry n) (Entry.EntryOp.complete status information).perform
      (fun _ => Idle (.entry n)) s := by
  refine Safe.perform _ SetResult.stable (fun _ => Idle.stable) h fun s r s' hi h _ ha => ?_
  cases ha
  have hheard : ntSuccess status = true → Thread.entry n ∉ s.waiting := by
    intro hstatus
    rw [SetResult, if_pos hstatus] at h
    exact h.1.2
  have hset : s.changing = some (.entry n) → s.BitSet ∧ s.FieldSet := by
    intro hchanging
    unfold SetResult at h
    split at h
    · exact h.2
    · exact absurd hchanging h.2
  obtain ⟨hi', hrely⟩ := hi.complete hheard hset
  exact ⟨hi', hrely, fun hin => Finset.notMem_erase _ _ hin⟩

theorem completeFailed_safe {status : NtStatus} (hfail : ntSuccess status = false)
    (h : Begun (.entry n) s) :
    EntrySafe engine file (.entry n) (Entry.completeFailed status)
      (fun _ => Idle (.entry n)) s := by
  have hresult : SetResult (.entry n) status s := .failed (by simp [hfail]) h
  unfold EntrySafe Entry.completeFailed Prog.when
  rw [if_pos (by simp [hfail])]
  exact complete_safe hresult

theorem evtIoDeviceControl_set_safe (h : Begun (.entry n) s) :
    EntrySafe engine file (.entry n) (Entry.evtIoDeviceControl file Entry.ioctlXdmaAddrmodeSet)
      (fun _ => Idle (.entry n)) s := by
  refine (EntrySafe.quiet (o := .getQueueContext file.queue) trivial h).bind fun _ s h => ?_
  split
  · exact completeFailed_safe (by decide) h
  rw [if_neg (by decide), if_neg (by decide), if_neg (by decide), if_pos rfl]
  refine (ioctlSetAddrMode_safe h).bind fun status s h => ?_
  cases hstatus : ntSuccess status with
  | true =>
    have hresult : SetResult (.entry n) statusSuccess s := by
      rw [SetResult, if_pos hstatus] at h
      exact h
    refine (complete_safe hresult).bind fun _ s h => ?_
    unfold EntrySafe Entry.completeFailed Prog.when
    rw [if_neg (by simp [hstatus])]
    exact Safe.ret Idle.stable h
  | false =>
    rw [SetResult, if_neg (by simp [hstatus])] at h
    exact completeFailed_safe hstatus h

/-! ## The other requests of the entry queue -/

section
open Entry (EntryOp)

/-- The calls of a request that is no SET, in the entry queue. -/
abbrev QuietOrComplete (o : EntryOp w) : Prop :=
  Quiet o ∨ ∃ status information, o = .complete status information

theorem completeFailed_noSet (status : NtStatus) :
    (Entry.completeFailed (w := w) status).All QuietOrComplete :=
  .when (.perform (.inr ⟨_, _, rfl⟩))

theorem completeDone_noSet (information : Nat) (status : NtStatus) :
    (Entry.completeDone (w := w) information status).All QuietOrComplete :=
  .when (.perform (.inr ⟨_, _, rfl⟩))

/-- A helper, and the completion of the request with what it returned. -/
theorem helper_noSet {p : Entry.EntryProg w NtStatus} (h : p.All QuietOrComplete)
    (information : Nat) :
    (p >>= fun status => Entry.completeDone information status >>= fun _ =>
      Entry.completeFailed status).All QuietOrComplete :=
  h.bind fun status => (completeDone_noSet information status).bind fun _ =>
    completeFailed_noSet status

theorem forward_noSet (queue : Option Entry.IoQueue) :
    ((EntryOp.forwardToIoQueue (w := w) queue).perform >>= fun status =>
      Entry.completeFailed status).All QuietOrComplete :=
  Prog.All.bind (.perform (.inl trivial)) completeFailed_noSet

theorem evtReadUserEvent_noSet (length : BitVec w.bits) :
    (Entry.evtReadUserEvent file length).All QuietOrComplete := by
  unfold Entry.evtReadUserEvent
  split
  · exact trivial
  · refine Prog.All.bind (.perform (.inl trivial)) fun _ => ?_
    refine Prog.All.bind (.perform (.inl trivial)) fun _ => ?_
    refine Prog.All.bind (.perform (.inl trivial)) fun outputMem => ?_
    split
    · exact trivial
    split
    · exact trivial
    refine Prog.All.bind (.perform (.inl trivial)) fun status => ?_
    split
    · exact trivial
    · exact Prog.All.bind (.perform (.inr ⟨_, _, rfl⟩)) fun _ => trivial

theorem evtIoRead_noSet (deviceOffset : BitVec 64) (length : BitVec w.bits) :
    (Entry.evtIoRead file deviceOffset length).All QuietOrComplete := by
  have hread := Entry.readBarToRequest_all (P := QuietOrComplete) (.inl trivial)
    (fun _ => .inl trivial) deviceOffset length file.u.asBar
  unfold Entry.evtIoRead
  cases file.devType with
  | user | control | bypass => exact helper_noSet hread _
  | events => exact (evtReadUserEvent_noSet length).bind completeFailed_noSet
  | c2h => exact forward_noSet file.queue
  | h2c | ah2c | ac2h | unknown => exact completeFailed_noSet _

theorem evtIoWrite_noSet (deviceOffset : BitVec 64) (length : BitVec w.bits) :
    (Entry.evtIoWrite file deviceOffset length).All QuietOrComplete := by
  have hwrite := Entry.writeBarFromRequest_all (P := QuietOrComplete) (.inl trivial)
    (fun _ => .inl trivial) deviceOffset length file.u.asBar
  unfold Entry.evtIoWrite
  cases file.devType with
  | user | control | bypass => exact helper_noSet hwrite _
  | h2c => exact forward_noSet file.queue
  | events | c2h | ah2c | ac2h | unknown => exact completeFailed_noSet _

theorem ioctlGetPerf_noSet : (Entry.ioctlGetPerf (w := w)).All QuietOrComplete := by
  refine Prog.All.bind (.perform (.inl trivial)) fun _ => ?_
  refine Prog.All.bind (.perform (.inl trivial)) fun requestMemory => ?_
  split
  · exact trivial
  · exact .perform (.inl trivial)

theorem ioctlGetAddrMode_noSet : (Entry.ioctlGetAddrMode (w := w)).All QuietOrComplete := by
  refine Prog.All.bind (.perform (.inl trivial)) fun _ => ?_
  refine Prog.All.bind (.perform (.inl trivial)) fun requestMemory => ?_
  split
  · exact trivial
  · exact .perform (.inl trivial)

theorem evtIoDeviceControl_noSet {ioControlCode : BitVec 32}
    (h : ioControlCode ≠ Entry.ioctlXdmaAddrmodeSet) :
    (Entry.evtIoDeviceControl file ioControlCode).All QuietOrComplete := by
  refine Prog.All.bind (.perform (.inl trivial)) fun _ => ?_
  split
  · exact completeFailed_noSet _
  split
  · refine Prog.All.bind (.perform (.inl trivial)) fun _ => ?_
    exact .perform (.inr ⟨_, _, rfl⟩)
  split
  · exact helper_noSet ioctlGetPerf_noSet _
  split
  · exact helper_noSet ioctlGetAddrMode_noSet _
  exact completeFailed_noSet _

theorem routine_noSet {request : Entry.EntryRequest w} (h : setsMode request = false) :
    (request.routine file).All QuietOrComplete := by
  cases request with
  | read deviceOffset length => exact evtIoRead_noSet deviceOffset length
  | write deviceOffset length => exact evtIoWrite_noSet deviceOffset length
  | deviceControl ioControlCode =>
    refine evtIoDeviceControl_noSet ?_
    rintro rfl
    simp [setsMode] at h

end

/-- The completion of a request that is no SET changes nothing either. -/
theorem Idle.complete {status : NtStatus} (hi : Inv engine s) (h : Idle t s) :
    s.complete t status = s := by
  have hchanging : s.changing ≠ some t := by
    intro ht
    refine h ?_
    rw [(hi.alone t ht).1]
    exact Finset.mem_singleton_self t
  have hwaiting : t ∉ s.waiting := fun hin => h (hi.waiting hin)
  rw [World.complete, Finset.erase_eq_of_notMem h, Finset.erase_eq_of_notMem hwaiting,
    decide_eq_false hwaiting, Bool.and_false, Bool.or_false, if_neg hchanging]

theorem noSet_safe {request : Entry.EntryRequest w} (hset : setsMode request = false)
    (h : Idle (.entry n) s) :
    ModeSafe engine file (.entry n) (entryRequest file request) (fun _ => Idle (.entry n)) s := by
  have hall : (entryRequest file request).All fun o =>
      ∃ o', o = .entry o' ∧ QuietOrComplete o' :=
    (Prog.all_mapOp_iff fun _ => Function.surjective_id).mpr
      ((routine_noSet hset).mono fun o ho => ⟨o, rfl, ho⟩)
  apply Safe.all Idle.stable hall h
  rintro _ ⟨o, rfl, ho⟩ s r s' hi h - ha
  have hsame : s' = s := by
    rcases ho with ho | ⟨status, information, rfl⟩
    · exact ho.act ha
    · exact (Option.some.inj ha).symm.trans (h.complete hi)
  rw [hsame]
  exact ⟨hi, fun u _ => .refl, h⟩

theorem set_safe {request : Entry.EntryRequest w} (hset : setsMode request = true)
    (h : Begun (.entry n) s) :
    ModeSafe engine file (.entry n) (entryRequest file request) (fun _ => Idle (.entry n)) s := by
  have hrequest : request = .deviceControl Entry.ioctlXdmaAddrmodeSet := of_decide_eq_true hset
  rw [hrequest]
  exact evtIoDeviceControl_set_safe h

/-! ## The queue of the engine -/

/-- A DMA request is under way in the mode `raw`, and its fragments `done` are programmed. -/
structure Serving (engine : XdmaEngine) (raw : BitVec 32) (fragments done : List Fragment)
    (s : World) : Prop where
  underWay : s.underWay = true
  requested : s.requested = raw
  fragments : s.fragments = fragments
  chains : s.chains.map some = done.map (chain engine raw)

variable {fragments done rest : List Fragment} {fragment : Fragment}

theorem Serving.stable : ModeStable engine .dma (Serving engine raw fragments done) :=
  fun _ _ _ _ hr h => ⟨hr.underWay.trans h.underWay, (hr.requested h.underWay).trans h.requested,
    hr.fragments.trans h.fragments, (congrArg _ hr.chains).trans h.chains⟩

/-- A step of the queue of the engine, seen from the entry queue. -/
theorem ModeRely.of_dma {t : Thread} (ht : t ≠ .dma) (hsetting : s'.setting = s.setting)
    (hwaiting : s'.waiting = s.waiting) (hchanging : s'.changing = s.changing)
    (hrequested : s'.requested = s.requested) (hcontrol : s'.control = s.control)
    (hmode : s'.addressMode = s.addressMode) :
    ModeRely t s s' := by
  refine .of_rely ⟨by rw [hsetting], by rw [hwaiting], fun _ => by rw [hchanging],
    fun _ => hrequested, fun _ h => ?_, fun _ h => ?_⟩ fun hdma => absurd hdma ht
  · unfold World.BitSet World.nonIncrAddr
    rw [hcontrol, hrequested]
    exact h
  · unfold World.FieldSet
    rw [hmode, hrequested]
    exact h

/-- The decisions about a descriptor are made on the field as it is. -/
theorem Inv.use {u : ModeUse} (hi : Inv engine s) (hunder : s.underWay = true)
    (hu : u.raw = s.addressMode) : Inv engine { s with uses := s.uses ++ [u] } := by
  obtain ⟨raw, huniform, hcurrent⟩ := hi.served
  refine { hi with served := ⟨raw, { huniform with uses := fun v hv => ?_ }, hcurrent⟩ }
  rcases List.mem_append.mp hv with hv | hv
  · exact huniform.uses v hv
  · rw [List.mem_singleton.mp hv]
    refine ModeUse.under_ofWord (hu.trans ?_)
    exact (hi.settled_of_underWay hunder).2.trans (hcurrent hunder).symm

/-- A read of the field gives the mode of the request. -/
theorem Serving.mode_eq (hi : Inv engine s) (h : Serving engine raw fragments done s) :
    s.addressMode = raw :=
  (hi.settled_of_underWay h.underWay).2.trans h.requested

theorem Inv.read {u : ModeUse} (hi : Inv engine s) (h : Serving engine raw fragments done s)
    (hu : u.raw = s.addressMode) :
    Inv engine { s with uses := s.uses ++ [u] } ∧
      (∀ v, v ≠ Thread.dma → ModeRely v s { s with uses := s.uses ++ [u] }) ∧
      u.raw = raw ∧ Serving engine raw fragments done { s with uses := s.uses ++ [u] } :=
  ⟨hi.use h.underWay hu, fun _ hv => .of_dma hv rfl rfl rfl rfl rfl rfl, hu.trans (h.mode_eq hi),
    { h with }⟩

theorem readOffsetMode_safe (h : Serving engine raw fragments done s) :
    ModeSafe engine file .dma DmaOp.readOffsetMode.perform
      (fun r s => r = raw ∧ Serving engine raw fragments done s) s := by
  refine Safe.perform _ Serving.stable (fun r => (Stable.const _).and Serving.stable) h
    fun s r s' hi h _ ha => ?_
  have hact : World.dmaAct .readOffsetMode s r = some s' := ha
  simp only [World.dmaAct] at hact
  split at hact
  · next hr =>
    cases hact
    exact hi.read (u := .offset r) h hr
  · cases hact

theorem readAlignMode_safe (h : Serving engine raw fragments done s) :
    ModeSafe engine file .dma DmaOp.readAlignMode.perform
      (fun r s => r = raw ∧ Serving engine raw fragments done s) s := by
  refine Safe.perform _ Serving.stable (fun r => (Stable.const _).and Serving.stable) h
    fun s r s' hi h _ ha => ?_
  have hact : World.dmaAct .readAlignMode s r = some s' := ha
  simp only [World.dmaAct] at hact
  split at hact
  · next hr =>
    cases hact
    exact hi.read (u := .align r) h hr
  · cases hact

/-- The loop goes on only where the check of the alignment comes to an end. -/
theorem traceAligned_safe {aligned : Option Bool} (h : Serving engine raw fragments done s) :
    ModeSafe engine file .dma (DmaOp.traceAligned aligned).perform
      (fun _ s => aligned.isSome = true ∧ Serving engine raw fragments done s) s := by
  refine Safe.perform _ Serving.stable (fun r => (Stable.const _).and Serving.stable) h
    fun s r s' hi h _ ha => ?_
  cases aligned with
  | none => cases ha
  | some aligned =>
    cases ha
    exact ⟨hi, fun u _ => .refl, rfl, h⟩

/-- The loop builds the descriptors that `programLoop` says, in the mode of the request. -/
theorem programDmaLoop_safe (direction : WdfDmaDirection) (deviceOffset descBufferLA : BitVec 64)
    (es : List SgElement) (h : Serving engine raw fragments done s) :
    ModeSafe engine file .dma (programDmaLoop engine direction deviceOffset descBufferLA es)
      (fun descs s => programLoop (engine.withMode raw) direction deviceOffset descBufferLA es =
        some descs ∧ Serving engine raw fragments done s) s := by
  have hstable (p : Prop) :
      ModeStable engine .dma fun s => p ∧ Serving engine raw fragments done s :=
    (Stable.const p).and Serving.stable
  induction es generalizing deviceOffset descBufferLA s with
  | nil => exact Safe.ret (hstable _) ⟨rfl, h⟩
  | cons e rest ih =>
    refine (readOffsetMode_safe h).bind fun offsetMode s h => ?_
    obtain ⟨rfl, h⟩ := h
    refine (readAlignMode_safe h).bind fun alignMode s h => ?_
    obtain ⟨rfl, h⟩ := h
    refine (traceAligned_safe h).bind fun _ s h => ?_
    obtain ⟨haligned, h⟩ := h
    refine (ih _ _ h).bind fun descs s h => Safe.ret (hstable _) ⟨?_, h.2⟩
    obtain ⟨aligned, haligned⟩ := Option.isSome_iff_exists.mp haligned
    have hdesc : programDesc (engine.withMode alignMode) direction deviceOffset
        (descBufferLA + BitVec.ofNat 64 sizeofDmaDescriptor) rest.isEmpty e =
      programDesc engine direction deviceOffset
        (descBufferLA + BitVec.ofNat 64 sizeofDmaDescriptor) rest.isEmpty e := rfl
    simp only [programLoop, hdesc, haligned, h.1, Option.bind_eq_bind, Option.bind_some]
    rfl

/-- The chain of the next fragment is handed to the engine. -/
theorem Inv.engineStart {descs : List DmaDescriptor} (hi : Inv engine s)
    (h : Serving engine raw fragments done s) (hfragments : done ++ fragment :: rest = fragments)
    (hchain : chain engine raw fragment = some descs) :
    Inv engine { s with chains := s.chains ++ [descs] } ∧
      Serving engine raw fragments (done ++ [fragment])
        { s with chains := s.chains ++ [descs] } := by
  have hchains : (s.chains ++ [descs]).map some = (done ++ [fragment]).map (chain engine raw) := by
    rw [List.map_append, h.chains, List.map_append, List.map_singleton, List.map_singleton, hchain]
  obtain ⟨raw', huniform, hcurrent⟩ := hi.served
  have hraw : raw' = raw := (hcurrent h.underWay).trans h.requested
  subst hraw
  refine ⟨{ hi with
    served := ⟨raw', ⟨huniform.mode, huniform.uses, ?_, fun hover => ?_⟩, hcurrent⟩ },
    ⟨h.underWay, h.requested, h.fragments, hchains⟩⟩
  · dsimp only
    have hprefix : done ++ [fragment] <+: done ++ fragment :: rest := ⟨rest, by simp⟩
    rw [hchains, h.fragments, ← hfragments]
    exact hprefix.map _
  · cases h.underWay.symm.trans hover

theorem programming_safe {o : DmaOp} (programming : Bool)
    (hact : ∀ (s : World) (r : o.Res),
      World.dmaAct o s r = some { s with programming := programming })
    (h : Serving engine raw fragments done s) :
    ModeSafe engine file .dma (DmaOp.perform o)
      (fun _ => Serving engine raw fragments done) s := by
  refine Safe.perform _ Serving.stable (fun _ => Serving.stable) h fun s r s' hi h _ ha => ?_
  obtain rfl := Option.some.inj ((hact s r).symm.trans ha)
  obtain ⟨raw', huniform, hcurrent⟩ := hi.served
  refine ⟨{ hi with
    programming := fun _ => h.underWay
    served := ⟨raw', { huniform with }, hcurrent⟩ }, fun u hu => ?_, { h with }⟩
  exact .of_dma hu rfl rfl rfl rfl rfl rfl

theorem xdmaEngineProgramDma_safe (hfragments : done ++ fragment :: rest = fragments)
    (h : Serving engine raw fragments done s) :
    ModeSafe engine file .dma (xdmaEngineProgramDma engine fragment)
      (fun _ => Serving engine raw fragments (done ++ [fragment])) s := by
  refine (programming_safe true (fun _ _ => rfl) h).bind fun _ s h => ?_
  refine (programDmaLoop_safe _ _ _ _ h).bind fun descs s h => ?_
  obtain ⟨hdescs, h⟩ := h
  have hchain : chain engine raw fragment = some (optimizeDescriptors engine descs) := by
    have hbuffer : (engine.withMode raw).descBuffer = engine.descBuffer := rfl
    simp only [chain, programChain, hbuffer, hdescs, Option.bind_eq_bind, Option.bind_some]
    rfl
  refine Safe.bind (Q := fun _ => Serving engine raw fragments (done ++ [fragment])) ?_
    fun _ s h => programming_safe false (fun _ _ => rfl) h
  refine Safe.perform _ Serving.stable (fun _ => Serving.stable) h fun s r s' hi h _ ha => ?_
  cases ha
  obtain ⟨hi', h'⟩ := hi.engineStart h hfragments hchain
  exact ⟨hi', fun u hu => .of_dma hu rfl rfl rfl rfl rfl rfl, h'⟩

theorem dmaRequest_safe (h : Serving engine raw fragments [] s) :
    ModeSafe engine file .dma (dmaRequest engine fragments) (fun _ _ => True) s := by
  apply Safe.bind (Q := fun _ s => Serving engine raw fragments fragments s)
  · refine (Safe.forEach
      (fun rest s => ∃ done, done ++ rest = fragments ∧ Serving engine raw fragments done s)
      (fun s s' hi hi' hr ⟨done, hdone, h⟩ => ⟨done, hdone, Serving.stable s s' hi hi' hr h⟩)
      ⟨[], rfl, h⟩ ?_).mono fun _ s ⟨done, hdone, h⟩ => ?_
    · rintro fragment rest s ⟨done, hdone, h⟩
      refine (xdmaEngineProgramDma_safe hdone h).mono fun _ s h => ⟨_, ?_, h⟩
      rw [← hdone, List.append_assoc, List.singleton_append]
    · rw [List.append_nil] at hdone
      rwa [hdone] at h
  · intro _ s h
    refine Safe.perform _ Serving.stable (fun _ => Stable.const True) h fun s r s' hi h _ ha => ?_
    cases ha
    obtain ⟨raw', huniform, hcurrent⟩ := hi.served
    have hraw : raw' = raw := (hcurrent h.underWay).trans h.requested
    subst hraw
    refine ⟨{ hi with
      alone := fun t ht => ⟨(hi.alone t ht).1, rfl⟩
      programming := fun hno => Bool.noConfusion hno
      served := ⟨raw', { huniform with completed := fun _ => ?_ },
        fun hno => Bool.noConfusion hno⟩ },
      fun u hu => ?_, trivial⟩
    · exact h.chains.trans (congrArg _ h.fragments.symm)
    · exact .of_dma hu rfl rfl rfl rfl rfl rfl

theorem Inv.beginDma (hi : Inv engine s) (hnone : s.changing = none) :
    Inv engine { s with underWay := true, uses := [], fragments := fragments, chains := [] } := by
  refine { hi with
    alone := fun t ht => ?_
    programming := fun _ => rfl
    served := ⟨s.requested, ⟨hi.requested, fun u hu => absurd hu List.not_mem_nil,
      List.nil_prefix, fun hno => Bool.noConfusion hno⟩, fun _ => rfl⟩ }
  cases hnone.symm.trans ht

theorem Inv.beginSet (hi : Inv engine s) (hnone : s.changing = none) (t : Thread) :
    Inv engine (s.beginSet t) := by
  obtain ⟨raw, huniform, hcurrent⟩ := hi.served
  refine { hi with
    alone := fun u hu => ?_
    waiting := Finset.insert_subset_insert t hi.waiting
    served := ⟨raw, { huniform with }, hcurrent⟩ }
  cases hnone.symm.trans hu

/-! ## Every run -/

/-- What a thread leaves behind. -/
def Left : Thread → World → Prop
  | .entry n, s => Idle (.entry n) s
  | .dma, _ => True

/-- A new engine has its mode from the device. -/
theorem modeConfig_inv (control : BitVec 32) :
    Inv engine (modeConfig (w := w) control).state := by
  have hmode : (modeConfig (w := w) control).state.addressMode = addressModeContiguous ∨
      (modeConfig (w := w) control).state.addressMode = addressModeFixed := by
    unfold modeConfig
    dsimp only
    split
    · exact .inr rfl
    · exact .inl rfl
  have hbit : (modeConfig (w := w) control).state.BitSet := by
    unfold World.BitSet World.nonIncrAddr modeConfig
    cases control &&& Entry.xdmaCtrlNonIncrAddr != 0 with
    | true => simp
    | false => simp [addressModeContiguous, addressModeFixed]
  exact ⟨hmode, hmode, fun _ => ⟨hbit, rfl⟩, fun t ht => (Option.some_ne_none t ht.symm).elim,
    Finset.Subset.refl _, rfl, fun hno => Bool.noConfusion hno, addressModeContiguous, ⟨.inl rfl,
      fun u hu => absurd hu List.not_mem_nil, List.nil_prefix, fun _ => rfl⟩,
    fun hno => Bool.noConfusion hno⟩

theorem start_safe {t : Thread} {a : Start w} {p : ModeProg w Unit} (hi : Inv engine s)
    (hleft : Left t s) (hok : SetApart s (.start t a))
    (hs : (modeThreads engine file).start t a s = some (s', p)) :
    Inv engine s' ∧ (∀ u, u ≠ t → ModeRely u s s') ∧
      ModeSafe engine file t p (fun _ => Left t) s' := by
  cases t with
  | entry n =>
    cases a with
    | entry request =>
      cases hs
      cases hset : setsMode request with
      | true =>
        have hnone := hok.beginSet hset
        refine ⟨hi.beginSet hnone _, fun u hu => ?_, set_safe hset ⟨Finset.mem_insert_self .., ?_⟩⟩
        · exact .of_rely ⟨Finset.mem_insert.trans (or_iff_right hu),
            Finset.mem_insert.trans (or_iff_right hu), fun _ => Iff.rfl, fun _ => rfl,
            fun _ h => h, fun _ h => h⟩ fun _ => ⟨rfl, fun _ => rfl, rfl, rfl⟩
        · intro ht
          cases hnone.symm.trans ht
      | false => exact ⟨hi, fun u _ => .refl, noSet_safe hset hleft⟩
    | dma fragments => cases hs
  | dma =>
    cases a with
    | entry request => cases hs
    | dma fragments =>
      cases hs
      refine ⟨hi.beginDma hok.beginDma, fun u hu => .of_dma hu rfl rfl rfl rfl rfl rfl,
        dmaRequest_safe ⟨rfl, rfl, rfl, rfl⟩⟩

theorem reach_inv {control : BitVec 32} {c : Config (Op w) Op.Res World Thread}
    (h : (modeThreads engine file).Reach SetApart (modeConfig control) c) :
    Inv engine c.state := by
  refine (h.safe (R := ModeRely) (Q := Left) (modeConfig_inv control) (fun t => ?_)
    (fun e => e.elim) fun t a s s' p hi hleft hok hs => start_safe hi hleft hok hs).1
  cases t with
  | entry n => exact Safe.ret Idle.stable (Finset.notMem_empty _)
  | dma => exact Safe.ret (Stable.const True) trivial

/-- In every run of both queues in which a SET that changes the mode is alone. -/
theorem reach_agrees {control : BitVec 32} {c : Config (Op w) Op.Res World Thread}
    (h : (modeThreads engine file).Reach SetApart (modeConfig control) c) :
    Agrees engine c.state :=
  (reach_inv h).agrees

/-! ## Runs on one engine -/

def h2cEngine : XdmaEngine := ⟨0, by decide, 0, 1, 1, .mm, .contiguous, ⟨0x10000, by decide⟩⟩

def h2cFile : Entry.File .w64 := ⟨.h2c, .engine ⟨.h2c, 0⟩, some ⟨some ⟨.h2c, 0⟩⟩⟩

def h2cFragment : Fragment :=
  ⟨.writeToDevice, 0, ⟨[⟨0x2000, 0x1000⟩], by simp, by decide⟩⟩

/-- `IOCTL_XDMA_ADDRMODE_SET` up to its assignment to the field. -/
def setSteps (n : Nat) (addrMode : BitVec 32) : List (ModeLabel .w64) :=
  [.start (.entry n) (.entry (.deviceControl Entry.ioctlXdmaAddrmodeSet)),
    .call (.entry n) (.entry (.getQueueContext (some ⟨some ⟨.h2c, 0⟩⟩))) (),
    .call (.entry n) (.entry .retrieveInputMemory) statusSuccess,
    .call (.entry n) (.entry .copyToBuffer) (statusSuccess, addrMode),
    .call (.entry n) (.entry (.writeControlW1S Entry.xdmaCtrlNonIncrAddr)) (),
    .call (.entry n) (.entry (.assignAddressMode addrMode)) ()]

def completeSet (n : Nat) : ModeLabel .w64 :=
  .call (.entry n) (.entry (.complete statusSuccess 0)) ()

/-- The mode is set, and set again to the same one while a DMA request is served in it. -/
def fixedSteps : List (ModeLabel .w64) :=
  setSteps 0 addressModeFixed ++ [completeSet 0, .start .dma (.dma [h2cFragment]),
    .call .dma (.dma .enterProgramDma) (),
    .call .dma (.dma .readOffsetMode) addressModeFixed] ++
  setSteps 1 addressModeFixed ++ [completeSet 1,
    .call .dma (.dma .readAlignMode) addressModeFixed,
    .call .dma (.dma (.traceAligned (some true))) (),
    .call .dma (.dma (.engineStart ((chain h2cEngine addressModeFixed h2cFragment).getD []))) (),
    .call .dma (.dma .leaveProgramDma) (),
    .call .dma (.dma .completeDma) ()]

theorem reach_agrees_fixed :
    ∃ c, (modeThreads h2cEngine h2cFile).Reach SetApart (modeConfig 0) c ∧
      c.state.uses = [.offset addressModeFixed, .align addressModeFixed] ∧
      c.state.underWay = false ∧ Agrees h2cEngine c.state := by
  have hrun : ∃ c, (modeThreads h2cEngine h2cFile).Reach SetApart (modeConfig 0) c ∧
      (decide (c.state.uses = [.offset addressModeFixed, .align addressModeFixed]) &&
        !c.state.underWay) = true :=
    Reach.exists_of_run fixedSteps (fun s : World =>
      decide (s.uses = [.offset addressModeFixed, .align addressModeFixed]) && !s.underWay)
      (by decide)
  obtain ⟨c, hreach, h⟩ := hrun
  rw [Bool.and_eq_true, decide_eq_true_eq, Bool.not_eq_true'] at h
  exact ⟨c, hreach, h.1, h.2, reach_agrees hreach⟩

/-- The field takes a word that is neither mode. -/
theorem reach_not_agrees :
    ¬ ∀ c, (modeThreads h2cEngine h2cFile).Reach (fun _ _ => True) (modeConfig 0) c →
      Agrees h2cEngine c.state := by
  intro hall
  have hrun : ∃ c, (modeThreads h2cEngine h2cFile).Reach (fun _ _ => True) (modeConfig 0) c ∧
      decide (c.state.addressMode = 2) = true :=
    Reach.exists_of_run (setSteps 0 2) (fun s : World => decide (s.addressMode = 2)) (by decide)
  obtain ⟨c, hreach, hmode⟩ := hrun
  have henumerated := (hall c hreach).enumerated
  rw [of_decide_eq_true hmode] at henumerated
  exact absurd henumerated (by decide)

end AddrMode

end Xadma
