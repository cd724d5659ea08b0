import Xadma.Libxdma.Interrupt

/-!
# No source stays masked

While the interrupt lock is free the disabled sources are the recorded ones, and for what is
recorded a DPC is on its way. Under the lock the places of the DPC say how far it has come with
enabling them.
-/

namespace Xadma

open Threads

namespace IrqWorld

/-- The disabled channel sources are the recorded ones. -/
def ChannelMasked (s : IrqWorld) : Prop := ~~~ s.channelIntEnable = s.channelIrqPending

def UserMasked (s : IrqWorld) : Prop := ~~~ s.userIntEnable = s.userIrqPending

/-- All channel sources are enabled and none is recorded. -/
def ChannelClear (s : IrqWorld) : Prop :=
  s.channelIntEnable = BitVec.allOnes 32 ∧ s.channelIrqPending = 0

def UserClear (s : IrqWorld) : Prop :=
  s.userIntEnable = BitVec.allOnes 32 ∧ s.userIrqPending = 0

end IrqWorld

/-- A run of the DPC with `p` left to do has not reached its locked section. -/
def BeforeLock (p : IrqProg Unit) : Prop := p.Calls .acquireLock

/-! ## The places of the DPC -/

inductive DpcPlace
  | idle
  | before
  | enableChannelInts
  | clearChannelIrqPending
  | enableUserInts
  | clearUserIrqPending
  | releaseLock
  deriving DecidableEq

namespace DpcPlace

/-- What the DPC has left to do; before the lock that is its last part. -/
def rest : DpcPlace → IrqProg Unit
  | .idle => .ret ()
  | .releaseLock => IrqOp.releaseLock.perform
  | .clearUserIrqPending => do
    IrqOp.clearUserIrqPending.perform
    IrqOp.releaseLock.perform
  | .enableUserInts => do
    IrqOp.enableUserInts.perform
    IrqOp.clearUserIrqPending.perform
    IrqOp.releaseLock.perform
  | .clearChannelIrqPending => do
    IrqOp.clearChannelIrqPending.perform
    IrqOp.enableUserInts.perform
    IrqOp.clearUserIrqPending.perform
    IrqOp.releaseLock.perform
  | .enableChannelInts => do
    IrqOp.enableChannelInts.perform
    IrqOp.clearChannelIrqPending.perform
    IrqOp.enableUserInts.perform
    IrqOp.clearUserIrqPending.perform
    IrqOp.releaseLock.perform
  | .before => do
    IrqOp.acquireLock.perform
    IrqOp.enableChannelInts.perform
    IrqOp.clearChannelIrqPending.perform
    IrqOp.enableUserInts.perform
    IrqOp.clearUserIrqPending.perform
    IrqOp.releaseLock.perform

/-- Under the lock. -/
def locked : DpcPlace → Bool
  | .idle | .before => false
  | _ => true

/-- How far the sources are enabled again. -/
def Holds : DpcPlace → IrqWorld → Prop
  | .idle, _ | .before, _ => True
  | .enableChannelInts, s => s.ChannelMasked ∧ s.UserMasked
  | .clearChannelIrqPending, s => s.channelIntEnable = BitVec.allOnes 32 ∧ s.UserMasked
  | .enableUserInts, s => s.ChannelClear ∧ s.UserMasked
  | .clearUserIrqPending, s => s.ChannelClear ∧ s.userIntEnable = BitVec.allOnes 32
  | .releaseLock, s => s.ChannelClear ∧ s.UserClear

end DpcPlace

/-- The calls that touch no mask: the tests of the two loops and what they call. -/
def IrqOp.Service : IrqOp → Prop
  | .engineEnabled _ | .channelIrqPending _ | .engineWork _ => True
  | .userIrqPending _ | .userWorkSet _ | .userWork _ => True
  | _ => False

/-- The DPC is at a place. -/
def DpcPlace.At (place : DpcPlace) (p : IrqProg Unit) : Prop :=
  if place = .before then Prog.Until IrqOp.Service place.rest p else p = place.rest

theorem serviceEngine_service (e : EngineSlot) : (serviceEngine e).All IrqOp.Service := by
  refine Prog.All.bind (Prog.All.perform trivial) fun enabled => ?_
  cases enabled with
  | false => exact trivial
  | true =>
    refine Prog.All.bind (Prog.All.perform trivial) fun pending => ?_
    cases pending with
    | false => exact trivial
    | true => exact Prog.All.perform trivial

theorem serviceUserEvent_service (i : Nat) : (serviceUserEvent i).All IrqOp.Service := by
  refine Prog.All.bind (Prog.All.perform trivial) fun pending => ?_
  cases pending with
  | false => exact trivial
  | true =>
    refine Prog.All.bind (Prog.All.perform trivial) fun registered => ?_
    cases registered with
    | false => exact trivial
    | true => exact Prog.All.perform trivial

theorem evtInterruptDpc_before : DpcPlace.before.At evtInterruptDpc := by
  refine Prog.All.until (Prog.All.forEach serviceEngine_service _) fun _ => ?_
  exact Prog.All.until (Prog.All.forEach serviceUserEvent_service _) fun _ => .here

theorem DpcPlace.before_calls {p : IrqProg Unit} (h : DpcPlace.before.At p) : BeforeLock p :=
  Prog.Until.calls (q := DpcPlace.before.rest) h (.inl rfl)

/-! ## One step of the DPC -/

section
variable {s s' : IrqWorld} {op : IrqOp} {k : op.Res → IrqProg Unit} {r : op.Res}

/-- A call that services something leaves the masks, the lock and the queue alone. -/
theorem IrqOp.Service.frame (hop : op.Service) (h : IrqWorld.act op s r = some s') :
    s'.channelIntEnable = s.channelIntEnable ∧ s'.userIntEnable = s.userIntEnable ∧
      s'.channelIrqPending = s.channelIrqPending ∧ s'.userIrqPending = s.userIrqPending ∧
      s'.lockHeld = s.lockHeld ∧ s'.dpcQueued = s.dpcQueued := by
  have htest : ∀ {value answer : Bool}, s.test value answer = some s' →
      ∃ n, s' = { s with next := n } := by
    intro value answer h
    unfold IrqWorld.test at h
    split at h
    · cases answer <;> cases h <;> exact ⟨_, rfl⟩
    · cases h
  cases op with
  | engineEnabled | channelIrqPending | userIrqPending | userWorkSet =>
    obtain ⟨n, rfl⟩ := htest h
    exact ⟨rfl, rfl, rfl, rfl, rfl, rfl⟩
  | engineWork | userWork =>
    cases h
    exact ⟨rfl, rfl, rfl, rfl, rfl, rfl⟩
  | _ => exact hop.elim

/-- Before the lock the next call services something or takes the lock. -/
theorem DpcPlace.before_call (h : DpcPlace.before.At (.call op k)) :
    (op.Service ∧ ∀ r, DpcPlace.before.At (k r)) ∨
      (op = .acquireLock ∧ ∀ r, DpcPlace.enableChannelInts.At (k r)) := by
  cases (h : Prog.Until IrqOp.Service DpcPlace.before.rest (.call op k)) with
  | here => exact .inr ⟨rfl, fun _ => rfl⟩
  | call hop hk => exact .inl ⟨hop, hk⟩

/-- Under the lock a call goes on to the next place, or it releases the lock. -/
theorem DpcPlace.locked_call {place : DpcPlace} (hlocked : place.locked = true)
    (h : place.At (.call op k)) (hs : place.Holds s) (hact : IrqWorld.act op s r = some s') :
    op ≠ .acquireLock ∧ s'.dpcQueued = s.dpcQueued ∧
      ((∃ place' : DpcPlace, place'.locked = true ∧ place'.At (k r) ∧ s'.lockHeld = s.lockHeld ∧
        place'.Holds s') ∨
      (DpcPlace.idle.At (k r) ∧ s'.lockHeld = false ∧ s'.ChannelClear ∧ s'.UserClear)) := by
  cases place with
  | idle | before => cases hlocked
  | enableChannelInts =>
    cases h
    cases hact
    refine ⟨by decide, rfl, .inl ⟨.clearChannelIrqPending, rfl, rfl, rfl, ?_, hs.2⟩⟩
    have hmasked : ~~~ s.channelIntEnable = s.channelIrqPending := hs.1
    simp only [← hmasked, BitVec.or_not_self]
  | clearChannelIrqPending =>
    cases h
    cases hact
    exact ⟨by decide, rfl, .inl ⟨.enableUserInts, rfl, rfl, rfl, ⟨hs.1, rfl⟩, hs.2⟩⟩
  | enableUserInts =>
    cases h
    cases hact
    refine ⟨by decide, rfl, .inl ⟨.clearUserIrqPending, rfl, rfl, rfl, hs.1, ?_⟩⟩
    have hmasked : ~~~ s.userIntEnable = s.userIrqPending := hs.2
    simp only [← hmasked, BitVec.or_not_self]
  | clearUserIrqPending =>
    cases h
    cases hact
    exact ⟨by decide, rfl, .inl ⟨.releaseLock, rfl, rfl, rfl, hs.1, hs.2, rfl⟩⟩
  | releaseLock =>
    cases h
    cases hact
    exact ⟨by decide, rfl, .inr ⟨rfl, rfl, hs.1, hs.2⟩⟩

end

/-! ## Every run -/

section
variable {T : Type} [DecidableEq T]

/-- The masks and the lock, with the place of the DPC on each processor. -/
structure MaskInv (c : Config IrqOp IrqOp.Res IrqWorld T) (place : T → DpcPlace) : Prop where
  at_place : ∀ t, (place t).At (c.thread t)
  held : ∀ t, (place t).locked = true → c.state.lockHeld = true ∧ (place t).Holds c.state
  alone : ∀ t u, (place t).locked = true → (place u).locked = true → t = u
  owner : c.state.lockHeld = true → ∃ t, (place t).locked = true
  free : c.state.lockHeld = false → c.state.ChannelMasked ∧ c.state.UserMasked
  owed : c.state.lockHeld = false →
    c.state.channelIrqPending ≠ 0 ∨ c.state.userIrqPending ≠ 0 →
      0 < c.state.dpcQueued ∨ ∃ t, place t = .before

theorem DpcPlace.Holds.congr {place : DpcPlace} {s s' : IrqWorld} (h : place.Holds s)
    (hce : s'.channelIntEnable = s.channelIntEnable) (hue : s'.userIntEnable = s.userIntEnable)
    (hcp : s'.channelIrqPending = s.channelIrqPending)
    (hup : s'.userIrqPending = s.userIrqPending) : place.Holds s' := by
  cases place with
  | idle | before => exact trivial
  | _ =>
    simpa only [Holds, IrqWorld.ChannelMasked, IrqWorld.UserMasked, IrqWorld.ChannelClear,
      IrqWorld.UserClear, hce, hue, hcp, hup] using h

theorem MaskInv.at_update {c : Config IrqOp IrqOp.Res IrqWorld T} {place : T → DpcPlace}
    (hi : MaskInv c place) {t : T} {p : IrqProg Unit} {place' : DpcPlace} (hp : place'.At p)
    (u : T) : (Function.update place t place' u).At (Function.update c.thread t p u) := by
  by_cases hut : u = t
  · subst hut
    simpa only [Function.update_self] using hp
  · simpa only [Function.update_of_ne hut] using hi.at_place u

/-- A processor that is not under the lock begins a run or goes on before the lock. -/
theorem MaskInv.unlocked {c : Config IrqOp IrqOp.Res IrqWorld T} {place : T → DpcPlace}
    (hi : MaskInv c place) {t : T} {p : IrqProg Unit} {s' : IrqWorld}
    (ht : (place t).locked = false) (hp : DpcPlace.before.At p)
    (hce : s'.channelIntEnable = c.state.channelIntEnable)
    (hue : s'.userIntEnable = c.state.userIntEnable)
    (hcp : s'.channelIrqPending = c.state.channelIrqPending)
    (hup : s'.userIrqPending = c.state.userIrqPending)
    (hlock : s'.lockHeld = c.state.lockHeld) :
    MaskInv ⟨s', Function.update c.thread t p⟩ (Function.update place t .before) := by
  have hold : ∀ u, (Function.update place t DpcPlace.before u).locked = true →
      u ≠ t ∧ (place u).locked = true := by
    intro u hu
    by_cases hut : u = t
    · subst hut
      rw [Function.update_self] at hu
      cases hu
    · rw [Function.update_of_ne hut] at hu
      exact ⟨hut, hu⟩
  refine ⟨hi.at_update hp, fun u hu => ?_, fun u v hu hv => ?_, fun h => ?_, fun h => ?_,
    fun _ _ => .inr ⟨t, Function.update_self ..⟩⟩
  · obtain ⟨hut, hu⟩ := hold u hu
    obtain ⟨hlocked, hholds⟩ := hi.held u hu
    rw [Function.update_of_ne hut]
    exact ⟨hlock.trans hlocked, hholds.congr hce hue hcp hup⟩
  · exact hi.alone u v (hold u hu).2 (hold v hv).2
  · obtain ⟨u, hu⟩ := hi.owner (hlock ▸ h)
    have hut : u ≠ t := by
      rintro rfl
      rw [ht] at hu
      cases hu
    exact ⟨u, by rwa [Function.update_of_ne hut]⟩
  · obtain ⟨hchannel, huser⟩ := hi.free (hlock ▸ h)
    unfold IrqWorld.ChannelMasked IrqWorld.UserMasked at *
    rw [hce, hue, hcp, hup]
    exact ⟨hchannel, huser⟩

/-- A processor takes the lock or goes on under it. -/
theorem MaskInv.locked {c : Config IrqOp IrqOp.Res IrqWorld T} {place : T → DpcPlace}
    (hi : MaskInv c place) {t : T} {p : IrqProg Unit} {s' : IrqWorld} {place' : DpcPlace}
    (ht : ∀ u, (place u).locked = true → u = t) (hlocked : place'.locked = true)
    (hp : place'.At p) (hlock : s'.lockHeld = true) (hholds : place'.Holds s') :
    MaskInv ⟨s', Function.update c.thread t p⟩ (Function.update place t place') := by
  have hold : ∀ u, (Function.update place t place' u).locked = true → u = t := by
    intro u hu
    by_contra hut
    rw [Function.update_of_ne hut] at hu
    exact hut (ht u hu)
  refine ⟨hi.at_update hp, fun u hu => ?_, fun u v hu hv => (hold u hu).trans (hold v hv).symm,
    fun _ => ⟨t, by rwa [Function.update_self]⟩, fun h => ?_, fun h => ?_⟩
  · cases hold u hu
    rw [Function.update_self]
    exact ⟨hlock, hholds⟩
  · simp [hlock] at h
  · simp [hlock] at h

/-- A processor releases the lock. -/
theorem MaskInv.released {c : Config IrqOp IrqOp.Res IrqWorld T} {place : T → DpcPlace}
    (hi : MaskInv c place) {t : T} {p : IrqProg Unit} {s' : IrqWorld}
    (ht : ∀ u, (place u).locked = true → u = t) (hp : DpcPlace.idle.At p)
    (hlock : s'.lockHeld = false) (hchannel : s'.ChannelClear) (huser : s'.UserClear) :
    MaskInv ⟨s', Function.update c.thread t p⟩ (Function.update place t .idle) := by
  have hold : ∀ u, (Function.update place t DpcPlace.idle u).locked ≠ true := by
    intro u hu
    by_cases hut : u = t
    · subst hut
      rw [Function.update_self] at hu
      cases hu
    · rw [Function.update_of_ne hut] at hu
      exact hut (ht u hu)
  refine ⟨hi.at_update hp, fun u hu => absurd hu (hold u), fun u _ hu => absurd hu (hold u),
    fun h => ?_, fun _ => ⟨?_, ?_⟩, fun _ hpending => ?_⟩
  · simp [hlock] at h
  · unfold IrqWorld.ChannelMasked
    rw [hchannel.1, hchannel.2]
    rfl
  · unfold IrqWorld.UserMasked
    rw [huser.1, huser.2]
    rfl
  · rcases hpending with h | h
    · exact absurd hchannel.2 h
    · exact absurd huser.2 h

theorem MaskInv.call {c c' : Config IrqOp IrqOp.Res IrqWorld T} {place : T → DpcPlace} {t : T}
    {op : IrqOp} {r : op.Res} (hi : MaskInv c place)
    (h : (irqMaskThreads T).step c (.call t op r) = some c') : ∃ place', MaskInv c' place' := by
  obtain ⟨k, s', hk, hact, rfl⟩ := step_call_eq h
  have hat := hi.at_place t
  rw [hk] at hat
  simp only [irqMaskThreads] at hact
  split at hact
  · cases hact
  · next hfree =>
    cases hlocked : (place t).locked with
    | true =>
      have ht : ∀ u, (place u).locked = true → u = t := fun u hu => hi.alone u t hu hlocked
      obtain ⟨hheld, hholds⟩ := hi.held t hlocked
      obtain ⟨-, -, hnext⟩ := DpcPlace.locked_call hlocked hat hholds hact
      rcases hnext with ⟨place', hlocked', hat', hlock, hholds'⟩ | ⟨hidle, hlock, hchannel, huser⟩
      · exact ⟨_, hi.locked ht hlocked' hat' (hlock.trans hheld) hholds'⟩
      · exact ⟨_, hi.released ht hidle hlock hchannel huser⟩
    | false =>
      have hbefore : place t = .before := by
        cases hplace : place t with
        | before => rfl
        | idle => rw [hplace] at hat; cases hat
        | _ => rw [hplace] at hlocked; cases hlocked
      rw [hbefore] at hat
      rcases DpcPlace.before_call hat with ⟨hservice, hrest⟩ | ⟨rfl, hrest⟩
      · obtain ⟨hce, hue, hcp, hup, hlock, -⟩ := hservice.frame hact
        exact ⟨_, hi.unlocked hlocked (hrest r) hce hue hcp hup hlock⟩
      · have hheld : c.state.lockHeld = false := by simpa using hfree
        cases hact
        refine ⟨_, hi.locked (fun u hu => ?_) (rfl : DpcPlace.enableChannelInts.locked = true)
          (hrest r) rfl (hi.free hheld)⟩
        simp [(hi.held u hu).1] at hheld

theorem masked_after (enable pending request : BitVec 32) (h : ~~~ enable = pending) :
    ~~~ (enable &&& ~~~ request) = pending ||| request := by
  rw [BitVec.not_and, BitVec.not_not, h]

theorem MaskInv.env {c c' : Config IrqOp IrqOp.Res IrqWorld T} {place : T → DpcPlace}
    {e : IrqRequest} (hi : MaskInv c place)
    (h : (irqMaskThreads T).step c (.env e) = some c') : MaskInv c' place := by
  obtain ⟨s', hs, rfl⟩ := step_env_eq h
  simp only [irqMaskThreads, IrqWorld.serviceRequest] at hs
  split at hs
  · cases hs
  · next hheld =>
    have hheld : c.state.lockHeld = false := by simpa using hheld
    have hnone : ∀ t, (place t).locked ≠ true := by
      intro t ht
      simp [(hi.held t ht).1] at hheld
    obtain ⟨hchannel, huser⟩ := hi.free hheld
    cases hs
    refine ⟨hi.at_place, fun t ht => absurd ht (hnone t), hi.alone, fun h => ?_,
      fun _ => ⟨masked_after _ _ _ hchannel, masked_after _ _ _ huser⟩, fun _ hpending => ?_⟩
    · simp [hheld] at h
    · simp only at hpending ⊢
      split
      · next hspurious =>
        exact hi.owed hheld (by simpa [hspurious.1, hspurious.2] using hpending)
      · split
        · next hqueued => exact .inl hqueued.1
        · exact .inl (Nat.succ_pos _)

theorem MaskInv.start {c c' : Config IrqOp IrqOp.Res IrqWorld T} {place : T → DpcPlace} {t : T}
    (hi : MaskInv c place) (h : (irqMaskThreads T).step c (.start t ()) = some c') :
    ∃ place', MaskInv c' place' := by
  obtain ⟨s', p, hidle, hs, rfl⟩ := step_start_eq h
  simp only [irqMaskThreads] at hs
  split at hs
  · cases hs
  · cases hs
    have hunlocked : (place t).locked = false := by
      have hat := hi.at_place t
      rw [hidle] at hat
      cases hplace : place t with
      | idle | before => rfl
      | _ => rw [hplace] at hat; cases hat
    exact ⟨_, hi.unlocked hunlocked evtInterruptDpc_before rfl rfl rfl rfl rfl⟩

/-- The interrupts are enabled on a device where nothing has fired. -/
def irqEnabledConfig (T : Type) (engine : EngineSlot → EngineIrq) (userWork : Nat → Bool)
    (channelIntEnable userIntEnable : BitVec 32) : Config IrqOp IrqOp.Res IrqWorld T :=
  ⟨(IrqWorld.init engine userWork channelIntEnable userIntEnable).evtInterruptEnable,
    fun _ => .ret ()⟩

variable {engine : EngineSlot → EngineIrq} {userWork : Nat → Bool}
  {channelIntEnable userIntEnable : BitVec 32} {c : Config IrqOp IrqOp.Res IrqWorld T}

omit [DecidableEq T] in
theorem maskInv_enabled : MaskInv
    (irqEnabledConfig T engine userWork channelIntEnable userIntEnable) fun _ => .idle := by
  have hones : ∀ x : BitVec 32, ~~~ (x ||| 0xFFFFFFFF) = 0 := by
    intro x
    have : (0xFFFFFFFF : BitVec 32) = BitVec.allOnes 32 := by decide
    rw [this, BitVec.or_allOnes]
    decide
  refine ⟨fun _ => rfl, fun t ht => ?_, fun t u ht => ?_, fun h => ?_,
    fun _ => ⟨hones _, hones _⟩, fun _ h => ?_⟩
  · cases ht
  · cases ht
  · cases h
  · exact (h.elim (absurd rfl) (absurd rfl))

theorem maskInv_of_reach (h : (irqMaskThreads T).Reach (fun _ _ => True)
    (irqEnabledConfig T engine userWork channelIntEnable userIntEnable) c) :
    ∃ place, MaskInv c place := by
  induction h with
  | refl => exact ⟨_, maskInv_enabled⟩
  | @step c c' l _ _ hs ih =>
    obtain ⟨place, hi⟩ := ih
    cases l with
    | call t op r => exact hi.call hs
    | env e => exact ⟨place, hi.env hs⟩
    | start t a => exact hi.start hs

/-- While the lock is free the disabled sources are the recorded ones, and for these a DPC is queued
or runs before its locked section. With no DPC on its way every source is enabled. -/
theorem evtInterruptDpc_unmasks (c : Config IrqOp IrqOp.Res IrqWorld T)
    (h : (irqMaskThreads T).Reach (fun _ _ => True)
      (irqEnabledConfig T engine userWork channelIntEnable userIntEnable) c) :
    (c.state.lockHeld = false →
      ~~~ c.state.channelIntEnable = c.state.channelIrqPending ∧
      ~~~ c.state.userIntEnable = c.state.userIrqPending ∧
      (c.state.channelIrqPending ≠ 0 ∨ c.state.userIrqPending ≠ 0 →
        0 < c.state.dpcQueued ∨ ∃ t, BeforeLock (c.thread t))) ∧
    (c.state.dpcQueued = 0 → (∀ t, c.thread t = .ret ()) →
      c.state.channelIntEnable = BitVec.allOnes 32 ∧
      c.state.userIntEnable = BitVec.allOnes 32) := by
  obtain ⟨place, hi⟩ := maskInv_of_reach h
  have hfree : c.state.lockHeld = false → c.state.channelIrqPending ≠ 0 ∨
      c.state.userIrqPending ≠ 0 → 0 < c.state.dpcQueued ∨ ∃ t, BeforeLock (c.thread t) := by
    intro hlock hpending
    refine (hi.owed hlock hpending).imp_right fun ⟨t, ht⟩ => ⟨t, ?_⟩
    exact DpcPlace.before_calls (ht ▸ hi.at_place t)
  refine ⟨fun hlock => ⟨(hi.free hlock).1, (hi.free hlock).2, hfree hlock⟩, fun hqueue hidle => ?_⟩
  have hlock : c.state.lockHeld = false := by
    by_contra hlock
    obtain ⟨t, ht⟩ := hi.owner (by simpa using hlock)
    have hat := hi.at_place t
    rw [hidle t] at hat
    cases hplace : place t with
    | idle | before => rw [hplace] at ht; cases ht
    | _ => rw [hplace] at hat; cases hat
  have hzero : c.state.channelIrqPending = 0 ∧ c.state.userIrqPending = 0 := by
    by_contra hpending
    rcases hfree hlock (by tauto) with hqueued | ⟨t, ht⟩
    · omega
    · rw [hidle t] at ht
      exact ht
  obtain ⟨hchannel, huser⟩ := hi.free hlock
  constructor
  · have hnot : ~~~ c.state.channelIntEnable = 0 := hchannel.trans hzero.1
    simpa using congrArg (~~~ ·) hnot
  · have hnot : ~~~ c.state.userIntEnable = 0 := huser.trans hzero.2
    simpa using congrArg (~~~ ·) hnot

end

/-- Two channels and a user event fire while no DPC runs; the DPC begins on one of two processors,
and another channel fires. -/
theorem evtInterruptDpc_unmasks_begun :
    ∃ c, (irqMaskThreads Bool).Reach (fun _ _ => True)
        (irqEnabledConfig Bool (fun _ => ⟨true, 1⟩) (fun _ => true) 0 0) c ∧
      c.state.channelIrqPending = 7 ∧ ~~~ c.state.channelIntEnable = 7 ∧
      (0 < c.state.dpcQueued ∨ ∃ t, BeforeLock (c.thread t)) := by
  have hfired : (irqMaskThreads Bool).Reach (fun _ _ => True)
      (irqEnabledConfig Bool (fun _ => ⟨true, 1⟩) (fun _ => true) 0 0) _ :=
    Reach.refl.step (l := .env ⟨3, 1, false⟩) trivial rfl
  have hbegun := hfired.step (l := .start true ()) trivial rfl
  have hreach := hbegun.step (l := .env ⟨4, 0, false⟩) trivial rfl
  obtain ⟨hchannel, -, hdpc⟩ := (evtInterruptDpc_unmasks _ hreach).1 rfl
  exact ⟨_, hreach, rfl, hchannel, hdpc (.inl (by decide))⟩

end Xadma
