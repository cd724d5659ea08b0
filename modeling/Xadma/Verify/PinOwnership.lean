import Xadma.Theory.RelyGuarantee
import Xadma.Avsadma.PinOwnership

/-!
# The owner of the hardware

A pin owns the hardware from the exchange of the count for 1 to its exchange for 0. Whatever the
transitions of the pins and however they overlap, only the owner starts, pauses, stops and releases
the hardware and writes the members of the device, and a pin that is idle owns it iff it has
acquired the resources.
-/

namespace Xadma

namespace Capture

open Threads

/-! ## What holds in every state -/

structure CountInv (w : OwnershipWorld) : Prop where
  count : w.pinsWithResources = if w.owner.isSome then 1 else 0
  sound : w.trespassed = false

/-- What the device holds of an owner. -/
def ownedBy (n : Nat) : OwnerMembers := ⟨some n, some n, some n⟩

/-- What a pin relies on: the others leave its state alone, do not make it the owner, and do not
touch the device of the owner. -/
structure PinRely (n : Nat) (w w' : OwnershipWorld) : Prop where
  ksState : (w'.pins n).ksState = (w.pins n).ksState
  members : (w'.pins n).members = (w.pins n).members
  clones : (w.pins n).ksState ≠ .run → (w'.pins n).clones ≤ (w.pins n).clones
  owner : w'.owner = some n ↔ w.owner = some n
  device : w.owner = some n → w'.device = w.device

/-- An idle pin. -/
structure PinAtRest (n : Nat) (w : OwnershipWorld) : Prop where
  owner : w.owner = some n ↔ (w.pins n).members.acquiredResources = true
  device : (w.pins n).members.acquiredResources = true → w.device = ownedBy n
  above : (w.pins n).ksState ≠ .stop → (w.pins n).members.acquiredResources = true
  stop : (w.pins n).ksState = .stop → (w.pins n).members.acquiredResources = false ∧
    (w.pins n).members.hardwareState = .stopped ∧ (w.pins n).clones = 0

abbrev PinSafe {α : Type} (n : Nat) (p : PinProg α) (Q : α → OwnershipWorld → Prop)
    (w : OwnershipWorld) : Prop :=
  Safe ownershipThreads (fun _ _ => True) CountInv PinRely n p Q w

abbrev PinStable (n : Nat) (P : OwnershipWorld → Prop) : Prop := Stable CountInv PinRely n P

variable {n : Nat} {w w' : OwnershipWorld} {α : Type}

theorem atRest_stable : PinStable n (PinAtRest n) := by
  intro w w' _ _ hr h
  constructor
  · rw [hr.owner, hr.members]
    exact h.owner
  · intro hacquired
    rw [hr.members] at hacquired
    rw [hr.device (h.owner.mpr hacquired)]
    exact h.device hacquired
  · rw [hr.ksState, hr.members]
    exact h.above
  · intro hstop
    rw [hr.ksState] at hstop
    obtain ⟨hacquired, hstopped, hclones⟩ := h.stop hstop
    have hrun : (w.pins n).ksState ≠ .run := by
      rw [hstop]
      decide
    have hle := hr.clones hrun
    rw [hr.members]
    exact ⟨hacquired, hstopped, by omega⟩

/-! ## One call -/

theorem pinAct_eq {o : PinOp} {r : o.Res} (h : OwnershipWorld.act n o w r = some w') :
    o.possible w r = true ∧ w' = o.effect n r w := by
  unfold OwnershipWorld.act at h
  split at h
  · next hpossible => exact ⟨hpossible, (Option.some.inj h).symm⟩
  · cases h

theorem device_of_not_touches {o : PinOp} (h : o.touches = false) (d : OwnerMembers) (r : o.Res) :
    o.deviceAfter n d r = d := by
  cases o with
  | compareExchangePins | cleanupReferences | getReferenceClock | releaseClock | storeState => rfl
  | _ => cases h

theorem CountInv.owner_eq_none (h : CountInv w) (hcount : w.pinsWithResources = 0) :
    w.owner = none := by
  rw [h.count] at hcount
  cases howner : w.owner with
  | none => rfl
  | some m =>
    rw [howner] at hcount
    cases hcount

theorem CountInv.effect (h : CountInv w) (o : PinOp) (r : o.Res)
    (htouch : o.touches = true → w.owner = some n) : CountInv (o.effect n r w) := by
  constructor
  · cases o with
    | compareExchangePins =>
      simp only [PinOp.effect, PinOp.pinsAfter, PinOp.ownerAfter]
      split
      · rfl
      · exact h.count
    | exchangePins => rfl
    | _ => exact h.count
  · simp only [PinOp.effect, h.sound, Bool.false_or, Bool.and_eq_false_iff, decide_eq_false_iff_not,
      not_not]
    cases htouches : o.touches with
    | false => exact .inl rfl
    | true => exact .inr (htouch htouches)

/-- What a call does is in what the other pins rely on. -/
theorem CountInv.effect_rely (h : CountInv w) (o : PinOp) (r : o.Res)
    (htouch : o.touches = true → w.owner = some n) {u : Nat} (hu : u ≠ n) :
    PinRely u w (o.effect n r w) := by
  have hpin : (o.effect n r w).pins u = w.pins u := Function.update_of_ne hu ..
  have hnot (howner : w.owner = some n) : w.owner ≠ some u := by
    rw [howner]
    exact fun heq => hu (Option.some.inj heq).symm
  refine ⟨congrArg _ hpin, congrArg _ hpin, fun _ => (congrArg OwnedPin.clones hpin).le, ?_, ?_⟩
  · cases o with
    | compareExchangePins =>
      simp only [PinOp.effect, PinOp.ownerAfter]
      split
      · next hcount =>
        rw [h.owner_eq_none hcount]
        exact ⟨fun heq => absurd (Option.some.inj heq).symm hu, nofun⟩
      · rfl
    | exchangePins => exact ⟨nofun, fun heq => absurd heq (hnot (htouch rfl))⟩
    | _ => rfl
  · intro howner
    cases htouches : o.touches with
    | false => exact device_of_not_touches htouches w.device r
    | true => exact absurd howner (hnot (htouch htouches))

/-- The rule for one call of a pin. -/
theorem pinOp_safe (o : PinOp) {P : OwnershipWorld → Prop} {Q : o.Res → OwnershipWorld → Prop}
    (hP : PinStable n P) (hQ : ∀ r, PinStable n (Q r)) (hw : P w)
    (htouch : ∀ w, P w → o.touches = true → w.owner = some n)
    (hstep : ∀ w r, CountInv w → P w → o.possible w r = true → Q r (o.effect n r w)) :
    PinSafe n o.perform Q w := by
  apply Safe.perform P hP hQ hw
  intro w r w' hi hw _ hact
  have hact : OwnershipWorld.act n o w r = some w' := hact
  obtain ⟨hpossible, rfl⟩ := pinAct_eq hact
  exact ⟨hi.effect o r (htouch w hw), fun u hu => hi.effect_rely o r (htouch w hw) hu,
    hstep w r hi hw hpossible⟩

/-! ## During a transition -/

/-- The pin stored this state and these members last. If `clean`, it holds no clone and gets none.
If it owns the hardware, `D` holds of the device. -/
structure During (n : Nat) (ksState : KsState) (members : PinMembers) (clean owns : Bool)
    (D : OwnerMembers → Prop) (w : OwnershipWorld) : Prop where
  inState : (w.pins n).ksState = ksState
  stored : (w.pins n).members = members
  noClones : clean = true → ksState ≠ .run ∧ (w.pins n).clones = 0
  owner : w.owner = some n ↔ owns = true
  device : owns = true → D w.device

variable {ksState : KsState} {members : PinMembers} {clean owns : Bool} {D : OwnerMembers → Prop}

theorem during_stable : PinStable n (During n ksState members clean owns D) := by
  intro w w' _ _ hr h
  refine ⟨hr.ksState.trans h.inState, hr.members.trans h.stored, fun hclean => ?_,
    hr.owner.trans h.owner, fun howns => ?_⟩
  · obtain ⟨hrun, hclones⟩ := h.noClones hclean
    have hle := hr.clones (h.inState ▸ hrun)
    exact ⟨hrun, by omega⟩
  · rw [hr.device (h.owner.mpr howns)]
    exact h.device howns

/-- The calls that leave the owner and what the pin stored alone. -/
def PinOp.Keeps : PinOp → Prop
  | .compareExchangePins | .exchangePins | .storeState .. => False
  | _ => True

theorem PinOp.Keeps.during {o : PinOp} (ho : o.Keeps) (r : o.Res) {D' : OwnerMembers → Prop}
    (hD : D w.device → D' (o.deviceAfter n w.device r))
    (h : During n ksState members clean owns D w) :
    During n ksState members clean owns D' (o.effect n r w) := by
  have hpin : (o.effect n r w).pins n = o.pinAfter (w.pins n) := Function.update_self ..
  constructor
  · rw [hpin, ← h.inState]
    cases o with
    | storeState => exact ho.elim
    | _ => rfl
  · rw [hpin, ← h.stored]
    cases o with
    | storeState => exact ho.elim
    | _ => rfl
  · intro hclean
    obtain ⟨hrun, hclones⟩ := h.noClones hclean
    rw [hpin]
    refine ⟨hrun, ?_⟩
    cases o with
    | storeState => exact ho.elim
    | cleanupReferences => rfl
    | _ => exact hclones
  · rw [← h.owner]
    cases o with
    | compareExchangePins | exchangePins => exact ho.elim
    | _ => rfl
  · exact fun howns => hD (h.device howns)

/-- A call of the owner. -/
theorem ownCall_safe (o : PinOp) (ho : o.Keeps) {D' : o.Res → OwnerMembers → Prop}
    (hD : ∀ d r, D d → D' r (o.deviceAfter n d r))
    (h : During n ksState members clean true D w) :
    PinSafe n o.perform (fun r => During n ksState members clean true (D' r)) w :=
  pinOp_safe o during_stable (fun _ => during_stable) h (fun _ hw _ => hw.owner.mpr rfl)
    fun w r _ hw _ => ho.during r (hD w.device r) hw

/-- The hardware and the clock are called, and the device stays as it is. -/
def PinOp.Quiet : PinOp → Prop
  | .start | .pause _ | .stop | .cleanupReferences | .getReferenceClock | .releaseClock => True
  | _ => False

theorem quiet_safe {p : PinProg α} (hp : p.All PinOp.Quiet)
    (h : During n ksState members clean true D w) :
    PinSafe n p (fun _ => During n ksState members clean true D) w := by
  induction p generalizing w with
  | ret a => exact Safe.ret during_stable h
  | call o k ih =>
    have ho : o.Keeps := by
      cases o with
      | compareExchangePins | exchangePins | storeState => exact hp.1
      | _ => trivial
    have hdevice (d : OwnerMembers) (r : o.Res) : o.deviceAfter n d r = d := by
      cases o with
      | setVideoInfoHeader | deleteImageSynth | createImageSynth | setCaptureSink
      | clearVideoInfoHeader | clearCaptureSink => exact hp.1.elim
      | _ => rfl
    have hcall : PinSafe n o.perform (fun _ => During n ksState members clean true D) w :=
      ownCall_safe o ho (fun d r hd => (hdevice d r).symm ▸ hd) h
    exact hcall.bind fun r w hw => ih r (hp.2 r) hw

/-! ### Acquiring and releasing -/

theorem releasePinResources_safe (h : During n ksState members clean true D w) :
    PinSafe n releasePinResources (fun _ => During n ksState members clean false D) w := by
  have hkeep (o : PinOp) (ho : o.Keeps) {w : OwnershipWorld}
      (h : During n ksState members clean true (fun _ => True) w) :
      PinSafe n o.perform (fun _ => During n ksState members clean true fun _ => True) w :=
    ownCall_safe o ho (fun _ _ _ => trivial) h
  have hstart : During n ksState members clean true (fun _ => True) w :=
    ⟨h.inState, h.stored, h.noClones, h.owner, fun _ => trivial⟩
  refine (hkeep .deleteImageSynth trivial hstart).bind fun _ w hw => ?_
  refine (hkeep .clearVideoInfoHeader trivial hw).bind fun _ w hw => ?_
  refine (hkeep .clearCaptureSink trivial hw).bind fun _ w hw => ?_
  apply pinOp_safe .exchangePins during_stable (fun _ => during_stable) hw
    fun _ hw _ => hw.owner.mpr rfl
  intro w r _ hw _
  have hpin : (PinOp.exchangePins.effect n r w).pins n = w.pins n := Function.update_self ..
  refine ⟨hpin ▸ hw.inState, hpin ▸ hw.stored, fun hclean => hpin ▸ hw.noClones hclean, ?_, nofun⟩
  exact ⟨nofun, nofun⟩

/-- The pin owns the hardware iff the count was 0. -/
theorem compareExchangePins_safe
    (h : During n ksState members clean false (· = ownedBy n) w) :
    PinSafe n PinOp.compareExchangePins.perform
      (fun old => During n ksState members clean (decide (old = 0)) fun _ => True) w := by
  apply pinOp_safe .compareExchangePins during_stable (fun _ => during_stable) h nofun
  intro w old hi hw hold
  have hold : old = w.pinsWithResources := of_decide_eq_true hold
  have hpin : (PinOp.compareExchangePins.effect n old w).pins n = w.pins n :=
    Function.update_self ..
  refine ⟨hpin ▸ hw.inState, hpin ▸ hw.stored, fun hclean => hpin ▸ hw.noClones hclean, ?_,
    fun _ => trivial⟩
  simp only [PinOp.effect, PinOp.ownerAfter, hold]
  split
  · next hzero => simp [hzero]
  · next hone => simpa [hone] using hw.owner

/-- The pin owns the hardware iff it succeeds. -/
theorem acquirePinResources_safe
    (h : During n ksState members clean false (· = ownedBy n) w) :
    PinSafe n acquirePinResources
      (fun status => During n ksState members clean (ntSuccess status) (· = ownedBy n)) w := by
  refine (compareExchangePins_safe h).bind fun old w hw => ?_
  split
  · next hold =>
    rw [decide_eq_true hold] at hw
    have hheader : PinSafe n PinOp.setVideoInfoHeader.perform
        (fun _ => During n ksState members clean true fun d => d.videoInfoHeader = some n) w :=
      ownCall_safe .setVideoInfoHeader trivial (fun _ _ _ => rfl) hw
    refine hheader.bind fun _ w hw => ?_
    have hdelete : PinSafe n PinOp.deleteImageSynth.perform
        (fun _ => During n ksState members clean true fun d => d.videoInfoHeader = some n) w :=
      ownCall_safe .deleteImageSynth trivial (fun _ _ hd => hd) hw
    refine hdelete.bind fun _ w hw => ?_
    have hcreate : PinSafe n PinOp.createImageSynth.perform
        (fun status => During n ksState members clean true fun d =>
          ntSuccess status = true → d.videoInfoHeader = some n ∧ d.imageSynth = some n) w := by
      apply ownCall_safe .createImageSynth trivial _ hw
      intro d status hd hsuccess
      simp only [PinOp.deviceAfter, hsuccess, if_true]
      exact ⟨hd, trivial⟩
    refine hcreate.bind fun status w hw => ?_
    split
    · next hsuccess =>
      have hsink : PinSafe n PinOp.setCaptureSink.perform
          (fun _ => During n ksState members clean true (· = ownedBy n)) w := by
        apply ownCall_safe .setCaptureSink trivial _ hw
        intro d _ hd
        obtain ⟨hheader, hsynth⟩ := hd hsuccess
        simp only [PinOp.deviceAfter, ownedBy, hheader, hsynth]
      refine hsink.bind fun _ w hw => Safe.ret during_stable ?_
      rw [hsuccess]
      exact hw
    · next hfailure =>
      refine (releasePinResources_safe hw).bind fun _ w hw => Safe.ret during_stable ?_
      rw [eq_false_of_ne_true hfailure]
      exact ⟨hw.inState, hw.stored, hw.noClones, hw.owner, nofun⟩
  · next hold =>
    rw [decide_eq_false hold] at hw
    exact Safe.ret during_stable ⟨hw.inState, hw.stored, hw.noClones, hw.owner, nofun⟩

/-! ### The transitions -/

/-- What the pin stores at the end of a transition. -/
structure FinalRight (final : KsState) (clean : Bool) (members : PinMembers) : Prop where
  above : final ≠ .stop → members.acquiredResources = true
  stop : final = .stop →
    members.acquiredResources = false ∧ members.hardwareState = .stopped ∧ clean = true

/-- The transition has ended with a status and the members. -/
def PinEnded (n : Nat) (toState ksState : KsState) (members : PinMembers)
    (r : NtStatus × PinMembers) (w : OwnershipWorld) : Prop :=
  ∃ clean, During n ksState members clean r.2.acquiredResources (· = ownedBy n) w ∧
    FinalRight (ksState.after toState r.1) clean r.2

theorem pinEnded_stable {toState : KsState} (r : NtStatus × PinMembers) :
    PinStable n (PinEnded n toState ksState members r) := by
  rintro w w' hi hi' hr ⟨clean, hduring, hfinal⟩
  exact ⟨clean, during_stable w w' hi hi' hr hduring, hfinal⟩

/-- A pin that is above `KSSTATE_STOP` stays there with the resources. -/
theorem FinalRight.of_above {fromState toState : KsState} (hfrom : fromState ≠ .stop)
    (hto : toState ≠ .stop) (status : NtStatus) (hacquired : members.acquiredResources = true) :
    FinalRight (fromState.after toState status) clean members := by
  refine ⟨fun _ => hacquired, fun hstop => ?_⟩
  unfold KsState.after at hstop
  split at hstop
  · exact absurd hstop hto
  · exact absurd hstop hfrom

theorem stopOwned_safe (h : During n ksState members clean true D w) :
    PinSafe n (stopIfStarted ownedCalls members)
      (fun p w => During n ksState members clean true D w ∧
        p = { members with hardwareState := .stopped }) w := by
  have hstable (p : PinMembers) : PinStable n fun w =>
      During n ksState members clean true D w ∧ p = { members with hardwareState := .stopped } :=
    during_stable.and (Stable.const _)
  unfold stopIfStarted
  split
  · have hstop : (ownedCalls.stop).All PinOp.Quiet := Prog.All.perform trivial
    exact (quiet_safe hstop h).bind fun _ w hw => Safe.ret (hstable _) ⟨hw, rfl⟩
  · next hstopped =>
    refine Safe.ret (hstable _) ⟨h, ?_⟩
    rw [← not_not.mp hstopped]

/-- The clones are deleted for good below `KSSTATE_RUN`. -/
theorem cleanupOwned_safe (hrun : ksState ≠ .run) (h : During n ksState members clean owns D w) :
    PinSafe n ownedCalls.cleanupReferences
      (fun status w => During n ksState members true owns D w ∧ status = statusSuccess) w := by
  have hstable (status : NtStatus) : PinStable n fun w =>
      During n ksState members true owns D w ∧ status = statusSuccess :=
    during_stable.and (Stable.const _)
  have hcleanup : PinSafe n PinOp.cleanupReferences.perform
      (fun _ => During n ksState members true owns D) w := by
    apply pinOp_safe .cleanupReferences during_stable (fun _ => during_stable) h nofun
    intro w r _ hw _
    have hkeeps : PinOp.cleanupReferences.Keeps := trivial
    have hw := hkeeps.during r id hw
    refine ⟨hw.inState, hw.stored, fun _ => ⟨hrun, ?_⟩, hw.owner, hw.device⟩
    simp [PinOp.effect, PinOp.pinAfter]
  exact hcleanup.bind fun _ w hw => Safe.ret (hstable _) ⟨hw, rfl⟩

theorem releaseOwned_safe {p : PinMembers} (hacquired : p.acquiredResources = true)
    (h : During n ksState members clean true D w) :
    PinSafe n (releaseIfAcquired ownedCalls p)
      (fun p' w => During n ksState members clean false D w ∧
        p' = { p with clock := false, acquiredResources := false }) w := by
  have hstable (p' : PinMembers) : PinStable n fun w =>
      During n ksState members clean false D w ∧
        p' = { p with clock := false, acquiredResources := false } :=
    during_stable.and (Stable.const _)
  unfold releaseIfAcquired
  rw [if_pos hacquired]
  have hclock : (Prog.when (p.clock = true) ownedCalls.releaseClock).All PinOp.Quiet :=
    (Prog.All.perform trivial).when
  refine (quiet_safe hclock h).bind fun _ w hw => ?_
  exact (releasePinResources_safe hw).bind fun _ w hw => Safe.ret (hstable _) ⟨hw, rfl⟩

/-- From `KSSTATE_STOP`. -/
theorem acquireOwned_safe (hstopped : members.hardwareState = .stopped)
    (h : During n .stop members true false (· = ownedBy n) w) :
    PinSafe n (acquireResources ownedCalls members) (PinEnded n .acquire .stop members) w := by
  refine (acquirePinResources_safe h).bind fun status w hw => ?_
  split
  · next hsuccess =>
    rw [hsuccess] at hw
    have hclock : (ownedCalls.getReferenceClock).All PinOp.Quiet := Prog.All.perform trivial
    refine (quiet_safe hclock hw).bind fun clock w hw => Safe.ret (pinEnded_stable _) ?_
    refine ⟨true, hw, fun _ => rfl, fun hstop => ?_⟩
    simp only [KsState.after, hsuccess, if_true] at hstop
    cases hstop
  · next hfailure =>
    rw [eq_false_of_ne_true hfailure] at hw
    refine Safe.ret (pinEnded_stable _) ⟨true, hw, fun hne => ?_, fun _ => ⟨rfl, hstopped, rfl⟩⟩
    exact absurd (if_neg hfailure) hne

/-- A call to the hardware from above `KSSTATE_STOP`. -/
theorem enterOwned_safe {p : PinProg NtStatus} {toState : KsState} {state : HardwareState}
    (hp : p.All PinOp.Quiet) (hfrom : ksState ≠ .stop) (hto : toState ≠ .stop)
    (hacquired : members.acquiredResources = true)
    (h : During n ksState members clean true (· = ownedBy n) w) :
    PinSafe n (p >>= fun status => return (status, members.enter state status))
      (PinEnded n toState ksState members) w := by
  refine (quiet_safe hp h).bind fun status w hw => Safe.ret (pinEnded_stable _) ?_
  have henter : (members.enter state status).acquiredResources = true := by
    unfold PinMembers.enter
    split
    · exact hacquired
    · exact hacquired
  refine ⟨clean, ?_, .of_above hfrom hto status henter⟩
  rw [henter]
  exact hw

/-- The pin is idle and begins. -/
theorem PinAtRest.during (h : PinAtRest n w) :
    During n (w.pins n).ksState (w.pins n).members (decide ((w.pins n).ksState = .stop))
      (w.pins n).members.acquiredResources (· = ownedBy n) w := by
  refine ⟨rfl, rfl, fun hclean => ?_, h.owner, h.device⟩
  have hstop : (w.pins n).ksState = .stop := of_decide_eq_true hclean
  rw [hstop]
  exact ⟨nofun, (h.stop hstop).2.2⟩

/-- The transition to stop. It comes from acquire. -/
theorem stopOwnedState_safe (hacquired : members.acquiredResources = true)
    (h : During n .acquire members false true (· = ownedBy n) w) :
    PinSafe n (members.setState ownedCalls .stop .acquire)
      (PinEnded n .stop .acquire members) w := by
  refine (stopOwned_safe h).bind fun p w ⟨hw, hp⟩ => ?_
  have hrun : KsState.acquire ≠ .run := by decide
  refine (cleanupOwned_safe hrun hw).bind fun status w ⟨hw, hstatus⟩ => ?_
  have hpacquired : p.acquiredResources = true := by
    rw [hp]
    exact hacquired
  refine (releaseOwned_safe hpacquired hw).bind fun p' w ⟨hw, hp'⟩ => ?_
  refine Safe.ret (pinEnded_stable _) ⟨true, ?_, fun hne => ?_, fun _ => ?_⟩
  · rw [hp']
    exact hw
  · have hfinal : KsState.acquire.after .stop statusSuccess = .stop := by decide
    rw [hstatus] at hne
    exact absurd hfinal hne
  · rw [hp', hp]
    exact ⟨rfl, rfl, rfl⟩

/-- The transition to acquire from above. -/
theorem lowerOwnedState_safe {clean : Bool} (hfrom : ksState ≠ .stop) (hrun : ksState ≠ .run)
    (hacquired : members.acquiredResources = true)
    (h : During n ksState members clean true (· = ownedBy n) w) :
    PinSafe n (members.setState ownedCalls .acquire ksState)
      (PinEnded n .acquire ksState members) w := by
  simp only [PinMembers.setState, if_neg hfrom]
  refine (stopOwned_safe h).bind fun p w ⟨hw, hp⟩ => ?_
  refine (cleanupOwned_safe hrun hw).bind fun status w ⟨hw, _⟩ => ?_
  have hpacquired : p.acquiredResources = true := by
    rw [hp]
    exact hacquired
  refine Safe.ret (pinEnded_stable _) ⟨true, ?_, .of_above hfrom (by decide) status hpacquired⟩
  rw [hpacquired]
  exact hw

theorem setOwnedState_safe {toState : KsState} (hadjacent : ksState.adjacent toState = true)
    (habove : ksState ≠ .stop → members.acquiredResources = true)
    (hstop : ksState = .stop →
      members.acquiredResources = false ∧ members.hardwareState = .stopped)
    (h : During n ksState members (decide (ksState = .stop)) members.acquiredResources
      (· = ownedBy n) w) :
    PinSafe n (members.setState ownedCalls toState ksState)
      (PinEnded n toState ksState members) w := by
  cases toState with
  | stop =>
    have hfrom : ksState = .acquire := by
      cases ksState <;> first | rfl | cases hadjacent
    subst hfrom
    have hacquired := habove nofun
    rw [hacquired] at h
    exact stopOwnedState_safe hacquired h
  | acquire =>
    by_cases hfrom : ksState = .stop
    · subst hfrom
      obtain ⟨hacquired, hstopped⟩ := hstop rfl
      rw [hacquired] at h
      exact acquireOwned_safe hstopped h
    · have hrun : ksState ≠ .run := by
        rintro rfl
        cases hadjacent
      have hacquired := habove hfrom
      rw [hacquired] at h
      exact lowerOwnedState_safe hfrom hrun hacquired h
  | pause =>
    have hfrom : ksState ≠ .stop := by
      rintro rfl
      cases hadjacent
    have hacquired := habove hfrom
    rw [hacquired] at h
    simp only [PinMembers.setState]
    split
    · have hpause : (ownedCalls.pause true).All PinOp.Quiet := Prog.All.perform trivial
      exact enterOwned_safe hpause hfrom (by decide) hacquired h
    · refine Safe.ret (pinEnded_stable _)
        ⟨decide (ksState = .stop), ?_, .of_above hfrom (by decide) statusSuccess hacquired⟩
      rw [hacquired]
      exact h
  | run =>
    have hfrom : ksState ≠ .stop := by
      rintro rfl
      cases hadjacent
    have hacquired := habove hfrom
    rw [hacquired] at h
    simp only [PinMembers.setState]
    split
    · have hunpause : (ownedCalls.pause false).All PinOp.Quiet := Prog.All.perform trivial
      exact enterOwned_safe hunpause hfrom (by decide) hacquired h
    · have hstart : (ownedCalls.start).All PinOp.Quiet := Prog.All.perform trivial
      exact enterOwned_safe hstart hfrom (by decide) hacquired h

theorem changePinState_safe {toState : KsState} (h : PinAtRest n w)
    (hadjacent : (w.pins n).ksState.adjacent toState = true) :
    PinSafe n (changePinState toState (w.pins n).ksState (w.pins n).members)
      (fun _ => PinAtRest n) w := by
  have hstop (hstop : (w.pins n).ksState = .stop) :
      (w.pins n).members.acquiredResources = false ∧
        (w.pins n).members.hardwareState = .stopped :=
    ⟨(h.stop hstop).1, (h.stop hstop).2.1⟩
  refine (setOwnedState_safe hadjacent h.above hstop h.during).bind fun r w' hended => ?_
  apply pinOp_safe (.storeState _ r.2) (pinEnded_stable r) (fun _ => atRest_stable) hended nofun
  rintro w' _ _ ⟨clean, hduring, hfinal⟩ _
  have hpin :
      ((PinOp.storeState ((w.pins n).ksState.after toState r.1) r.2).effect n () w').pins n =
        ⟨(w.pins n).ksState.after toState r.1, r.2, (w'.pins n).clones⟩ :=
    Function.update_self ..
  constructor
  · rw [hpin]
    exact hduring.owner
  · rw [hpin]
    exact hduring.device
  · rw [hpin]
    exact hfinal.above
  · rw [hpin]
    intro hstop
    obtain ⟨hacquired, hstopped, hclean⟩ := hfinal.stop hstop
    exact ⟨hacquired, hstopped, (hduring.noClones hclean).2⟩

/-! ## Runs -/

theorem atRest_created (n : Nat) : PinAtRest n .created where
  owner := ⟨nofun, nofun⟩
  device := nofun
  above := fun h => absurd rfl h
  stop := fun _ => ⟨rfl, rfl, rfl⟩

theorem cloneEvent_rely {e : CloneEvent} (h : e.step w = some w') (hi : CountInv w) :
    CountInv w' ∧ ∀ u, PinRely u w w' := by
  have hset (m clones : Nat) (hle : (w.pins m).ksState ≠ .run → clones ≤ (w.pins m).clones) :
      CountInv (w.setClones m clones) ∧ ∀ u, PinRely u w (w.setClones m clones) := by
    refine ⟨⟨hi.count, hi.sound⟩, fun u => ?_⟩
    by_cases hu : u = m
    · subst hu
      refine ⟨?_, ?_, ?_, Iff.rfl, fun _ => rfl⟩
      · simp [OwnershipWorld.setClones]
      · simp [OwnershipWorld.setClones]
      · simpa [OwnershipWorld.setClones] using hle
    · have hpin : (w.setClones m clones).pins u = w.pins u := Function.update_of_ne hu ..
      exact ⟨congrArg _ hpin, congrArg _ hpin, fun _ => (congrArg OwnedPin.clones hpin).le,
        Iff.rfl, fun _ => rfl⟩
  cases e with
  | process m clones =>
    simp only [CloneEvent.step] at h
    split at h
    · next hrun =>
      cases h
      exact hset m _ fun hne => absurd hrun hne
    · cases h
  | completeMappings m clones =>
    cases h
    exact hset m _ fun _ => Nat.sub_le ..

theorem reach_atRest {c : OwnershipConfig}
    (h : ownershipThreads.Reach (fun _ _ => True) ownershipConfig c) :
    CountInv c.state ∧ ∀ n, c.thread n = .ret () → PinAtRest n c.state := by
  have hsafe : CountInv c.state ∧ ∀ n, PinSafe n (c.thread n) (fun _ => PinAtRest n) c.state := by
    refine Reach.safe (I := CountInv) (R := PinRely) (Q := PinAtRest) ⟨rfl, rfl⟩ ?_ ?_ ?_ h
    · exact fun n => Safe.ret atRest_stable (atRest_created n)
    · exact fun e w w' hi _ he => cloneEvent_rely he hi
    · intro n toState w w' p hi hidle _ hstart
      simp only [ownershipThreads] at hstart
      split at hstart
      · next hadjacent =>
        cases hstart
        refine ⟨hi, fun u _ => ?_, changePinState_safe hidle hadjacent⟩
        exact ⟨rfl, rfl, fun _ => le_rfl, Iff.rfl, fun _ => rfl⟩
      · cases hstart
  refine ⟨hsafe.1, fun n hidle => ?_⟩
  have hn := hsafe.2 n
  rw [hidle] at hn
  exact hn.idle

/-- The pin has resources, as it stored last. -/
def Acquired (c : OwnershipConfig) (n : Nat) : Prop :=
  (c.state.pins n).members.acquiredResources = true

/-- The pin takes no transition. -/
def Idle (c : OwnershipConfig) (n : Nat) : Prop := c.thread n = .ret ()

section
variable {c c' : OwnershipConfig}

/-- What belongs to the owner is touched by the owner. -/
theorem owner_of_touches (h : ownershipThreads.Reach (fun _ _ => True) ownershipConfig c)
    {o : PinOp} {r : o.Res} (hstep : ownershipThreads.step c (.call n o r) = some c')
    (htouches : o.touches = true) : c.state.owner = some n := by
  have hsound := (reach_atRest (h.step trivial hstep)).1.sound
  obtain ⟨k, w, _, hact, rfl⟩ := step_call_eq hstep
  have hact : OwnershipWorld.act n o c.state r = some w := hact
  obtain ⟨-, rfl⟩ := pinAct_eq hact
  simp only [PinOp.effect, htouches, Bool.true_and, Bool.or_eq_false_iff, decide_eq_false_iff_not,
    not_not] at hsound
  exact hsound.2

theorem acquired_iff_owner (hn : PinAtRest n c.state) : Acquired c n ↔ c.state.owner = some n :=
  hn.owner.symm

theorem count_eq_one_iff (hcount : CountInv c.state) (hrest : ∀ n, PinAtRest n c.state) :
    c.state.pinsWithResources = 1 ↔ ∃! n, Acquired c n := by
  have hiff (n : Nat) := acquired_iff_owner (hrest n)
  simp only [hiff]
  rw [hcount.count]
  cases c.state.owner with
  | none => simp [ExistsUnique]
  | some m => simp [ExistsUnique]

theorem count_eq_zero_iff (hcount : CountInv c.state) (hrest : ∀ n, PinAtRest n c.state) :
    c.state.pinsWithResources = 0 ↔ ∀ n, ¬ Acquired c n := by
  have hiff (n : Nat) := acquired_iff_owner (hrest n)
  simp only [hiff]
  rw [hcount.count]
  cases c.state.owner with
  | none => simp
  | some m => simp

end

/-- For any pins, their transitions overlapping in any way and failing anywhere. -/
theorem pins_own_exclusively {c : OwnershipConfig}
    (h : ownershipThreads.Reach (fun _ _ => True) ownershipConfig c) :
    (∀ n m, Idle c n → Idle c m → Acquired c n → Acquired c m → n = m) ∧
    ((∀ n, Idle c n) →
      (c.state.pinsWithResources = 1 ↔ ∃! n, Acquired c n) ∧
      (c.state.pinsWithResources = 0 ↔ ∀ n, ¬ Acquired c n)) ∧
    (∀ n, Idle c n → Acquired c n → c.state.owner = some n ∧ c.state.device = ownedBy n) ∧
    (∀ n (o : PinOp) (r : o.Res) c', ownershipThreads.step c (.call n o r) = some c' →
      (o.touches = true → c.state.owner = some n) ∧
      ∀ m, m ≠ n → c.state.owner = some m →
        c'.state.owner = some m ∧ c'.state.device = c.state.device) ∧
    ∀ n, Idle c n → (c.state.pins n).ksState = .stop →
      ¬ Acquired c n ∧ c.state.owner ≠ some n ∧
      (c.state.pins n).members.hardwareState = .stopped ∧ (c.state.pins n).clones = 0 := by
  obtain ⟨hcount, hrest⟩ := reach_atRest h
  refine ⟨fun n m hn hm hacquired hacquired' => ?_, fun hidle => ?_, fun n hn hacquired => ?_,
    fun n o r c' hstep => ⟨owner_of_touches h hstep, fun m hm howner => ?_⟩, fun n hn hstop => ?_⟩
  · have hn := (acquired_iff_owner (hrest n hn)).mp hacquired
    have hm := (acquired_iff_owner (hrest m hm)).mp hacquired'
    exact Option.some.inj (hn.symm.trans hm)
  · have hall (n : Nat) : PinAtRest n c.state := hrest n (hidle n)
    exact ⟨count_eq_one_iff hcount hall, count_eq_zero_iff hcount hall⟩
  · exact ⟨(hrest n hn).owner.mpr hacquired, (hrest n hn).device hacquired⟩
  · have htouch := owner_of_touches h hstep
    obtain ⟨k, w, _, hact, rfl⟩ := step_call_eq hstep
    have hact : OwnershipWorld.act n o c.state r = some w := hact
    obtain ⟨-, rfl⟩ := pinAct_eq hact
    have hrely := hcount.effect_rely o r htouch hm
    exact ⟨hrely.owner.mpr howner, hrely.device howner⟩
  · obtain ⟨hacquired, hstopped, hclones⟩ := (hrest n hn).stop hstop
    have hnot : ¬ Acquired c n := by
      rw [Acquired, hacquired]
      nofun
    exact ⟨hnot, fun howner => hnot ((hrest n hn).owner.mp howner), hstopped, hclones⟩

/-- Pin 0 acquires the hardware between the two calls that pin 1 makes in vain. -/
def contended : List (Label PinOp PinOp.Res Nat CloneEvent KsState) :=
  [.start 0 .acquire, .call 0 .compareExchangePins (0 : Nat),
    .start 1 .acquire, .call 1 .compareExchangePins (1 : Nat),
    .call 0 .setVideoInfoHeader (), .call 0 .deleteImageSynth (),
    .call 0 .createImageSynth (statusSuccess : NtStatus), .call 0 .setCaptureSink (),
    .call 1 (.storeState .stop .created) (),
    .call 0 .getReferenceClock (statusInvalidParameter : NtStatus),
    .call 0 (.storeState .acquire ⟨⟨.stopped, true⟩, false⟩) ()]

theorem pins_own_exclusively_contended :
    ∃ c, ownershipThreads.Reach (fun _ _ => True) ownershipConfig c ∧
      Acquired c 0 ∧ c.state.device = ownedBy 0 ∧ ¬ Acquired c 1 := by
  obtain ⟨c, hrun, hacquired, hstop, hidle₀, hidle₁⟩ : ∃ c,
      ownershipThreads.run (fun _ _ => True) ownershipConfig contended = some c ∧
        Acquired c 0 ∧ (c.state.pins 1).ksState = .stop ∧ Idle c 0 ∧ Idle c 1 :=
    ⟨_, rfl, rfl, rfl, rfl, rfl⟩
  have hc : ownershipThreads.Reach (fun _ _ => True) ownershipConfig c := Reach.refl.run hrun
  obtain ⟨-, -, howns, -, hstopped⟩ := pins_own_exclusively hc
  exact ⟨c, hc, hacquired, (howns 0 hidle₀ hacquired).2, (hstopped 1 hidle₁ hstop).1⟩

end Capture

end Xadma
