import Xadma.Libxdma.InterruptHandles
import Xadma.Verify.InterruptRouting

/-!
# Handles of interrupt objects that are gone

A failing creation leaves a handle that is of no object of the round, and it is used. So is a handle
of `channelInterrupts[]` when a round without channel interrupts comes after one with them. There is
no other way.
-/

namespace Xadma

namespace Handles

variable {i : RoundInput} {w w' : World} {handler : InterruptHandler} {hs : List InterruptHandler}
  {s : NtStatus × World} {index : Nat} {engines : List EngineSlot} {rounds : List RoundInput}

/-- The handle is one of an object of the round. -/
def ContextUse.Live (u : ContextUse) : Prop := ∃ x ∈ u.live, u.handle = some x

def Clean (w : World) : Prop := ∀ u ∈ w.uses, u.Live

namespace RoundInput

/-- The round has an interrupt object for each source, not one for all. -/
def messages (i : RoundInput) : Bool :=
  xdmaMaxNumIrq ≤ countInterruptResources i.resources ||
    (firstInterrupt i.resources).isSome && xdmaMaxNumIrq ≤ i.interrupts.msiVectors.toNat

/-- The calls of `WdfInterruptCreate`. -/
def creations (i : RoundInput) : Nat :=
  if i.messages then xdmaMaxNumIrq else if (firstInterrupt i.resources).isSome then 1 else 0

/-- No call of `WdfInterruptCreate` fails. -/
def Creates (i : RoundInput) : Prop :=
  ntSuccess i.barStatus = true → ∀ n < i.creations, ntSuccess (i.interrupts.create n) = true

/-- The round has channel interrupts. -/
def HasChannels (i : RoundInput) : Prop := ntSuccess i.barStatus = true ∧ i.messages = true

/-- The round has no channel interrupts, and it comes to an engine. -/
structure ProbesWithout (i : RoundInput) : Prop where
  bars : ntSuccess i.barStatus = true
  single : i.messages = false
  ready : firstInterrupt i.resources = some true ∨
    firstInterrupt i.resources = some false ∧ ntSuccess i.interrupts.pinStatus = true
  dmaEnabler : ntSuccess i.dmaEnablerStatus = true
  engine : ∃ engine ∈ engineSlots, i.engineExists engine = true

end RoundInput

/-! ## Creating one object -/

theorem clean_getIrqContext {handle : Option Nat} :
    Clean (getIrqContext handle w) ↔ Clean w ∧ ∃ x ∈ w.live, handle = some x := by
  unfold Clean getIrqContext
  rw [List.forall_mem_append, List.forall_mem_singleton]
  rfl

/-- Every handle in the tables has been given out. -/
def Issued (w : World) : Prop := ∀ handler x, w.irq handler = some x → x < w.issued

/-- The handle for `handler` is not one of an object of the round. -/
def Stale (w : World) (handler : InterruptHandler) : Prop :=
  ∀ x, w.irq handler = some x → x ∉ w.live

/-- The world after a creation that succeeds. -/
def created (handler : InterruptHandler) (w : World) : World :=
  { irq := Function.update w.irq handler (some w.issued)
    live := w.live ++ [w.issued]
    issued := w.issued + 1
    uses := w.uses ++ [⟨some w.issued, w.live ++ [w.issued]⟩] }

@[simp] theorem created_self : (created handler w).irq handler = some w.issued :=
  Function.update_self ..

theorem created_of_ne {other : InterruptHandler} (hne : other ≠ handler) :
    (created handler w).irq other = w.irq other :=
  Function.update_of_ne hne ..

theorem setupInterrupt_success (h : ntSuccess (i.interrupts.create w.live.length) = true) :
    setupInterrupt i handler w = (i.interrupts.create w.live.length, created handler w) := by
  simp [setupInterrupt, wdfInterruptCreate, h, getIrqContext, created]

theorem setupInterrupt_status :
    (setupInterrupt i handler w).1 = i.interrupts.create w.live.length := by
  simp only [setupInterrupt, wdfInterruptCreate]
  split
  · rfl
  · split <;> rfl

/-- The context of an object that was not created is not there. -/
theorem setupInterrupt_failure (h : ¬ ntSuccess (i.interrupts.create w.live.length) = true)
    (hstale : Stale w handler) : ¬ Clean (setupInterrupt i handler w).2 := by
  intro hclean
  simp only [setupInterrupt, wdfInterruptCreate, if_neg h] at hclean
  split at hclean
  · obtain ⟨-, x, -, hx⟩ := clean_getIrqContext.mp hclean
    simp at hx
  · obtain ⟨-, x, hx, hirq⟩ := clean_getIrqContext.mp hclean
    exact hstale x hirq hx

theorem clean_created : Clean (created handler w) ↔ Clean w := by
  have huse : Clean (created handler w) ↔
      Clean w ∧ ∃ x ∈ w.live ++ [w.issued], some w.issued = some x := by
    unfold Clean created
    rw [List.forall_mem_append, List.forall_mem_singleton]
    rfl
  rw [huse, and_iff_left]
  exact ⟨w.issued, List.mem_append_right _ (List.mem_singleton_self _), rfl⟩

theorem Issued.created (h : Issued w) : Issued (created handler w) := by
  intro other x hx
  by_cases heq : other = handler
  · subst heq
    rw [created_self] at hx
    cases hx
    exact Nat.lt_succ_self _
  · rw [created_of_ne heq] at hx
    exact Nat.lt_succ_of_lt (h other x hx)

theorem Stale.created {other : InterruptHandler} (h : Stale w other) (hissued : Issued w)
    (hne : other ≠ handler) : Stale (created handler w) other := by
  intro x hx hlive
  rw [created_of_ne hne] at hx
  rcases List.mem_append.mp hlive with hlive | hlive
  · exact h x hx hlive
  · have hlt := hissued other x hx
    rw [List.mem_singleton.mp hlive] at hlt
    exact Nat.lt_irrefl _ hlt

/-! ## Creating the objects of a mode -/

/-- The worlds between which the objects for `hs` were created. -/
structure Populated (hs : List InterruptHandler) (w w' : World) : Prop where
  irq : ∀ handler ∈ hs, ∃ x ∈ w'.live, w'.irq handler = some x
  others : ∀ handler, handler ∉ hs → w'.irq handler = w.irq handler
  live : ∀ x ∈ w'.live, x ∈ w.live ∨ w.issued ≤ x
  kept : w.live ⊆ w'.live
  count : w'.live.length = w.live.length + hs.length
  issued : Issued w → Issued w'
  clean : Clean w' ↔ Clean w

theorem Populated.refl (w : World) : Populated [] w w where
  irq := fun _ h => absurd h List.not_mem_nil
  others := fun _ _ => rfl
  live := fun _ h => .inl h
  kept := List.Subset.refl _
  count := rfl
  issued := id
  clean := Iff.rfl

theorem Populated.cons (hnot : handler ∉ hs) (h : Populated hs (created handler w) w') :
    Populated (handler :: hs) w w' where
  irq := by
    intro other hother
    rcases List.mem_cons.mp hother with rfl | hother
    · refine ⟨w.issued, h.kept (List.mem_append_right _ (List.mem_singleton_self _)), ?_⟩
      rw [h.others other hnot, created_self]
    · exact h.irq other hother
  others := by
    intro other hother
    rw [List.mem_cons, not_or] at hother
    rw [h.others other hother.2, created_of_ne hother.1]
  live := by
    intro x hx
    rcases h.live x hx with hx | hx
    · rcases List.mem_append.mp hx with hx | hx
      · exact .inl hx
      · exact .inr (List.mem_singleton.mp hx).ge
    · exact .inr (Nat.le_of_succ_le hx)
  kept := fun _ hx => h.kept (List.mem_append_left _ hx)
  count := by
    rw [h.count, created, List.length_append, List.length_singleton, List.length_cons]
    omega
  issued := fun hissued => h.issued hissued.created
  clean := h.clean.trans clean_created

/-- A loop over handlers, and whether all of its creations succeed. -/
theorem setupEach_spec (hnodup : hs.Nodup) (hissued : Issued s.2)
    (hstale : ∀ handler ∈ hs, Stale s.2 handler) :
    (∀ n < hs.length, ntSuccess (i.interrupts.create (s.2.live.length + n)) = true) ∧
        Populated hs s.2 (setupEach (setupInterrupt i) hs s).2 ∧
        (hs ≠ [] → ntSuccess (setupEach (setupInterrupt i) hs s).1 = true) ∨
      (¬ ∀ n < hs.length, ntSuccess (i.interrupts.create (s.2.live.length + n)) = true) ∧
        ¬ Clean (setupEach (setupInterrupt i) hs s).2 ∧
        ¬ ntSuccess (setupEach (setupInterrupt i) hs s).1 = true := by
  induction hs generalizing s with
  | nil => exact .inl ⟨fun n hn => absurd hn (Nat.not_lt_zero n), .refl _, fun h => absurd rfl h⟩
  | cons handler hs ih =>
    obtain ⟨hnot, hnodup⟩ := List.nodup_cons.mp hnodup
    rw [setupEach]
    by_cases hcreate : ntSuccess (i.interrupts.create s.2.live.length) = true
    · rw [setupInterrupt_success hcreate]
      simp only [hcreate, if_true]
      have hlength : (created handler s.2).live.length = s.2.live.length + 1 := by simp [created]
      -- the creations behind the first one
      have hall : (∀ n < (handler :: hs).length,
            ntSuccess (i.interrupts.create (s.2.live.length + n)) = true) ↔
          ∀ n < hs.length,
            ntSuccess (i.interrupts.create ((created handler s.2).live.length + n)) = true := by
        rw [hlength]
        constructor
        · intro h n hn
          rw [Nat.add_right_comm]
          exact h (n + 1) (Nat.succ_lt_succ hn)
        · intro h n hn
          cases n with
          | zero => exact hcreate
          | succ n =>
            have hn := h n (Nat.lt_of_succ_lt_succ hn)
            rw [Nat.add_right_comm] at hn
            exact hn
      rw [hall]
      have hrest := ih (s := (i.interrupts.create s.2.live.length, created handler s.2)) hnodup
        hissued.created fun other hother =>
          (hstale other (List.mem_cons_of_mem _ hother)).created hissued fun heq =>
            hnot (heq ▸ hother)
      rcases hrest with ⟨hcreates, hpopulated, hstatus⟩ | hfailed
      · refine .inl ⟨hcreates, hpopulated.cons hnot, fun _ => ?_⟩
        cases hs with
        | nil => exact hcreate
        | cons => exact hstatus (List.cons_ne_nil _ _)
      · exact .inr hfailed
    · have hfailure := setupInterrupt_failure hcreate (hstale handler List.mem_cons_self)
      have hstatus : ¬ ntSuccess (setupInterrupt i handler s.2).1 = true := by
        rw [setupInterrupt_status]
        exact hcreate
      rw [if_neg hstatus]
      exact .inr ⟨fun h => hcreate (h 0 (Nat.zero_lt_succ _)), hfailure, hstatus⟩

/-- The contexts used before stay in the record. -/
theorem clean_of_setupInterrupt (h : Clean (setupInterrupt i handler w).2) : Clean w := by
  simp only [setupInterrupt, wdfInterruptCreate] at h
  split at h
  · exact (clean_getIrqContext.mp h).1
  · split at h <;> exact (clean_getIrqContext.mp h).1

theorem clean_of_setupEach (h : Clean (setupEach (setupInterrupt i) hs s).2) : Clean s.2 := by
  induction hs generalizing s with
  | nil => exact h
  | cons handler hs ih =>
    rw [setupEach] at h
    split at h
    · exact clean_of_setupInterrupt (ih h)
    · exact clean_of_setupInterrupt h

/-! ## The modes -/

theorem setupEach_map {α β : Type} (setup : β → World → NtStatus × World) (f : α → β)
    (xs : List α) : setupEach (fun x => setup (f x)) xs s = setupEach setup (xs.map f) s := by
  induction xs generalizing s with
  | nil => rfl
  | cons x xs ih => simp only [setupEach, List.map_cons, ih]

theorem setupEach_append {α : Type} (setup : α → World → NtStatus × World) {xs : List α}
    (hne : xs ≠ []) (ys : List α) :
    setupEach setup (xs ++ ys) s =
      if ntSuccess (setupEach setup xs s).1 then setupEach setup ys (setupEach setup xs s)
      else setupEach setup xs s := by
  induction xs generalizing s with
  | nil => exact absurd rfl hne
  | cons x xs ih =>
    rw [List.cons_append, setupEach, setupEach]
    by_cases hsuccess : ntSuccess (setup x s.2).1 = true
    · rw [if_pos hsuccess, if_pos hsuccess]
      cases xs with
      | nil => rw [setupEach, if_pos hsuccess, List.nil_append]
      | cons y xs => exact ih (List.cons_ne_nil y xs)
    · rw [if_neg hsuccess, if_neg hsuccess, if_neg hsuccess]

/-- A loop that makes a round does not look at the status before it. -/
theorem setupEach_congr {α : Type} (setup : α → World → NtStatus × World) {xs : List α}
    (hne : xs ≠ []) (status status' : NtStatus) :
    setupEach setup xs (status, w) = setupEach setup xs (status', w) := by
  cases xs with
  | nil => exact absurd rfl hne
  | cons x xs => rfl

/-- One handler for each source, in the order of their numbers. -/
def messageHandlers : List InterruptHandler := (List.range xdmaMaxNumIrq).map numberedHandler

theorem messageHandlers_nodup : messageHandlers.Nodup := by decide

theorem channel_mem_messageHandlers (hindex : index < xdmaMaxChanIrq) :
    InterruptHandler.channel index ∈ messageHandlers := by
  refine List.mem_map.mpr ⟨xdmaMaxUserIrq + index, ?_, ?_⟩
  · exact List.mem_range.mpr (Nat.add_lt_add_left hindex _)
  · rw [numberedHandler, if_neg (Nat.not_lt.mpr (Nat.le_add_right _ _)), Nat.add_sub_cancel_left]

/-- The loop over the resources is one over the handlers, as far as there are resources. -/
theorem msixLoop_eq {resources : List CmResource} {n : Nat} :
    msixLoop i resources n s = setupEach (setupInterrupt i)
      (((List.range' n (xdmaMaxNumIrq - n)).take (countInterruptResources resources)).map
        numberedHandler) s := by
  induction resources generalizing n s with
  | nil => rfl
  | cons resource resources ih =>
    by_cases hn : n < xdmaMaxNumIrq
    · cases resource with
      | memory start length | other =>
        rw [msixLoop, if_pos hn, ih]
        · rfl
        · exact fun message hno => nomatch hno
      | interrupt message =>
        have hrest : xdmaMaxNumIrq - n = xdmaMaxNumIrq - (n + 1) + 1 := by omega
        have hsetup : (if n < xdmaMaxUserIrq then setupUserInterrupt i n s.2
            else setupChannelInterrupt i (n - xdmaMaxUserIrq) s.2) =
              setupInterrupt i (numberedHandler n) s.2 := by
          unfold numberedHandler
          split <;> rfl
        rw [hrest, List.range'_succ, countInterruptResources, List.take_succ_cons, List.map_cons,
          setupEach, msixLoop, if_pos hn]
        simp only [hsetup, ih]
    · rw [Nat.sub_eq_zero_of_le (Nat.le_of_not_lt hn), List.range'_zero, List.take_nil]
      cases resource with
      | memory start length | other | interrupt message =>
        unfold msixLoop
        exact if_neg hn

/-- The handlers that the mode creates objects for. -/
def RoundInput.handlers (i : RoundInput) : List InterruptHandler :=
  if i.messages then messageHandlers
  else if (firstInterrupt i.resources).isSome then [.device] else []

theorem length_handlers : i.handlers.length = i.creations := by
  unfold RoundInput.handlers RoundInput.creations
  split
  · rw [messageHandlers, List.length_map, List.length_range]
  · split <;> rfl

theorem handlers_nodup : i.handlers.Nodup := by
  unfold RoundInput.handlers
  split
  · exact messageHandlers_nodup
  · split
    · exact List.nodup_singleton _
    · exact List.nodup_nil

theorem setupMsixInterrupts_eq (h : xdmaMaxNumIrq ≤ countInterruptResources i.resources) :
    setupMsixInterrupts i w = setupEach (setupInterrupt i) messageHandlers (statusSuccess, w) := by
  rw [setupMsixInterrupts, msixLoop_eq, List.take_of_length_le, messageHandlers,
    List.range_eq_range']
  · rfl
  · rw [List.length_range']
    exact h

theorem setupMultiMsiInterrupts_snd (h : (firstInterrupt i.resources).isSome = true) :
    (setupMultiMsiInterrupts i w).2 =
      (setupEach (setupInterrupt i) messageHandlers (statusSuccess, w)).2 := by
  obtain ⟨message, hfirst⟩ := Option.isSome_iff_exists.mp h
  have hsplit : messageHandlers = (List.range xdmaMaxUserIrq).map InterruptHandler.user ++
      (List.range (2 * xdmaMaxNumChannels)).map InterruptHandler.channel := by decide
  have husers : (List.range xdmaMaxUserIrq).map InterruptHandler.user ≠ [] := by decide
  have huser : setupEach (setupUserInterrupt i) (List.range xdmaMaxUserIrq) =
      setupEach (setupInterrupt i) ((List.range xdmaMaxUserIrq).map InterruptHandler.user) :=
    funext fun s => setupEach_map (setupInterrupt i) InterruptHandler.user _
  have hchannel : setupEach (setupChannelInterrupt i) (List.range (2 * xdmaMaxNumChannels)) =
      setupEach (setupInterrupt i)
        ((List.range (2 * xdmaMaxNumChannels)).map InterruptHandler.channel) :=
    funext fun s => setupEach_map (setupInterrupt i) InterruptHandler.channel _
  rw [hsplit, setupEach_append _ husers, setupMultiMsiInterrupts, hfirst]
  simp only [huser, hchannel]
  rw [setupEach_congr _ husers statusInternalError statusSuccess]
  cases ntSuccess (setupEach (setupInterrupt i)
      ((List.range xdmaMaxUserIrq).map InterruptHandler.user) (statusSuccess, w)).1 with
  | false => rfl
  | true =>
    simp only [Bool.not_true, Bool.false_eq_true, if_false, if_true]
    split <;> rfl

theorem setupSingleInterrupt_snd (h : (firstInterrupt i.resources).isSome = true) :
    (setupSingleInterrupt i w).2 =
      (setupEach (setupInterrupt i) [.device] (statusSuccess, w)).2 := by
  obtain ⟨message, hfirst⟩ := Option.isSome_iff_exists.mp h
  have hsetup : (setupEach (setupInterrupt i) [.device] (statusSuccess, w)) =
      setupDeviceInterrupt i w := by
    simp only [setupEach, ite_self]
    rfl
  rw [hsetup, setupSingleInterrupt, hfirst]
  simp only
  split
  · rfl
  · split
    · rfl
    · split <;> rfl

/-- Every mode is the loop over its handlers. -/
theorem setupInterrupts_snd : (setupInterrupts i w).2 =
    (setupEach (setupInterrupt i) i.handlers (statusSuccess, w)).2 := by
  unfold setupInterrupts RoundInput.handlers RoundInput.messages
  by_cases hmsix : xdmaMaxNumIrq ≤ countInterruptResources i.resources
  · rw [if_pos hmsix, setupMsixInterrupts_eq hmsix]
    simp [hmsix]
  · cases hfirst : (firstInterrupt i.resources).isSome with
    | false =>
      have hnone : firstInterrupt i.resources = none := by simpa using hfirst
      simp [hmsix, setupMultiMsiInterrupts, setupSingleInterrupt, hnone, setupEach]
    | true =>
      rw [if_neg hmsix]
      split
      · next hmsi =>
        rw [setupMultiMsiInterrupts_snd hfirst]
        simp [hmsi]
      · next hmsi =>
        rw [setupSingleInterrupt_snd hfirst]
        simp [hmsix, hmsi]

/-- What the set-up of a round does, and whether all of its creations succeed. -/
theorem setupInterrupts_spec (hlive : w.live = []) (hissued : Issued w) :
    (∀ n < i.creations, ntSuccess (i.interrupts.create n) = true) ∧
        Populated i.handlers w (setupInterrupts i w).2 ∨
      (¬ ∀ n < i.creations, ntSuccess (i.interrupts.create n) = true) ∧
        ¬ Clean (setupInterrupts i w).2 := by
  have hstale : ∀ handler ∈ i.handlers, Stale w handler := by
    intro handler _ x _ hx
    rw [hlive] at hx
    exact absurd hx List.not_mem_nil
  have hspec := setupEach_spec (i := i) (s := (statusSuccess, w)) handlers_nodup hissued hstale
  rw [← setupInterrupts_snd, length_handlers, hlive] at hspec
  simp only [List.length_nil, Nat.zero_add] at hspec
  rcases hspec with ⟨hcreates, hpopulated, -⟩ | ⟨hfails, hclean, -⟩
  · exact .inl ⟨hcreates, hpopulated⟩
  · exact .inr ⟨hfails, hclean⟩

/-- Without channel interrupts the set-up succeeds if there is an interrupt whose pin is not needed
or known. -/
theorem setupInterrupts_single (hlive : w.live = []) (hsingle : i.messages = false)
    (hcreates : ∀ n < i.creations, ntSuccess (i.interrupts.create n) = true) :
    ntSuccess (setupInterrupts i w).1 = true ↔
      firstInterrupt i.resources = some true ∨
        firstInterrupt i.resources = some false ∧ ntSuccess i.interrupts.pinStatus = true := by
  have hmode := hsingle
  unfold RoundInput.messages at hmode
  simp only [Bool.or_eq_false_iff, decide_eq_false_iff_not] at hmode
  obtain ⟨hmsix, hmsi⟩ := hmode
  rw [setupInterrupts, if_neg hmsix]
  cases hfirst : firstInterrupt i.resources with
  | none =>
    have hfails : ntSuccess statusInternalError = false := by decide
    simp [setupMultiMsiInterrupts, setupSingleInterrupt, hfirst, hfails]
  | some message =>
    have hcreate : ntSuccess (setupDeviceInterrupt i w).1 = true := by
      rw [setupDeviceInterrupt, setupInterrupt_status, hlive]
      apply hcreates
      simp [RoundInput.creations, hsingle, hfirst]
    have hsuccess : ntSuccess statusSuccess = true := by decide
    rw [hfirst] at hmsi
    simp only [Option.isSome_some, Bool.true_and, decide_eq_false_iff_not] at hmsi
    rw [if_neg hmsi, setupSingleInterrupt, hfirst]
    cases message with
    | true => simp [hcreate, hsuccess]
    | false =>
      simp only [hcreate, Bool.not_true, Bool.false_eq_true, if_false]
      split
      · next hpin =>
        simp only [Bool.not_eq_true'] at hpin
        simp [hpin]
      · next hpin => simpa [hsuccess] using hpin

/-! ## The engines -/

theorem engineConfigureInterrupt_frame : (engineConfigureInterrupt index w).irq = w.irq ∧
    (engineConfigureInterrupt index w).live = w.live ∧
    (engineConfigureInterrupt index w).issued = w.issued := by
  unfold engineConfigureInterrupt
  split
  · exact ⟨rfl, rfl, rfl⟩
  · exact ⟨rfl, rfl, rfl⟩

theorem probeEngines_cons (engine : EngineSlot) :
    (probeEngines i (engine :: engines) index w).2 =
      if i.engineExists engine = true then
        if ntSuccess (i.engineStatus engine) = true then
          (probeEngines i engines (index + 1) (engineConfigureInterrupt index w)).2
        else engineConfigureInterrupt index w
      else (probeEngines i engines index w).2 := by
  rw [probeEngines]
  by_cases hexists : i.engineExists engine = true
  · rw [if_pos hexists, if_pos hexists]
    by_cases hstatus : ntSuccess (i.engineStatus engine) = true
    · rw [if_pos hstatus]
      simp [engineCreate, hstatus]
    · rw [if_neg hstatus]
      simp [engineCreate, hstatus]
  · rw [if_neg hexists, if_neg hexists]

theorem probeEngines_frame : (probeEngines i engines index w).2.irq = w.irq ∧
    (probeEngines i engines index w).2.live = w.live ∧
    (probeEngines i engines index w).2.issued = w.issued := by
  induction engines generalizing index w with
  | nil => exact ⟨rfl, rfl, rfl⟩
  | cons engine engines ih =>
    have hconfigure := @engineConfigureInterrupt_frame w index
    rw [probeEngines_cons]
    split
    · split
      · obtain ⟨hirq, hlive, hissued⟩ := @ih (engineConfigureInterrupt index w) (index + 1)
        exact ⟨hirq.trans hconfigure.1, hlive.trans hconfigure.2.1,
          hissued.trans hconfigure.2.2⟩
      · exact hconfigure
    · exact ih

/-- The engine takes a handle that is there or none at all. -/
theorem clean_engineConfigureInterrupt : Clean (engineConfigureInterrupt index w) ↔
    Clean w ∧ ∀ x, w.irq (.channel index) = some x → x ∈ w.live := by
  unfold engineConfigureInterrupt
  cases hirq : w.irq (.channel index) with
  | none => simp
  | some handle => simp [clean_getIrqContext]

theorem clean_of_probeEngines (h : Clean (probeEngines i engines index w).2) : Clean w := by
  induction engines generalizing index w with
  | nil => exact h
  | cons engine engines ih =>
    rw [probeEngines_cons] at h
    split at h
    · split at h
      · exact (clean_engineConfigureInterrupt.mp (ih h)).1
      · exact (clean_engineConfigureInterrupt.mp h).1
    · exact ih h

/-- There are no more engines than channel interrupts. -/
theorem clean_probeEngines (hbound : index + engines.length ≤ xdmaMaxChanIrq)
    (hchannels : ∀ k < xdmaMaxChanIrq, ∀ x, w.irq (.channel k) = some x → x ∈ w.live)
    (h : Clean w) : Clean (probeEngines i engines index w).2 := by
  induction engines generalizing index w with
  | nil => exact h
  | cons engine engines ih =>
    rw [List.length_cons] at hbound
    have hconfigure : Clean (engineConfigureInterrupt index w) :=
      clean_engineConfigureInterrupt.mpr ⟨h, hchannels index (by omega)⟩
    rw [probeEngines_cons]
    split
    · split
      · apply ih (by omega) _ hconfigure
        obtain ⟨hirq, hlive, -⟩ := @engineConfigureInterrupt_frame w index
        rw [hirq, hlive]
        exact hchannels
      · exact hconfigure
    · exact ih (by omega) hchannels h

/-- The first engine takes the handle at `index`. -/
theorem not_clean_probeEngines {x : Nat} (hirq : w.irq (.channel index) = some x)
    (hgone : x ∉ w.live) (hengine : ∃ engine ∈ engines, i.engineExists engine = true) :
    ¬ Clean (probeEngines i engines index w).2 := by
  have hconfigure : ¬ Clean (engineConfigureInterrupt index w) := fun hclean =>
    hgone ((clean_engineConfigureInterrupt.mp hclean).2 x hirq)
  induction engines with
  | nil =>
    obtain ⟨engine, hmem, -⟩ := hengine
    exact absurd hmem List.not_mem_nil
  | cons engine engines ih =>
    rw [probeEngines_cons]
    split
    · split
      · exact fun hclean => hconfigure (clean_of_probeEngines hclean)
      · exact hconfigure
    · next hno =>
      apply ih
      obtain ⟨other, hmem, hexists⟩ := hengine
      rcases List.mem_cons.mp hmem with rfl | hmem
      · exact absurd hexists hno
      · exact ⟨other, hmem, hexists⟩

theorem probeEngines_none (hnone : ∀ engine ∈ engines, ¬ i.engineExists engine = true) :
    (probeEngines i engines index w).2 = w := by
  induction engines with
  | nil => rfl
  | cons engine engines ih =>
    obtain ⟨hhead, htail⟩ := List.forall_mem_cons.mp hnone
    rw [probeEngines_cons, if_neg hhead]
    exact ih htail

/-! ## One round -/

/-- What holds between two rounds, as long as no creation failed. -/
structure Between (w : World) : Prop where
  live : w.live = []
  issued : Issued w
  even : w.irq (.channel 0) = none → ∀ k, w.irq (.channel k) = none

theorem clean_of_xdmaDeviceOpen (h : Clean (xdmaDeviceOpen i w).2) : Clean w := by
  have hsetup (hclean : Clean (setupInterrupts i w).2) : Clean w := by
    rw [setupInterrupts_snd] at hclean
    exact clean_of_setupEach hclean
  simp only [xdmaDeviceOpen] at h
  split at h
  · exact h
  · split at h
    · exact hsetup h
    · split at h
      · exact hsetup h
      · exact hsetup (clean_of_probeEngines h)

theorem channel_mem_handlers (hmessages : i.messages = true) (hindex : index < xdmaMaxChanIrq) :
    InterruptHandler.channel index ∈ i.handlers := by
  rw [RoundInput.handlers, if_pos hmessages]
  exact channel_mem_messageHandlers hindex

theorem channel_not_mem_handlers (hsingle : i.messages = false) (k : Nat) :
    InterruptHandler.channel k ∉ i.handlers := by
  rw [RoundInput.handlers, hsingle, if_neg Bool.false_ne_true]
  split
  · simp
  · exact List.not_mem_nil

/-- Behind the set-up of a round with channel interrupts every engine finds the object of its
channel. -/
theorem clean_probe_messages (hpopulated : Populated i.handlers w w')
    (hmessages : i.messages = true) :
    Clean (probeEngines i engineSlots 0 w').2 ↔ Clean w := by
  rw [← hpopulated.clean]
  refine ⟨clean_of_probeEngines, clean_probeEngines (by decide) fun k hk x hx => ?_⟩
  obtain ⟨y, hy, hirq⟩ := hpopulated.irq _ (channel_mem_handlers hmessages hk)
  rw [hirq] at hx
  cases hx
  exact hy

/-- Behind the set-up of a round without them the first engine finds a handle of an earlier round,
if there is one. -/
theorem clean_probe_single (hw : Between w) (hpopulated : Populated i.handlers w w')
    (hsingle : i.messages = false) :
    Clean (probeEngines i engineSlots 0 w').2 ↔
      Clean w ∧ (w.irq (.channel 0) ≠ none →
        ¬ ∃ engine ∈ engineSlots, i.engineExists engine = true) := by
  have hirq (k : Nat) : w'.irq (.channel k) = w.irq (.channel k) :=
    hpopulated.others _ (channel_not_mem_handlers hsingle k)
  rw [← hpopulated.clean]
  constructor
  · intro hclean
    refine ⟨clean_of_probeEngines hclean, fun hsome hengine => ?_⟩
    obtain ⟨x, hx⟩ := Option.ne_none_iff_exists'.mp hsome
    have hgone : x ∉ w'.live := by
      intro hlive
      rcases hpopulated.live x hlive with hold | hnew
      · rw [hw.live] at hold
        exact absurd hold List.not_mem_nil
      · exact absurd (hw.issued _ x hx) (Nat.not_lt.mpr hnew)
    exact not_clean_probeEngines ((hirq 0).trans hx) hgone hengine hclean
  · rintro ⟨hclean, hno⟩
    cases hzero : w.irq (.channel 0) with
    | none =>
      refine clean_probeEngines (by decide) (fun k _ x hx => ?_) hclean
      rw [hirq, hw.even hzero k] at hx
      cases hx
    | some x =>
      have hnone := hno (by simp [hzero])
      rw [probeEngines_none fun engine hmem hexists => hnone ⟨engine, hmem, hexists⟩]
      exact hclean

theorem xdmaDeviceOpen_clean_iff (hw : Between w) :
    Clean (xdmaDeviceOpen i w).2 ↔
      Clean w ∧ i.Creates ∧ (w.irq (.channel 0) ≠ none → ¬ i.ProbesWithout) := by
  unfold RoundInput.Creates xdmaDeviceOpen
  by_cases hbars : ntSuccess i.barStatus = true
  · simp only [hbars, Bool.not_true, Bool.false_eq_true, if_false, true_implies]
    rcases setupInterrupts_spec (i := i) hw.live hw.issued with
      ⟨hcreates, hpopulated⟩ | ⟨hfails, hdirty⟩
    · rw [and_iff_right hcreates]
      cases hmessages : i.messages with
      | true =>
        have hno : ¬ i.ProbesWithout := fun h => by simp [h.single] at hmessages
        rw [and_iff_left fun _ => hno]
        split
        · exact hpopulated.clean
        · split
          · exact hpopulated.clean
          · exact clean_probe_messages hpopulated hmessages
      | false =>
        have hready := setupInterrupts_single hw.live hmessages hcreates
        split
        · next hfailed =>
          have hno : ¬ i.ProbesWithout := fun h => by simp [hready.mpr h.ready] at hfailed
          rw [and_iff_left fun _ => hno]
          exact hpopulated.clean
        · next hsetup =>
          split
          · next hfailed =>
            have hno : ¬ i.ProbesWithout := fun h => by simp [h.dmaEnabler] at hfailed
            rw [and_iff_left fun _ => hno]
            exact hpopulated.clean
          · next henabler =>
            rw [clean_probe_single hw hpopulated hmessages]
            have hprobes : i.ProbesWithout ↔
                ∃ engine ∈ engineSlots, i.engineExists engine = true :=
              ⟨fun h => h.engine, fun h => ⟨hbars, hmessages, hready.mp (by simpa using hsetup),
                by simpa using henabler, h⟩⟩
            rw [hprobes]
    · constructor
      · intro hclean
        refine absurd ?_ hdirty
        split at hclean
        · exact hclean
        · split at hclean
          · exact hclean
          · exact clean_of_probeEngines hclean
      · exact fun h => absurd h.2.1 hfails
  · have hno : ¬ i.ProbesWithout := fun h => hbars h.bars
    simp [hbars, hno]

theorem xdmaDeviceOpen_frame (hbars : ntSuccess i.barStatus = true) :
    (xdmaDeviceOpen i w).2.irq = (setupInterrupts i w).2.irq ∧
      (xdmaDeviceOpen i w).2.issued = (setupInterrupts i w).2.issued := by
  unfold xdmaDeviceOpen
  simp only [hbars, Bool.not_true, Bool.false_eq_true, if_false]
  split
  · exact ⟨rfl, rfl⟩
  · split
    · exact ⟨rfl, rfl⟩
    · exact ⟨probeEngines_frame.1, probeEngines_frame.2.2⟩

theorem Between.round (hw : Between w) (hcreates : i.Creates) :
    Between (releaseHardware (xdmaDeviceOpen i w).2) ∧
      ((releaseHardware (xdmaDeviceOpen i w).2).irq (.channel 0) ≠ none ↔
        w.irq (.channel 0) ≠ none ∨ i.HasChannels) := by
  by_cases hbars : ntSuccess i.barStatus = true
  · obtain ⟨hirq, hissued⟩ := xdmaDeviceOpen_frame (w := w) hbars
    rcases setupInterrupts_spec (i := i) hw.live hw.issued with ⟨-, hpopulated⟩ | ⟨hfails, -⟩
    · have hissued' : Issued (releaseHardware (xdmaDeviceOpen i w).2) := by
        unfold Issued releaseHardware
        rw [hirq, hissued]
        exact hpopulated.issued hw.issued
      cases hmessages : i.messages with
      | true =>
        have hzero : 0 < xdmaMaxChanIrq := by decide
        obtain ⟨x, -, hx⟩ := hpopulated.irq _ (channel_mem_handlers hmessages hzero)
        have hsome : (releaseHardware (xdmaDeviceOpen i w).2).irq (.channel 0) = some x := by
          rw [releaseHardware, hirq]
          exact hx
        refine ⟨⟨rfl, hissued', fun hnone => ?_⟩, ?_⟩
        · rw [hsome] at hnone
          cases hnone
        · rw [hsome]
          exact iff_of_true (Option.some_ne_none x) (.inr ⟨hbars, hmessages⟩)
      | false =>
        have hsame (k : Nat) : (releaseHardware (xdmaDeviceOpen i w).2).irq (.channel k) =
            w.irq (.channel k) := by
          rw [releaseHardware, hirq]
          exact hpopulated.others _ (channel_not_mem_handlers hmessages k)
        have hno : ¬ i.HasChannels := fun h => by simp [h.2] at hmessages
        refine ⟨⟨rfl, hissued', fun hnone k => ?_⟩, ?_⟩
        · rw [hsame] at hnone ⊢
          exact hw.even hnone k
        · rw [hsame, or_iff_left hno]
    · exact absurd (hcreates hbars) hfails
  · have hopen : (xdmaDeviceOpen i w).2 = w := by simp [xdmaDeviceOpen, hbars]
    have hno : ¬ i.HasChannels := fun h => hbars h.1
    rw [hopen, or_iff_left hno]
    exact ⟨⟨rfl, hw.issued, hw.even⟩, Iff.rfl⟩

/-! ## Every sequence of rounds -/

theorem clean_of_deviceRounds (h : Clean (deviceRounds rounds w)) : Clean w := by
  induction rounds generalizing w with
  | nil => exact h
  | cons i rounds ih =>
    have hopen : Clean (releaseHardware (xdmaDeviceOpen i w).2) := ih h
    exact clean_of_xdmaDeviceOpen hopen

theorem deviceRounds_clean_iff (hw : Between w) :
    Clean (deviceRounds rounds w) ↔
      Clean w ∧ (∀ i ∈ rounds, i.Creates) ∧
        (rounds.Pairwise fun earlier later => earlier.HasChannels → ¬ later.ProbesWithout) ∧
        (w.irq (.channel 0) ≠ none → ∀ i ∈ rounds, ¬ i.ProbesWithout) := by
  induction rounds generalizing w with
  | nil => simp [deviceRounds]
  | cons i rounds ih =>
    rw [deviceRounds, List.forall_mem_cons, List.pairwise_cons]
    have hrelease : Clean (releaseHardware (xdmaDeviceOpen i w).2) ↔
        Clean (xdmaDeviceOpen i w).2 := Iff.rfl
    by_cases hcreates : i.Creates
    · obtain ⟨hnext, hchannels⟩ := hw.round hcreates
      rw [ih hnext, hrelease, xdmaDeviceOpen_clean_iff hw, hchannels]
      simp only [List.forall_mem_cons]
      grind
    · constructor
      · intro hclean
        have hopen := (xdmaDeviceOpen_clean_iff hw).mp (hrelease.mp (clean_of_deviceRounds hclean))
        exact absurd hopen.2.1 hcreates
      · exact fun h => absurd h.2.1.1 hcreates

theorem between_zeroed : Between zeroed where
  live := rfl
  issued := fun _ _ hx => nomatch hx
  even := fun _ _ => rfl

/-- Every handle is one of an object of its round if and only if no creation fails and no round
without channel interrupts comes to an engine after one with them. -/
theorem deviceRounds_live_iff (rounds : List RoundInput) :
    (∀ u ∈ (deviceRounds rounds zeroed).uses, u.Live) ↔
      (∀ i ∈ rounds, i.Creates) ∧
        rounds.Pairwise fun earlier later => earlier.HasChannels → ¬ later.ProbesWithout := by
  have hclean : Clean zeroed := fun u hu => absurd hu List.not_mem_nil
  have hiff : Clean (deviceRounds rounds zeroed) ↔ _ := deviceRounds_clean_iff between_zeroed
  rw [and_iff_right hclean] at hiff
  exact hiff.trans ⟨fun h => ⟨h.1, h.2.1⟩, fun h => ⟨h.1, h.2, fun hno => absurd rfl hno⟩⟩

/-- A round with an object for each source. -/
def messageRound : RoundInput where
  resources := [.memory 0xF0000000 0x10000, .interrupt true]
  barStatus := statusSuccess
  interrupts := ⟨fun _ => statusSuccess, .ok 32, statusSuccess, 1⟩
  clearsHandle := true
  dmaEnablerStatus := statusSuccess
  engineExists := fun engine => engine.channel == 0
  engineStatus := fun _ => statusSuccess

/-- The same device, which is granted a single message now. -/
def singleRound : RoundInput :=
  { messageRound with interrupts := { messageRound.interrupts with numMsiVectors := .ok 1 } }

instance (u : ContextUse) : Decidable u.Live := inferInstanceAs (Decidable (∃ x ∈ u.live, _))

/-- The engines of the second round are bound to the objects of the first. -/
theorem restart_not_live :
    ¬ ∀ rounds, ∀ u ∈ (deviceRounds rounds zeroed).uses, u.Live := by
  intro hall
  have hstale : ¬ ∀ u ∈ (deviceRounds [messageRound, singleRound] zeroed).uses, u.Live := by decide
  exact hstale (hall _)

/-! ## The objects of the set-up -/

/-- The status and the number of objects are those of the set-up without its handles. -/
def Matches (s : NtStatus × World) (c : Created) : Prop :=
  s.1 = c.status ∧ s.2.live.length = c.objects.length

theorem setupInterrupt_matches {c : Created} {o : InterruptObject}
    (h : w.live.length = c.objects.length) :
    Matches (setupInterrupt i handler w) (Xadma.setupInterrupt i.interrupts c o) := by
  constructor
  · rw [setupInterrupt_status, h]
    rfl
  · simp only [setupInterrupt, wdfInterruptCreate, Xadma.setupInterrupt, ← h]
    split
    · simp [getIrqContext, h]
    · split <;> exact h

theorem msixLoop_matches {resources : List CmResource} {n : Nat} {c : Created}
    (h : Matches s c) :
    Matches (msixLoop i resources n s) (Xadma.msixLoop i.interrupts resources n c) := by
  induction resources generalizing n s c with
  | nil => exact h
  | cons resource resources ih =>
    by_cases hn : n < xdmaMaxNumIrq
    · cases resource with
      | memory start length | other =>
        simp only [msixLoop, Xadma.msixLoop, if_pos hn]
        exact ih h
      | interrupt message =>
        have hcreate : Matches (setupInterrupt i (numberedHandler n) s.2)
            (Xadma.setupInterrupt i.interrupts c (msixObject message n)) :=
          setupInterrupt_matches h.2
        have hsetup : (if n < xdmaMaxUserIrq then setupUserInterrupt i n s.2
            else setupChannelInterrupt i (n - xdmaMaxUserIrq) s.2) =
              setupInterrupt i (numberedHandler n) s.2 := by
          unfold numberedHandler
          split <;> rfl
        simp only [msixLoop, Xadma.msixLoop, if_pos hn, hsetup, msixObject_eq, hcreate.1]
        split
        · exact ih hcreate
        · exact hcreate
    · cases resource with
      | memory start length | other | interrupt message =>
        unfold msixLoop Xadma.msixLoop
        rw [if_neg hn, if_neg hn]
        exact h

theorem setupEach_matches {setup : Nat → World → NtStatus × World}
    {setup' : Created → Nat → Created}
    (hsetup : ∀ n w c, w.live.length = c.objects.length → Matches (setup n w) (setup' c n))
    {ns : List Nat} {c : Created} (h : Matches s c) :
    Matches (setupEach setup ns s) (Xadma.setupEach setup' ns c) := by
  induction ns generalizing s c with
  | nil => exact h
  | cons n ns ih =>
    have hone := hsetup n s.2 c h.2
    rw [setupEach, Xadma.setupEach, hone.1]
    split
    · exact ih hone
    · exact hone

theorem setupInterrupts_matches (hlive : w.live = []) :
    (setupInterrupts i w).1 = (Xadma.setupInterrupts i.interrupts i.resources).status ∧
      (setupInterrupts i w).2.live.length =
        (Xadma.setupInterrupts i.interrupts i.resources).objects.length := by
  have hlength : w.live.length = 0 := by rw [hlive]; rfl
  unfold setupInterrupts Xadma.setupInterrupts
  split
  · exact msixLoop_matches ⟨rfl, hlength⟩
  · split
    · unfold setupMultiMsiInterrupts Xadma.setupMultiMsiInterrupts
      cases hfirst : firstInterrupt i.resources with
      | none => exact ⟨rfl, hlength⟩
      | some message =>
        have husers : Matches
            (setupEach (setupUserInterrupt i) (List.range xdmaMaxUserIrq) (statusInternalError, w))
            (Xadma.setupEach (fun s n => Xadma.setupUserInterrupt i.interrupts s n message 0 n
              i.interrupts.msiVectors.toNat) (List.range xdmaMaxUserIrq)
              ⟨statusInternalError, []⟩) :=
          setupEach_matches (fun n w c h => setupInterrupt_matches h) ⟨rfl, hlength⟩
        have hchannels : Matches
            (setupEach (setupChannelInterrupt i) (List.range (2 * xdmaMaxNumChannels)) _)
            (Xadma.setupEach (fun s n => Xadma.setupChannelInterrupt i.interrupts s n message 0
              (xdmaMaxUserIrq + n) i.interrupts.msiVectors.toNat)
              (List.range (2 * xdmaMaxNumChannels)) _) :=
          setupEach_matches (fun n w c h => setupInterrupt_matches h) husers
        simp only [husers.1, hchannels.1]
        split
        · exact husers
        · split
          · exact hchannels
          · exact ⟨rfl, hchannels.2⟩
    · unfold setupSingleInterrupt Xadma.setupSingleInterrupt
      cases hfirst : firstInterrupt i.resources with
      | none => exact ⟨rfl, hlength⟩
      | some message =>
        have hdevice : Matches (setupDeviceInterrupt i w)
            (Xadma.setupDeviceInterrupt i.interrupts ⟨statusInternalError, []⟩ message) :=
          setupInterrupt_matches hlength
        simp only [hdevice.1]
        split
        · exact ⟨rfl, hdevice.2⟩
        · split
          · exact ⟨rfl, hdevice.2⟩
          · split
            · exact ⟨rfl, hdevice.2⟩
            · exact ⟨rfl, hdevice.2⟩

end Handles

end Xadma
