import Xadma.Avsadma.StreamPointer

/-!
# The clone that is left from before

`Process` keeps the clone of a frame that could not be programmed. `CleanupReferences` and
`CompleteMappings` do not look at it when they delete clones, so it is gone when the pin is
processed again. No mapping is programmed twice all the same.
-/

namespace Xadma

namespace Capture

/-! ## What the pointer should be -/

/-- `m_PreviousStreamPointer` is `NULL` or a clone of the list. -/
def PreviousLive (w : PinStream) : Prop :=
  ∀ id, w.previousStreamPointer = some id → id ∈ w.cloneIds

/-- The mappings that are left up to a clone. -/
def leftUntil (id : Nat) : List Clone → Nat
  | [] => 0
  | c :: clones => c.mappings.length + if c.id = id then 0 else leftUntil id clones

/-- Transitions to `KSSTATE_STOP` and down to `KSSTATE_ACQUIRE` delete the clones. -/
def cleansUp (toState fromState : KsState) : Prop :=
  toState = .stop ∨ toState = .acquire ∧ fromState ≠ .stop

/-- The clones are deleted only while there is no clone left from before, and fewer mappings are
completed on x86 than lead to it. -/
def sparesPrevious (build : PointerBuild) (w : PinStream) : PinEvent → Prop
  | .setState toState _ => cleansUp toState w.ksState → w.previousStreamPointer = none
  | .completeMappings numMappings => build = .x86 → ∀ id ∈ w.previousStreamPointer,
      numMappings.toNat < leftUntil id w.clones
  | .enqueue _ | .process .. => True

variable {build : PointerBuild} {w w' : PinStream} {answers : ProcessAnswers}
  {leading : QueuedFrame} {id n : Nat} {clones : List Clone} {dataUsed : DataUsed}

/-! ## Programming the leading edge -/

/-- Either all mappings of the frame are programmed or none, and in this case the clone is kept if
there are any. -/
theorem programLeading_cases (answers : ProcessAnswers) (leading : QueuedFrame) (id : Nat)
    (w : PinStream) :
    ∃ sim bufferVirtual used previous, w.programLeading answers leading id = (used, { w with
        sim := sim
        bufferVirtual := bufferVirtual
        previousStreamPointer := previous
        programmed := w.programmed ++ (List.range used.toNat).map fun i => (leading.id, i) }) ∧
      (previous = none ∨ previous = some id ∧ leading.mappings ≠ []) := by
  cases hallocated : answers.allocated with
  | none =>
    refine ⟨_, _, _, _, rfl, ?_⟩
    rw [hallocated]
    simp only
    split
    · exact .inl rfl
    · next hremaining =>
      refine .inr ⟨rfl, fun hnil => hremaining ?_⟩
      rw [hnil]
      rfl
  | some block =>
    refine ⟨_, _, _, _, rfl, .inl ?_⟩
    rw [hallocated]
    exact if_pos rfl

/-! ## The clone -/

/-- The clone left from before is in the list and has mappings. No byte is counted but on x86. -/
structure LiveInv (build : PointerBuild) (w : PinStream) : Prop where
  previous : ∀ id, w.previousStreamPointer = some id → ∃ c ∈ w.clones, c.id = id ∧ c.mappings ≠ []
  sound : w.faulted = false
  bytes : build = .other → ∀ frame, w.dataUsed frame = 0

theorem LiveInv.previousLive (h : LiveInv build w) : PreviousLive w := by
  intro id hid
  obtain ⟨c, hc, rfl, -⟩ := h.previous id hid
  exact List.mem_map_of_mem hc

/-- The clone of the leading edge is in the list. -/
theorem LiveInv.clonePointer (h : LiveInv build w)
    (hclone : w.clonePointer answers leading = some (id, w')) :
    LiveInv build w' ∧ ∃ c ∈ w'.clones, c.id = id ∧ (leading.mappings ≠ [] → c.mappings ≠ []) := by
  unfold PinStream.clonePointer at hclone
  split at hclone
  · next hnone =>
    split at hclone
    · cases hclone
      refine ⟨⟨fun id hid => ?_, h.sound, fun hother frame => ?_⟩, ?_⟩
      · rw [hnone] at hid
        cases hid
      · simp only [Function.update_apply]
        split
        · rfl
        · exact h.bytes hother frame
      · exact ⟨_, List.mem_append_right _ (List.mem_singleton_self _), rfl, id⟩
    · cases hclone
  · next previous hsome =>
    cases hclone
    obtain ⟨c, hc, hid, hmappings⟩ := h.previous _ hsome
    have hmem : id ∈ w.cloneIds := hid ▸ List.mem_map_of_mem hc
    refine ⟨⟨h.previous, ?_, h.bytes⟩, c, hc, hid, fun _ => hmappings⟩
    simp [h.sound, hmem]

theorem LiveInv.programLeading (h : LiveInv build w)
    (hclone : ∃ c ∈ w.clones, c.id = id ∧ (leading.mappings ≠ [] → c.mappings ≠ [])) :
    LiveInv build (w.programLeading answers leading id).2 := by
  obtain ⟨sim, bufferVirtual, used, previous, heq, hprevious⟩ :=
    programLeading_cases answers leading id w
  rw [heq]
  refine ⟨fun id' hid' => ?_, h.sound, h.bytes⟩
  rcases hprevious with hnone | ⟨hsome, hmappings⟩
  · rw [hnone] at hid'
    cases hid'
  · rw [hsome] at hid'
    cases hid'
    obtain ⟨c, hc, hid, hleft⟩ := hclone
    exact ⟨c, hc, hid, hleft hmappings⟩

theorem LiveInv.queue (h : LiveInv build w) (queue : List QueuedFrame) :
    LiveInv build { w with queue := queue } :=
  ⟨h.previous, h.sound, h.bytes⟩

theorem LiveInv.processLoop (h : LiveInv build w) (answers : Nat → ProcessAnswers)
    (queue : List QueuedFrame) : LiveInv build (PinStream.processLoop answers queue w).2 := by
  induction queue generalizing w with
  | nil => exact h.queue []
  | cons leading rest ih =>
    unfold PinStream.processLoop
    simp only
    split
    · split
      · exact ih h
      · exact h.queue rest
    · split
      · exact h.queue _
      · next id w' hclone =>
        obtain ⟨hw', hmem⟩ := h.clonePointer hclone
        have hprogrammed : LiveInv build (w'.programLeading (answers leading.id) leading id).2 :=
          hw'.programLeading hmem
        split
        · split
          · exact ih hprogrammed
          · exact hprogrammed.queue rest
        · exact hprogrammed.queue _

theorem LiveInv.process (h : LiveInv build w) (locked : Bool) (answers : Nat → ProcessAnswers) :
    LiveInv build (w.process locked answers).2 := by
  unfold PinStream.process
  split
  · have hloop := h.processLoop answers w.queue
    exact ⟨hloop.previous, hloop.sound, hloop.bytes⟩
  · exact ⟨h.previous, h.sound, h.bytes⟩

/-! ## Completing mappings -/

/-- A clone with mappings survives on x86 when fewer mappings are completed than lead to it. -/
theorem completeMappings_x86_spares (h : n < leftUntil id clones)
    (hclone : ∃ c ∈ clones, c.id = id ∧ c.mappings ≠ []) :
    ∃ c ∈ (completeMappings .x86 n clones dataUsed).clones, c.id = id ∧ c.mappings ≠ [] := by
  induction clones generalizing n dataUsed with
  | nil =>
    obtain ⟨c, hc, -⟩ := hclone
    cases hc
  | cons c clones ih =>
    cases n with
    | zero => exact hclone
    | succ n =>
      have hrest : c.id ≠ id → ∃ c' ∈ clones, c'.id = id ∧ c'.mappings ≠ [] := by
        intro hne
        obtain ⟨c', hc', hid, hmappings⟩ := hclone
        rcases List.mem_cons.mp hc' with rfl | hc'
        · exact absurd hid hne
        · exact ⟨c', hc', hid, hmappings⟩
      rw [leftUntil] at h
      rw [completeMappings]
      split
      · next hcompleted =>
        have hall : c.mappings.length ≤ n + 1 := of_decide_eq_true hcompleted
        have hne : c.id ≠ id := by
          intro hid
          rw [if_pos hid] at h
          omega
        rw [if_neg hne] at h
        have hless : n + 1 - c.mappings.length < leftUntil id clones := by omega
        exact ih hless (hrest hne)
      · next hpartial =>
        have hpart : n + 1 < c.mappings.length := by
          simpa [Clone.isCompleted] using hpartial
        by_cases hid : c.id = id
        · refine ⟨_, List.mem_cons_self, hid, ?_⟩
          show c.mappings.drop (n + 1) ≠ []
          rw [ne_eq, List.drop_eq_nil_iff]
          omega
        · obtain ⟨c', hc', hc'id⟩ := hrest hid
          exact ⟨c', List.mem_cons_of_mem _ hc', hc'id⟩

theorem completeMappings_other_dataUsed (n : Nat) (clones : List Clone) (dataUsed : DataUsed) :
    (completeMappings .other n clones dataUsed).dataUsed = dataUsed := by
  induction clones generalizing n with
  | nil => cases n <;> rfl
  | cons c clones ih =>
    cases n with
    | zero => rfl
    | succ n =>
      rw [completeMappings]
      split
      · exact ih _
      · rfl

/-- Elsewhere it survives anyway, as no byte was counted. -/
theorem completeMappings_other_spares (hbytes : ∀ frame, dataUsed frame = 0) (n : Nat)
    (hclone : ∃ c ∈ clones, c.id = id ∧ c.mappings ≠ []) :
    ∃ c ∈ (completeMappings .other n clones dataUsed).clones, c.id = id ∧ c.mappings ≠ [] := by
  induction clones generalizing n with
  | nil =>
    obtain ⟨c, hc, -⟩ := hclone
    cases hc
  | cons c clones ih =>
    cases n with
    | zero => exact hclone
    | succ n =>
      obtain ⟨c', hc', hid, hmappings⟩ := hclone
      rw [completeMappings]
      split
      · next hcompleted =>
        have hnil : c.mappings = [] := by
          simpa [Clone.isCompleted, Clone.countBytes, hbytes] using hcompleted
        rcases List.mem_cons.mp hc' with rfl | hc'
        · exact absurd hnil hmappings
        · exact ih _ ⟨c', hc', hid, hmappings⟩
      · have hsame :
            c.advance .other (n + 1) (c.countBytes .other (n + 1) dataUsed c.frame) = c := by
          simp [Clone.advance, Clone.advanceOffsets, Clone.countBytes, hbytes]
        rw [hsame]
        exact ⟨c', hc', hid, hmappings⟩

theorem LiveInv.complete (h : LiveInv build w) {numMappings : BitVec 32}
    (hspares : sparesPrevious build w (.completeMappings numMappings)) :
    LiveInv build (w.complete build numMappings) := by
  cases build with
  | x86 =>
    refine ⟨fun id hid => ?_, h.sound, nofun⟩
    exact completeMappings_x86_spares (hspares rfl id hid) (h.previous id hid)
  | other =>
    have hbytes := h.bytes rfl
    refine ⟨fun id hid => ?_, h.sound, fun _ frame => ?_⟩
    · exact completeMappings_other_spares hbytes numMappings.toNat (h.previous id hid)
    · show (completeMappings .other _ _ _).dataUsed frame = 0
      rw [completeMappings_other_dataUsed]
      exact hbytes frame

/-! ## Transitions -/

section
variable {α β : Type} (callAnswers : SetStateCall → NtStatus)

theorem foldl_update_zero {clones : List Clone} {dataUsed : DataUsed}
    (h : ∀ frame, dataUsed frame = 0) (frame : Nat) :
    clones.foldl (fun dataUsed c => Function.update dataUsed c.frame 0) dataUsed frame = 0 := by
  induction clones generalizing dataUsed with
  | nil => exact h frame
  | cons c clones ih =>
    apply ih
    intro frame
    simp only [Function.update_apply]
    split
    · rfl
    · exact h frame

/-- A routine that does not clean up leaves the stream as it is. -/
theorem exec_quiet {p : SetStateProg α} (hp : p.All (· ≠ .cleanupReferences))
    (w : PinStream) :
    ∃ a, Prog.exec PinStream.act (PinStream.answer callAnswers) p w = some (a, w) := by
  induction p with
  | ret a => exact ⟨a, rfl⟩
  | call o k ih =>
    cases o with
    | cleanupReferences => exact absurd rfl hp.1
    | _ => exact ih _ (hp.2 _)

theorem exec_cleansUp {p : SetStateProg α}
    {f : α → NtStatus → SetStateProg β} (hp : p.All (· ≠ .cleanupReferences))
    (hf : ∀ a status, (f a status).All (· ≠ .cleanupReferences)) (w : PinStream) :
    ∃ b, Prog.exec PinStream.act (PinStream.answer callAnswers)
      (p >>= fun a => pinCalls.cleanupReferences >>= f a) w = some (b, w.cleanupReferences) := by
  obtain ⟨a, ha⟩ := exec_quiet callAnswers hp w
  obtain ⟨b, hb⟩ := exec_quiet callAnswers (hf a statusSuccess) w.cleanupReferences
  refine ⟨b, ?_⟩
  rw [Prog.exec_bind, ha]
  exact hb

theorem stopIfStarted_quiet (members : PinMembers) :
    (stopIfStarted pinCalls members).All (· ≠ .cleanupReferences) :=
  stopIfStarted_all (Prog.All.perform nofun) members

theorem releaseIfAcquired_quiet (members : PinMembers) :
    (releaseIfAcquired pinCalls members).All (· ≠ .cleanupReferences) :=
  releaseIfAcquired_all (Prog.All.perform nofun) (Prog.All.perform nofun) members

theorem acquireResources_quiet (members : PinMembers) :
    (acquireResources pinCalls members).All (· ≠ .cleanupReferences) :=
  acquireResources_all (Prog.All.perform nofun) (Prog.All.perform nofun) members

theorem setState_quiet {toState fromState : KsState} (h : ¬ cleansUp toState fromState)
    (members : PinMembers) :
    (members.setState pinCalls toState fromState).All (· ≠ .cleanupReferences) := by
  cases toState with
  | stop => exact absurd (.inl rfl) h
  | acquire =>
    have hstop : fromState = .stop := by
      by_contra hne
      exact h (.inr ⟨rfl, hne⟩)
    rw [PinMembers.setState, if_pos hstop]
    exact acquireResources_quiet members
  | pause =>
    simp only [PinMembers.setState]
    split
    · exact (Prog.All.perform nofun).bind fun _ => trivial
    · exact trivial
  | run =>
    simp only [PinMembers.setState]
    split
    · exact (Prog.All.perform nofun).bind fun _ => trivial
    · exact (Prog.All.perform nofun).bind fun _ => trivial

/-- A transition cleans up or leaves the stream as it is. -/
theorem exec_setState (toState fromState : KsState) (members : PinMembers) (w : PinStream) :
    ∃ r w', Prog.exec PinStream.act (PinStream.answer callAnswers)
        (members.setState pinCalls toState fromState) w = some (r, w') ∧
      (w' = w ∨ cleansUp toState fromState ∧ w' = w.cleanupReferences) := by
  by_cases hcleans : cleansUp toState fromState
  · rcases hcleans with rfl | ⟨rfl, hstop⟩
    · have hrelease : ∀ (members : PinMembers) (status : NtStatus),
          (releaseIfAcquired pinCalls members >>= fun members =>
            (return (status, members) : SetStateProg _)).All
              (· ≠ .cleanupReferences) :=
        fun members _ => (releaseIfAcquired_quiet members).bind fun _ => trivial
      obtain ⟨r, hr⟩ := exec_cleansUp callAnswers (stopIfStarted_quiet members) hrelease w
      exact ⟨r, _, hr, .inr ⟨.inl rfl, rfl⟩⟩
    · have hreturn : ∀ (members : PinMembers) (status : NtStatus),
          (return (status, members) : SetStateProg _).All (· ≠ .cleanupReferences) :=
        fun _ _ => trivial
      obtain ⟨r, hr⟩ := exec_cleansUp callAnswers (stopIfStarted_quiet members) hreturn w
      refine ⟨r, _, ?_, .inr ⟨.inr ⟨rfl, hstop⟩, rfl⟩⟩
      rw [PinMembers.setState, if_neg hstop]
      exact hr
  · obtain ⟨r, hr⟩ := exec_quiet callAnswers (setState_quiet hcleans members) w
    exact ⟨r, w, hr, .inl rfl⟩

/-- The pin is in another state, and the stream is cleaned up or as it was. -/
theorem setState_cases {toState : KsState} (h : w.setState toState callAnswers = some w') :
    ∃ ksState members, w' = { w with ksState := ksState, members := members } ∨
      cleansUp toState w.ksState ∧
        w' = { w.cleanupReferences with ksState := ksState, members := members } := by
  unfold PinStream.setState at h
  split at h
  · obtain ⟨r, w₁, hr, hw₁⟩ := exec_setState callAnswers toState w.ksState w.members w
    rw [hr] at h
    cases h
    refine ⟨w.ksState.after toState r.1, r.2, ?_⟩
    rcases hw₁ with rfl | ⟨hcleans, rfl⟩
    · exact .inl rfl
    · exact .inr ⟨hcleans, rfl⟩
  · cases h

theorem LiveInv.setState (h : LiveInv build w) {toState : KsState}
    (hspares : sparesPrevious build w (.setState toState callAnswers))
    (hstep : w.setState toState callAnswers = some w') : LiveInv build w' := by
  obtain ⟨ksState, members, rfl | ⟨hcleans, rfl⟩⟩ := setState_cases callAnswers hstep
  · exact ⟨h.previous, h.sound, h.bytes⟩
  · refine ⟨fun id hid => ?_, h.sound, fun hother => ?_⟩
    · have hnone := hspares hcleans
      have hid : w.previousStreamPointer = some id := hid
      rw [hnone] at hid
      cases hid
    · exact foldl_update_zero (h.bytes hother)

end

/-! ## The mappings that are programmed -/

/-- No frame of the queue has been programmed, and no mapping of another more than once. -/
structure OnceInv (queue : List QueuedFrame) (w : PinStream) : Prop where
  distinct : (queue.map QueuedFrame.id).Nodup
  queued : ∀ q ∈ queue, q.id < w.frames
  programmed : ∀ p ∈ w.programmed, p.1 < w.frames ∧ p.1 ∉ queue.map QueuedFrame.id
  once : w.programmed.Nodup

variable {queue rest : List QueuedFrame}

theorem OnceInv.frame (h : OnceInv queue w) (hframes : w'.frames = w.frames)
    (hprogrammed : w'.programmed = w.programmed) : OnceInv queue w' := by
  constructor
  · exact h.distinct
  · rw [hframes]
    exact h.queued
  · rw [hframes, hprogrammed]
    exact h.programmed
  · rw [hprogrammed]
    exact h.once

theorem OnceInv.tail (h : OnceInv (leading :: rest) w) : OnceInv rest w where
  distinct := (List.nodup_cons.mp h.distinct).2
  queued := fun q hq => h.queued q (List.mem_cons_of_mem _ hq)
  programmed := fun p hp =>
    ⟨(h.programmed p hp).1, fun hmem => (h.programmed p hp).2 (List.mem_cons_of_mem _ hmem)⟩
  once := h.once

theorem clonePointer_frame (hclone : w.clonePointer answers leading = some (id, w')) :
    w'.frames = w.frames ∧ w'.programmed = w.programmed := by
  unfold PinStream.clonePointer at hclone
  split at hclone
  · split at hclone
    · cases hclone
      exact ⟨rfl, rfl⟩
    · cases hclone
  · cases hclone
    exact ⟨rfl, rfl⟩

/-- The leading edge is programmed and leaves the frame. -/
theorem OnceInv.programLeading (h : OnceInv (leading :: rest) w) :
    OnceInv rest (w.programLeading answers leading id).2 := by
  obtain ⟨sim, bufferVirtual, used, previous, heq, -⟩ :=
    programLeading_cases answers leading id w
  rw [heq]
  have hleading : leading.id ∉ rest.map QueuedFrame.id := (List.nodup_cons.mp h.distinct).1
  refine ⟨h.tail.distinct, h.tail.queued, fun p hp => ?_, ?_⟩
  · rcases List.mem_append.mp hp with hp | hp
    · exact h.tail.programmed p hp
    · obtain ⟨i, -, rfl⟩ := List.mem_map.mp hp
      exact ⟨h.queued leading List.mem_cons_self, hleading⟩
  · refine List.nodup_append.mpr ⟨h.once, ?_, ?_⟩
    · exact List.nodup_range.map fun i j hij => congrArg Prod.snd hij
    · rintro p hp q hq rfl
      obtain ⟨i, -, rfl⟩ := List.mem_map.mp hq
      exact (h.programmed _ hp).2 List.mem_cons_self

/-- Nothing is programmed. -/
theorem OnceInv.programLeading_zero (h : OnceInv queue w)
    (hused : (w.programLeading answers leading id).1 = 0) :
    OnceInv queue (w.programLeading answers leading id).2 := by
  obtain ⟨sim, bufferVirtual, used, previous, heq, -⟩ :=
    programLeading_cases answers leading id w
  rw [heq] at hused ⊢
  obtain rfl : used = 0 := hused
  exact h.frame rfl (List.append_nil _)

theorem OnceInv.processLoop (h : OnceInv queue w) (answers : Nat → ProcessAnswers) :
    OnceInv (PinStream.processLoop answers queue w).2.queue
      (PinStream.processLoop answers queue w).2 := by
  induction queue generalizing w with
  | nil => exact h.frame rfl rfl
  | cons leading rest ih =>
    unfold PinStream.processLoop
    simp only
    split
    · split
      · exact ih h.tail
      · exact h.tail.frame rfl rfl
    · split
      · exact h.frame rfl rfl
      · next id w' hclone =>
        obtain ⟨hframes, hprogrammed⟩ := clonePointer_frame hclone
        have hw' : OnceInv (leading :: rest) w' := h.frame hframes hprogrammed
        split
        · split
          · exact ih hw'.programLeading
          · exact hw'.programLeading.frame rfl rfl
        · next hused => exact (hw'.programLeading_zero (not_not.mp hused)).frame rfl rfl

theorem OnceInv.process (h : OnceInv w.queue w) (locked : Bool)
    (answers : Nat → ProcessAnswers) :
    OnceInv (w.process locked answers).2.queue (w.process locked answers).2 := by
  unfold PinStream.process
  split
  · exact (h.processLoop answers).frame rfl rfl
  · exact h.frame rfl rfl

theorem OnceInv.enqueue (h : OnceInv w.queue w) (frame : Frame) :
    OnceInv (w.enqueue frame).queue (w.enqueue frame) := by
  have hnew : w.frames ∉ w.queue.map QueuedFrame.id := by
    intro hmem
    obtain ⟨q, hq, hid⟩ := List.mem_map.mp hmem
    exact absurd (h.queued q hq) (by omega)
  simp only [PinStream.enqueue]
  refine ⟨?_, fun q hq => ?_, fun p hp => ?_, h.once⟩
  · rw [List.map_append]
    refine List.nodup_append.mpr ⟨h.distinct, List.nodup_singleton _, ?_⟩
    rintro id hid _ hmem rfl
    obtain rfl : id = w.frames := List.mem_singleton.mp hmem
    exact hnew hid
  · rcases List.mem_append.mp hq with hq | hq
    · exact Nat.lt_succ_of_lt (h.queued q hq)
    · obtain rfl := List.mem_singleton.mp hq
      exact Nat.lt_succ_self _
  · obtain ⟨hlt, hmem⟩ := h.programmed p hp
    refine ⟨Nat.lt_succ_of_lt hlt, fun hp => ?_⟩
    rw [List.map_append, List.mem_append] at hp
    rcases hp with hp | hp
    · exact hmem hp
    · exact hlt.ne (List.mem_singleton.mp hp)

/-! ## Runs -/

theorem liveInv_created (build : PointerBuild) : LiveInv build .created where
  previous := fun id hid => by cases hid
  sound := rfl
  bytes := fun _ _ => rfl

theorem onceInv_created : OnceInv PinStream.created.queue .created where
  distinct := List.nodup_nil
  queued := fun q hq => by cases hq
  programmed := fun p hp => by cases hp
  once := List.nodup_nil

theorem reach_liveInv (h : (pinMachine build).Reach (sparesPrevious build) .created w) :
    LiveInv build w := by
  refine h.invariant (LiveInv build) (liveInv_created build) ?_
  intro w e w' hw hspares hstep
  cases e with
  | enqueue frame =>
    cases hstep
    exact ⟨hw.previous, hw.sound, hw.bytes⟩
  | process locked answers =>
    simp only [pinMachine] at hstep
    split at hstep
    · cases hstep
      exact hw.process locked answers
    · cases hstep
  | completeMappings numMappings =>
    cases hstep
    exact hw.complete hspares
  | setState toState answers => exact hw.setState answers hspares hstep

theorem reach_onceInv (h : (pinMachine build).Runs .created w) : OnceInv w.queue w := by
  refine h.invariant (fun w => OnceInv w.queue w) onceInv_created ?_
  intro w e w' hw _ hstep
  cases e with
  | enqueue frame =>
    cases hstep
    exact hw.enqueue frame
  | process locked answers =>
    simp only [pinMachine] at hstep
    split at hstep
    · cases hstep
      exact hw.process locked answers
    · cases hstep
  | completeMappings numMappings =>
    cases hstep
    exact hw.frame rfl rfl
  | setState toState answers =>
    obtain ⟨ksState, members, rfl | ⟨-, rfl⟩⟩ := setState_cases answers hstep
    · exact hw.frame rfl rfl
    · exact hw.frame rfl rfl

/-- While the clone that is left from before is spared, no clone that was deleted is used. In no run
is a mapping programmed twice. -/
theorem previous_clone_live (build : PointerBuild) :
    (∀ w, (pinMachine build).Reach (sparesPrevious build) .created w →
      PreviousLive w ∧ w.faulted = false) ∧
    ∀ w, (pinMachine build).Runs .created w → w.programmed.Nodup :=
  ⟨fun _ h => ⟨(reach_liveInv h).previousLive, (reach_liveInv h).sound⟩,
    fun _ h => (reach_onceInv h).once⟩

instance (toState fromState : KsState) : Decidable (cleansUp toState fromState) :=
  inferInstanceAs (Decidable (_ ∨ _ ∧ _))

instance (build : PointerBuild) (w : PinStream) (e : PinEvent) :
    Decidable (sparesPrevious build w e) :=
  match e with
  | .setState .. => inferInstanceAs (Decidable (_ → _ = _))
  | .completeMappings _ => inferInstanceAs (Decidable (_ = _ → ∀ id ∈ _, _))
  | .enqueue _ | .process .. => inferInstanceAs (Decidable True)

/-- The pin is taken to `KSSTATE_RUN` with a frame in the queue. -/
def runWithFrame : List PinEvent :=
  [.setState .acquire fun _ => statusSuccess, .setState .pause fun _ => statusSuccess,
    .setState .run fun _ => statusSuccess,
    .enqueue ⟨0x10000, [⟨0x2000, 0x1000⟩, ⟨0x3000, 0x1000⟩], by decide⟩]

/-- `Process` with the block for the entry allocated or not. -/
def processAllocated (allocated : Option Nat) : PinEvent :=
  .process true fun _ => ⟨statusSuccess, allocated, statusSuccess⟩

/-- The clone is left, and used when the entry can be allocated. -/
theorem previous_clone_live_retried :
    ∃ w, (pinMachine .x86).Reach (sparesPrevious .x86) .created w ∧
      (PreviousLive w ∧ w.faulted = false) ∧ w.programmed = [(0, 0), (0, 1)] := by
  have hrun : ∃ w, (pinMachine .x86).Reach (sparesPrevious .x86) .created w ∧
      decide (w.programmed = [(0, 0), (0, 1)]) = true :=
    Machine.Reach.exists_of_run
      (runWithFrame ++ [processAllocated none, .completeMappings 1, processAllocated (some 0)])
      _ (by decide)
  obtain ⟨w, hw, hprogrammed⟩ := hrun
  exact ⟨w, hw, (previous_clone_live .x86).1 w hw, of_decide_eq_true hprogrammed⟩

def goDown : List PinEvent :=
  [.setState .pause fun _ => statusSuccess, .setState .acquire fun _ => statusSuccess]

def goUp : List PinEvent :=
  [.setState .pause fun _ => statusSuccess, .setState .run fun _ => statusSuccess]

/-- The clone is deleted when the pin goes down, and `Process` uses it when it is up again. -/
theorem clone_deleted_and_used (build : PointerBuild) :
    (∃ w, (pinMachine build).Runs .created w ∧ ¬ PreviousLive w) ∧
      ∃ w, (pinMachine build).Runs .created w ∧ w.faulted = true := by
  constructor
  · have hrun : ∃ w, (pinMachine build).Runs .created w ∧
        decide (w.previousStreamPointer = some 0 ∧ w.cloneIds = []) = true := by
      apply Machine.Reach.exists_of_run (runWithFrame ++ [processAllocated none] ++ goDown)
      cases build <;> decide
    obtain ⟨w, hw, hdangles⟩ := hrun
    obtain ⟨hprevious, hclones⟩ := of_decide_eq_true hdangles
    refine ⟨w, hw, fun hlive => ?_⟩
    have hmem := hlive 0 hprevious
    rw [hclones] at hmem
    cases hmem
  · apply Machine.Reach.exists_of_run (runWithFrame ++ [processAllocated none] ++ goDown ++ goUp ++
      [processAllocated (some 0)])
    cases build <;> decide

theorem previous_clone_dangles :
    ((∃ w, (pinMachine .x86).Runs .created w ∧ ¬ PreviousLive w) ∧
      ∃ w, (pinMachine .x86).Runs .created w ∧ w.faulted = true) ∧
    (∃ w, (pinMachine .other).Runs .created w ∧ ¬ PreviousLive w) ∧
      ∃ w, (pinMachine .other).Runs .created w ∧ w.faulted = true :=
  ⟨clone_deleted_and_used .x86, clone_deleted_and_used .other⟩

end Capture

end Xadma
