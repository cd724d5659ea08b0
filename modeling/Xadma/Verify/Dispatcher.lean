import Xadma.Theory.RelyGuarantee
import Xadma.Libadma.Dispatcher
import Xadma.Verify.AdmaProgram

/-!
# The dispatcher under both queues

A call leaves its translation entry in the registers until its descriptors are executed, and the
words of a descriptor in the port until the GO write. A write of the other queue in between does no
harm if and only if it leaves these words as they are.
-/

namespace Xadma

def ProgramCall.descriptors (call : ProgramCall) (a2pMask : BitVec 32) :
    List ModularSgdmaDescriptor :=
  cyclone4Descriptors a2pMask call.direction call.deviceOffset call.sgList.elements

namespace Dispatcher

open Threads

variable {a2pMask : BitVec 32} {queue : DirToDev} {call : ProgramCall} {o : AdmaOp} {s s' : World}
  {regs regs' : AdmaRegs} {needed : Word → Option (BitVec 32)} {word : Word} {value : BitVec 32}

abbrev DispatcherLabel := Label Op Op.Res DirToDev Env ProgramCall

/-- The registers hold the words that are needed. -/
def Holds (regs : AdmaRegs) (needed : Word → Option (BitVec 32)) : Prop :=
  ∀ word value, needed word = some value → regs.word word = value

/-- Every committed descriptor is one of a call, and the translation entry is the one of the calls
under way, as far as these have programmed it, and of the descriptors that are to be executed. -/
structure Undisturbed (a2pMask : BitVec 32) (s : World) : Prop where
  committed : ∀ d ∈ s.regs.committed, ∃ call ∈ s.calls, d ∈ call.descriptors a2pMask
  programmed : ∀ queue, Holds s.regs (entryPart (s.written queue))
  pending : ∀ p ∈ s.pending, Holds s.regs (p.2.entry a2pMask)

/-- A write leaves every word as it is that the call under way on the other queue has programmed and
still needs, or that a descriptor which is to be executed needs. -/
def harmless (a2pMask : BitVec 32) (s : World) : DispatcherLabel → Bool
  | .call queue (.access _ o) _ =>
    o.writes.all fun (word, value) =>
      ([DirToDev.h2c, .c2h].all fun other =>
        other == queue || (s.written other word).all (· == value)) &&
      s.pending.all fun p => (p.2.entry a2pMask word).all (· == value)
  | _ => true

def Harmless (a2pMask : BitVec 32) (s : World) (l : DispatcherLabel) : Prop :=
  harmless a2pMask s l = true

instance (s : World) (l : DispatcherLabel) : Decidable (Harmless a2pMask s l) :=
  inferInstanceAs (Decidable (_ = _))

theorem Harmless.write {r : o.Res} (h : Harmless a2pMask s (.call queue (.access call o) r))
    (hwrites : o.writes = some (word, value)) :
    (∀ other, other ≠ queue → ∀ x, s.written other word = some x → x = value) ∧
      ∀ p ∈ s.pending, ∀ x, p.2.entry a2pMask word = some x → x = value := by
  simp only [Harmless, harmless, hwrites, Option.all_some, Bool.and_eq_true] at h
  obtain ⟨hother, hpending⟩ := h
  constructor
  · intro other hne x hx
    have hmem : other ∈ [DirToDev.h2c, .c2h] := by
      cases other with
      | h2c | c2h => simp
    have hall := List.all_eq_true.mp hother other hmem
    rw [hx] at hall
    simpa [hne] using hall
  · intro p hp x hx
    have hall := List.all_eq_true.mp hpending p hp
    rw [hx] at hall
    simpa using hall

/-! ## What an access does to the words -/

theorem act_word {r : o.Res} (hwrites : o.writes = some (word, value))
    (h : AdmaRegs.act o regs r = some regs') :
    regs'.word = Function.update regs.word word value ∧ regs'.committed = regs.committed := by
  cases o with
  | writeA2pAddrLo0 | writeA2pAddrHi0 | writeReadAddress | writeWriteAddress
  | writeTransferLength =>
    cases hwrites
    cases h
    refine ⟨funext fun word => ?_, rfl⟩
    cases word with
    | a2pAddrLo0 | a2pAddrHi0 | readAddress | writeAddress | transferLength => rfl
  | readDmaLastPtr | writeDescriptor | writeDmaLastPtr | writeStatus | writeControl | engineStart =>
    cases hwrites

theorem act_no_word {r : o.Res} (hwrites : o.writes = none)
    (hcontrol : ∀ control, o ≠ .writeControl control) (h : AdmaRegs.act o regs r = some regs') :
    regs'.word = regs.word ∧ regs'.committed = regs.committed := by
  cases o with
  | writeA2pAddrLo0 | writeA2pAddrHi0 | writeReadAddress | writeWriteAddress
  | writeTransferLength =>
    cases hwrites
  | readDmaLastPtr | writeDescriptor | writeDmaLastPtr | writeStatus | engineStart =>
    cases h
    exact ⟨rfl, rfl⟩
  | writeControl control => exact absurd rfl (hcontrol control)

theorem commit_word (regs : AdmaRegs) (control : BitVec 32) :
    (regs.commit control).word = regs.word := by
  funext word
  cases word with
  | a2pAddrLo0 | a2pAddrHi0 | readAddress | writeAddress | transferLength => rfl

theorem holds_none (regs : AdmaRegs) : Holds regs fun _ => none := by
  intro word value hneeded
  cases hneeded

theorem Holds.of_word (h : Holds regs needed) (hword : regs'.word = regs.word) :
    Holds regs' needed := by
  intro word value hneeded
  rw [hword]
  exact h word value hneeded

/-- What is needed with this value survives the write. -/
theorem Holds.write (h : Holds regs needed)
    (hword : regs'.word = Function.update regs.word word value)
    (hsame : ∀ x, needed word = some x → x = value) : Holds regs' needed := by
  intro word' x hneeded
  rw [hword]
  by_cases heq : word' = word
  · subst heq
    rw [Function.update_self]
    exact (hsame x hneeded).symm
  · rw [Function.update_of_ne heq]
    exact h word' x hneeded

/-- The word that is written is needed from now on. -/
theorem Holds.write_own (h : Holds regs needed)
    (hword : regs'.word = Function.update regs.word word value) :
    Holds regs' (Function.update needed word (some value)) := by
  intro word' x hneeded
  rw [hword]
  by_cases heq : word' = word
  · subst heq
    rw [Function.update_self] at hneeded ⊢
    exact Option.some.inj hneeded
  · rw [Function.update_of_ne heq] at hneeded ⊢
    exact h word' x hneeded

/-- What every queue needs when one of them needs something else. -/
theorem holds_update {written : DirToDev → Word → Option (BitVec 32)} (hown : Holds regs needed)
    (hothers : ∀ other, other ≠ queue → Holds regs (written other)) (other : DirToDev) :
    Holds regs (Function.update written queue needed other) := by
  by_cases heq : other = queue
  · subst heq
    rw [Function.update_self]
    exact hown
  · rw [Function.update_of_ne heq]
    exact hothers other heq

/-! ## The invariant -/

structure Inv (a2pMask : BitVec 32) (s : World) : Prop where
  written : ∀ queue, Holds s.regs (s.written queue)
  pending : ∀ p ∈ s.pending, Holds s.regs (p.2.entry a2pMask)
  committed : ∀ d ∈ s.regs.committed, ∃ call ∈ s.calls, d ∈ call.descriptors a2pMask

theorem Inv.undisturbed (h : Inv a2pMask s) : Undisturbed a2pMask s := by
  refine ⟨h.committed, fun queue word value hneeded => ?_, h.pending⟩
  cases word with
  | a2pAddrLo0 | a2pAddrHi0 => exact h.written queue _ value hneeded
  | readAddress | writeAddress | transferLength => cases hneeded

/-- A queue relies on what it needs being left alone by the other. -/
def DispatcherRely (queue : DirToDev) (s s' : World) : Prop :=
  s'.written queue = s.written queue ∧ s.calls ⊆ s'.calls

theorem access_cases {r : o.Res} (h : World.act queue (.access call o) s r = some s') :
    ∃ regs, AdmaRegs.act o s.regs r = some regs ∧
      s' = { s with
        regs := regs
        written := Function.update s.written queue (World.need (s.written queue) o)
        pending := s.pending ++
          (regs.committed.drop s.regs.committed.length).map fun d => (d, call) } := by
  obtain ⟨regs, hregs, heq⟩ := Option.map_eq_some_iff.mp h
  exact ⟨regs, hregs, heq.symm⟩

/-- Every access but a control write. -/
theorem Inv.access {r : o.Res} (hi : Inv a2pMask s)
    (hok : Harmless a2pMask s (.call queue (.access call o) r))
    (hcontrol : ∀ control, o ≠ .writeControl control)
    (h : World.act queue (.access call o) s r = some s') :
    Inv a2pMask s' ∧ s'.calls = s.calls ∧
      s'.written = Function.update s.written queue (World.need (s.written queue) o) := by
  obtain ⟨regs, hregs, rfl⟩ := access_cases h
  refine ⟨?_, rfl, rfl⟩
  cases hwrites : o.writes with
  | none =>
    obtain ⟨hword, hcommitted⟩ := act_no_word hwrites hcontrol hregs
    have hneed : World.need (s.written queue) o = s.written queue := by
      unfold World.need
      split
      · exact absurd rfl (hcontrol _)
      · next hsome => rw [hwrites] at hsome; cases hsome
      · rfl
    rw [hneed, hcommitted, List.drop_length, List.map_nil, List.append_nil,
      Function.update_eq_self]
    refine ⟨fun queue => (hi.written queue).of_word hword,
      fun p hp => (hi.pending p hp).of_word hword, ?_⟩
    rw [hcommitted]
    exact hi.committed
  | some write =>
    obtain ⟨word, value⟩ := write
    obtain ⟨hword, hcommitted⟩ := act_word hwrites hregs
    obtain ⟨hother, hpending⟩ := hok.write hwrites
    have hneed : World.need (s.written queue) o =
        Function.update (s.written queue) word (some value) := by
      unfold World.need
      split
      · exact absurd rfl (hcontrol _)
      · next hsome => rw [hwrites] at hsome; cases hsome; rfl
      · next hnone => rw [hwrites] at hnone; cases hnone
    rw [hneed, hcommitted, List.drop_length, List.map_nil, List.append_nil]
    refine ⟨?_, fun p hp => (hi.pending p hp).write hword (hpending p hp), ?_⟩
    · exact holds_update ((hi.written queue).write_own hword) fun other hne =>
        (hi.written other).write hword (hother other hne)
    · rw [hcommitted]
      exact hi.committed

/-- What a call needs between the last word of a descriptor and the GO write. -/
def portWritten (entry : Word → Option (BitVec 32)) (d : ModularSgdmaDescriptor) :
    Word → Option (BitVec 32)
  | .a2pAddrLo0 => entry .a2pAddrLo0
  | .a2pAddrHi0 => entry .a2pAddrHi0
  | .readAddress => some d.readAddress
  | .writeAddress => some d.writeAddress
  | .transferLength => some d.transferLength

/-- The GO write commits the descriptor that the call has written. -/
theorem Inv.go {d : ModularSgdmaDescriptor} {r : (AdmaOp.writeControl d.control).Res}
    (hi : Inv a2pMask s)
    (hgo : ¬ d.control &&& descriptorControlGoMask = 0) (hd : d ∈ call.descriptors a2pMask)
    (hcall : call ∈ s.calls)
    (hwritten : s.written queue = portWritten (call.entry a2pMask) d)
    (h : World.act queue (.access call (.writeControl d.control)) s r = some s') :
    Inv a2pMask s' ∧ s'.calls = s.calls ∧
      s'.written = Function.update s.written queue (call.entry a2pMask) := by
  have hholds : Holds s.regs (portWritten (call.entry a2pMask) d) := by
    rw [← hwritten]
    exact hi.written queue
  have hport : { s.regs.port with control := d.control } = d := by
    have hread : s.regs.port.readAddress = d.readAddress := hholds .readAddress _ rfl
    have hwrite : s.regs.port.writeAddress = d.writeAddress := hholds .writeAddress _ rfl
    have hlength : s.regs.port.transferLength = d.transferLength := hholds .transferLength _ rfl
    cases d
    subst hread hwrite hlength
    rfl
  have hentry : Holds s.regs (call.entry a2pMask) := by
    intro word value hneeded
    apply hholds
    cases word with
    | a2pAddrLo0 | a2pAddrHi0 => exact hneeded
    | readAddress | writeAddress | transferLength => cases hneeded
  have hneed : World.need (s.written queue) (.writeControl d.control) = call.entry a2pMask := by
    rw [hwritten]
    funext word
    cases word with
    | a2pAddrLo0 | a2pAddrHi0 | readAddress | writeAddress | transferLength => rfl
  obtain ⟨regs, hregs, rfl⟩ := access_cases h
  cases hregs
  have hword := commit_word s.regs d.control
  have hcommitted : (s.regs.commit d.control).committed = s.regs.committed ++ [d] := by
    simp only [AdmaRegs.commit, if_neg hgo, hport]
  refine ⟨?_, rfl, ?_⟩
  · rw [hneed, hcommitted, List.drop_left, List.map_singleton]
    refine ⟨?_, fun p hp => ?_, fun e he => ?_⟩
    · exact holds_update (hentry.of_word hword) fun other _ => (hi.written other).of_word hword
    · rcases List.mem_append.mp hp with hp | hp
      · exact (hi.pending p hp).of_word hword
      · rw [List.mem_singleton.mp hp]
        exact hentry.of_word hword
    · rw [hcommitted] at he
      rcases List.mem_append.mp he with he | he
      · exact hi.committed e he
      · rw [List.mem_singleton.mp he]
        exact ⟨call, hcall, hd⟩
  · rw [hneed]

/-! ## The calls -/

abbrev DispatcherSafe (a2pMask : BitVec 32) {α : Type} (queue : DirToDev) (p : DispatcherProg α)
    (Q : α → World → Prop) (s : World) : Prop :=
  Safe (dispatcherThreads a2pMask) (Harmless a2pMask) (Inv a2pMask) DispatcherRely queue p Q s

/-- The call under way on `queue` is `call`, and it needs the words `needed`. -/
def Under (queue : DirToDev) (call : ProgramCall) (needed : Word → Option (BitVec 32))
    (s : World) : Prop :=
  s.written queue = needed ∧ call ∈ s.calls

theorem under_stable : Stable (Inv a2pMask) DispatcherRely queue (Under queue call needed) :=
  fun _ _ _ _ hr h => ⟨hr.1.trans h.1, hr.2 h.2⟩

/-- What the other queue sees of a step. -/
theorem rely_of_update (hcalls : s'.calls = s.calls)
    (hwritten : s'.written = Function.update s.written queue needed) (other : DirToDev)
    (hother : other ≠ queue) : DispatcherRely other s s' := by
  constructor
  · rw [hwritten, Function.update_of_ne hother]
  · rw [hcalls]
    exact List.Subset.refl _

/-- The access as a call of the queue. -/
abbrev onBehalf (call : ProgramCall) {α : Type} (p : AdmaProg α) : DispatcherProg α :=
  p.mapOp (.access call) fun _ r => r

theorem perform_safe (hcontrol : ∀ control, o ≠ .writeControl control)
    (h : Under queue call needed s) :
    DispatcherSafe a2pMask queue (onBehalf call o.perform)
      (fun _ => Under queue call (World.need needed o)) s := by
  apply Safe.perform _ under_stable (fun _ => under_stable) h
  intro s r s' hi hs hok ha
  obtain ⟨hi', hcalls, hwritten⟩ := hi.access hok hcontrol ha
  refine ⟨hi', rely_of_update hcalls hwritten, ?_, ?_⟩
  · rw [hwritten, Function.update_self, hs.1]
  · rw [hcalls]
    exact hs.2

theorem go_safe {d : ModularSgdmaDescriptor}
    (hgo : ¬ d.control &&& descriptorControlGoMask = 0) (hd : d ∈ call.descriptors a2pMask)
    (h : Under queue call (portWritten (call.entry a2pMask) d) s) :
    DispatcherSafe a2pMask queue (onBehalf call (AdmaOp.writeControl d.control).perform)
      (fun _ => Under queue call (call.entry a2pMask)) s := by
  apply Safe.perform _ under_stable (fun _ => under_stable) h
  intro s r s' hi hs _ ha
  obtain ⟨hi', hcalls, hwritten⟩ := hi.go (r := r) hgo hd hs.2 hs.1 ha
  refine ⟨hi', rely_of_update hcalls hwritten, ?_, ?_⟩
  · rw [hwritten, Function.update_self]
  · rw [hcalls]
    exact hs.2

theorem writePort_safe {d : ModularSgdmaDescriptor}
    (hgo : ¬ d.control &&& descriptorControlGoMask = 0) (hd : d ∈ call.descriptors a2pMask)
    (h : Under queue call (call.entry a2pMask) s) :
    DispatcherSafe a2pMask queue (onBehalf call (writePort d))
      (fun _ => Under queue call (call.entry a2pMask)) s := by
  unfold writePort
  rw [onBehalf, Prog.mapOp_bind]
  apply (perform_safe (by simp) h).bind
  intro _ s h
  rw [Prog.mapOp_bind]
  apply (perform_safe (by simp) h).bind
  intro _ s h
  rw [Prog.mapOp_bind]
  apply (perform_safe (by simp) h).bind
  intro _ s h
  apply go_safe hgo hd
  -- what is needed now is the entry and the three words of the descriptor
  have hneeded : World.need (World.need (World.need (call.entry a2pMask)
      (.writeReadAddress d.readAddress)) (.writeWriteAddress d.writeAddress))
      (.writeTransferLength d.transferLength) = portWritten (call.entry a2pMask) d := by
    funext word
    cases word with
    | a2pAddrLo0 | a2pAddrHi0 | readAddress | writeAddress | transferLength => rfl
  rw [← hneeded]
  exact h

theorem cyclone4Loop_safe {offset : BitVec 64} {es : List SgElement}
    (hds : ∀ d ∈ cyclone4Descriptors a2pMask call.direction offset es,
      d ∈ call.descriptors a2pMask)
    (h : Under queue call (call.entry a2pMask) s) :
    DispatcherSafe a2pMask queue (onBehalf call (cyclone4Loop a2pMask call.direction offset es))
      (fun _ => Under queue call (call.entry a2pMask)) s := by
  induction es generalizing offset s with
  | nil => exact Safe.ret under_stable h
  | cons e rest ih =>
    rw [cyclone4Descriptors, List.forall_mem_cons] at hds
    rw [cyclone4Loop, onBehalf, Prog.mapOp_bind]
    apply (writePort_safe cyclone4Descriptor_go hds.1 h).bind
    exact fun _ s hs => ih hds.2 hs

theorem programFragment_safe (h : Under queue call (fun _ => none) s) :
    DispatcherSafe a2pMask queue (programFragment a2pMask call)
      (fun _ s => s.written queue = fun _ => none) s := by
  have hidle : Stable (Inv a2pMask) DispatcherRely queue
      fun s => s.written queue = fun _ => none := fun _ _ _ _ hr hs => hr.1.trans hs
  unfold programFragment admaEngineProgramDma
  apply Safe.bind (Q := fun _ => Under queue call (call.entry a2pMask))
  · rw [Prog.mapOp_bind]
    apply (perform_safe (by simp) h).bind
    intro _ s h
    rw [Prog.mapOp_bind]
    apply (perform_safe (by simp) h).bind
    intro _ s h
    have hneeded : World.need (World.need (fun _ => none)
        (.writeA2pAddrLo0 (call.sgList.a2pAddrLo0 a2pMask)))
        (.writeA2pAddrHi0 call.sgList.a2pAddrHi0) = call.entry a2pMask := by
      funext word
      cases word with
      | a2pAddrLo0 | a2pAddrHi0 | readAddress | writeAddress | transferLength => rfl
    rw [hneeded] at h
    rw [Prog.mapOp_bind]
    apply (perform_safe (by simp) h).bind
    intro _ s h
    rw [Prog.mapOp_bind]
    apply (cyclone4Loop_safe (fun _ hd => hd) h).bind
    exact fun _ s h => perform_safe (by simp) h
  · intro _ s hs
    apply Safe.perform _ under_stable (fun _ => hidle) hs
    intro s r s' hi hs _ ha
    cases ha
    refine ⟨⟨?_, hi.pending, hi.committed⟩, rely_of_update rfl rfl, Function.update_self ..⟩
    exact holds_update (holds_none s.regs) fun other _ => hi.written other

/-! ## Every run -/

theorem execute_inv (hi : Inv a2pMask s) (h : s.execute = some s') :
    Inv a2pMask s' ∧ ∀ queue, DispatcherRely queue s s' := by
  unfold World.execute at h
  cases hpending : s.pending with
  | nil =>
    rw [hpending] at h
    cases h
  | cons p pending =>
    rw [hpending] at h
    cases h
    refine ⟨⟨hi.written, fun q hq => ?_, hi.committed⟩, fun queue => ⟨rfl, List.Subset.refl _⟩⟩
    apply hi.pending
    rw [hpending]
    exact List.mem_cons_of_mem _ hq

theorem reach_inv {c : Config Op Op.Res World DirToDev}
    (h : (dispatcherThreads a2pMask).Reach (Harmless a2pMask) (dispatcherConfig regs) c) :
    Inv a2pMask c.state := by
  refine (h.safe (R := DispatcherRely) (Q := fun queue s => s.written queue = fun _ => none)
    ?_ ?_ ?_ ?_).1
  · exact ⟨fun queue => holds_none _, fun p hp => absurd hp List.not_mem_nil,
      fun d hd => absurd hd List.not_mem_nil⟩
  · exact fun queue => Safe.ret (fun _ _ _ _ hr hs => hr.1.trans hs) rfl
  · intro e s s' hi _ hs
    cases e with
    | execute => exact execute_inv hi hs
  · intro queue call s s' p hi hidle _ hs
    simp only [dispatcherThreads] at hs
    split at hs
    · cases hs
      refine ⟨⟨hi.written, hi.pending, fun d hd => ?_⟩, fun other _ => ⟨rfl, ?_⟩, ?_⟩
      · obtain ⟨call', hcall', hd'⟩ := hi.committed d hd
        exact ⟨call', List.mem_append_left _ hcall', hd'⟩
      · exact List.subset_append_left ..
      · exact programFragment_safe ⟨hidle, List.mem_append_right _ (List.mem_singleton_self _)⟩
    · cases hs

/-- In every run of the two queues and of the dispatcher whose writes do no harm. -/
theorem reach_undisturbed {c : Config Op Op.Res World DirToDev}
    (h : (dispatcherThreads a2pMask).Reach (Harmless a2pMask) (dispatcherConfig regs) c) :
    Undisturbed a2pMask c.state :=
  (reach_inv h).undisturbed

/-! ## Runs on one device -/

/-- A write request of one page, and a read request of another. -/
def writeCall : ProgramCall := ⟨.writeToDevice, 0x100, ⟨[⟨0x10000, 0x1000⟩], by simp⟩⟩

def readCall : ProgramCall := ⟨.readFromDevice, 0x4000, ⟨[⟨0x20000, 0x1000⟩], by simp⟩⟩

/-- The call up to the first word of its descriptor. -/
def beginSteps (queue : DirToDev) (call : ProgramCall) (d : ModularSgdmaDescriptor) :
    List DispatcherLabel :=
  [.start queue call,
    .call queue (.access call (.writeA2pAddrLo0 (call.sgList.a2pAddrLo0 megabyteMask.word))) (),
    .call queue (.access call (.writeA2pAddrHi0 call.sgList.a2pAddrHi0)) (),
    .call queue (.access call (.writeStatus 0)) (),
    .call queue (.access call (.writeReadAddress d.readAddress)) ()]

/-- The rest of the descriptor. -/
def goSteps (queue : DirToDev) (call : ProgramCall) (d : ModularSgdmaDescriptor) :
    List DispatcherLabel :=
  [.call queue (.access call (.writeWriteAddress d.writeAddress)) (),
    .call queue (.access call (.writeTransferLength d.transferLength)) (),
    .call queue (.access call (.writeControl d.control)) ()]

def writeDescriptor : ModularSgdmaDescriptor :=
  cyclone4Descriptor megabyteMask.word .writeToDevice 0x100 ⟨0x10000, 0x1000⟩

def readDescriptor : ModularSgdmaDescriptor :=
  cyclone4Descriptor megabyteMask.word .readFromDevice 0x4000 ⟨0x20000, 0x1000⟩

/-- Both queues have their descriptors committed, one behind the other, in one window. -/
theorem reach_undisturbed_both :
    ∃ c, (dispatcherThreads megabyteMask.word).Reach (Harmless megabyteMask.word)
        (dispatcherConfig resetRegs) c ∧
      c.state.regs.committed = [writeDescriptor, readDescriptor] ∧
      Undisturbed megabyteMask.word c.state := by
  have hrun : ∃ c, (dispatcherThreads megabyteMask.word).Reach (Harmless megabyteMask.word)
        (dispatcherConfig resetRegs) c ∧
      decide (c.state.regs.committed = [writeDescriptor, readDescriptor]) = true :=
    Reach.exists_of_run
      (beginSteps .h2c writeCall writeDescriptor ++ goSteps .h2c writeCall writeDescriptor ++
        beginSteps .c2h readCall readDescriptor ++ goSteps .c2h readCall readDescriptor)
      (fun s : World => decide (s.regs.committed = [writeDescriptor, readDescriptor])) (by decide)
  obtain ⟨c, hreach, hcommitted⟩ := hrun
  exact ⟨c, hreach, of_decide_eq_true hcommitted, reach_undisturbed hreach⟩

/-- The read request overwrites the read address of the write request before its GO write. -/
theorem reach_not_undisturbed :
    ¬ ∀ c, (dispatcherThreads megabyteMask.word).Reach (fun _ _ => True)
        (dispatcherConfig resetRegs) c → Undisturbed megabyteMask.word c.state := by
  intro hall
  have hrun : ∃ c, (dispatcherThreads megabyteMask.word).Reach (fun _ _ => True)
        (dispatcherConfig resetRegs) c ∧
      decide (¬ ∀ d ∈ c.state.regs.committed, ∃ call ∈ c.state.calls,
        d ∈ call.descriptors megabyteMask.word) = true :=
    Reach.exists_of_run
      (beginSteps .h2c writeCall writeDescriptor ++ beginSteps .c2h readCall readDescriptor ++
        goSteps .h2c writeCall writeDescriptor)
      (fun s : World => decide (¬ ∀ d ∈ s.regs.committed, ∃ call ∈ s.calls,
        d ∈ call.descriptors megabyteMask.word)) (by decide)
  obtain ⟨c, hreach, hforeign⟩ := hrun
  exact of_decide_eq_true hforeign (hall c hreach).committed

end Dispatcher

end Xadma
