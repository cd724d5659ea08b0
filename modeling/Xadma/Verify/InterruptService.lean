import Xadma.Theory.RelyGuarantee
import Xadma.Libxdma.Interrupt

/-!
# Recorded interrupts and the DPC

A bit that is recorded while the turn of its engine or user event is still to come is served in the
same DPC. One that is recorded later is cleared with the others at the end.
-/

namespace Xadma

open Threads

/-- The bits belong to enabled engines and registered user events whose turn is still to come. -/
structure IrqWorld.Served (s : IrqWorld) (channel user : BitVec 32) : Prop where
  channel : ∀ b, channel.getLsbD b = true → ∃ e ∈ engineSlots, s.next ≤ e.turn ∧
    (s.engine e).enabled = true ∧ (s.engine e).irqBitMask.getLsbD b = true
  user : ∀ i, user.getLsbD i = true → i < xdmaMaxUserIrq ∧ s.next ≤ userTurn i ∧
    s.userWork i = true

/-- There are 32 bits. -/
instance (s : IrqWorld) (channel user : BitVec 32) : Decidable (s.Served channel user) :=
  decidable_of_iff ((∀ b < 32, channel.getLsbD b = true → ∃ e ∈ engineSlots, s.next ≤ e.turn ∧
      (s.engine e).enabled = true ∧ (s.engine e).irqBitMask.getLsbD b = true) ∧
    ∀ i < 32, user.getLsbD i = true → i < xdmaMaxUserIrq ∧ s.next ≤ userTurn i ∧
      s.userWork i = true)
    ⟨fun h => ⟨fun b hb => h.1 b (BitVec.lt_of_getLsbD hb) hb,
      fun i hi => h.2 i (BitVec.lt_of_getLsbD hi) hi⟩,
    fun h => ⟨fun b _ hb => h.channel b hb, fun i _ hi => h.user i hi⟩⟩

/-- The ISR records only bits that will still be served. -/
def servedLater (s : IrqWorld) : Label IrqOp IrqOp.Res Unit IrqEvent Unit → Prop
  | .env (.isr channel user) =>
    s.Served (channel &&& s.channelIntEnable) (user &&& s.userIntEnable)
  | _ => True

instance (s : IrqWorld) (l : Label IrqOp IrqOp.Res Unit IrqEvent Unit) :
    Decidable (servedLater s l) :=
  match l with
  | .env (.isr _ _) => inferInstanceAs (Decidable (IrqWorld.Served ..))
  | .call .. | .start .. | .env (.setChannelIntEnable _) | .env (.setUserIntEnable _) =>
    inferInstanceAs (Decidable True)

structure IrqInv (s : IrqWorld) : Prop where
  served : s.Served s.channelOwed s.userOwed
  channelPending : ∀ b, s.channelOwed.getLsbD b = true → s.channelIrqPending.getLsbD b = true
  userPending : ∀ i, s.userOwed.getLsbD i = true → s.userIrqPending.getLsbD i = true
  kept : s.forgotten = false

/-- No interrupt moves the DPC. -/
def irqRely (_ : Unit) (s s' : IrqWorld) : Prop := s'.next = s.next

/-! ## Turns -/

section
variable {e e' : EngineSlot} {xs : List EngineSlot} {n i : Nat} {s s' : IrqWorld}

theorem turn_lt (he : e ∈ engineSlots) : e.turn < userTurn 0 := by
  revert e
  decide

theorem eq_of_turn_eq (he : e ∈ engineSlots) (he' : e' ∈ engineSlots) (h : e.turn = e'.turn) :
    e = e' := by
  have key : ∀ e ∈ engineSlots, ∀ e' ∈ engineSlots, e.turn = e'.turn → e = e' := by decide
  exact key e he e' he' h

theorem turn_of_drop (h : e :: xs = engineSlots.drop n) :
    e ∈ engineSlots ∧ e.turn = n ∧ xs = engineSlots.drop (n + 1) := by
  have hget : engineSlots[n]? = some e := by
    rw [← List.head?_drop, ← h]
    rfl
  have hturn : ∀ (n : Nat) (e : EngineSlot), engineSlots[n]? = some e → e.turn = n := by
    intro n e hn
    have hlt : n < 8 := (List.getElem?_eq_some_iff.mp hn).1
    have key : ∀ n < 8, engineSlots[n]?.map EngineSlot.turn = some n := by decide
    have := key n hlt
    rw [hn] at this
    exact Option.some.inj this
  refine ⟨List.mem_of_getElem? hget, hturn n e hget, ?_⟩
  rw [← List.tail_drop, ← h]
  rfl

/-! ## What a step does to the bits that are owed -/

theorem IrqWorld.Served.mono {channel user channel' user' : BitVec 32}
    (h : s.Served channel user) (hengine : s'.engine = s.engine) (hwork : s'.userWork = s.userWork)
    (hnext : s'.next ≤ s.next) (hc : ∀ b, channel'.getLsbD b = true → channel.getLsbD b = true)
    (hu : ∀ i, user'.getLsbD i = true → user.getLsbD i = true) : s'.Served channel' user' := by
  constructor
  · intro b hb
    obtain ⟨e, he, hle, henabled, hmask⟩ := h.channel b (hc b hb)
    exact ⟨e, he, hnext.trans hle, hengine ▸ henabled, hengine ▸ hmask⟩
  · intro i hi
    obtain ⟨hlt, hle, hset⟩ := h.user i (hu i hi)
    exact ⟨hlt, hnext.trans hle, hwork ▸ hset⟩

/-- The turn of an engine passes that has none of the bits. -/
theorem IrqWorld.Served.pass_engine {channel user : BitVec 32} (h : s.Served channel user)
    (he : e ∈ engineSlots) (hturn : s.next = e.turn)
    (hno : ∀ b, channel.getLsbD b = true → (s.engine e).enabled = true →
      (s.engine e).irqBitMask.getLsbD b = true → False)
    (hengine : s'.engine = s.engine) (hwork : s'.userWork = s.userWork)
    (hnext : s'.next = s.next + 1) : s'.Served channel user := by
  constructor
  · intro b hb
    obtain ⟨e', he', hle, henabled, hmask⟩ := h.channel b hb
    refine ⟨e', he', ?_, hengine ▸ henabled, hengine ▸ hmask⟩
    have hne : e'.turn ≠ e.turn := by
      intro heq
      cases eq_of_turn_eq he' he heq
      exact hno b hb henabled hmask
    omega
  · intro i hi
    obtain ⟨hlt, hle, hset⟩ := h.user i hi
    have := turn_lt he
    unfold userTurn at this hle ⊢
    exact ⟨hlt, by omega, hwork ▸ hset⟩

/-- The turn of a user event passes that is not among the bits. -/
theorem IrqWorld.Served.pass_user {channel user : BitVec 32} (h : s.Served channel user)
    (hturn : s.next = userTurn i)
    (hno : user.getLsbD i = true → s.userWork i = true → False) (hwork : s'.userWork = s.userWork)
    (hnext : s'.next = s.next + 1) : s'.Served channel user := by
  constructor
  · intro b hb
    obtain ⟨e', he', hle, -⟩ := h.channel b hb
    have := turn_lt he'
    unfold userTurn at this hturn
    omega
  · intro j hj
    obtain ⟨hlt, hle, hset⟩ := h.user j hj
    have hne : j ≠ i := by
      rintro rfl
      exact hno hj hset
    unfold userTurn at hturn hle ⊢
    exact ⟨hlt, by omega, hwork ▸ hset⟩

/-- Behind the last turn nothing is owed. -/
theorem IrqInv.owed_eq_zero (h : IrqInv s) (hnext : userTurn xdmaMaxUserIrq ≤ s.next) :
    s.channelOwed = 0 ∧ s.userOwed = 0 := by
  constructor
  · apply BitVec.eq_of_getLsbD_eq
    intro b _
    by_contra hb
    obtain ⟨e, he, hle, -⟩ := h.served.channel b (by simpa using hb)
    have := turn_lt he
    unfold userTurn at this hnext
    omega
  · apply BitVec.eq_of_getLsbD_eq
    intro i _
    by_contra hi
    obtain ⟨hlt, hle, -⟩ := h.served.user i (by simpa using hi)
    unfold userTurn at hle hnext
    omega

/-! ## The steps of the DPC -/

/-- A turn passes on the answer no, which must leave nothing behind. -/
theorem IrqInv.test {value answer : Bool} (hi : IrqInv s)
    (hno : value = false →
      IrqWorld.Served { s with next := s.next + 1 } s.channelOwed s.userOwed)
    (h : s.test value answer = some s') :
    IrqInv s' ∧ s'.next = if answer then s.next else s.next + 1 := by
  unfold IrqWorld.test at h
  split at h
  · next heq =>
    subst heq
    cases answer with
    | true =>
      cases h
      exact ⟨hi, rfl⟩
    | false =>
      cases h
      exact ⟨⟨hno rfl, hi.channelPending, hi.userPending, hi.kept⟩, rfl⟩
  · cases h

theorem IrqInv.frame (hi : IrqInv s) (hengine : s'.engine = s.engine)
    (hwork : s'.userWork = s.userWork) (hnext : s'.next = s.next)
    (hc : s'.channelOwed = s.channelOwed) (hu : s'.userOwed = s.userOwed)
    (hcp : s'.channelIrqPending = s.channelIrqPending)
    (hup : s'.userIrqPending = s.userIrqPending) (hf : s'.forgotten = s.forgotten) :
    IrqInv s' := by
  refine ⟨?_, ?_, ?_, hf ▸ hi.kept⟩
  · rw [hc, hu]
    exact hi.served.mono hengine hwork hnext.le (fun _ h => h) fun _ h => h
  · rw [hc, hcp]
    exact hi.channelPending
  · rw [hu, hup]
    exact hi.userPending

theorem getLsbD_and_not {x m : BitVec 32} {b : Nat} :
    (x &&& ~~~ m).getLsbD b = true ↔ x.getLsbD b = true ∧ m.getLsbD b = false := by
  rw [BitVec.getLsbD_and, BitVec.getLsbD_not, Bool.and_eq_true, Bool.and_eq_true]
  constructor
  · rintro ⟨hx, -, hm⟩
    exact ⟨hx, by simpa using hm⟩
  · rintro ⟨hx, hm⟩
    refine ⟨hx, ?_, by simp [hm]⟩
    by_contra hb
    rw [BitVec.getLsbD_of_ge x b (by simpa using hb)] at hx
    cases hx

theorem getLsbD_of_and_eq_zero {x m : BitVec 32} {b : Nat} (h : x &&& m = 0#32)
    (hx : x.getLsbD b = true) : m.getLsbD b = false := by
  have := congrArg (fun y => y.getLsbD b) h
  simpa [hx] using this

theorem bitN_getLsbD (hi : i < 32) : (bitN i).getLsbD i = true := by
  simp [bitN, hi]

theorem act_engineEnabled (he : e ∈ engineSlots) (hi : IrqInv s) (hn : s.next = e.turn)
    {answer : Bool} (h : IrqWorld.act (.engineEnabled e) s answer = some s') :
    IrqInv s' ∧ s'.next = if answer then e.turn else e.turn + 1 := by
  rw [← hn]
  refine hi.test (fun hvalue => ?_) h
  exact hi.served.pass_engine he hn (fun b _ henabled _ => by simp [hvalue] at henabled)
    rfl rfl rfl

theorem act_channelIrqPending (he : e ∈ engineSlots) (hi : IrqInv s) (hn : s.next = e.turn)
    {answer : Bool} (h : IrqWorld.act (.channelIrqPending e) s answer = some s') :
    IrqInv s' ∧ s'.next = if answer then e.turn else e.turn + 1 := by
  rw [← hn]
  refine hi.test (fun hvalue => ?_) h
  refine hi.served.pass_engine he hn (fun b hb _ hmask => ?_) rfl rfl rfl
  have hclear := getLsbD_of_and_eq_zero (by simpa using hvalue) (hi.channelPending b hb)
  simp [hmask] at hclear

theorem act_engineWork (he : e ∈ engineSlots) (hi : IrqInv s) (hn : s.next = e.turn)
    (h : IrqWorld.act (.engineWork e) s () = some s') : IrqInv s' ∧ s'.next = e.turn + 1 := by
  cases h
  refine ⟨⟨?_, fun b hb => ?_, hi.userPending, hi.kept⟩, by rw [← hn]⟩
  · refine IrqWorld.Served.pass_engine (s := s) ?_ he hn (fun b hb _ hmask => ?_) rfl rfl rfl
    · exact hi.served.mono rfl rfl le_rfl (fun b hb => (getLsbD_and_not.mp hb).1) fun _ h => h
    · simp [(getLsbD_and_not.mp hb).2] at hmask
  · exact hi.channelPending b (getLsbD_and_not.mp hb).1

theorem act_userIrqPending (hlt : i < xdmaMaxUserIrq) (hi : IrqInv s) (hn : s.next = userTurn i)
    {answer : Bool} (h : IrqWorld.act (.userIrqPending i) s answer = some s') :
    IrqInv s' ∧ s'.next = if answer then userTurn i else userTurn i + 1 := by
  rw [← hn]
  refine hi.test (fun hvalue => ?_) h
  refine hi.served.pass_user hn (fun hb _ => ?_) rfl rfl
  have hbit := getLsbD_of_and_eq_zero (by simpa using hvalue) (hi.userPending i hb)
  rw [bitN_getLsbD (hlt.trans (by decide))] at hbit
  cases hbit

theorem act_userWorkSet (hi : IrqInv s) (hn : s.next = userTurn i)
    {answer : Bool} (h : IrqWorld.act (.userWorkSet i) s answer = some s') :
    IrqInv s' ∧ s'.next = if answer then userTurn i else userTurn i + 1 := by
  rw [← hn]
  refine hi.test (fun hvalue => ?_) h
  exact hi.served.pass_user hn (fun _ hset => by simp [hvalue] at hset) rfl rfl

theorem act_userWork (hlt : i < xdmaMaxUserIrq) (hi : IrqInv s) (hn : s.next = userTurn i)
    (h : IrqWorld.act (.userWork i) s () = some s') : IrqInv s' ∧ s'.next = userTurn i + 1 := by
  cases h
  refine ⟨⟨?_, hi.channelPending, fun j hj => ?_, hi.kept⟩, by rw [← hn]⟩
  · refine IrqWorld.Served.pass_user (s := s) (i := i) ?_ hn (fun hb _ => ?_) rfl rfl
    · exact hi.served.mono rfl rfl le_rfl (fun _ h => h) fun j hj => (getLsbD_and_not.mp hj).1
    · have hbit := (getLsbD_and_not.mp hb).2
      rw [bitN_getLsbD (hlt.trans (by decide))] at hbit
      cases hbit
  · exact hi.userPending j (getLsbD_and_not.mp hj).1

/-- The calls under the lock that leave the record alone. -/
theorem act_locked {o : IrqOp} (ho : o = .acquireLock ∨ o = .enableChannelInts ∨
    o = .enableUserInts) {r : o.Res} (hi : IrqInv s) (h : IrqWorld.act o s r = some s') :
    IrqInv s' ∧ s'.next = s.next := by
  rcases ho with rfl | rfl | rfl
  all_goals
    cases h
    exact ⟨hi.frame rfl rfl rfl rfl rfl rfl rfl rfl, rfl⟩

theorem act_clearChannelIrqPending (hi : IrqInv s) (hn : userTurn xdmaMaxUserIrq ≤ s.next)
    (h : IrqWorld.act .clearChannelIrqPending s () = some s') : IrqInv s' ∧ s'.next = s.next := by
  cases h
  have hzero := (hi.owed_eq_zero hn).1
  refine ⟨⟨?_, by simp, hi.userPending, by simp [hi.kept, hzero]⟩, rfl⟩
  exact hi.served.mono rfl rfl le_rfl (by simp) fun _ h => h

theorem act_clearUserIrqPending (hi : IrqInv s) (hn : userTurn xdmaMaxUserIrq ≤ s.next)
    (h : IrqWorld.act .clearUserIrqPending s () = some s') : IrqInv s' ∧ s'.next = s.next := by
  cases h
  have hzero := (hi.owed_eq_zero hn).2
  refine ⟨⟨?_, hi.channelPending, by simp, by simp [hi.kept, hzero]⟩, rfl⟩
  exact hi.served.mono rfl rfl le_rfl (fun _ h => h) (by simp)

theorem act_releaseLock (hi : IrqInv s) (h : IrqWorld.act .releaseLock s () = some s') :
    IrqInv s' ∧ s'.next = 0 := by
  cases h
  refine ⟨⟨?_, hi.channelPending, hi.userPending, hi.kept⟩, rfl⟩
  exact hi.served.mono rfl rfl (Nat.zero_le _) (fun _ h => h) fun _ h => h

end

/-! ## The DPC -/

/-- The DPC thread, with `p` left to do. -/
abbrev DpcSafe {α : Type} (p : IrqProg α) (Q : α → IrqWorld → Prop) (s : IrqWorld) : Prop :=
  Safe irqThreads servedLater IrqInv irqRely () p Q s

theorem stable_next (P : Nat → Prop) : Stable IrqInv irqRely () fun s => P s.next := by
  intro s s' _ _ hr hp
  rwa [hr]

/-- One call, when the turn is `n` before it and `after r` behind the answer `r`. -/
theorem dpcSafe_perform {o : IrqOp} {n : Nat} (after : o.Res → Nat) {s : IrqWorld}
    (hs : s.next = n)
    (hstep : ∀ s r s', IrqInv s → s.next = n → IrqWorld.act o s r = some s' →
      IrqInv s' ∧ s'.next = after r) :
    DpcSafe o.perform (fun r s => s.next = after r) s := by
  refine Safe.perform _ (stable_next (· = n)) (fun r => stable_next (· = after r)) hs ?_
  intro s r s' hi hn _ ha
  obtain ⟨hi', hn'⟩ := hstep s r s' hi hn ha
  exact ⟨hi', fun u hu => absurd rfl hu, hn'⟩

theorem dpcSafe_done {n : Nat} {s : IrqWorld} (hs : s.next = n) :
    DpcSafe (.ret ()) (fun _ s => s.next = n) s :=
  Safe.ret (stable_next (· = n)) hs

theorem serviceEngine_safe {e : EngineSlot} {s : IrqWorld} (he : e ∈ engineSlots)
    (hs : s.next = e.turn) : DpcSafe (serviceEngine e) (fun _ s => s.next = e.turn + 1) s := by
  refine (dpcSafe_perform (o := .engineEnabled e) _ hs fun s r s' hi hn =>
    act_engineEnabled he hi hn).bind fun enabled s hs => ?_
  cases enabled with
  | false => exact dpcSafe_done hs
  | true =>
    refine (dpcSafe_perform (o := .channelIrqPending e) _ hs fun s r s' hi hn =>
      act_channelIrqPending he hi hn).bind fun pending s hs => ?_
    cases pending with
    | false => exact dpcSafe_done hs
    | true =>
      exact dpcSafe_perform (o := .engineWork e) (fun _ => e.turn + 1) hs fun s r s' hi hn =>
        act_engineWork he hi hn

theorem serviceUserEvent_safe {i : Nat} {s : IrqWorld} (hlt : i < xdmaMaxUserIrq)
    (hs : s.next = userTurn i) :
    DpcSafe (serviceUserEvent i) (fun _ s => s.next = userTurn i + 1) s := by
  refine (dpcSafe_perform (o := .userIrqPending i) _ hs fun s r s' hi hn =>
    act_userIrqPending hlt hi hn).bind fun pending s hs => ?_
  cases pending with
  | false => exact dpcSafe_done hs
  | true =>
    refine (dpcSafe_perform (o := .userWorkSet i) _ hs fun s r s' hi hn =>
      act_userWorkSet hi hn).bind fun registered s hs => ?_
    cases registered with
    | false => exact dpcSafe_done hs
    | true =>
      exact dpcSafe_perform (o := .userWork i) (fun _ => userTurn i + 1) hs fun s r s' hi hn =>
        act_userWork hlt hi hn

/-- The loop over the engines. -/
theorem serviceEngines_safe {s : IrqWorld} (hs : s.next = 0) :
    DpcSafe (Prog.forEach engineSlots serviceEngine) (fun _ s => s.next = userTurn 0) s := by
  have hloop : DpcSafe (Prog.forEach engineSlots serviceEngine)
      (fun _ s' => [] = engineSlots.drop s'.next ∧ s'.next ≤ userTurn 0) s := by
    refine Safe.forEach
      (fun xs (s : IrqWorld) => xs = engineSlots.drop s.next ∧ s.next ≤ userTurn 0)
      (stable_next fun n => [] = engineSlots.drop n ∧ n ≤ userTurn 0) (by simp [hs]) ?_
    rintro e xs s ⟨hdrop, -⟩
    obtain ⟨he, hturn, hxs⟩ := turn_of_drop hdrop
    refine (serviceEngine_safe he hturn.symm).mono fun _ s' hs' => ?_
    rw [hs', hturn]
    exact ⟨hxs, hturn ▸ turn_lt he⟩
  refine hloop.mono fun _ s ⟨hdrop, hle⟩ => ?_
  have hslots : engineSlots.length = userTurn 0 := by decide
  exact Nat.le_antisymm hle (hslots ▸ List.drop_eq_nil_iff.mp hdrop.symm)

/-- The loop over the user events. -/
theorem serviceUserEvents_safe {s : IrqWorld} (hs : s.next = userTurn 0) :
    DpcSafe (Prog.forEach (List.range xdmaMaxUserIrq) serviceUserEvent)
      (fun _ s => s.next = userTurn xdmaMaxUserIrq) s := by
  have hloop : DpcSafe (Prog.forEach (List.range xdmaMaxUserIrq) serviceUserEvent)
      (fun _ s => ∃ k, s.next = userTurn k ∧ k ≤ xdmaMaxUserIrq ∧
        [] = (List.range xdmaMaxUserIrq).drop k) s := by
    refine Safe.forEach (fun xs (s : IrqWorld) => ∃ k, s.next = userTurn k ∧ k ≤ xdmaMaxUserIrq ∧
        xs = (List.range xdmaMaxUserIrq).drop k)
      (stable_next fun n => ∃ k, n = userTurn k ∧ k ≤ xdmaMaxUserIrq ∧
        [] = (List.range xdmaMaxUserIrq).drop k)
      ⟨0, hs, Nat.zero_le _, rfl⟩ ?_
    rintro i xs s ⟨k, hk, -, hdrop⟩
    have hlt : k < xdmaMaxUserIrq := by
      by_contra hge
      rw [List.drop_of_length_le (by simpa using hge)] at hdrop
      cases hdrop
    rw [List.drop_eq_getElem_cons (by simpa using hlt), List.getElem_range] at hdrop
    obtain ⟨rfl, rfl⟩ := List.cons.inj hdrop
    exact (serviceUserEvent_safe hlt hk).mono fun _ s' hs' => ⟨i + 1, hs', hlt, rfl⟩
  refine hloop.mono fun _ s ⟨k, hk, hle, hnil⟩ => ?_
  have : xdmaMaxUserIrq ≤ k := by simpa using List.drop_eq_nil_iff.mp hnil.symm
  rw [hk, Nat.le_antisymm hle this]

/-- Under the lock the turn stays behind the last one. -/
theorem dpcSafe_locked {o : IrqOp} {s : IrqWorld} (hs : s.next = userTurn xdmaMaxUserIrq)
    (hstep : ∀ s r s', IrqInv s → userTurn xdmaMaxUserIrq ≤ s.next →
      IrqWorld.act o s r = some s' → IrqInv s' ∧ s'.next = s.next) :
    DpcSafe o.perform (fun _ s => s.next = userTurn xdmaMaxUserIrq) s := by
  refine dpcSafe_perform (fun _ => userTurn xdmaMaxUserIrq) hs fun s r s' hi hn ha => ?_
  obtain ⟨hi', hn'⟩ := hstep s r s' hi hn.ge ha
  exact ⟨hi', hn'.trans hn⟩

/-- The routine keeps the invariant and ends as it began, before the first turn. -/
theorem evtInterruptDpc_safe {s : IrqWorld} (hs : s.next = 0) :
    DpcSafe evtInterruptDpc (fun _ s => s.next = 0) s := by
  refine (serviceEngines_safe hs).bind fun _ s hs => ?_
  refine (serviceUserEvents_safe hs).bind fun _ s hs => ?_
  refine (dpcSafe_locked (o := .acquireLock) hs fun _ _ _ hi _ =>
    act_locked (.inl rfl) hi).bind fun _ s hs => ?_
  refine (dpcSafe_locked (o := .enableChannelInts) hs fun _ _ _ hi _ =>
    act_locked (.inr (.inl rfl)) hi).bind fun _ s hs => ?_
  refine (dpcSafe_locked (o := .clearChannelIrqPending) hs fun _ _ _ hi hn =>
    act_clearChannelIrqPending hi hn).bind fun _ s hs => ?_
  refine (dpcSafe_locked (o := .enableUserInts) hs fun _ _ _ hi _ =>
    act_locked (.inr (.inr rfl)) hi).bind fun _ s hs => ?_
  refine (dpcSafe_locked (o := .clearUserIrqPending) hs fun _ _ _ hi hn =>
    act_clearUserIrqPending hi hn).bind fun _ s hs => ?_
  exact dpcSafe_perform (o := .releaseLock) (fun _ => 0) hs fun _ _ _ hi _ =>
    act_releaseLock hi

/-! ## The environment -/

/-- An interrupt whose bits are all served later leaves the invariant as it is. -/
theorem evtInterruptIsr_inv {s s' : IrqWorld} {channel user : BitVec 32} (hi : IrqInv s)
    (hserved : s.Served (channel &&& s.channelIntEnable) (user &&& s.userIntEnable))
    (h : s.evtInterruptIsr channel user = some s') : IrqInv s' ∧ s'.next = s.next := by
  unfold IrqWorld.evtInterruptIsr at h
  split at h
  · cases h
  · cases h
    refine ⟨⟨⟨fun b hb => ?_, fun i hu => ?_⟩, fun b hb => ?_, fun i hu => ?_, hi.kept⟩, rfl⟩
    · rcases Bool.or_eq_true_iff.mp ((BitVec.getLsbD_or ..).symm.trans hb) with hb | hb
      · exact hi.served.channel b hb
      · exact hserved.channel b hb
    · rcases Bool.or_eq_true_iff.mp ((BitVec.getLsbD_or ..).symm.trans hu) with hu | hu
      · exact hi.served.user i hu
      · exact hserved.user i hu
    · rw [BitVec.getLsbD_or, Bool.or_eq_true] at hb ⊢
      exact hb.imp_left (hi.channelPending b)
    · rw [BitVec.getLsbD_or, Bool.or_eq_true] at hu ⊢
      exact hu.imp_left (hi.userPending i)

theorem irqEnv_inv {s s' : IrqWorld} {e : IrqEvent} (hi : IrqInv s)
    (hok : servedLater s (.env e)) (h : IrqWorld.env e s = some s') :
    IrqInv s' ∧ s'.next = s.next := by
  cases e with
  | isr channel user => exact evtInterruptIsr_inv hi hok h
  | setChannelIntEnable value =>
    cases h
    exact ⟨hi.frame rfl rfl rfl rfl rfl rfl rfl rfl, rfl⟩
  | setUserIntEnable value =>
    cases h
    exact ⟨hi.frame rfl rfl rfl rfl rfl rfl rfl rfl, rfl⟩

/-! ## Every run -/

section
variable (engine : EngineSlot → EngineIrq) (userWork : Nat → Bool)
  (channelIntEnable userIntEnable : BitVec 32)

def irqConfig : Config IrqOp IrqOp.Res IrqWorld Unit :=
  ⟨.init engine userWork channelIntEnable userIntEnable, fun _ => .ret ()⟩

theorem irqInv_init : IrqInv (.init engine userWork channelIntEnable userIntEnable) := by
  refine ⟨⟨fun b hb => ?_, fun i hi => ?_⟩, fun b hb => ?_, fun i hi => ?_, rfl⟩
  · simp [IrqWorld.init] at hb
  · simp [IrqWorld.init] at hi
  · simp [IrqWorld.init] at hb
  · simp [IrqWorld.init] at hi

/-- As long as the ISR records only bits whose turn is still to come, no bit is cleared before its
engine or event was served. -/
theorem evtInterruptDpc_forgets_nothing (c : Config IrqOp IrqOp.Res IrqWorld Unit)
    (h : irqThreads.Reach servedLater
      (irqConfig engine userWork channelIntEnable userIntEnable) c) :
    c.state.forgotten = false := by
  refine (Reach.safe (I := IrqInv) (R := irqRely) (Q := fun _ s => s.next = 0)
    (irqInv_init engine userWork channelIntEnable userIntEnable) ?_ ?_ ?_ h).1.kept
  · exact fun _ => Safe.ret (stable_next (· = 0)) rfl
  · intro e s s' hi hok he
    obtain ⟨hi', hn⟩ := irqEnv_inv hi hok he
    exact ⟨hi', fun _ => hn⟩
  · intro t a s s' p hi hq _ hstart
    simp only [irqThreads] at hstart
    split at hstart
    · cases hstart
    · cases hstart
      exact ⟨hi.frame rfl rfl rfl rfl rfl rfl rfl rfl, fun u hu => absurd rfl hu,
        evtInterruptDpc_safe hq⟩

end

/-- Two engines, the first of H2C and the first of C2H, and all user events registered. -/
def irqConfigTwo : Config IrqOp IrqOp.Res IrqWorld Unit :=
  irqConfig (fun e => if e = ⟨.h2c, 0⟩ then ⟨true, 1⟩ else if e = ⟨.c2h, 0⟩ then ⟨true, 2⟩
    else ⟨false, 0⟩) (fun _ => true) 3 0

/-- The C2H engine fires, its DPC begins and passes the turn of the H2C engine. -/
def dpcBegins : List (Label IrqOp IrqOp.Res Unit IrqEvent Unit) :=
  [.env (.isr 2 0), .start () (),
    .call () (.engineEnabled ⟨.h2c, 0⟩) true, .call () (.channelIrqPending ⟨.h2c, 0⟩) false]

/-- It goes on until everything is cleared, under the lock. -/
def dpcGoesOn : List (Label IrqOp IrqOp.Res Unit IrqEvent Unit) :=
  [1, 2, 3].map (fun channel => .call () (.engineEnabled ⟨.h2c, channel⟩) false) ++
  [.call () (.engineEnabled ⟨.c2h, 0⟩) true, .call () (.channelIrqPending ⟨.c2h, 0⟩) true,
    .call () (.engineWork ⟨.c2h, 0⟩) ()] ++
  [1, 2, 3].map (fun channel => .call () (.engineEnabled ⟨.c2h, channel⟩) false) ++
  (List.range xdmaMaxUserIrq).map (fun i => .call () (.userIrqPending i) false) ++
  [.call () .acquireLock (), .call () .enableChannelInts (),
    .call () .clearChannelIrqPending (), .call () .enableUserInts (),
    .call () .clearUserIrqPending ()]

/-- The engine has been served when its bit is cleared. -/
theorem evtInterruptDpc_forgets_nothing_begun :
    ∃ c, irqThreads.Reach servedLater irqConfigTwo c ∧
      (c.state.lockHeld, c.state.channelIrqPending) = (true, 0) ∧
      c.state.forgotten = false := by
  have hrun : ∃ c, irqThreads.Reach servedLater irqConfigTwo c ∧
      ((c.state.lockHeld, c.state.channelIrqPending) == (true, 0)) = true :=
    Reach.exists_of_run (dpcBegins ++ dpcGoesOn)
      (fun s : IrqWorld => (s.lockHeld, s.channelIrqPending) == (true, 0))
      (by decide)
  obtain ⟨c, hc, h⟩ := hrun
  exact ⟨c, hc, eq_of_beq h, evtInterruptDpc_forgets_nothing _ _ _ _ _ hc⟩

/-- The H2C engine fires behind its turn, and its bit is cleared before the engine is served. -/
theorem evtInterruptDpc_forgets :
    ∃ c, irqThreads.Reach (fun _ _ => True) irqConfigTwo c ∧ c.state.forgotten = true :=
  Reach.exists_of_run (dpcBegins ++ [.env (.isr 1 0)] ++ dpcGoesOn) IrqWorld.forgotten (by decide)

end Xadma
