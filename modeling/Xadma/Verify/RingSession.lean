import Xadma.Sys.RingSession
import Xadma.Verify.RingRuns

/-!
# Sessions on the ring

With one handle at a time and no read between its snapshot of the ring and its last store, each
session begins with an empty ring: the credits that are out, and the blocks that are not returned,
fill one turn of the ring at most.
-/

namespace Xadma

open Threads

abbrev SessionLabel := Label RingOp RingOp.Res RingThread SessionEvent RingCall

/-- The credits and the completed blocks that are not returned stay within the ring, no handle saw
what another one did, and no read stored what it had computed before a cleanup. -/
structure RingSession.Isolated (s : RingSession) : Prop where
  bounded : s.ring.descCredits + (s.ring.completed - s.ring.released) ≤ xdmaRingNumBlocks - 1
  undisturbed : s.disturbed = false
  fresh : s.storedStale = false

/-- A handle is opened when no other one is open, and none is cleaned up while a read is between
reading the indices and storing the head. -/
def RingSession.opensAlone (s : RingSession) : SessionLabel → Bool
  | .env (.create _) => s.handles == []
  | .env (.cleanup _) => !s.ring.copying
  | _ => true

def sessionCopySucceeds : SessionLabel → Bool
  | .call _ (.copyFromBuffer ..) r => ntSuccess r
  | _ => true

def sessionOk (s : RingSession) (l : SessionLabel) : Prop :=
  sessionCopySucceeds l = true ∧ s.opensAlone l = true

instance (s : RingSession) (l : SessionLabel) : Decidable (sessionOk s l) :=
  inferInstanceAs (Decidable (_ ∧ _))

/-- The counters of the hardware and the reader, in every session. -/
structure SessionRing (s : RingWorld) : Prop where
  head_eq : s.head = s.released % xdmaRingNumBlocks
  released_le : s.released ≤ s.copied
  copied_le : s.copied ≤ s.completed
  completed_le : s.completed ≤ s.started
  credits : s.descCredits + s.started =
    s.released + if s.running then xdmaRingNumBlocks - 1 else 0
  length : Window xdmaRingNumBlocks s.length s.copied s.completed
  stopped : s.running = false → s.started = 0 ∧ s.descCredits = 0
  copy_done : s.copying = false → s.copied = s.released

structure SessionInv (s : RingSession) : Prop where
  ring : SessionRing s.ring
  running : s.ring.running = true ↔ s.handles ≠ []
  alone : s.handles.length ≤ 1
  undisturbed : s.disturbed = false
  fresh : s.storedStale = false

/-- What the reader relies on: while it copies, the session goes on and its counters are its own. -/
structure SessionRely (t : RingThread) (s s' : RingSession) : Prop where
  copying : t = .reader → s'.ring.copying = s.ring.copying
  counters : t = .reader → s.ring.copying = true →
    s'.ring.copied = s.ring.copied ∧ s'.ring.released = s.ring.released ∧
      s.ring.completed ≤ s'.ring.completed ∧ s'.session = s.session ∧
      s'.readSession = s.readSession

variable {s s' : RingSession} {t u : RingThread}

theorem SessionRing.completed_lt {s : RingWorld} (hi : SessionRing s) :
    s.completed < s.copied + xdmaRingNumBlocks := by
  have hcredits := hi.credits
  have := hi.completed_le
  have := hi.released_le
  have := ringNumBlocks_pos
  split at hcredits <;> omega

theorem SessionInv.isolated (hi : SessionInv s) : s.Isolated := by
  refine ⟨?_, hi.undisturbed, hi.fresh⟩
  have hcredits := hi.ring.credits
  have := hi.ring.completed_le
  have := hi.ring.copied_le
  have := hi.ring.released_le
  split at hcredits <;> omega

/-! ## The hardware -/

theorem SessionRing.env {e : RingEvent} {s s' : RingWorld} (hi : SessionRing s)
    (hrunning : s.running = true) (h : RingWorld.env e s = some s') :
    SessionRing s' ∧ s'.running = s.running ∧ s'.copying = s.copying ∧ s'.copied = s.copied ∧
      s'.released = s.released ∧ s.completed ≤ s'.completed := by
  cases e with
  | start =>
    simp only [RingWorld.env] at h
    split at h
    · next hgo =>
      have hcredits := hi.credits
      cases h
      refine ⟨{ hi with
        completed_le := hi.completed_le.trans (Nat.le_succ _)
        credits := ?_
        stopped := fun h => ?_ }, rfl, rfl, rfl, rfl, le_rfl⟩
      · simp only
        omega
      · simp [hrunning] at h
    · cases h
  | complete status bytes =>
    simp only [RingWorld.env] at h
    split at h
    · next hgo =>
      obtain ⟨hlt, -, hpos, hsize⟩ := hgo
      cases h
      exact ⟨{ hi with
        copied_le := hi.copied_le.trans (Nat.le_succ _)
        completed_le := hlt
        length := hi.length.push hi.copied_le hi.completed_lt
          (blockLength_ne_zero hpos hsize) }, rfl, rfl, rfl, rfl, Nat.le_succ _⟩
    · cases h
  | writeback value =>
    cases h
    exact ⟨{ hi with }, rfl, rfl, rfl, rfl, le_rfl⟩

theorem SessionRely.of_copying (hcopying : s'.ring.copying = s.ring.copying)
    (hcopied : s'.ring.copied = s.ring.copied) (hreleased : s'.ring.released = s.ring.released)
    (hcompleted : s.ring.completed ≤ s'.ring.completed) (hsession : s'.session = s.session)
    (hread : s'.readSession = s.readSession) : SessionRely u s s' :=
  ⟨fun _ => hcopying, fun _ _ => ⟨hcopied, hreleased, hcompleted, hsession, hread⟩⟩

/-! ## Handles -/

/-- In a ring that is stopped every block is returned. -/
theorem SessionRing.at_rest {s : RingWorld} (hi : SessionRing s) (h : s.running = false) :
    s.released = 0 ∧ s.copied = 0 ∧ s.completed = 0 := by
  have := hi.completed_le
  have := hi.copied_le
  have := hi.released_le
  have := (hi.stopped h).1
  omega

theorem SessionInv.create {handle : Nat} (hi : SessionInv s) (hnone : s.handles = []) :
    SessionInv (s.evtDeviceFileCreate handle) := by
  have hstopped : s.ring.running = false := by
    by_contra hrunning
    exact hi.running.mp (by simpa using hrunning) hnone
  have hring := hi.ring
  obtain ⟨hreleased, hcopied, hcompleted⟩ := hring.at_rest hstopped
  obtain ⟨hstarted, hcredits⟩ := hring.stopped hstopped
  refine ⟨{ hring with
    head_eq := ?_
    credits := ?_
    stopped := fun h => by cases h }, ?_, ?_, ?_, hi.fresh⟩
  · change 0 = s.ring.released % xdmaRingNumBlocks
    rw [hreleased]
    rfl
  · simp [RingSession.evtDeviceFileCreate, engineRingSetup, hstarted, hcredits, hreleased]
  · simp [RingSession.evtDeviceFileCreate, engineRingSetup]
  · simp [RingSession.evtDeviceFileCreate, hnone]
  · simp [RingSession.evtDeviceFileCreate, RingSession.disturbs, hnone, hi.undisturbed]

theorem SessionInv.cleanup {handle : Nat} (hi : SessionInv s) (hopen : handle ∈ s.handles) :
    SessionInv (s.evtFileCleanup handle) := by
  have hring := hi.ring
  have hrunning : s.ring.running = true := hi.running.mpr (List.ne_nil_of_mem hopen)
  have hlast : s.handles.erase handle = [] := by
    apply List.length_eq_zero_iff.mp
    have := hi.alone
    rw [List.length_erase_of_mem hopen]
    omega
  refine ⟨⟨rfl, le_rfl, le_rfl, le_rfl, ?_, ⟨fun i _ hlt => absurd hlt (Nat.not_lt_zero i), ?_⟩,
    fun _ => ⟨rfl, ?_⟩, fun _ => rfl⟩, ?_, ?_, ?_, hi.fresh⟩
  · simp [RingSession.evtFileCleanup, engineRingTeardown, hrunning]
  · intro k hk
    simp only [RingSession.evtFileCleanup, engineRingTeardown] at hk
    split at hk
    · exact absurd rfl hk
    · next hge =>
      obtain ⟨i, -, -, rfl⟩ := hring.length.unused k hk
      exact absurd (Nat.mod_lt i ringNumBlocks_pos) hge
  · simp [RingSession.evtFileCleanup, engineRingTeardown, hrunning]
  · simp [RingSession.evtFileCleanup, engineRingTeardown, hlast]
  · simp [RingSession.evtFileCleanup, hlast]
  · simp [RingSession.evtFileCleanup, RingSession.disturbs, hlast, hi.undisturbed]

theorem SessionInv.env {e : SessionEvent} (hi : SessionInv s) (hok : sessionOk s (.env e))
    (h : RingSession.env e s = some s') : SessionInv s' ∧ SessionRely u s s' := by
  cases e with
  | hardware e =>
    simp only [RingSession.env] at h
    split at h
    · next hrunning =>
      obtain ⟨ring, hring, rfl⟩ := Option.map_eq_some_iff.mp h
      obtain ⟨hi', hrun, hcopying, hcopied, hreleased, hcompleted⟩ := hi.ring.env hrunning hring
      refine ⟨⟨hi', ?_, hi.alone, hi.undisturbed, hi.fresh⟩,
        .of_copying hcopying hcopied hreleased hcompleted rfl rfl⟩
      simp only [hrun]
      exact hi.running
    · cases h
  | create handle =>
    have hnone : s.handles = [] := by simpa [RingSession.opensAlone] using hok.2
    simp only [RingSession.env] at h
    split at h
    · cases h
    · cases h
      exact ⟨hi.create hnone, .of_copying rfl rfl rfl le_rfl rfl rfl⟩
  | cleanup handle =>
    have hcopying : s.ring.copying = false := by simpa [RingSession.opensAlone] using hok.2
    simp only [RingSession.env] at h
    split at h
    · next hopen =>
      cases h
      refine ⟨hi.cleanup hopen, fun _ => rfl, fun _ hbusy => ?_⟩
      rw [hcopying] at hbusy
      cases hbusy
    · cases h

/-! ## Calls that the counters do not depend on -/

def RingOp.Passive : RingOp → Prop
  | .indices .copy | .clearLength _ | .storeHead .. => False
  | _ => True

/-- The same to the hardware and the reader. -/
structure SameCounters (s s' : RingWorld) : Prop where
  head : s'.head = s.head
  released : s'.released = s.released
  copied : s'.copied = s.copied
  completed : s'.completed = s.completed
  started : s'.started = s.started
  descCredits : s'.descCredits = s.descCredits
  running : s'.running = s.running
  length : s'.length = s.length
  copying : s'.copying = s.copying

variable {o : RingOp} {r : o.Res}

theorem RingOp.Passive.frame {s s' : RingWorld} (ho : o.Passive)
    (h : RingWorld.act o s r = some s') : SameCounters s s' := by
  have same : ∀ {p : Prop} [Decidable p], (if p then some s else none) = some s' →
      SameCounters s s' := by
    intro p _ h
    split at h
    · cases h
      exact ⟨rfl, rfl, rfl, rfl, rfl, rfl, rfl, rfl, rfl⟩
    · cases h
  cases o with
  | poll | status | waitSignal | completedDescCount | length => exact same h
  | indices phase =>
    cases phase with
    | scan =>
      simp only [RingWorld.act] at h
      split at h
      · cases h
        exact ⟨rfl, rfl, rfl, rfl, rfl, rfl, rfl, rfl, rfl⟩
      · cases h
    | copy => exact ho.elim
  | copyFromBuffer | retrieveOutputMemory =>
    simp only [RingWorld.act] at h
    split at h <;> cases h <;> exact ⟨rfl, rfl, rfl, rfl, rfl, rfl, rfl, rfl, rfl⟩
  | engineStatus | clearStatus | storeTail | setSignal | clearSignal | clearWriteback | complete =>
    cases h
    exact ⟨rfl, rfl, rfl, rfl, rfl, rfl, rfl, rfl, rfl⟩
  | clearLength | storeHead => exact ho.elim

theorem SessionRing.congr {s s' : RingWorld} (hi : SessionRing s) (h : SameCounters s s') :
    SessionRing s' := by
  constructor
  · rw [h.head, h.released]
    exact hi.head_eq
  · rw [h.released, h.copied]
    exact hi.released_le
  · rw [h.copied, h.completed]
    exact hi.copied_le
  · rw [h.completed, h.started]
    exact hi.completed_le
  · rw [h.descCredits, h.started, h.released, h.running]
    exact hi.credits
  · rw [h.length, h.copied, h.completed]
    exact hi.length
  · rw [h.running, h.started, h.descCredits]
    exact hi.stopped
  · rw [h.copying, h.copied, h.released]
    exact hi.copy_done

theorem RingOp.Passive.act (ho : o.Passive) (h : s.act o r = some s') :
    ∃ ring, RingWorld.act o s.ring r = some ring ∧ s' = { s with ring := ring } := by
  obtain ⟨ring, hring, rfl⟩ := Option.map_eq_some_iff.mp h
  refine ⟨ring, hring, ?_⟩
  cases o with
  | indices phase =>
    cases phase with
    | scan => rfl
    | copy => exact ho.elim
  | clearLength | storeHead => exact ho.elim
  | _ => rfl

theorem SessionInv.passive (ho : o.Passive) (hi : SessionInv s) (h : s.act o r = some s') :
    SessionInv s' ∧ SessionRely u s s' ∧ SameCounters s.ring s'.ring ∧ s'.session = s.session ∧
      s'.readSession = s.readSession := by
  obtain ⟨ring, hring, rfl⟩ := ho.act h
  have hsame := ho.frame hring
  refine ⟨⟨hi.ring.congr hsame, ?_, hi.alone, hi.undisturbed, hi.fresh⟩,
    .of_copying hsame.copying hsame.copied hsame.released hsame.completed.ge rfl rfl, hsame, rfl,
    rfl⟩
  simp only [hsame.running]
  exact hi.running

abbrev SessionSafe {α : Type} (t : RingThread) (p : RingProg α) (Q : α → RingSession → Prop)
    (s : RingSession) : Prop :=
  Safe ringSessions sessionOk SessionInv SessionRely t p Q s

abbrev SessionStable (t : RingThread) (P : RingSession → Prop) : Prop :=
  Stable SessionInv SessionRely t P

variable {bound tail eopCount tries length n : Nat} {c : RingCopy}

theorem RingOp.Scans.passive (ho : o.Scans) : o.Passive := by
  cases o with
  | indices phase =>
    cases phase with
    | scan => exact trivial
    | copy => exact ho.elim
  | clearLength | storeHead => exact ho.elim
  | _ => exact trivial

theorem engineProcessRing_passive : engineProcessRing.All RingOp.Passive :=
  engineProcessRing_scans.mono fun _ => RingOp.Scans.passive

theorem awaitBlocks_passive : awaitBlocks.All RingOp.Passive :=
  awaitBlocks_scans.mono fun _ => RingOp.Scans.passive

/-! ## The read -/

def NotCopying (s : RingSession) : Prop := s.ring.copying = false

theorem NotCopying.stable : SessionStable .reader NotCopying := fun _ _ _ _ hr h =>
  (hr.copying rfl).trans h

/-- The read copies in the session that it began in, and `c` are its locals. -/
structure Reading (c : RingCopy) (s : RingSession) : Prop where
  copying : s.ring.copying = true
  head_eq : s.ring.copied % xdmaRingNumBlocks = c.head
  credits : s.ring.released + c.numDescProcessed = s.ring.copied
  session : s.readSession = s.session

theorem Reading.stable : SessionStable .reader (Reading c) := by
  intro s s' _ _ hr h
  obtain ⟨hcopied, hreleased, -, hsession, hread⟩ := hr.counters rfl h.copying
  refine ⟨(hr.copying rfl).trans h.copying, ?_, ?_, ?_⟩
  · rw [hcopied]
    exact h.head_eq
  · rw [hreleased, hcopied]
    exact h.credits
  · rw [hread, hsession]
    exact h.session

theorem Reading.congr (h : Reading c s) (hsame : SameCounters s.ring s'.ring)
    (hsession : s'.session = s.session) (hread : s'.readSession = s.readSession) :
    Reading c s' := by
  refine ⟨hsame.copying.trans h.copying, ?_, ?_, ?_⟩
  · rw [hsame.copied]
    exact h.head_eq
  · rw [hsame.released, hsame.copied]
    exact h.credits
  · rw [hread, hsession]
    exact h.session

/-- The block at the head is complete. -/
def BlockComplete (s : RingSession) : Prop :=
  s.ring.copying = true ∧ s.ring.copied < s.ring.completed

theorem BlockComplete.stable : SessionStable .reader BlockComplete := by
  rintro s s' _ _ hr ⟨hcopying, hlt⟩
  obtain ⟨hcopied, -, hcompleted, -, -⟩ := hr.counters rfl hcopying
  refine ⟨(hr.copying rfl).trans hcopying, ?_⟩
  rw [hcopied]
  exact hlt.trans_le hcompleted

/-- A passive call of the read. -/
theorem SessionSafe.passive {P : RingSession → Prop} {Q : o.Res → RingSession → Prop}
    (ho : o.Passive) (hP : SessionStable .reader P) (hQ : ∀ r, SessionStable .reader (Q r))
    (hs : P s)
    (hstep : ∀ s r s', SessionInv s → P s → sessionOk s (.call .reader o r) →
      RingWorld.act o s.ring r = some s'.ring → SameCounters s.ring s'.ring →
      s'.session = s.session → s'.readSession = s.readSession → Q r s') :
    SessionSafe .reader o.perform Q s := by
  apply Safe.perform P hP hQ hs
  intro s r s' hi hs hok h
  obtain ⟨ring, hring, rfl⟩ := ho.act h
  obtain ⟨hi', -, hsame, hsession, hread⟩ := hi.passive (u := .dpc) ho h
  exact ⟨hi', fun u _ => (hi.passive ho h).2.1,
    hstep s r _ hi hs hok hring hsame hsession hread⟩

theorem length_sessionSafe (hs : Reading c s) :
    SessionSafe .reader (RingOp.length c.head).perform
      (fun r s => Reading c s ∧ (r ≠ 0 → BlockComplete s)) s := by
  have hstable : ∀ r : BitVec 32, SessionStable .reader fun s => r ≠ 0 → BlockComplete s :=
    fun r s s' hi hi' hr h hne => BlockComplete.stable s s' hi hi' hr (h hne)
  refine SessionSafe.passive trivial Reading.stable (fun r => Reading.stable.and (hstable r)) hs ?_
  intro s r s' hi hs _ hact hsame hsession hread
  refine ⟨hs.congr hsame hsession hread, fun hne => ⟨hsame.copying.trans hs.copying, ?_⟩⟩
  simp only [RingWorld.act] at hact
  split at hact
  · next heq =>
    subst heq
    obtain ⟨i, hle, hlt, -⟩ := hi.ring.length.unused _ hne
    rw [hsame.copied, hsame.completed]
    exact hle.trans_lt hlt
  · cases hact

theorem copyFromBuffer_sessionSafe (hs : Reading c s ∧ BlockComplete s) :
    SessionSafe .reader (RingOp.copyFromBuffer c.offset c.head n).perform
      (fun r s => ntSuccess r = true ∧ Reading c s ∧ BlockComplete s) s := by
  refine SessionSafe.passive trivial (Reading.stable.and BlockComplete.stable)
    (fun r => (Stable.const _).and (Reading.stable.and BlockComplete.stable)) hs ?_
  rintro s r s' hi ⟨hs, hcopying, hlt⟩ hok _ hsame hsession hread
  refine ⟨hok.1, hs.congr hsame hsession hread, hsame.copying.trans hcopying, ?_⟩
  rw [hsame.copied, hsame.completed]
  exact hlt

theorem clearLength_sessionSafe {numBytesRemaining offset : Nat} (status : NtStatus)
    (hs : Reading c s ∧ BlockComplete s) :
    SessionSafe .reader (RingOp.clearLength c.head).perform
      (fun _ => Reading {
        status := status
        head := engineRingAdvance c.head
        numDescProcessed := c.numDescProcessed + 1
        offset := offset
        numBytesRemaining := numBytesRemaining }) s := by
  apply Safe.perform _ (Reading.stable.and BlockComplete.stable) (fun _ => Reading.stable) hs
  rintro s r s' hi ⟨hs, -, hlt⟩ _ h
  cases h
  have hring := hi.ring
  have hwindow := hring.completed_lt
  rw [← hs.head_eq]
  refine ⟨⟨{ hring with
    released_le := hring.released_le.trans (Nat.le_succ _)
    copied_le := hlt
    length := hring.length.pop hwindow.le
    copy_done := fun h => absurd hs.copying (Bool.eq_false_iff.mp h) }, hi.running, hi.alone,
      hi.undisturbed, hi.fresh⟩,
    fun u hu => ⟨fun h => absurd h hu, fun h => absurd h hu⟩, hs.copying,
    (engineRingAdvance_mod _).symm, ?_, hs.session⟩
  · have := hs.credits
    simp only
    omega

/-- What the copy loop leaves. -/
def ReadingResult : Except NtStatus RingCopy → RingSession → Prop
  | .ok c, s => Reading c s
  | .error _, _ => False

theorem ReadingResult.stable (r : Except NtStatus RingCopy) :
    SessionStable .reader (ReadingResult r) := by
  cases r with
  | ok c => exact Reading.stable
  | error status => exact Stable.const False

theorem copyBlock_sessionSafe (hs : Reading c s ∧ BlockComplete s) :
    SessionSafe .reader (copyBlock c n) ReadingResult s := by
  refine (copyFromBuffer_sessionSafe hs).bind fun status s ⟨hsuccess, hs⟩ => ?_
  rw [if_pos hsuccess]
  exact (clearLength_sessionSafe status hs).bind fun _ s hs =>
    Safe.ret (ReadingResult.stable (.ok _)) hs

theorem copyBlocks_sessionSafe (hs : Reading c s) :
    SessionSafe .reader (copyBlocks tail bound c) ReadingResult s := by
  induction bound generalizing c s with
  | zero => exact Safe.ret (ReadingResult.stable (.ok c)) hs
  | succ bound ih =>
    unfold copyBlocks
    split
    · refine (length_sessionSafe hs).bind fun len s hlength => ?_
      obtain ⟨hs, hcomplete⟩ := hlength
      split
      · refine (SessionSafe.passive (o := .clearSignal) (Q := fun _ => Reading c) trivial
          Reading.stable (fun _ => Reading.stable) hs ?_).bind fun _ s hs => ?_
        · exact fun s r s' _ hs _ _ hsame hsession hread => hs.congr hsame hsession hread
        · exact Safe.ret (ReadingResult.stable (.ok c)) hs
      · next hlen =>
        have hne : len ≠ 0 := by
          rintro rfl
          exact hlen ⟨Nat.zero_le _, rfl⟩
        refine (copyBlock_sessionSafe ⟨hs, hcomplete hne⟩).bind fun result s hs => ?_
        cases result with
        | ok c => exact ih hs
        | error status => exact hs.elim
    · exact Safe.ret (ReadingResult.stable (.ok c)) hs

/-- The indices are read: the blocks before the head are all returned. -/
theorem beginRead_sessionSafe (length : Nat) (status : NtStatus) (hs : NotCopying s) :
    SessionSafe .reader (RingOp.indices .copy).perform
      (fun r => Reading ⟨status, r.1, 0, 0, length⟩) s := by
  apply Safe.perform _ NotCopying.stable (fun _ => Reading.stable) hs
  intro s r s' hi hs _ h
  simp only [ringSessions, RingSession.act, RingWorld.act] at h
  split at h
  · next heq =>
    cases h
    subst heq
    have hring := hi.ring
    have hcopied := hring.copy_done hs
    refine ⟨⟨{ hring with copy_done := fun h => by cases h }, hi.running, hi.alone,
      hi.undisturbed, hi.fresh⟩, fun u hu => ⟨fun h => absurd h hu, fun h => absurd h hu⟩, rfl, ?_,
      hcopied.symm, rfl⟩
    simp only [hcopied]
    exact hring.head_eq.symm
  · cases h

/-- The head and the credits are stored in the session that they belong to. -/
theorem storeHead_sessionSafe (hs : Reading c s) :
    SessionSafe .reader (RingOp.storeHead c.head c.numDescProcessed).perform
      (fun _ => NotCopying) s := by
  apply Safe.perform _ Reading.stable (fun _ => NotCopying.stable) hs
  intro s r s' hi hs _ h
  cases h
  have hring := hi.ring
  have hcredits := hring.credits
  rw [← hs.head_eq]
  refine ⟨⟨{ hring with
    head_eq := rfl
    released_le := le_rfl
    credits := ?_
    stopped := fun hstopped => ?_
    copy_done := fun _ => rfl }, hi.running, hi.alone, hi.undisturbed, ?_⟩,
    fun u hu => ⟨fun h => absurd h hu, fun h => absurd h hu⟩, rfl⟩
  · have := hs.credits
    simp only
    omega
  · -- a ring that is stopped has no block to return
    have := hs.credits
    obtain ⟨hreleased, hcopied, -⟩ := hring.at_rest hstopped
    obtain ⟨hstarted, hnone⟩ := hring.stopped hstopped
    refine ⟨hstarted, ?_⟩
    simp only
    omega
  · simp [hi.fresh, hs.session]

theorem NotCopying.congr (h : NotCopying s) (hsame : SameCounters s.ring s'.ring) :
    NotCopying s' :=
  hsame.copying.trans h

theorem passive_sessionSafe {α : Type} {p : RingProg α} (hp : p.All RingOp.Passive)
    (hs : NotCopying s) : SessionSafe .reader p (fun _ => NotCopying) s := by
  apply Safe.all NotCopying.stable hp hs
  intro o ho s r s' hi hs _ h
  obtain ⟨hi', -, hsame, -⟩ := hi.passive (u := .dpc) ho h
  exact ⟨hi', fun u _ => (hi.passive ho h).2.1, hs.congr hsame⟩

theorem engineRingCopyBytesToMemory_sessionSafe (hs : NotCopying s) :
    SessionSafe .reader (engineRingCopyBytesToMemory length) (fun _ => NotCopying) s := by
  refine (passive_sessionSafe awaitBlocks_passive hs).bind fun result s hs => ?_
  cases result with
  | error status => exact Safe.ret NotCopying.stable hs
  | ok status =>
    refine (beginRead_sessionSafe length status hs).bind fun indices s hs => ?_
    refine (copyBlocks_sessionSafe hs).bind fun result s hs => ?_
    cases result with
    | error status => exact hs.elim
    | ok c =>
      have hs : Reading c s := hs
      refine (length_sessionSafe hs).bind fun rest s ⟨hs, _⟩ => ?_
      apply Safe.bind (Q := fun _ => Reading c)
      · apply Safe.when Reading.stable hs
        intro _
        refine SessionSafe.passive (o := .clearSignal) trivial Reading.stable
          (fun _ => Reading.stable) hs ?_
        exact fun s r s' _ hs _ _ hsame hsession hread => hs.congr hsame hsession hread
      · exact fun _ s hs => (storeHead_sessionSafe hs).bind fun _ s hs =>
          Safe.ret NotCopying.stable hs

theorem evtIoReadEngineRing_sessionSafe (hs : NotCopying s) :
    SessionSafe .reader (evtIoReadEngineRing length) (fun _ => NotCopying) s := by
  refine (passive_sessionSafe (p := RingOp.retrieveOutputMemory.perform)
    (Prog.All.perform trivial) hs).bind fun status s hs => ?_
  split
  · refine (engineRingCopyBytesToMemory_sessionSafe hs).bind fun read s hs => ?_
    exact passive_sessionSafe (Prog.All.perform trivial) hs
  · exact passive_sessionSafe (Prog.All.perform trivial) hs

/-! ## Every run -/

theorem sessionInv_cleared {poll : Bool} {block : Nat → List UInt8} :
    SessionInv (sessionConfig poll block).state := by
  refine ⟨⟨rfl, le_rfl, le_rfl, le_rfl, rfl, ⟨fun i _ hlt => absurd hlt (Nat.not_lt_zero i),
    fun k hk => absurd rfl hk⟩, fun _ => ⟨rfl, rfl⟩, fun _ => rfl⟩, ?_, Nat.zero_le 1, rfl, rfl⟩
  simp [sessionConfig, RingWorld.cleared]

/-- With one handle at a time, and none cleaned up under a read that copies, the sessions are
isolated. -/
theorem ringSessions_isolated {poll : Bool} {block : Nat → List UInt8}
    (c : Config RingOp RingOp.Res RingSession RingThread)
    (h : ringSessions.Reach sessionOk (sessionConfig poll block) c) : c.state.Isolated := by
  have hsafe := Reach.safe (I := SessionInv) (R := SessionRely)
    (Q := fun t s => t = .reader → NotCopying s) sessionInv_cleared ?_ ?_ ?_ h
  · exact hsafe.1.isolated
  · intro t
    apply Safe.ret
    · rintro s s' hi hi' hr h rfl
      exact NotCopying.stable s s' hi hi' hr (h rfl)
    · exact fun _ => rfl
  · intro e s s' hi hok he
    exact ⟨(hi.env (u := .dpc) hok he).1, fun u => (hi.env hok he).2⟩
  · intro t a s s' p hi hs _ hstart
    obtain ⟨⟨ring, q⟩, hbase, heq⟩ := Option.map_eq_some_iff.mp hstart
    cases heq
    cases t with
    | dpc =>
      cases a with
      | processRing =>
        simp only [ringThreads] at hbase
        split at hbase
        · cases hbase
        · cases hbase
          refine ⟨hi, fun u _ => .of_copying rfl rfl rfl le_rfl rfl rfl, ?_⟩
          have hpassive : (engineProcessRing >>= fun _ => pure ()).All RingOp.Passive :=
            Prog.All.bind engineProcessRing_passive fun _ => trivial
          refine (Safe.all (J := fun _ => True) (Stable.const True) hpassive trivial ?_).mono
            fun _ _ _ h => by cases h
          intro o ho s r s' hi _ _ h
          exact ⟨(hi.passive (u := .dpc) ho h).1, fun u _ => (hi.passive ho h).2.1, trivial⟩
      | read length => cases hbase
    | reader =>
      cases a with
      | processRing => cases hbase
      | read length =>
        cases hbase
        refine ⟨hi, fun u _ => .of_copying rfl rfl rfl le_rfl rfl rfl, ?_⟩
        exact (evtIoReadEngineRing_sessionSafe (hs rfl)).mono fun _ _ hs _ => hs

/-- A handle is opened, cleaned up and opened again, and the hardware completes a block. -/
theorem ringSessions_isolated_reopened :
    ∃ c, ringSessions.Reach sessionOk (sessionConfig false fun _ => []) c ∧
      c.state.session = 1 ∧ c.state.ring.completed = 1 ∧ c.state.Isolated := by
  have hrun : ∃ c, ringSessions.Reach sessionOk (sessionConfig false fun _ => []) c ∧
      decide (c.state.session = 1 ∧ c.state.ring.completed = 1) = true :=
    Reach.exists_of_steps [.env (.create 1), .env (.hardware .start), .env (.cleanup 1),
        .env (.create 2), .env (.hardware .start),
        .env (.hardware (.complete xdmaResultEopBit [0]))]
      (fun c : Config _ _ RingSession _ =>
        decide (c.state.session = 1 ∧ c.state.ring.completed = 1)) (by decide)
  obtain ⟨c, hreach, hdone⟩ := hrun
  obtain ⟨hsession, hcompleted⟩ := of_decide_eq_true hdone
  exact ⟨c, hreach, hsession, hcompleted, ringSessions_isolated c hreach⟩

/-- Two handles are opened: the hardware has the credits of two rings. -/
theorem ringSessions_not_isolated :
    ¬ ∀ c, ringSessions.Reach (fun _ l => sessionCopySucceeds l = true)
      (sessionConfig false fun _ => []) c → c.state.Isolated := by
  intro hall
  have hrun : ∃ c, ringSessions.Reach (fun _ l => sessionCopySucceeds l = true)
      (sessionConfig false fun _ => []) c ∧
      decide (c.state.ring.descCredits = 2 * (xdmaRingNumBlocks - 1)) = true :=
    Reach.exists_of_steps [.env (.create 1), .env (.create 2)]
      (fun c : Config _ _ RingSession _ =>
        decide (c.state.ring.descCredits = 2 * (xdmaRingNumBlocks - 1))) (by decide)
  obtain ⟨c, hreach, hcredits⟩ := hrun
  have hcredits := of_decide_eq_true hcredits
  have hbounded := (hall c hreach).bounded
  have : 1 < xdmaRingNumBlocks := by decide
  omega

end Xadma
