import Xadma.Libxdma.Ring

/-!
# Handles on a C2H streaming node (`sys/file_io.c`)

Every handle that is opened on the node sets the ring of its engine up, and every one that is
cleaned up tears it down. The read queue and the DPC go on meanwhile.
-/

namespace Xadma

/-- `EngineRingTeardown`. The falling edge of RUN takes the credits, and the hardware begins anew
with the first descriptor when it is started again. -/
def engineRingTeardown (s : RingWorld) : RingWorld :=
  { s with
    running := false
    descCredits := if s.running then 0 else s.descCredits
    status := fun k => if k < xdmaRingNumBlocks then 0 else s.status k
    length := fun k => if k < xdmaRingNumBlocks then 0 else s.length k
    head := 0
    tail := 0
    started := 0
    completed := 0
    scanned := 0
    published := 0
    delivered := 0
    copied := 0
    released := 0
    received := []
    uncopied := fun _ => 0 }

/-- The ring and the open handles; below these, what is only recorded for the proofs. -/
structure RingSession where
  ring : RingWorld
  handles : List Nat
  /-- The cleanups so far. -/
  session : Nat
  /-- Those when the read that is in flight read the indices. -/
  readSession : Nat
  /-- A read stored a head that it had computed before a cleanup. -/
  storedStale : Bool
  /-- A handle was opened or cleaned up, and another one that was open saw it. -/
  disturbed : Bool

/-- What a handle sees of the ring. -/
def RingWorld.SameView (s s' : RingWorld) : Prop :=
  s'.head = s.head ∧ s'.tail = s.tail ∧ s'.running = s.running ∧
    ∀ k < xdmaRingNumBlocks, s'.status k = s.status k ∧ s'.length k = s.length k

instance (s s' : RingWorld) : Decidable (s.SameView s') :=
  inferInstanceAs (Decidable (_ ∧ _ ∧ _ ∧ _))

inductive SessionEvent
  | hardware (e : RingEvent)
  | create (handle : Nat)
  | cleanup (handle : Nat)
  deriving DecidableEq, Repr

namespace RingSession

/-- Another handle than this one is open and sees a difference. -/
def disturbs (s : RingSession) (handle : Nat) (ring : RingWorld) : Bool :=
  (s.handles.erase handle != []) && !decide (s.ring.SameView ring)

/-- `EvtDeviceFileCreate` for the node of a streaming engine. -/
def evtDeviceFileCreate (s : RingSession) (handle : Nat) : RingSession :=
  let ring := engineRingSetup s.ring
  { s with
    ring := ring
    handles := handle :: s.handles
    disturbed := s.disturbed || s.disturbs handle ring }

/-- `EvtFileCleanup`. -/
def evtFileCleanup (s : RingSession) (handle : Nat) : RingSession :=
  let ring := engineRingTeardown s.ring
  { s with
    ring := ring
    handles := s.handles.erase handle
    session := s.session + 1
    disturbed := s.disturbed || s.disturbs handle ring }

/-- The hardware works while RUN is set. -/
def env : SessionEvent → RingSession → Option RingSession
  | .hardware e, s =>
    if s.ring.running then (RingWorld.env e s.ring).map fun ring => { s with ring := ring }
    else none
  | .create handle, s => if handle ∈ s.handles then none else some (s.evtDeviceFileCreate handle)
  | .cleanup handle, s => if handle ∈ s.handles then some (s.evtFileCleanup handle) else none

def act (o : RingOp) (s : RingSession) (r : o.Res) : Option RingSession :=
  (RingWorld.act o s.ring r).map fun ring =>
    match o with
    | .indices .copy => { s with ring := ring, readSession := s.session }
    | .storeHead .. =>
      { s with
        ring := ring
        storedStale := s.storedStale || s.readSession != s.session }
    | _ => { s with ring := ring }

end RingSession

/-- The node of a streaming engine, with the DPC and the reads of its queue. -/
def ringSessions :
    Threads RingOp RingOp.Res RingSession RingThread SessionEvent RingCall where
  act := fun _ o s r => s.act o r
  env := RingSession.env
  start := fun t a s =>
    (ringThreads.start t a s.ring).map fun x => ({ s with ring := x.1 }, x.2)

/-- No handle is open yet. -/
def sessionConfig (poll : Bool) (block : Nat → List UInt8) :
    Config RingOp RingOp.Res RingSession RingThread :=
  ⟨⟨.cleared poll 0 0 block, [], 0, 0, false, false⟩, fun _ => .ret ()⟩

end Xadma
