import Xadma.Theory.RelyGuarantee
import Xadma.Verify.BarTiling
import Xadma.Sys.BarFiles

/-!
# The files of the memory BARs are files of bytes

Seen from its clients the file of such a BAR is a list of bytes, and the requests take effect one
after the other, in the order in which they are completed. With requests in parallel this holds as
long as all of them stay inside their BARs and none writes to bytes that another one uses at the
same time.
-/

namespace Xadma

open Threads

variable {w : PointerWidth} {ι T : Type}

/-! ## Files of bytes -/

abbrev BarContents (ι : Type) := ι → List (BitVec 8)

namespace BarRequest

def offset (q : BarRequest w ι) : Nat := (q.request.deviceOffset.setWidth w.bits).toNat

/-- The request gets to its register accesses. -/
def Served (q : BarRequest w ι) : Prop :=
  q.request.length ≠ 0 ∧ ntSuccess q.request.retrieveMemory = true

instance (q : BarRequest w ι) : Decidable q.Served :=
  inferInstanceAs (Decidable (q.request.length ≠ 0 ∧ ntSuccess q.request.retrieveMemory = true))

/-- What the request is completed with. -/
def result (q : BarRequest w ι) : NtStatus × Nat :=
  if q.request.length = 0 then (statusInvalidDeviceRequest, 0)
  else if ntSuccess q.request.retrieveMemory then
    (q.request.retrieveMemory, q.request.length.toNat)
  else (q.request.retrieveMemory, 0)

/-- Serve the request, which is completed with these bytes in its memory. -/
def serve [DecidableEq ι] (q : BarRequest w ι) (data : List (BitVec 8)) (c : BarContents ι) :
    Option (BarContents ι) :=
  if q.Served then
    if q.write then
      if data = q.memory then
        some (Function.update c q.bar (splice (c q.bar) q.offset data))
      else none
    else if data = ((c q.bar).drop q.offset).take q.request.length.toNat then some c else none
  else some c

/-- One of the requests writes to bytes that the other one uses. -/
def Conflict (q q' : BarRequest w ι) : Prop :=
  q.Served ∧ q'.Served ∧ (q.write = true ∨ q'.write = true) ∧ q.bar = q'.bar ∧
    q.offset < q'.offset + q'.request.length.toNat ∧
    q'.offset < q.offset + q.request.length.toNat

instance [DecidableEq ι] (q q' : BarRequest w ι) : Decidable (q.Conflict q') :=
  inferInstanceAs (Decidable (_ ∧ _ ∧ _ ∧ _ ∧ _ ∧ _))

end BarRequest

/-- Serve the requests that are completed one after the other. -/
def replay [DecidableEq ι] (requests : Nat → BarRequest w ι) :
    List BarCompletion → BarContents ι → Option (BarContents ι)
  | [], c => some c
  | x :: xs, c =>
    if (x.status, x.information) = (requests x.id).result then
      ((requests x.id).serve x.data c).bind (replay requests xs)
    else none

/-- No request is presented while one is under way with which it is in conflict. -/
def conflictFree (requests : Nat → BarRequest w ι) (s : BarWorld w T) :
    Label (BarOp w) BarOp.Res T Empty Nat → Prop
  | .start _ id => ∀ t, ∀ id' ∈ s.working t, ¬ (requests id).Conflict (requests id')
  | .call .. | .env _ => True

def Bar.block (b : Bar w) : Block w.bits := ⟨b.bar, b.barLength.toNat⟩

/-- What the files hold when the BARs hold `m`. -/
def barContents (bars : ι → Bar w) (m : Memory w.bits (BitVec 8)) : BarContents ι :=
  fun i => m.load (bars i).block.start (bars i).block.length

/-! ## One request after the other -/

namespace BarRequest

variable (bars : ι → Bar w)

/-- The bytes of the BAR that the request names. -/
def block (q : BarRequest w ι) : Block w.bits :=
  ⟨(bars q.bar).bar + q.request.deviceOffset.setWidth w.bits, q.request.length.toNat⟩

/-- What the request leaves in the BARs. -/
def store (q : BarRequest w ι) (data : List (BitVec 8)) (m : Memory w.bits (BitVec 8)) :
    Memory w.bits (BitVec 8) :=
  if q.Served ∧ q.write = true then m.store (q.block bars).start data else m

/-- A write leaves its memory as it is, and a read finds there what is in the BAR. -/
def Brings (q : BarRequest w ι) (data : List (BitVec 8)) (m : Memory w.bits (BitVec 8)) : Prop :=
  q.Served → data =
    if q.write then q.memory else m.load (q.block bars).start (q.block bars).length

end BarRequest

section
variable (bars : ι → Bar w) (requests : Nat → BarRequest w ι)

def storeAll (xs : List BarCompletion) (m : Memory w.bits (BitVec 8)) : Memory w.bits (BitVec 8) :=
  xs.foldl (fun m x => (requests x.id).store bars x.data m) m

/-- The requests that are completed are served in this order. -/
def InTurn : List BarCompletion → Memory w.bits (BitVec 8) → Prop
  | [], _ => True
  | x :: xs, m => (x.status, x.information) = (requests x.id).result ∧
      (requests x.id).Brings bars x.data m ∧ InTurn xs ((requests x.id).store bars x.data m)

end

variable {bars : ι → Bar w} {requests : Nat → BarRequest w ι} {m m' : Memory w.bits (BitVec 8)}
  {c : BarContents ι} {q q' : BarRequest w ι} {i : ι} {xs : List BarCompletion}
  {x : BarCompletion} {data : List (BitVec 8)}

theorem storeAll_append : storeAll bars requests (xs ++ [x]) m =
    (requests x.id).store bars x.data (storeAll bars requests xs m) := by
  rw [storeAll, List.foldl_append]
  rfl

theorem InTurn.append (h : InTurn bars requests xs m)
    (hresult : (x.status, x.information) = (requests x.id).result)
    (hbrings : (requests x.id).Brings bars x.data (storeAll bars requests xs m)) :
    InTurn bars requests (xs ++ [x]) m := by
  induction xs generalizing m with
  | nil => exact ⟨hresult, hbrings, trivial⟩
  | cons y ys ih => exact ⟨h.1, h.2.1, ih h.2.2 hbrings⟩

theorem BarRequest.block_start :
    (q.block bars).start = (bars q.bar).bar + BitVec.ofNat w.bits q.offset := by
  rw [block, offset, BitVec.ofNat_toNat, BitVec.setWidth_eq]

theorem Bar.length_le (b : Bar w) : b.block.length ≤ 2 ^ w.bits :=
  (Nat.le_add_left _ _).trans b.inRange

/-- The bytes of a request that fits are in its BAR. -/
theorem BarRequest.inBlock_iff (hfits : q.request.fits (bars q.bar)) {a : BitVec w.bits} :
    InBlock (q.block bars).start (q.block bars).length a ↔
      q.offset ≤ (a - (bars q.bar).bar).toNat ∧
        (a - (bars q.bar).bar).toNat < q.offset + q.request.length.toNat := by
  rw [block_start]
  exact Memory.inBlock_add (hfits.trans (bars q.bar).length_le)

theorem BarRequest.inBlock_bar (hfits : q.request.fits (bars q.bar)) {a : BitVec w.bits}
    (ha : InBlock (q.block bars).start (q.block bars).length a) :
    InBlock (bars q.bar).block.start (bars q.bar).block.length a :=
  ((inBlock_iff hfits).mp ha).2.trans_le hfits

/-- Requests without a conflict do not get in each other's way. -/
theorem BarRequest.disjoint_of_not_conflict
    (hbars : ∀ i j, i ≠ j → (bars i).block.Disjoint (bars j).block)
    (hfits : q.request.fits (bars q.bar)) (hfits' : q'.request.fits (bars q'.bar))
    (hserved : q.Served) (hserved' : q'.Served) (hwrite : q.write = true ∨ q'.write = true)
    (h : ¬ q.Conflict q') : (q.block bars).Disjoint (q'.block bars) := by
  intro a ha ha'
  by_cases hbar : q.bar = q'.bar
  · obtain ⟨hlow, hhigh⟩ := (inBlock_iff hfits).mp ha
    obtain ⟨hlow', hhigh'⟩ := (inBlock_iff hfits').mp ha'
    rw [← hbar] at hlow' hhigh'
    exact h ⟨hserved, hserved', hwrite, hbar, by omega, by omega⟩
  · exact hbars _ _ hbar a (inBlock_bar hfits ha) (inBlock_bar hfits' ha')

theorem BarRequest.serve_of_brings [DecidableEq ι]
    (hbars : ∀ i j, i ≠ j → (bars i).block.Disjoint (bars j).block)
    (hfits : q.Served → q.request.fits (bars q.bar)) (h : q.Brings bars data m) :
    q.serve data (barContents bars m) = some (barContents bars (q.store bars data m)) := by
  unfold serve store
  by_cases hserved : q.Served
  · have hdata := h hserved
    have hfits := hfits hserved
    rw [if_pos hserved]
    by_cases hwrite : q.write = true
    · rw [if_pos hwrite] at hdata
      rw [if_pos hwrite, if_pos hdata, if_pos ⟨hserved, hwrite⟩]
      have hlen : data.length = q.request.length.toNat := by rw [hdata, q.length]
      congr 1
      funext j
      by_cases hj : j = q.bar
      · subst hj
        rw [Function.update_self, barContents, barContents, block_start]
        exact (Memory.load_store_within (hlen ▸ hfits) (bars q.bar).length_le).symm
      · rw [Function.update_of_ne hj]
        refine (Memory.load_congr fun a ha => Memory.store_of_not_inBlock fun hin => ?_).symm
        rw [hlen] at hin
        exact hbars _ _ hj a ha (inBlock_bar hfits hin)
    · rw [if_neg hwrite] at hdata
      have hread : data =
          ((barContents bars m q.bar).drop q.offset).take q.request.length.toNat := by
        rw [hdata, block_start, Memory.load_drop, List.take_drop]
        congr 1
        exact (Memory.take_load hfits).symm
      rw [if_neg hwrite, if_pos hread, if_neg fun hboth => hwrite hboth.2]
  · rw [if_neg hserved, if_neg fun hboth => hserved hboth.1]

theorem replay_of_inTurn [DecidableEq ι]
    (hbars : ∀ i j, i ≠ j → (bars i).block.Disjoint (bars j).block)
    (hfits : ∀ id, (requests id).Served → (requests id).request.fits (bars (requests id).bar))
    (h : InTurn bars requests xs m) :
    replay requests xs (barContents bars m) =
      some (barContents bars (storeAll bars requests xs m)) := by
  induction xs generalizing m with
  | nil => rfl
  | cons x xs ih =>
    obtain ⟨hresult, hbrings, hrest⟩ := h
    rw [replay, if_pos hresult, BarRequest.serve_of_brings hbars (hfits x.id) hbrings]
    exact ih hrest

/-! ## Requests in parallel -/

theorem BarRequest.outcome_eq : q.outcome bars =
    finishBar q.request.length (readBarToRequest q.request (bars q.bar).bar) := by
  unfold outcome
  rcases q.isMemory with h | h <;> split <;> simp [evtIoRead, evtIoWrite, h,
    writeBarFromRequest_eq]

/-- Every request is completed, and one that is served makes one access. -/
theorem BarRequest.outcome_spec (bars : ι → Bar w) (q : BarRequest w ι) :
    (q.outcome bars).completed = some q.result ∧ (q.outcome bars).accesses =
      if q.Served then [barAccess (q.block bars).start q.request.length] else [] := by
  rw [outcome_eq, readBarToRequest, result]
  by_cases hlength : q.request.length = 0
  · have hnot : ¬ q.Served := fun hserved => hserved.1 hlength
    have hfail : ntSuccess statusInvalidDeviceRequest = false := by decide
    simp [finishBar, hlength, hnot, hfail]
  · simp only [if_neg hlength]
    cases hget : ntSuccess q.request.retrieveMemory with
    | false =>
      have hnot : ¬ q.Served := fun hserved => Bool.false_ne_true (hget.symm.trans hserved.2)
      simp [finishBar, hnot, hget]
    | true =>
      have hserved : q.Served := ⟨hlength, hget⟩
      simp [finishBar, hserved, hget, block]

section
variable (bars : ι → Bar w) (requests : Nat → BarRequest w ι) (m : Memory w.bits (BitVec 8))

/-- What is in the BARs by the requests that are completed. -/
def BarWorld.stored (s : BarWorld w T) : Memory w.bits (BitVec 8) :=
  storeAll bars requests s.completions m

/-- The address is in the block of a write that is under way. -/
def BarWorld.Changing (s : BarWorld w T) (a : BitVec w.bits) : Prop :=
  ∃ t id, s.working t = some id ∧ (requests id).Served ∧ (requests id).write = true ∧
    InBlock ((requests id).block bars).start ((requests id).block bars).length a

structure BarInv (s : BarWorld w T) : Prop where
  inTurn : InTurn bars requests s.completions m
  settled : ∀ a, ¬ s.Changing bars requests a → s.memory a = s.stored bars requests m a
  apart : ∀ t u id id', t ≠ u → s.working t = some id → s.working u = some id' →
    id ≠ id' ∧ ((requests id).Served → (requests id').Served →
      (requests id).write = true ∨ (requests id').write = true →
        ((requests id).block bars).Disjoint ((requests id').block bars))
  early : ∀ t id, s.working t = some id → id < s.presented
  past : ∀ x ∈ s.completions, x.id < s.presented ∧ ∀ t, s.working t ≠ some x.id
  once : (s.completions.map BarCompletion.id).Nodup

/-- The others leave the request of a thread and its bytes alone. -/
structure BarRely (t : T) (s s' : BarWorld w T) : Prop where
  working : s'.working t = s.working t
  buffer : ∀ id, s.working t = some id → s'.buffer id = s.buffer id
  block : ∀ id, s.working t = some id → (requests id).Served →
    ∀ a, InBlock ((requests id).block bars).start ((requests id).block bars).length a →
      s'.memory a = s.memory a ∧ s'.stored bars requests m a = s.stored bars requests m a

/-- The first `n` bytes of the request are done. -/
structure Moved (t : T) (id n : Nat) (s : BarWorld w T) : Prop where
  working : s.working t = some id
  length : (s.buffer id).length = (requests id).request.length.toNat
  bound : n ≤ (requests id).request.length.toNat
  read : (requests id).write = false → (s.buffer id).take n =
    (s.stored bars requests m).load ((requests id).block bars).start n
  write : (requests id).write = true → s.buffer id = (requests id).memory ∧
    s.memory.load ((requests id).block bars).start n = (requests id).memory.take n

/-- All of the request is done. -/
def Finished (t : T) (id : Nat) (s : BarWorld w T) : Prop :=
  s.working t = some id ∧ ((requests id).Served →
    Moved bars requests m t id (requests id).request.length.toNat s)

variable [DecidableEq T]

abbrev BarSafe (t : T) (p : BarProg w Unit) (Q : Unit → BarWorld w T → Prop) (s : BarWorld w T) :
    Prop :=
  Safe (barThreads T bars requests) (conflictFree requests) (BarInv bars requests m)
    (BarRely bars requests m) t p Q s

end

variable {s s' : BarWorld w T} {t u : T} {id id' n k size : Nat}

theorem Moved.stable (hserved : (requests id).Served) :
    Stable (BarInv bars requests m) (BarRely bars requests m) t (Moved bars requests m t id n) := by
  intro s s' _ _ hr h
  have hblock := hr.block id h.working hserved
  have hin : ∀ a, InBlock ((requests id).block bars).start n a →
      InBlock ((requests id).block bars).start ((requests id).block bars).length a :=
    fun a ha => Nat.lt_of_lt_of_le ha h.bound
  refine ⟨hr.working.trans h.working, ?_, h.bound, fun hread => ?_, fun hwrite => ⟨?_, ?_⟩⟩
  · rw [hr.buffer id h.working, h.length]
  · rw [hr.buffer id h.working, h.read hread]
    exact (Memory.load_congr fun a ha => (hblock a (hin a ha)).2).symm
  · rw [hr.buffer id h.working, (h.write hwrite).1]
  · rw [← (h.write hwrite).2]
    exact Memory.load_congr fun a ha => (hblock a (hin a ha)).1

theorem Finished.stable : Stable (BarInv bars requests m) (BarRely bars requests m) t
    (Finished bars requests m t id) :=
  fun s s' hi hi' hr h =>
    ⟨hr.working.trans h.1, fun hserved => Moved.stable hserved s s' hi hi' hr (h.2 hserved)⟩

theorem Stable.idle : Stable (BarInv bars requests m) (BarRely bars requests m) t
    fun s => s.working t = none :=
  fun _ _ _ _ hr h => hr.working.trans h

/-- What a thread reads in the block of its request is settled. -/
theorem BarInv.settled_read (hi : BarInv bars requests m s) (hwork : s.working t = some id)
    (hserved : (requests id).Served) (hread : (requests id).write = false) {a : BitVec w.bits}
    (ha : InBlock ((requests id).block bars).start ((requests id).block bars).length a) :
    s.memory a = s.stored bars requests m a := by
  refine hi.settled a ?_
  rintro ⟨u, id', hu, hserved', hwrite, ha'⟩
  by_cases htu : t = u
  · subst htu
    cases hwork.symm.trans hu
    exact Bool.false_ne_true (hread.symm.trans hwrite)
  · exact (hi.apart t u id id' htu hwork hu).2 hserved hserved' (.inr hwrite) a ha ha'

/-- A register access for the request of a thread, which changes no bytes but those of its block. -/
theorem BarInv.access (hi : BarInv bars requests m s) (hwork : s.working t = some id)
    (hworking : s'.working = s.working) (hpresented : s'.presented = s.presented)
    (hcompletions : s'.completions = s.completions)
    (hbuffer : ∀ id', id' ≠ id → s'.buffer id' = s.buffer id')
    (hmemory : ∀ a, s'.memory a ≠ s.memory a → (requests id).Served ∧
      (requests id).write = true ∧
        InBlock ((requests id).block bars).start ((requests id).block bars).length a) :
    BarInv bars requests m s' ∧ ∀ u, u ≠ t → BarRely bars requests m u s s' := by
  have hstored : s'.stored bars requests m = s.stored bars requests m := by
    rw [BarWorld.stored, hcompletions, BarWorld.stored]
  refine ⟨⟨?_, fun a ha => ?_, ?_, ?_, ?_, ?_⟩, fun u hut => ⟨?_, fun id' hu => ?_,
    fun id' hu hserved a ha => ⟨?_, ?_⟩⟩⟩
  · rw [hcompletions]
    exact hi.inTurn
  · have hunchanging : ¬ s.Changing bars requests a := by
      rintro ⟨v, id', hv, hchanging⟩
      exact ha ⟨v, id', hworking ▸ hv, hchanging⟩
    rw [hstored, ← hi.settled a hunchanging]
    by_contra hne
    exact ha ⟨t, id, hworking ▸ hwork, hmemory a hne⟩
  · rw [hworking]
    exact hi.apart
  · rw [hworking, hpresented]
    exact hi.early
  · rw [hcompletions, hpresented, hworking]
    exact hi.past
  · rw [hcompletions]
    exact hi.once
  · rw [hworking]
  · exact hbuffer id' (hi.apart t u id id' hut.symm hwork hu).1.symm
  · by_contra hne
    obtain ⟨hown, hwrite, ha'⟩ := hmemory a hne
    exact (hi.apart t u id id' hut.symm hwork hu).2 hown hserved (.inl hwrite) a ha' ha
  · rw [hstored]

variable [DecidableEq T]

/-- One unit of a read. -/
theorem BarInv.readRegister (hi : BarInv bars requests m s)
    (hfits : (requests id).request.fits (bars (requests id).bar)) (hserved : (requests id).Served)
    (hread : (requests id).write = false) (h : Moved bars requests m t id n s)
    (hn : n + size ≤ (requests id).request.length.toNat)
    (hs : s' = s.act t (.readRegister id
      (((requests id).block bars).start + BitVec.ofNat w.bits n) size n)) :
    BarInv bars requests m s' ∧ (∀ u, u ≠ t → BarRely bars requests m u s s') ∧
      Moved bars requests m t id (n + size) s' := by
  have hwrap : n + size ≤ 2 ^ w.bits :=
    hn.trans ((Nat.le_add_left _ _).trans (hfits.trans (bars (requests id).bar).length_le))
  have hbuffer : s'.buffer id = splice (s.buffer id) n (s.memory.load
      (((requests id).block bars).start + BitVec.ofNat w.bits n) size) := by
    rw [hs]
    exact Function.update_self ..
  have hdata : s.memory.load (((requests id).block bars).start + BitVec.ofNat w.bits n) size =
      (s.stored bars requests m).load
        (((requests id).block bars).start + BitVec.ofNat w.bits n) size :=
    Memory.load_congr fun a ha => hi.settled_read h.working hserved hread
      (((Memory.inBlock_add hwrap).mp ha).2.trans_le hn)
  rw [hdata] at hbuffer
  obtain ⟨data, hload, hlength⟩ : ∃ data, (s.stored bars requests m).load
      (((requests id).block bars).start + BitVec.ofNat w.bits n) size = data ∧
        data.length = size := ⟨_, rfl, Memory.length_load⟩
  rw [hload] at hbuffer
  obtain ⟨hi', hothers⟩ : BarInv bars requests m s' ∧
      ∀ u, u ≠ t → BarRely bars requests m u s s' := by
    subst hs
    exact hi.access h.working rfl rfl rfl (fun id' hne => Function.update_of_ne hne ..)
      fun a hne => absurd rfl hne
  refine ⟨hi', hothers, ?_, ?_, hn, fun _ => ?_, fun hwrite => ?_⟩
  · rw [hs]
    exact h.working
  · rw [hbuffer, length_splice (by rw [hlength, h.length]; exact hn), h.length]
  · have htake : (splice (s.buffer id) n data).take (n + data.length) =
        (s.buffer id).take n ++ data := take_splice (by rw [h.length]; exact h.bound)
    rw [hlength] at htake
    rw [hbuffer, htake, h.read hread, ← hload, ← Memory.load_add, hs]
    rfl
  · exact absurd (hread.symm.trans hwrite) Bool.false_ne_true

/-- One unit of a write. -/
theorem BarInv.writeRegister (hi : BarInv bars requests m s)
    (hfits : (requests id).request.fits (bars (requests id).bar)) (hserved : (requests id).Served)
    (hwrite : (requests id).write = true) (h : Moved bars requests m t id n s)
    (hn : n + size ≤ (requests id).request.length.toNat)
    (hs : s' = s.act t (.writeRegister id
      (((requests id).block bars).start + BitVec.ofNat w.bits n) size n)) :
    BarInv bars requests m s' ∧ (∀ u, u ≠ t → BarRely bars requests m u s s') ∧
      Moved bars requests m t id (n + size) s' := by
  obtain ⟨hbuffer, hmemory⟩ := h.write hwrite
  have hwrap : n + size ≤ 2 ^ w.bits :=
    hn.trans ((Nat.le_add_left _ _).trans (hfits.trans (bars (requests id).bar).length_le))
  obtain ⟨data, hdata, hlength⟩ : ∃ data, ((s.buffer id).drop n).take size = data ∧
      data.length = size := by
    refine ⟨_, rfl, ?_⟩
    rw [List.length_take, List.length_drop, h.length]
    omega
  have hmemory' : s'.memory = s.memory.store
      (((requests id).block bars).start + BitVec.ofNat w.bits n) data := by
    rw [hs, ← hdata]
    rfl
  obtain ⟨hi', hothers⟩ : BarInv bars requests m s' ∧
      ∀ u, u ≠ t → BarRely bars requests m u s s' := by
    refine hi.access h.working (by rw [hs]; rfl) (by rw [hs]; rfl) (by rw [hs]; rfl)
      (fun id' _ => by rw [hs]; rfl) fun a hne => ⟨hserved, hwrite, ?_⟩
    by_contra hout
    refine hne ?_
    rw [hmemory']
    refine Memory.store_of_not_inBlock fun hin => hout ?_
    rw [hlength] at hin
    exact ((Memory.inBlock_add hwrap).mp hin).2.trans_le hn
  refine ⟨hi', hothers, ?_, ?_, hn, fun hread => ?_, fun _ => ⟨?_, ?_⟩⟩
  · rw [hs]
    exact h.working
  · rw [hs]
    exact h.length
  · exact absurd (hread.symm.trans hwrite) Bool.false_ne_true
  · rw [hs]
    exact hbuffer
  · have hall : (s.memory.load ((requests id).block bars).start (n + size)).drop (n + size) = [] :=
      List.drop_eq_nil_of_le (by rw [Memory.length_load])
    rw [hmemory', Memory.load_store_within (by omega) hwrap, splice, hlength, hall,
      List.append_nil, Memory.take_load (Nat.le_add_right n size), hmemory, ← hdata, hbuffer,
      ← List.take_add]

/-- The request is completed, and takes effect now. -/
theorem BarInv.complete (hi : BarInv bars requests m s) (hwork : s.working t = some id)
    (hdone : (requests id).Served →
      Moved bars requests m t id (requests id).request.length.toNat s)
    (hs : s' = s.act t (.complete id (requests id).result.1 (requests id).result.2)) :
    BarInv bars requests m s' ∧ (∀ u, u ≠ t → BarRely bars requests m u s s') ∧
      s'.working t = none := by
  have hworking : ∀ u, u ≠ t → s'.working u = s.working u := fun u hut => by
    rw [hs]
    exact Function.update_of_ne hut ..
  have hidle : s'.working t = none := by
    rw [hs]
    exact Function.update_self ..
  have hmemory : s'.memory = s.memory := by rw [hs]; rfl
  have hpresented : s'.presented = s.presented := by rw [hs]; rfl
  have hcompletions : s'.completions = s.completions ++
      [⟨id, (requests id).result.1, (requests id).result.2, s.buffer id⟩] := by rw [hs]; rfl
  have hstored : s'.stored bars requests m =
      (requests id).store bars (s.buffer id) (s.stored bars requests m) := by
    rw [BarWorld.stored, hcompletions]
    exact storeAll_append
  have hbrings : (requests id).Brings bars (s.buffer id) (s.stored bars requests m) := by
    intro hserved
    obtain ⟨-, hlength, -, hread, hwrite⟩ := hdone hserved
    cases hdir : (requests id).write with
    | true => exact (hwrite hdir).1
    | false =>
      have hall := hread hdir
      rwa [List.take_of_length_le hlength.le] at hall
  have hother : ∀ u id', s'.working u = some id' → u ≠ t ∧ s.working u = some id' := by
    intro u id' hu
    have hut : u ≠ t := by
      rintro rfl
      rw [hidle] at hu
      cases hu
    exact ⟨hut, hworking u hut ▸ hu⟩
  have hkept : ∀ a, ((requests id).Served → (requests id).write = true →
      ¬ InBlock ((requests id).block bars).start ((requests id).block bars).length a) →
      s'.stored bars requests m a = s.stored bars requests m a := by
    intro a ha
    rw [hstored, BarRequest.store]
    split
    · next hown =>
      refine Memory.store_of_not_inBlock ?_
      rw [(hdone hown.1).length]
      exact ha hown.1 hown.2
    · rfl
  refine ⟨⟨?_, fun a ha => ?_, fun u v id' id'' huv hu hv => ?_, fun u id' hu => ?_,
    fun x hx => ?_, ?_⟩, fun u hut => ⟨hworking u hut, fun _ _ => by rw [hs]; rfl,
      fun id' hu hserved a ha => ⟨by rw [hmemory], hkept a fun hown hwrite hin => ?_⟩⟩, hidle⟩
  · rw [hcompletions]
    exact hi.inTurn.append rfl hbrings
  · rw [hmemory]
    by_cases hown : (requests id).Served ∧ (requests id).write = true ∧
        InBlock ((requests id).block bars).start ((requests id).block bars).length a
    · obtain ⟨hserved, hwrite, hin⟩ := hown
      obtain ⟨hbuffer, hload⟩ := (hdone hserved).write hwrite
      rw [List.take_of_length_le (requests id).length.le] at hload
      rw [hstored, BarRequest.store, if_pos ⟨hserved, hwrite⟩, hbuffer]
      have hback : ((s.stored bars requests m).store ((requests id).block bars).start
          (requests id).memory).load ((requests id).block bars).start
            (requests id).request.length.toNat = (requests id).memory :=
        Memory.load_store (requests id).length (requests id).request.length.isLt.le
      exact Memory.eq_of_load_eq (hload.trans hback.symm) hin
    · rw [hkept a fun hserved hwrite hin => hown ⟨hserved, hwrite, hin⟩]
      refine hi.settled a ?_
      rintro ⟨u, id', hu, hserved, hwrite, hin⟩
      by_cases hut : u = t
      · subst hut
        cases hwork.symm.trans hu
        exact hown ⟨hserved, hwrite, hin⟩
      · exact ha ⟨u, id', (hworking u hut).trans hu, hserved, hwrite, hin⟩
  · exact hi.apart u v id' id'' huv (hother u id' hu).2 (hother v id'' hv).2
  · rw [hpresented]
    exact hi.early u id' (hother u id' hu).2
  · rw [hpresented]
    rw [hcompletions] at hx
    rcases List.mem_append.mp hx with hx | hx
    · obtain ⟨hearly, hnone⟩ := hi.past x hx
      exact ⟨hearly, fun u hu => hnone u (hother u x.id hu).2⟩
    · cases List.mem_singleton.mp hx
      refine ⟨hi.early t id hwork, fun u hu => ?_⟩
      obtain ⟨hut, hu⟩ := hother u id hu
      exact (hi.apart u t id id hut hu hwork).1 rfl
  · rw [hcompletions, List.map_append, List.map_singleton]
    refine hi.once.append (List.nodup_singleton _) ?_
    intro id' hid' hin
    cases List.mem_singleton.mp hin
    obtain ⟨x, hx, rfl⟩ := List.mem_map.mp hid'
    exact (hi.past x hx).2 t hwork
  · exact (hi.apart t u id id' hut.symm hwork hu).2 hown hserved (.inl hwrite) a hin ha

/-- The next request is presented to an idle thread. -/
theorem BarInv.present (hi : BarInv bars requests m s) (hidle : s.working t = none)
    (hbars : ∀ i j, i ≠ j → (bars i).block.Disjoint (bars j).block)
    (hfits : ∀ id, (requests id).Served → (requests id).request.fits (bars (requests id).bar))
    (hfree : ∀ u, ∀ id' ∈ s.working u, ¬ (requests id).Conflict (requests id'))
    (hid : id = s.presented)
    (hs : s' = { s with
      buffer := Function.update s.buffer id (requests id).memory
      presented := id + 1
      working := Function.update s.working t (some id) }) :
    BarInv bars requests m s' ∧ (∀ u, u ≠ t → BarRely bars requests m u s s') ∧
      s'.working t = some id ∧ Moved bars requests m t id 0 s' := by
  have hworking : ∀ u, u ≠ t → s'.working u = s.working u := fun u hut => by
    rw [hs]
    exact Function.update_of_ne hut ..
  have hwork : s'.working t = some id := by
    rw [hs]
    exact Function.update_self ..
  have hbuffer : s'.buffer id = (requests id).memory := by
    rw [hs]
    exact Function.update_self ..
  have hpresented : s'.presented = id + 1 := by rw [hs]
  have hcompletions : s'.completions = s.completions := by rw [hs]
  have hmemory : s'.memory = s.memory := by rw [hs]
  have hstored : s'.stored bars requests m = s.stored bars requests m := by
    rw [BarWorld.stored, hcompletions, BarWorld.stored]
  have hnew : ∀ u id', u ≠ t → s'.working u = some id' → id' < id ∧ ((requests id).Served →
      (requests id').Served → (requests id).write = true ∨ (requests id').write = true →
        ((requests id).block bars).Disjoint ((requests id').block bars)) := by
    intro u id' hut hu
    rw [hworking u hut] at hu
    exact ⟨hid ▸ hi.early u id' hu, fun hserved hserved' hwrite =>
      BarRequest.disjoint_of_not_conflict hbars (hfits id hserved) (hfits id' hserved') hserved
        hserved' hwrite (hfree u id' hu)⟩
  refine ⟨⟨?_, fun a ha => ?_, fun u v id' id'' huv hu hv => ?_, fun u id' hu => ?_,
    fun x hx => ?_, ?_⟩, fun u hut => ⟨hworking u hut, fun id' hu => ?_,
      fun _ _ _ a _ => ⟨by rw [hmemory], by rw [hstored]⟩⟩, hwork, hwork, ?_, Nat.zero_le _,
      fun _ => rfl, fun _ => ⟨hbuffer, rfl⟩⟩
  · rw [hcompletions]
    exact hi.inTurn
  · rw [hmemory, hstored]
    refine hi.settled a ?_
    rintro ⟨u, id', hu, hchanging⟩
    have hut : u ≠ t := by
      rintro rfl
      rw [hidle] at hu
      cases hu
    exact ha ⟨u, id', (hworking u hut).trans hu, hchanging⟩
  · by_cases hut : u = t
    · subst hut
      cases hwork.symm.trans hu
      obtain ⟨hlt, hdisjoint⟩ := hnew v id'' huv.symm hv
      exact ⟨hlt.ne', hdisjoint⟩
    · by_cases hvt : v = t
      · subst hvt
        cases hwork.symm.trans hv
        obtain ⟨hlt, hdisjoint⟩ := hnew u id' hut hu
        exact ⟨hlt.ne, fun hserved hserved' hwrite a ha ha' =>
          hdisjoint hserved' hserved hwrite.symm a ha' ha⟩
      · exact hi.apart u v id' id'' huv (hworking u hut ▸ hu) (hworking v hvt ▸ hv)
  · rw [hpresented]
    by_cases hut : u = t
    · subst hut
      cases hwork.symm.trans hu
      exact Nat.lt_succ_self _
    · exact (hnew u id' hut hu).1.trans (Nat.lt_succ_self _)
  · rw [hpresented]
    rw [hcompletions] at hx
    obtain ⟨hlt, hnone⟩ := hi.past x hx
    rw [← hid] at hlt
    refine ⟨hlt.trans (Nat.lt_succ_self _), fun u hu => ?_⟩
    by_cases hut : u = t
    · subst hut
      cases hwork.symm.trans hu
      exact absurd hlt (Nat.lt_irrefl _)
    · exact hnone u (hworking u hut ▸ hu)
  · rw [hcompletions]
    exact hi.once
  · rw [hs]
    refine Function.update_of_ne ?_ ..
    rw [hid]
    exact (hi.early u id' hu).ne
  · rw [hbuffer, (requests id).length]

/-! ## The routines -/

/-- The units of the access make up the request. -/
theorem registerBuffer_barSafe (hfits : (requests id).request.fits (bars (requests id).bar))
    (hserved : (requests id).Served) (h : Moved bars requests m t id 0 s) :
    BarSafe bars requests m t
      (registerBuffer (requests id).write id
        (barAccess ((requests id).block bars).start (requests id).request.length))
      (fun _ => Moved bars requests m t id (requests id).request.length.toNat) s := by
  have hulong : (requests id).request.length.toNat < 2 ^ 32 :=
    ((Nat.le_add_left _ _).trans hfits).trans_lt (bars (requests id).bar).barLength.isLt
  have hcount := (unitSize_mul_count (requests id).request.length).mpr hulong
  rw [barAccess_eq, registerBuffer]
  refine Safe.mono (Safe.forRange (fun k => Moved bars requests m t id
    (unitSize (requests id).request.length * k)) (Moved.stable hserved) h fun k hk s h => ?_)
    fun _ s h => ?_
  · have hn : unitSize (requests id).request.length * k +
        unitSize (requests id).request.length ≤ (requests id).request.length.toNat := by
      rw [← Nat.mul_succ, ← hcount]
      exact Nat.mul_le_mul_left _ hk
    cases hdir : (requests id).write with
    | true =>
      refine Safe.perform _ (Moved.stable hserved) (fun _ => Moved.stable hserved) h
        fun s r s' hi h _ ha => ?_
      cases ha
      exact hi.writeRegister hfits hserved hdir h hn rfl
    | false =>
      refine Safe.perform _ (Moved.stable hserved) (fun _ => Moved.stable hserved) h
        fun s r s' hi h _ ha => ?_
      cases ha
      exact hi.readRegister hfits hserved hdir h hn rfl
  · have hall : Moved bars requests m t id (unitSize (requests id).request.length *
        ((requests id).request.length.toNat % 2 ^ 32 / unitSize (requests id).request.length))
          s := h
    rwa [hcount] at hall

theorem evtIoBar_barSafe
    (hfits : (requests id).Served → (requests id).request.fits (bars (requests id).bar))
    (hwork : s.working t = some id) (h : Moved bars requests m t id 0 s) :
    BarSafe bars requests m t (evtIoBar bars (requests id) id)
      (fun _ s => s.working t = none) s := by
  obtain ⟨hcompleted, haccesses⟩ := BarRequest.outcome_spec bars (requests id)
  have hdone : BarSafe bars requests m t
      (Prog.forEach ((requests id).outcome bars).accesses (registerBuffer (requests id).write id))
      (fun _ => Finished bars requests m t id) s := by
    rw [haccesses]
    split
    · next hserved =>
      refine (registerBuffer_barSafe (hfits hserved) hserved h).bind fun _ s h => ?_
      exact Safe.ret Finished.stable ⟨h.working, fun _ => h⟩
    · next hnot => exact Safe.ret Finished.stable ⟨hwork, fun hserved => absurd hserved hnot⟩
  unfold evtIoBar
  rw [hcompleted]
  refine hdone.bind fun _ s h => ?_
  refine Safe.perform _ Finished.stable (fun _ => Stable.idle) h fun s r s' hi h _ ha => ?_
  cases ha
  exact hi.complete h.1 h.2 rfl

/-! ## Every run -/

section
variable {T : Type} [DecidableEq T] {c : Config (BarOp w) BarOp.Res (BarWorld w T) T}

theorem barInv_of_reach (hbars : ∀ i j, i ≠ j → (bars i).block.Disjoint (bars j).block)
    (hfits : ∀ id, (requests id).Served → (requests id).request.fits (bars (requests id).bar))
    (h : (barThreads T bars requests).Reach (conflictFree requests) (barConfig T m) c) :
    BarInv bars requests m c.state := by
  refine (Reach.safe (I := BarInv bars requests m) (R := BarRely bars requests m)
    (Q := fun t s => s.working t = none) ?_
    (fun t => Safe.ret (Q := fun _ (s : BarWorld w T) => s.working t = none) Stable.idle rfl)
    (fun e => e.elim) ?_ h).1
  · refine ⟨trivial, fun _ _ => rfl, ?_, ?_, ?_, List.nodup_nil⟩
    · exact fun t u id id' _ ht => by cases ht
    · exact fun t id ht => by cases ht
    · exact fun x hx => by cases hx
  · intro t id s s' p hi hidle hfree hstart
    simp only [barThreads] at hstart
    split at hstart
    · next hid =>
      cases hstart
      obtain ⟨hi', hothers, hwork, hmoved⟩ := hi.present hidle hbars hfits hfree hid rfl
      exact ⟨hi', hothers, evtIoBar_barSafe (hfits id) hwork hmoved⟩
    · cases hstart

/-- As long as there are no conflicts, each request is completed once and has taken effect then, as
one on a file of bytes; and a BAR to which no write is under way holds what is in its file. -/
theorem barFiles_of_reach [DecidableEq ι]
    (hbars : ∀ i j, i ≠ j → (bars i).block.Disjoint (bars j).block)
    (hfits : ∀ id, (requests id).Served → (requests id).request.fits (bars (requests id).bar))
    (h : (barThreads T bars requests).Reach (conflictFree requests) (barConfig T m) c) :
    (c.state.completions.map BarCompletion.id).Nodup ∧
      ∃ contents, replay requests c.state.completions (barContents bars m) = some contents ∧
        ∀ i, (∀ t id, c.state.working t = some id → (requests id).bar = i →
          (requests id).write = false) → barContents bars c.state.memory i = contents i := by
  have hi := barInv_of_reach hbars hfits h
  refine ⟨hi.once, _, replay_of_inTurn hbars hfits hi.inTurn, fun i hquiet => ?_⟩
  refine Memory.load_congr fun a ha => hi.settled a ?_
  rintro ⟨t, id, ht, hserved, hwrite, hin⟩
  have hbar : (requests id).bar = i := by
    by_contra hne
    exact hbars _ _ hne a (BarRequest.inBlock_bar (hfits id hserved) hin) ha
  exact Bool.false_ne_true ((hquiet t id ht hbar).symm.trans hwrite)

end

/-! ## Two requests at a time -/

/-- The user BAR and the bypass BAR. -/
def sampleBars : Bool → Bar .w64
  | false => ⟨0x10000, 0x10, by decide⟩
  | true => ⟨0x20000, 0x10, by decide⟩

def sampleData : List (BitVec 8) := [1, 2, 3, 4, 5, 6, 7, 8]

def eightBytes (write : Bool) (offset : BitVec 64) : BarRequest .w64 Bool :=
  ⟨.xdma, write, .user, .inl rfl, false, ⟨offset, 8, statusSuccess, 0, 0⟩,
    if write then sampleData else List.replicate 8 0, by cases write <;> rfl⟩

/-- A write, a read behind it, and a read of what was written. -/
def sampleRequests : Nat → BarRequest .w64 Bool
  | 0 => eightBytes true 0
  | 1 => eightBytes false 8
  | _ => eightBytes false 0

theorem sampleBars_disjoint (i j : Bool) (h : i ≠ j) :
    (sampleBars i).block.Disjoint (sampleBars j).block := by
  have hle : (sampleBars false).block.Disjoint (sampleBars true).block :=
    Memory.disjoint_of_le (by decide) (by decide)
  cases i <;> cases j
  · exact absurd rfl h
  · exact hle
  · exact fun a ha ha' => hle a ha' ha
  · exact absurd rfl h

theorem eightBytes_fits {write : Bool} {offset : BitVec 64} (h : offset.toNat ≤ 8) :
    (eightBytes write offset).request.fits (sampleBars (eightBytes write offset).bar) := by
  change (offset.setWidth 64).toNat + 8 ≤ 0x10
  rw [BitVec.setWidth_eq]
  omega

instance (requests : Nat → BarRequest .w64 Bool) (s : BarWorld .w64 Bool)
    (l : Label (BarOp .w64) BarOp.Res Bool Empty Nat) : Decidable (conflictFree requests s l) :=
  match l with
  | .start _ id =>
    inferInstanceAs (Decidable (∀ t, ∀ id' ∈ s.working t, ¬ (requests id).Conflict (requests id')))
  | .call .. | .env _ => inferInstanceAs (Decidable True)

abbrev BarLabel := Label (BarOp .w64) BarOp.Res Bool Empty Nat

/-- The two units of a read of eight bytes. -/
def barReadSteps (t : Bool) (id : Nat) (addr : BitVec PointerWidth.w64.bits) : List BarLabel :=
  [.call t (.readRegister id addr 4 0) (), .call t (.readRegister id (addr + 4) 4 4) ()]

theorem barFiles_side_by_side : ∃ c,
    (barThreads Bool sampleBars sampleRequests).Reach (conflictFree sampleRequests)
      (barConfig Bool fun _ => 0) c ∧
      c.state.completions.map (fun x => (x.id, x.data)) =
        [(1, List.replicate 8 0), (0, sampleData), (2, sampleData)] ∧
      ∃ contents, replay sampleRequests c.state.completions (barContents sampleBars fun _ => 0) =
        some contents := by
  have hrun : ∃ c, (barThreads Bool sampleBars sampleRequests).Reach (conflictFree sampleRequests)
      (barConfig Bool fun _ => 0) c ∧
      (c.state.completions.map (fun x => (x.id, x.data)) ==
        [(1, List.replicate 8 0), (0, sampleData), (2, sampleData)]) = true :=
    Reach.exists_of_run ([.start false 0, .start true 1,
        .call false (.writeRegister 0 0x10000 4 0) ()] ++ barReadSteps true 1 0x10008 ++
      [.call false (.writeRegister 0 0x10004 4 4) (), .call true (.complete 1 statusSuccess 8) (),
        .call false (.complete 0 statusSuccess 8) (), .start true 2] ++
      barReadSteps true 2 0x10000 ++ [.call true (.complete 2 statusSuccess 8) ()])
      (fun s : BarWorld .w64 Bool => s.completions.map (fun x => (x.id, x.data)) ==
        [(1, List.replicate 8 0), (0, sampleData), (2, sampleData)]) (by decide)
  obtain ⟨c, hc, h⟩ := hrun
  have hfits : ∀ id, (sampleRequests id).Served →
      (sampleRequests id).request.fits (sampleBars (sampleRequests id).bar) := fun id _ =>
    match id with
    | 0 | 1 | _ + 2 => eightBytes_fits (by decide)
  obtain ⟨-, contents, hreplay, -⟩ := barFiles_of_reach sampleBars_disjoint hfits hc
  exact ⟨c, hc, eq_of_beq h, contents, hreplay⟩

/-- A write and a read of the same bytes. -/
def tornRequests (id : Nat) : BarRequest .w64 Bool := eightBytes (id == 0) 0

/-- A read that goes on next to a write of the same eight bytes gets four bytes of before and four
of after: it has no place in any order. -/
theorem barFiles_torn : ∃ c,
    (barThreads Bool sampleBars tornRequests).Reach (fun _ _ => True)
      (barConfig Bool fun _ => 0) c ∧
      c.state.completions.length = 2 ∧
      ∀ xs ∈ [c.state.completions, c.state.completions.reverse],
        replay tornRequests xs (barContents sampleBars fun _ => 0) = none := by
  have hrun : ∃ c, (barThreads Bool sampleBars tornRequests).Reach (fun _ _ => True)
      (barConfig Bool fun _ => 0) c ∧
      (c.state.completions == [⟨0, statusSuccess, 8, sampleData⟩,
        ⟨1, statusSuccess, 8, [0, 0, 0, 0, 5, 6, 7, 8]⟩]) = true :=
    Reach.exists_of_run [.start false 0, .start true 1, .call true (.readRegister 1 0x10000 4 0) (),
        .call false (.writeRegister 0 0x10000 4 0) (),
        .call false (.writeRegister 0 0x10004 4 4) (), .call false (.complete 0 statusSuccess 8) (),
        .call true (.readRegister 1 0x10004 4 4) (), .call true (.complete 1 statusSuccess 8) ()]
      (fun s : BarWorld .w64 Bool => s.completions == [⟨0, statusSuccess, 8, sampleData⟩,
        ⟨1, statusSuccess, 8, [0, 0, 0, 0, 5, 6, 7, 8]⟩]) (by decide)
  obtain ⟨c, hc, h⟩ := hrun
  refine ⟨c, hc, ?_⟩
  rw [eq_of_beq h]
  exact ⟨rfl, by decide⟩

end Xadma
