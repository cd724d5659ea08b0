import Xadma.Theory.Jobs
import Xadma.Device.ParallelEngines
import Xadma.Verify.DmaMemory

/-!
# Requests on several engines at the same time

The engines of a device make the transfers of their requests in any order. Where no request is
presented that conflicts with one under way on another engine, the requests are jobs whose pieces
commute: it is as if each of them had been served alone, in the order of the completions.
-/

namespace Xadma

open Threads

/-! ## Transfers that do not get in each other's way -/

def WdfDmaDirection.source : WdfDmaDirection → MemorySide
  | .writeToDevice => .host
  | .readFromDevice => .card

def WdfDmaDirection.target : WdfDmaDirection → MemorySide
  | .writeToDevice => .card
  | .readFromDevice => .host

def Transfer.block (t : Transfer) : MemorySide → Block 64
  | .host => ⟨t.hostAddr, t.length.toNat⟩
  | .card => ⟨t.deviceAddr, t.length.toNat⟩

/-- The transfer writes to the address on a side. -/
def Transfer.Writes (d : WdfDmaDirection) (t : Transfer) (p : MemorySide) (a : BitVec 64) : Prop :=
  p = d.target ∧ InBlock (t.block p).start (t.block p).length a

/-- Neither writes what the other one reads or writes. -/
def Transfer.Apart (d : WdfDmaDirection) (t : Transfer) (d' : WdfDmaDirection) (t' : Transfer) :
    Prop :=
  (t.block d.target).Disjoint (t'.block d.target) ∧
    (t.block d'.target).Disjoint (t'.block d'.target)

instance (d : WdfDmaDirection) (t : Transfer) (d' : WdfDmaDirection) (t' : Transfer) :
    Decidable (t.Apart d d' t') :=
  inferInstanceAs (Decidable (_ ∧ _))

variable {d d' : WdfDmaDirection} {t t' : Transfer} {ts : List Transfer} {m m' : Memories}
  {p : MemorySide} {a : BitVec 64}

theorem Memories.ext_side (h : ∀ p a, m.side p a = m'.side p a) : m = m' := by
  obtain ⟨host, card⟩ := m
  obtain ⟨host', card'⟩ := m'
  have hhost : host = host' := funext (h .host)
  have hcard : card = card' := funext (h .card)
  rw [hhost, hcard]

theorem Transfer.Apart.symm (h : t.Apart d d' t') : t'.Apart d' d t := ⟨h.2.symm, h.1.symm⟩

theorem Transfer.side_run : (t.run d m).side p =
    if p = d.target then
      (m.side p).store (t.block p).start
        ((m.side d.source).load (t.block d.source).start t.length.toNat)
    else m.side p := by
  cases d <;> cases p <;> rfl

theorem Transfer.length_block : (t.block p).length = t.length.toNat := by
  cases p <;> rfl

theorem Transfer.run_of_not_writes (h : ¬ t.Writes d p a) : (t.run d m).side p a = m.side p a := by
  rw [side_run]
  split
  · next hp =>
    apply Memory.store_of_not_inBlock
    rw [Memory.length_load, ← length_block]
    exact fun hin => h ⟨hp, hin⟩
  · rfl

/-- What a transfer writes depends on what it reads only. -/
theorem Transfer.run_congr (hw : t.Writes d p a)
    (h : ∀ b, InBlock (t.block d.source).start (t.block d.source).length b →
      m'.side d.source b = m.side d.source b) :
    (t.run d m').side p a = (t.run d m).side p a := by
  obtain ⟨hp, ha⟩ := hw
  have hlen : t.length.toNat ≤ 2 ^ 64 := by
    have := t.length.isLt
    omega
  rw [length_block] at ha
  have hread : (m'.side d.source).load (t.block d.source).start t.length.toNat =
      (m.side d.source).load (t.block d.source).start t.length.toNat :=
    Memory.load_congr fun b hb => h b (length_block ▸ hb)
  rw [side_run, side_run, if_pos hp, if_pos hp, hread]
  apply Memory.store_congr
  · rw [Memory.length_load]
    exact hlen
  · rw [Memory.length_load]
    exact ha

/-- What one of them writes is not changed by the other one, before it or behind it. -/
theorem Transfer.Apart.run_run (h : t.Apart d d' t') (hw : t.Writes d p a) :
    (t.run d (t'.run d' m)).side p a = (t.run d m).side p a ∧
      (t'.run d' (t.run d m)).side p a = (t.run d m).side p a := by
  constructor
  · refine run_congr hw fun b hb => run_of_not_writes ?_
    rintro ⟨hside, hb'⟩
    rw [hside] at hb hb'
    exact h.2 b hb hb'
  · refine run_of_not_writes ?_
    rintro ⟨-, ha'⟩
    obtain ⟨rfl, ha⟩ := hw
    exact h.1 a ha ha'

theorem Transfer.Apart.commute (h : t.Apart d d' t') :
    Function.Commute (t.run d) (t'.run d') := by
  intro m
  apply Memories.ext_side
  intro p a
  by_cases hw : t.Writes d p a
  · obtain ⟨hbehind, hbefore⟩ := h.run_run hw (m := m)
    rw [hbehind, hbefore]
  · by_cases hw' : t'.Writes d' p a
    · obtain ⟨hbehind, hbefore⟩ := h.symm.run_run hw' (m := m)
      rw [hbehind, hbefore]
    · rw [run_of_not_writes hw, run_of_not_writes hw', run_of_not_writes hw', run_of_not_writes hw]

/-! ## Requests -/

/-- Neither request writes what the other one reads or writes. -/
def DmaRequest.Apart (e : TransferEngine) (req : DmaRequest) (e' : TransferEngine)
    (req' : DmaRequest) : Prop :=
  ∀ t ∈ req.planned e req.fragments, ∀ t' ∈ req'.planned e' req'.fragments,
    t.Apart e.direction e'.direction t'

instance (e : TransferEngine) (req : DmaRequest) (e' : TransferEngine) (req' : DmaRequest) :
    Decidable (req.Apart e e' req') :=
  inferInstanceAs (Decidable (∀ t ∈ _, ∀ t' ∈ _, Transfer.Apart _ t _ t'))

/-- The request writes to the address on a side, unless it fails before. -/
def DmaRequest.Writes (e : TransferEngine) (req : DmaRequest) (p : MemorySide) (a : BitVec 64) :
    Prop :=
  ∃ t ∈ req.planned e req.fragments, t.Writes e.direction p a

section
variable {e : TransferEngine} {req : DmaRequest} {s s' : DmaWorld} {id : Nat} {l : SgLabel}
  {c c' : DmaConfig} {request : Nat → DmaRequest} {descBuffer : Nat → DmaDescriptor}

theorem DmaWorld.underWay_eq_some : s.underWay = some id ↔ Current s.transfer.wdf id := by
  unfold underWay
  constructor
  · intro h
    split at h
    · cases h
    · next n hpresented =>
      split at h
      · next hempty =>
        cases h
        exact ⟨hpresented.symm, List.isEmpty_iff.mp hempty⟩
      · cases h
  · rintro ⟨hlast, huncompleted⟩
    rw [← hlast]
    simp [huncompleted]

theorem DmaWorld.underWay_eq_none
    (h : ∀ k < s.transfer.wdf.presented, s.transfer.wdf.completions k ≠ []) :
    s.underWay = none := by
  rw [Option.eq_none_iff_forall_ne_some]
  intro id hid
  have hcurrent := underWay_eq_some.mp hid
  have hlast := hcurrent.last
  exact h id (by omega) hcurrent.uncompleted

theorem DmaWorld.underWay_congr (hpresented : s'.transfer.wdf.presented = s.transfer.wdf.presented)
    (hcompletions : s'.transfer.wdf.completions = s.transfer.wdf.completions) :
    s'.underWay = s.underWay := by
  rw [underWay, hpresented, hcompletions, underWay]

/-- What a step of an engine is to the other ones. -/
inductive DmaChange (d : WdfDmaDirection) (s s' : DmaWorld) (l : SgLabel) : Prop
  | present {id bound : Nat} (hlabel : l = .start (.dispatch id) (.present bound))
    (hidle : s.underWay = none) (hunder : s'.underWay = some id) (hfresh : s.moved id = [])
    (huncompleted : s.transfer.wdf.completions id = []) (hmoved : s'.moved = s.moved)
    (hcompletions : s'.transfer.wdf.completions = s.transfer.wdf.completions)
  | work {id : Nat} (hlabel : SgLabel.completes l = none) (hunder : s.underWay = some id)
    (hunder' : s'.underWay = some id)
    (hmoved : s'.moved = Function.update s.moved id (s.moved id ++ SgLabel.transfers d s l))
    (hcompletions : s'.transfer.wdf.completions = s.transfer.wdf.completions)
  | complete {id : Nat} {result : NtStatus × Nat} (hlabel : SgLabel.completes l = some (id, result))
    (htransfers : SgLabel.transfers d s l = []) (hunder : s.underWay = some id)
    (hover : s'.underWay = none) (hmoved : s'.moved = s.moved)
    (huncompleted : s.transfer.wdf.completions id = [])
    (hcompletions : s'.transfer.wdf.completions =
      Function.update s.transfer.wdf.completions id [result])
  | silent (hlabel : SgLabel.completes l = none) (htransfers : SgLabel.transfers d s l = [])
    (hunder : s'.underWay = s.underWay) (hmoved : s'.moved = s.moved)
    (hcompletions : s'.transfer.wdf.completions = s.transfer.wdf.completions)

/-- A request is completed when it is under way. -/
theorem DmaChange.of_complete {t : TransferThread} {status : NtStatus} {information : Nat}
    (hi : DmaInv e request s) (hi' : DmaInv e request s')
    (h : DmaWorld.act e t (.complete id status information) s () = some s') :
    DmaChange e.direction s s' (.call t (.complete id status information) ()) := by
  obtain ⟨-, hwdf, -, hmoved, -⟩ := DmaWorld.act_eq_some.mp h
  have hwdf' := Option.some.inj hwdf
  have hcompletions : s'.transfer.wdf.completions = Function.update s.transfer.wdf.completions id
      (s.transfer.wdf.completions id ++ [(status, information)]) := by
    rw [← hwdf']
    rfl
  have hpresented : s'.transfer.wdf.presented = s.transfer.wdf.presented := by
    rw [← hwdf']
    rfl
  have hself : s'.transfer.wdf.completions id =
      s.transfer.wdf.completions id ++ [(status, information)] := by
    rw [hcompletions, Function.update_self]
  have huncompleted : s.transfer.wdf.completions id = [] := by
    have honce := hi'.once id
    rw [hself, List.length_append, List.length_singleton] at honce
    exact List.length_eq_zero_iff.mp (by omega)
  rw [huncompleted, List.nil_append] at hself hcompletions
  have hlast : id + 1 = s.transfer.wdf.presented := by
    by_contra hne
    rcases Nat.lt_or_gt_of_ne hne with hlt | hgt
    · exact hi.earlier id hlt huncompleted
    · have hfresh := (hi'.fresh id (by omega)).2
      rw [hself] at hfresh
      cases hfresh
  refine .complete rfl rfl (DmaWorld.underWay_eq_some.mpr ⟨hlast, huncompleted⟩)
    (DmaWorld.underWay_eq_none fun k hk => ?_) hmoved huncompleted hcompletions
  rw [hcompletions]
  by_cases hkid : k = id
  · subst hkid
    rw [Function.update_self]
    exact List.cons_ne_nil _ _
  · rw [Function.update_of_ne hkid]
    exact hi.earlier k (by omega)

/-- Every other call is nothing to the other engines. -/
theorem DmaChange.of_call {t : TransferThread} {o : TransferOp} {r : o.Res}
    (hi : DmaInv e request s) (hi' : DmaInv e request s')
    (h : DmaWorld.act e t o s r = some s') : DmaChange e.direction s s' (.call t o r) := by
  have hsilent : SgLabel.completes (.call t o r) = none →
      s'.transfer.wdf.presented = s.transfer.wdf.presented ∧
        s'.transfer.wdf.completions = s.transfer.wdf.completions →
      DmaChange e.direction s s' (.call t o r) := fun hlabel hkeeps =>
    .silent hlabel rfl (DmaWorld.underWay_congr hkeeps.1 hkeeps.2)
      (DmaWorld.act_eq_some.mp h).2.2.2.1 hkeeps.2
  have hwdf := (DmaWorld.act_eq_some.mp h).2.1
  cases o with
  | complete id status information => exact .of_complete hi hi' h
  | engineStart =>
    have hsame : s'.transfer.wdf = s.transfer.wdf := (Option.some.inj hwdf).symm
    exact hsilent rfl ⟨congrArg _ hsame, congrArg _ hsame⟩
  | _ =>
    obtain ⟨hpresented, hcompletions, -⟩ := WdfSide.act_keeps (by trivial) hwdf
    exact hsilent rfl ⟨hpresented, hcompletions⟩

theorem DmaChange.of_env {ev : SgEvent} (hi : DmaInv e request s)
    (h : DmaWorld.env e ev s = some s') : DmaChange e.direction s s' (.env ev) := by
  cases ev with
  | fetch | fail _ =>
    obtain ⟨sg, -, rfl⟩ := Option.map_eq_some_iff.mp h
    exact .silent rfl rfl rfl rfl rfl
  | execute =>
    obtain ⟨x, hx, rfl⟩ := Option.map_eq_some_iff.mp h
    obtain ⟨-, id, past, sgList, chain, n, hrunning⟩ := hi.running fun hquiet => by
      simp only [SgEngine.execute, hquiet.idle] at hx
      cases hx
    have hcurrent : Current s.transfer.wdf id := hrunning.underWay.toCurrent
    have hid : s.transfer.wdf.presented - 1 = id := by
      have hlast := hcurrent.last
      omega
    have hunder := DmaWorld.underWay_eq_some.mpr hcurrent
    refine .work rfl hunder hunder ?_ rfl
    simp only [DmaWorld.move, SgLabel.transfers, hid, hx, Option.elim_some]

theorem DmaChange.of_start {t : TransferThread} {a : TransferCall} {q : TransferProg Unit}
    (hi : DmaInv e request s) (hi' : DmaInv e request s')
    (h : DmaWorld.begin e t a s = some (s', q)) :
    DmaChange e.direction s s' (.start t a) := by
  simp only [DmaWorld.begin, Option.bind_eq_bind, Option.pure_def] at h
  obtain ⟨⟨transfer, q'⟩, htransfer, h⟩ := Option.bind_eq_some_iff.mp h
  obtain ⟨id, bound, rfl, rfl, hid, hall, rfl, rfl⟩ | ⟨rfl, -, -, rfl, rfl⟩ |
    ⟨id, rfl, -⟩ := transferThreads_start_cases htransfer
  · cases h
    obtain ⟨hfresh, huncompleted⟩ := hi.fresh id hid.ge
    exact .present rfl (DmaWorld.underWay_eq_none (hid ▸ hall))
      (DmaWorld.underWay_eq_some.mpr ⟨rfl, huncompleted⟩) hfresh huncompleted rfl rfl
  · simp only at h
    split at h
    · cases h
      exact .silent rfl rfl rfl rfl rfl
    · cases h
  · cases h

theorem dmaChange_of_step
    (hc : (dmaThreads e).Reach (fun _ _ => True) (dmaConfig descBuffer request) c)
    (h : (dmaThreads e).step c l = some c') :
    DmaChange e.direction c.state c'.state l := by
  have hi := dmaInv_of_reach hc
  have hi' := dmaInv_of_reach (hc.step trivial h)
  cases l with
  | call t o r =>
    obtain ⟨k, s', -, ha, rfl⟩ := step_call_eq h
    exact .of_call hi hi' ha
  | env ev =>
    obtain ⟨s', ha, rfl⟩ := step_env_eq h
    exact .of_env hi ha
  | start t a =>
    obtain ⟨s', q, -, ha, rfl⟩ := step_start_eq h
    exact .of_start hi hi' ha

end

/-! ## Engines next to each other -/

section
variable {ι : Type}

/-- A request is presented when it does not conflict with those under way on the other engines. -/
def PresentsApart (e : ι → TransferEngine) (requests : ι → Nat → DmaRequest)
    (s : ParallelState ι) : ι × SgLabel → Prop
  | (i, .start (.dispatch id) _) => ∀ j, j ≠ i → ∀ id' ∈ (s.1 j).state.underWay,
      (requests i id).Apart (e i) (e j) (requests j id')
  | _ => True

/-- The requests are served one after the other, with the results that are reported for them. -/
def ServedInTurn (e : ι → TransferEngine) (requests : ι → Nat → DmaRequest) :
    List (DmaCompletion ι) → Memories → Memories → Prop
  | [], m, m' => m' = m
  | x :: xs, m, m' => ∃ moved,
      Truthful (e x.engine) (requests x.engine x.id) moved [x.result] ∧
      ServedInTurn e requests xs (runTransfers (e x.engine).direction moved m) m'

/-- A transfer of one of the engines. -/
def runPiece (x : WdfDmaDirection × Transfer) : Memories → Memories := x.2.run x.1

abbrev DmaJobs (ι : Type) := Jobs (ι × Nat) (WdfDmaDirection × Transfer) Memories

/-- The requests are the jobs, and their transfers the pieces. -/
structure Follows (e : ι → TransferEngine) (s : ParallelState ι) (t : DmaJobs ι) : Prop where
  memory : t.memory = s.2.memories
  pieces : ∀ i id, t.pieces (i, id) =
    ((s.1 i).state.moved id).map fun x => ((e i).direction, x)
  underWay : ∀ i id, (i, id) ∈ t.underWay ↔ (s.1 i).state.underWay = some id
  finished : t.finished = s.2.completed.map fun x => (x.engine, x.id)

theorem runTransfers_eq : runTransfers d ts m =
    runAll runPiece (ts.map fun x => (d, x)) m := by
  rw [runTransfers, runAll, List.foldl_map]
  rfl

theorem servedInTurn_of_truthful {e : ι → TransferEngine} {requests : ι → Nat → DmaRequest}
    {xs : List (DmaCompletion ι)} (moved : ι → Nat → List Transfer)
    (h : ∀ x ∈ xs, Truthful (e x.engine) (requests x.engine x.id) (moved x.engine x.id)
      [x.result]) :
    ServedInTurn e requests xs m (runAll runPiece (xs.flatMap fun x =>
      (moved x.engine x.id).map fun t => ((e x.engine).direction, t)) m) := by
  induction xs generalizing m with
  | nil => rfl
  | cons x xs ih =>
    rw [List.forall_mem_cons] at h
    refine ⟨_, h.1, ?_⟩
    rw [List.flatMap_cons, Jobs.runAll_append, ← runTransfers_eq]
    exact ih h.2

section
variable {e : ι → TransferEngine} {i : ι} {l : SgLabel} {x : SharedMemories ι} {c : DmaConfig}

theorem SharedMemories.memories_step (h : SgLabel.transfers (e i).direction c.state l = []) :
    (x.step e i l c).memories = x.memories := by
  rw [step, h]
  rfl

theorem SharedMemories.completed_step_of_none (h : SgLabel.completes l = none) :
    (x.step e i l c).completed = x.completed := by
  rw [step, h]
  exact List.append_nil _

theorem SharedMemories.completed_step {id : Nat} {result : NtStatus × Nat}
    (h : SgLabel.completes l = some (id, result)) :
    (x.step e i l c).completed = x.completed ++ [⟨i, id, result⟩] := by
  rw [step, h]
  rfl

end

variable [DecidableEq ι]

/-- The requests under way do not conflict, and the completions are recorded. -/
structure ParallelInv (e : ι → TransferEngine) (requests : ι → Nat → DmaRequest)
    (s : ParallelState ι) : Prop where
  apart : ∀ i j id id', i ≠ j → (s.1 i).state.underWay = some id →
    (s.1 j).state.underWay = some id' → (requests i id).Apart (e i) (e j) (requests j id')
  recorded : ∀ i id, (s.1 i).state.transfer.wdf.completions id =
    (s.2.completed.filter fun x => x.engine = i ∧ x.id = id).map DmaCompletion.result

variable {e : ι → TransferEngine} {requests : ι → Nat → DmaRequest} {s s' : ParallelState ι}
  {buffers : ι → Nat → DmaDescriptor} {u : DmaJobs ι} {i : ι} {l : SgLabel} {c' : DmaConfig}
  {ok : ParallelState ι → ι × SgLabel → Prop}

theorem DmaRequest.Apart.symm {e e' : TransferEngine} {req req' : DmaRequest}
    (h : req.Apart e e' req') : req'.Apart e' e req :=
  fun t ht t' ht' => (h t' ht' t ht).symm

/-- One engine, as it is in a run of all. -/
theorem engine_reach (h : (parallelEngines e).Reach ok (parallelState buffers requests m) s)
    (i : ι) : (dmaThreads (e i)).Reach (fun _ _ => True) (dmaConfig (buffers i) (requests i))
      (s.1 i) :=
  reach_of_runs (h.component i)

theorem parallel_step_cases
    (h : (parallelEngines e).Reach ok (parallelState buffers requests m) s)
    (hs : (parallelEngines e).step (i, l) s = some s') :
    ∃ c', DmaChange (e i).direction (s.1 i).state c'.state l ∧
      s'.1 = Function.update s.1 i c' ∧
      s'.2 = s.2.step e i l (s.1 i) := by
  obtain ⟨c', hc', hstate, hshared⟩ := Machine.sideBySide_step_eq hs
  exact ⟨c', dmaChange_of_step (engine_reach h i) hc', hstate, hshared⟩

/-- What an engine keeps in its step is kept of all of them. -/
theorem keeps_of_update {α : Type} {f : DmaWorld → α} (hstate : s'.1 = Function.update s.1 i c')
    (hkeeps : f c'.state = f (s.1 i).state) (j : ι) : f (s'.1 j).state = f (s.1 j).state := by
  rw [hstate]
  by_cases hj : j = i
  · subst hj
    rw [Function.update_self, hkeeps]
  · rw [Function.update_of_ne hj]

/-! ## The invariant -/

/-- A request that is under way now was so before, or it is presented in this step. -/
theorem underWay_cases (hchange : DmaChange (e i).direction (s.1 i).state c'.state l)
    (hok : PresentsApart e requests s (i, l)) (hstate : s'.1 = Function.update s.1 i c') {j : ι}
    {id : Nat} (hunder : (s'.1 j).state.underWay = some id) :
    (s.1 j).state.underWay = some id ∨
      j = i ∧ ∀ k id', k ≠ i → (s.1 k).state.underWay = some id' →
        (requests i id).Apart (e i) (e k) (requests k id') := by
  rw [hstate] at hunder
  by_cases hj : j = i
  · subst hj
    rw [Function.update_self] at hunder
    cases hchange with
    | @present id' bound hlabel _ hpresented =>
      subst hlabel
      cases hpresented.symm.trans hunder
      exact .inr ⟨rfl, fun k id' hk hid' => hok k hk id' hid'⟩
    | work _ hbefore hbehind => exact .inl (hbefore.trans (hbehind.symm.trans hunder))
    | complete _ _ _ hover => cases hover.symm.trans hunder
    | silent _ _ hsame => exact .inl (hsame.symm.trans hunder)
  · rw [Function.update_of_ne hj] at hunder
    exact .inl hunder

theorem ParallelInv.apart_step (hi : ParallelInv e requests s)
    (hchange : DmaChange (e i).direction (s.1 i).state c'.state l)
    (hok : PresentsApart e requests s (i, l)) (hstate : s'.1 = Function.update s.1 i c')
    {j k : ι} {id id' : Nat} (hjk : j ≠ k) (hj : (s'.1 j).state.underWay = some id)
    (hk : (s'.1 k).state.underWay = some id') :
    (requests j id).Apart (e j) (e k) (requests k id') := by
  rcases underWay_cases hchange hok hstate hj with hj' | ⟨rfl, hapart⟩
  · rcases underWay_cases hchange hok hstate hk with hk' | ⟨rfl, hapart⟩
    · exact hi.apart j k id id' hjk hj' hk'
    · exact (hapart j id hjk hj').symm
  · rw [hstate, Function.update_of_ne hjk.symm] at hk
    exact hapart k id' hjk.symm hk

theorem ParallelInv.recorded_step (hi : ParallelInv e requests s)
    (hchange : DmaChange (e i).direction (s.1 i).state c'.state l)
    (hstate : s'.1 = Function.update s.1 i c') (hshared : s'.2 = s.2.step e i l (s.1 i)) (j : ι)
    (id : Nat) : (s'.1 j).state.transfer.wdf.completions id =
      (s'.2.completed.filter fun x => x.engine = j ∧ x.id = id).map DmaCompletion.result := by
  have hkept (hlabel : SgLabel.completes l = none) (hcompletions :
      c'.state.transfer.wdf.completions = (s.1 i).state.transfer.wdf.completions) :
      (s'.1 j).state.transfer.wdf.completions id =
        (s'.2.completed.filter fun x => x.engine = j ∧ x.id = id).map DmaCompletion.result := by
    rw [hshared, SharedMemories.completed_step_of_none hlabel, ← hi.recorded j id]
    exact congrFun
      (keeps_of_update (f := fun w => w.transfer.wdf.completions) hstate hcompletions j) id
  cases hchange with
  | present hlabel _ _ _ _ _ hcompletions => exact hkept (by rw [hlabel]; rfl) hcompletions
  | work hlabel _ _ _ hcompletions => exact hkept hlabel hcompletions
  | silent hlabel _ _ _ hcompletions => exact hkept hlabel hcompletions
  | @complete id' result hlabel _ _ _ _ huncompleted hcompletions =>
    rw [hshared, SharedMemories.completed_step hlabel, List.filter_append, List.map_append,
      ← hi.recorded j id, hstate]
    by_cases hj : j = i
    · subst hj
      rw [Function.update_self, hcompletions]
      by_cases hid : id = id'
      · subst hid
        rw [Function.update_self, huncompleted]
        simp
      · rw [Function.update_of_ne hid]
        simp [Ne.symm hid]
    · rw [Function.update_of_ne hj]
      simp [Ne.symm hj]

theorem ParallelInv.step (hi : ParallelInv e requests s)
    (hchange : DmaChange (e i).direction (s.1 i).state c'.state l)
    (hok : PresentsApart e requests s (i, l)) (hstate : s'.1 = Function.update s.1 i c')
    (hshared : s'.2 = s.2.step e i l (s.1 i)) : ParallelInv e requests s' :=
  ⟨fun _ _ _ _ hjk hj hk => hi.apart_step hchange hok hstate hjk hj hk,
    fun j id => hi.recorded_step hchange hstate hshared j id⟩

theorem parallelInv_of_reach
    (h : (parallelEngines e).Reach (PresentsApart e requests)
      (parallelState buffers requests m) s) : ParallelInv e requests s := by
  induction h with
  | refl =>
    refine ⟨fun i j id id' _ hi => ?_, fun i id => rfl⟩
    cases hi
  | @step s s' l hs hl hnext ih =>
    obtain ⟨c', hchange, hstate, hshared⟩ := parallel_step_cases hs hnext
    exact ih.step hchange hl hstate hshared

/-! ## The requests as jobs -/

theorem moved_planned (h : (parallelEngines e).Reach ok (parallelState buffers requests m) s)
    {id : Nat} (ht : t ∈ (s.1 i).state.moved id) :
    t ∈ (requests i id).planned (e i) (requests i id).fragments :=
  ((dmaInv_of_reach (engine_reach h i)).truthful id).inOrder.subset ht

theorem Follows.not_finished (h : Follows e s u) (hi : ParallelInv e requests s) {id : Nat}
    (huncompleted : (s.1 i).state.transfer.wdf.completions id = []) : (i, id) ∉ u.finished := by
  rw [h.finished, List.mem_map]
  rintro ⟨x, hx, heq⟩
  obtain ⟨hengine, hid⟩ := Prod.mk.inj heq
  rw [hi.recorded, List.map_eq_nil_iff, List.filter_eq_nil_iff] at huncompleted
  exact huncompleted x hx (by simp [hengine, hid])

/-- The requests that an engine has made transfers for and those under way, behind a step that does
not change them. -/
theorem Follows.of_silent (h : Follows e s u) (hstate : s'.1 = Function.update s.1 i c')
    (hmemory : s'.2.memories = s.2.memories) (hcompleted : s'.2.completed = s.2.completed)
    (hunder : c'.state.underWay = (s.1 i).state.underWay)
    (hmoved : c'.state.moved = (s.1 i).state.moved) : Follows e s' u := by
  refine ⟨hmemory ▸ h.memory, fun j id => ?_, fun j id => ?_, hcompleted ▸ h.finished⟩
  · rw [keeps_of_update hstate hmoved j]
    exact h.pieces j id
  · rw [keeps_of_update hstate hunder j]
    exact h.underWay j id

theorem Follows.takeUp (h : Follows e s u) (hi : ParallelInv e requests s) {id : Nat}
    (hidle : (s.1 i).state.underWay = none) (hunder : c'.state.underWay = some id)
    (hfresh : (s.1 i).state.moved id = [])
    (huncompleted : (s.1 i).state.transfer.wdf.completions id = [])
    (hmoved : c'.state.moved = (s.1 i).state.moved) (hstate : s'.1 = Function.update s.1 i c')
    (hmemory : s'.2.memories = s.2.memories) (hcompleted : s'.2.completed = s.2.completed) :
    ∃ u', (Jobs.machine runPiece).step (.takeUp (i, id)) u = some u' ∧ Follows e s' u' := by
  have hnot : (i, id) ∉ u.finished ++ u.underWay := by
    rw [List.mem_append]
    rintro (hin | hin)
    · exact h.not_finished hi huncompleted hin
    · cases hidle.symm.trans ((h.underWay i id).mp hin)
  refine ⟨_, if_neg hnot, hmemory ▸ h.memory, fun j k => ?_, fun j k => ?_,
    hcompleted ▸ h.finished⟩
  · rw [keeps_of_update hstate hmoved j]
    dsimp only
    by_cases hjk : (j, k) = (i, id)
    · cases hjk
      rw [Function.update_self, hfresh]
      rfl
    · rw [Function.update_of_ne hjk]
      exact h.pieces j k
  · rw [hstate]
    dsimp only
    rw [List.mem_append, List.mem_singleton, h.underWay j k]
    by_cases hj : j = i
    · subst hj
      rw [Function.update_self, hunder, hidle]
      simp [eq_comm]
    · rw [Function.update_of_ne hj]
      simp [hj]

theorem Follows.work (h : Follows e s u) {id : Nat} {xs : List Transfer}
    (hunder : (s.1 i).state.underWay = some id) (hunder' : c'.state.underWay = some id)
    (hmoved : c'.state.moved =
      Function.update (s.1 i).state.moved id ((s.1 i).state.moved id ++ xs))
    (hstate : s'.1 = Function.update s.1 i c')
    (hmemory : s'.2.memories = runTransfers (e i).direction xs s.2.memories)
    (hcompleted : s'.2.completed = s.2.completed) :
    ∃ u', (Jobs.machine runPiece).step
      (.work (i, id) (xs.map fun x => ((e i).direction, x))) u = some u' ∧ Follows e s' u' := by
  refine ⟨_, if_pos ((h.underWay i id).mpr hunder), ?_, fun j k => ?_, fun j k => ?_,
    hcompleted ▸ h.finished⟩
  · rw [hmemory, runTransfers_eq, h.memory]
  · rw [hstate]
    dsimp only
    by_cases hj : j = i
    · subst hj
      rw [Function.update_self, hmoved]
      by_cases hk : k = id
      · subst hk
        rw [Function.update_self, Function.update_self, List.map_append, h.pieces]
      · rw [Function.update_of_ne hk, Function.update_of_ne (by simp [hk])]
        exact h.pieces j k
    · rw [Function.update_of_ne hj, Function.update_of_ne (by simp [hj])]
      exact h.pieces j k
  · rw [keeps_of_update hstate (hunder'.trans hunder.symm) j]
    exact h.underWay j k

theorem Follows.finish (h : Follows e s u) (hnodup : u.underWay.Nodup) {id : Nat}
    {result : NtStatus × Nat}
    (hunder : (s.1 i).state.underWay = some id) (hover : c'.state.underWay = none)
    (hmoved : c'.state.moved = (s.1 i).state.moved) (hstate : s'.1 = Function.update s.1 i c')
    (hmemory : s'.2.memories = s.2.memories)
    (hcompleted : s'.2.completed = s.2.completed ++ [⟨i, id, result⟩]) :
    ∃ u', (Jobs.machine runPiece).step (.finish (i, id)) u = some u' ∧ Follows e s' u' := by
  refine ⟨_, if_pos ((h.underWay i id).mpr hunder), ?_, fun j k => ?_, fun j k => ?_, ?_⟩
  · rw [hmemory]
    exact h.memory
  · rw [keeps_of_update hstate hmoved j]
    exact h.pieces j k
  · rw [hstate]
    dsimp only
    rw [@List.Nodup.mem_erase_iff _ instBEqOfDecidableEq _ _ _ _ hnodup, h.underWay j k]
    by_cases hj : j = i
    · subst hj
      rw [Function.update_self, hunder, hover]
      simp [eq_comm]
    · rw [Function.update_of_ne hj]
      simp [hj]
  · rw [hcompleted, List.map_append]
    exact congrArg (· ++ _) h.finished

/-- The transfers of requests under way on different engines commute. -/
theorem Follows.undisturbed
    (hs : (parallelEngines e).Reach ok (parallelState buffers requests m) s)
    (hs' : (parallelEngines e).Reach ok (parallelState buffers requests m) s')
    (hi : ParallelInv e requests s) (h : Follows e s u) {id : Nat} {xs : List Transfer}
    (hunder : (s.1 i).state.underWay = some id)
    (hxs : ∀ x ∈ xs, x ∈ (s'.1 i).state.moved id) :
    Jobs.Undisturbed runPiece u (.work (i, id) (xs.map fun x => ((e i).direction, x))) := by
  rintro ⟨j, id'⟩ hj hne x hx y hy
  have hunder' := (h.underWay j id').mp hj
  have hij : i ≠ j := by
    rintro rfl
    cases hunder.symm.trans hunder'
    exact hne rfl
  obtain ⟨t, ht, rfl⟩ := List.mem_map.mp hx
  rw [h.pieces] at hy
  obtain ⟨t', ht', rfl⟩ := List.mem_map.mp hy
  exact (hi.apart i j id id' hij hunder hunder' t (moved_planned hs' (hxs t ht)) t'
    (moved_planned hs ht')).commute

theorem follows_of_reach (h : (parallelEngines e).Reach (PresentsApart e requests)
    (parallelState buffers requests m) s) :
    ∃ u, (Jobs.machine runPiece).Reach (Jobs.Undisturbed runPiece) (Jobs.initial m) u ∧
      Follows e s u := by
  refine h.follow (Follows e) ?_ fun s l s' u hs hu hf hl hnext => ?_
  · exact ⟨rfl, fun i id => rfl, fun i id => ⟨fun hin => absurd hin List.not_mem_nil, nofun⟩, rfl⟩
  · obtain ⟨i, l⟩ := l
    obtain ⟨c', hchange, hstate, hshared⟩ := parallel_step_cases hs hnext
    have hi := parallelInv_of_reach hs
    cases hchange with
    | present hlabel hidle hunder hfresh huncompleted hmoved hcompletions =>
      subst hlabel
      have hmemory : s'.2.memories = s.2.memories := by
        rw [hshared, SharedMemories.memories_step rfl]
      have hcompleted : s'.2.completed = s.2.completed := by
        rw [hshared, SharedMemories.completed_step_of_none rfl]
      obtain ⟨u', hstep, hf'⟩ := hf.takeUp hi hidle hunder hfresh huncompleted hmoved hstate hmemory
        hcompleted
      exact ⟨u', .single (by trivial) hstep, hf'⟩
    | @work id hlabel hunder hunder' hmoved hcompletions =>
      have hcompleted : s'.2.completed = s.2.completed := by
        rw [hshared, SharedMemories.completed_step_of_none hlabel]
      obtain ⟨u', hstep, hf'⟩ := hf.work hunder hunder' hmoved hstate (by rw [hshared]; rfl)
        hcompleted
      refine ⟨u', .single (hf.undisturbed hs (hs.step hl hnext) hi hunder fun x hx => ?_) hstep,
        hf'⟩
      rw [hstate, Function.update_self, hmoved, Function.update_self]
      exact List.mem_append_right _ hx
    | @complete id result hlabel htransfers hunder hover hmoved huncompleted hcompletions =>
      have hnodup := (List.nodup_append.mp (Jobs.Serialized.of_reach hu).nodup).2.1
      have hmemory : s'.2.memories = s.2.memories := by
        rw [hshared, SharedMemories.memories_step htransfers]
      have hcompleted : s'.2.completed = s.2.completed ++ [⟨i, id, result⟩] := by
        rw [hshared, SharedMemories.completed_step hlabel]
      obtain ⟨u', hstep, hf'⟩ := hf.finish hnodup hunder hover hmoved hstate hmemory hcompleted
      exact ⟨u', .single (by trivial) hstep, hf'⟩
    | silent hlabel htransfers hunder hmoved hcompletions =>
      have hmemory : s'.2.memories = s.2.memories := by
        rw [hshared, SharedMemories.memories_step htransfers]
      have hcompleted : s'.2.completed = s.2.completed := by
        rw [hshared, SharedMemories.completed_step_of_none hlabel]
      exact ⟨u, .refl, hf.of_silent hstate hmemory hcompleted hunder hmoved⟩

/-! ## Every run -/

theorem runAll_of_not_writes {xs : List (WdfDmaDirection × Transfer)}
    (h : ∀ x ∈ xs, ¬ x.2.Writes x.1 p a) : (runAll runPiece xs m).side p a = m.side p a := by
  induction xs generalizing m with
  | nil => rfl
  | cons x xs ih =>
    rw [List.forall_mem_cons] at h
    have hrest : (runAll runPiece xs (runPiece x m)).side p a = (runPiece x m).side p a := ih h.2
    exact hrest.trans (Transfer.run_of_not_writes h.1)

/-- The requests of all engines are served as if each was there alone, in the order of their
completions; only what a request under way writes may be different. -/
theorem serializable_of_reach (h : (parallelEngines e).Reach (PresentsApart e requests)
    (parallelState buffers requests m) s) :
    (s.2.completed.map fun x => (x.engine, x.id)).Nodup ∧
      (∀ i id, (s.1 i).state.transfer.wdf.completions id =
        (s.2.completed.filter fun x => x.engine = i ∧ x.id = id).map DmaCompletion.result) ∧
      ∃ m', ServedInTurn e requests s.2.completed m m' ∧
        ∀ p a, (∀ i id, (s.1 i).state.underWay = some id →
          ¬ (requests i id).Writes (e i) p a) → s.2.memories.side p a = m'.side p a := by
  obtain ⟨u, hu, hf⟩ := follows_of_reach h
  have hi := parallelInv_of_reach h
  have hserialized := Jobs.Serialized.of_reach hu
  have hpieces : u.finished.flatMap u.pieces = s.2.completed.flatMap fun x =>
      ((s.1 x.engine).state.moved x.id).map fun t => ((e x.engine).direction, t) := by
    rw [hf.finished, List.flatMap_map]
    exact List.flatMap_congr fun x _ => hf.pieces x.engine x.id
  refine ⟨?_, hi.recorded, runAll runPiece (u.finished.flatMap u.pieces) m, ?_, fun p a ha => ?_⟩
  · rw [← hf.finished]
    exact (List.nodup_append.mp hserialized.nodup).1
  · rw [hpieces]
    refine servedInTurn_of_truthful (fun i id => (s.1 i).state.moved id) fun x hx => ?_
    have htruthful := (dmaInv_of_reach (engine_reach h x.engine)).truthful x.id
    refine ⟨htruthful.inOrder, fun result hresult => htruthful.information result ?_⟩
    cases List.mem_singleton.mp hresult
    rw [hi.recorded]
    exact List.mem_map_of_mem (List.mem_filter.mpr ⟨hx, by simp⟩)
  · rw [← hf.memory, hserialized.memory, List.flatMap_append, Jobs.runAll_append]
    refine runAll_of_not_writes fun x hx => ?_
    obtain ⟨⟨i, id⟩, hid, hx⟩ := List.mem_flatMap.mp hx
    rw [hf.pieces] at hx
    obtain ⟨t, ht, rfl⟩ := List.mem_map.mp hx
    exact fun hw => ha i id ((hf.underWay i id).mp hid) ⟨t, moved_planned h ht, hw⟩

instance [Fintype ι] : ∀ s l, Decidable (PresentsApart e requests s l)
  | s, (i, .start (.dispatch _) _) =>
    inferInstanceAs (Decidable (∀ j, j ≠ i → ∀ id' ∈ (s.1 j).state.underWay, DmaRequest.Apart ..))
  | _, (_, .start .dpc _) | _, (_, .start (.cancel _) _) | _, (_, .call ..) | _, (_, .env _) =>
    .isTrue trivial

end

/-! ## Two engines -/

def twoEngines : Bool → TransferEngine
  | true => sampleEngine
  | false => readEngine

/-- A write, and a read behind it on the card. -/
def twoRequests : Bool → Nat → DmaRequest
  | true, _ => sampleRequest
  | false, _ => ⟨0x1000, .single ⟨0x5000, 0x40⟩, [.single ⟨0x7000, 0x40⟩]⟩

/-- The steps of `raceSteps` for each of them, by turns. -/
def twoSteps : List (Bool × SgLabel) :=
  (List.zip (raceSteps sampleEngine sampleRequest (.single ⟨0x3000, 0x40⟩))
    (raceSteps readEngine (twoRequests false 0) (.single ⟨0x7000, 0x40⟩))).flatMap
      fun x => [(true, x.1), (false, x.2)]

/-- Both memories hold at each address its last byte. -/
def twoMemories : Memories := ⟨fun a => a.setWidth 8, fun a => a.setWidth 8⟩

theorem serializable_two : ∃ s : ParallelState Bool,
    s.2.completed.map (fun x => (x.engine, x.result)) =
      [(true, (statusSuccess, 0x80)), (false, (statusSuccess, 0x80))] ∧
    ∃ m', ServedInTurn twoEngines twoRequests s.2.completed twoMemories m' ∧
      ∀ p a, (∀ i id, (s.1 i).state.underWay = some id →
        ¬ (twoRequests i id).Writes (twoEngines i) p a) → s.2.memories.side p a = m'.side p a := by
  have hrun : ∃ s, (parallelEngines twoEngines).Reach (PresentsApart twoEngines twoRequests)
      (parallelState (fun _ _ => .zero) twoRequests twoMemories) s ∧
      (s.2.completed.map (fun x => (x.engine, x.result)) ==
        [(true, (statusSuccess, 0x80)), (false, (statusSuccess, 0x80))]) = true :=
    Machine.Reach.exists_of_run twoSteps (fun s : ParallelState Bool =>
      s.2.completed.map (fun x => (x.engine, x.result)) ==
        [(true, (statusSuccess, 0x80)), (false, (statusSuccess, 0x80))]) (by decide)
  obtain ⟨s, hs, hcompleted⟩ := hrun
  exact ⟨s, eq_of_beq hcompleted, (serializable_of_reach hs).2.2⟩

end Xadma
