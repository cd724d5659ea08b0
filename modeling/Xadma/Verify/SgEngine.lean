import Xadma.Device.ScatterGather
import Xadma.Verify.Split

/-!
# The engine on a chain

Whatever the engine fetches ahead, it executes the descriptors of the chain one after the other,
from the first one on. If the driver clears the descriptor buffer meanwhile, the engine comes to a
descriptor without the magic and reports that it has stopped there. It reports no error only behind
the last descriptor.
-/

namespace Xadma

/-- A chain that leads from the beginning of the descriptor buffer to its last descriptor. -/
structure LinkedChain (base : BitVec 64) (chain : List DmaDescriptor) : Prop where
  nonempty : chain ≠ []
  inBuffer : 32 * chain.length ≤ descBufferSize
  inRange : base.toNat + descBufferSize ≤ 2 ^ 64
  valid : ∀ (k : Nat) (desc : DmaDescriptor), chain[k]? = some desc → desc.valid = true
  stops : ∀ (k : Nat) (desc : DmaDescriptor), chain[k]? = some desc →
    (desc.stops = true ↔ k + 1 = chain.length)
  completes : ∀ (k : Nat) (desc : DmaDescriptor), chain[k]? = some desc →
    (desc.completes = true ↔ k + 1 = chain.length)
  next : ∀ (k : Nat) (desc : DmaDescriptor), chain[k]? = some desc → k + 1 < chain.length →
    desc.nextAddr = descAddr base (k + 1)

/-- The buffer holds the descriptors of the chain, but for those that have been cleared. -/
def HoldsOrCleared (chain : List DmaDescriptor) (descBuffer : Nat → DmaDescriptor) : Prop :=
  ∀ k desc, chain[k]? = some desc → descBuffer k = desc ∨ descBuffer k = .zero

/-- The descriptors from `n` up to `f` are fetched and not executed; behind them a cleared one may
have been fetched. -/
inductive FetchedTo (base : BitVec 64) (chain : List DmaDescriptor) (n f : Nat) (s : SgEngine) :
    Prop
  | chain (fetched : s.fetched = (chain.take f).drop n)
    (next : s.next = if f < chain.length then some (descAddr base f) else none)
  | cleared (fetched : s.fetched = (chain.take f).drop n ++ [.zero]) (next : s.next = none)

/-- The engine is at work on the chain, with `n` descriptors executed. -/
structure Executing (base : BitVec 64) (chain : List DmaDescriptor) (n : Nat) (s : SgEngine) :
    Prop where
  busy : s.busy = true
  interrupt : s.interrupt = false
  left : n < chain.length
  ahead : ∃ f, n ≤ f ∧ f ≤ chain.length ∧ FetchedTo base chain n f s

/-- The engine has stopped by itself behind `n` descriptors. -/
structure Stopped (chain : List DmaDescriptor) (n : Nat) (s : SgEngine) : Prop where
  idle : s.busy = false
  interrupt : s.interrupt = true
  le : n ≤ chain.length
  all : s.status &&& xdmaStatExpectedZero = 0 → n = chain.length

def Progress (base : BitVec 64) (chain : List DmaDescriptor) (n : Nat) (s : SgEngine) : Prop :=
  Executing base chain n s ∨ Stopped chain n s

variable {base : BitVec 64} {chain : List DmaDescriptor} {descBuffer : Nat → DmaDescriptor}
  {s s' : SgEngine} {n f k : Nat} {desc : DmaDescriptor} {direction : WdfDmaDirection}

/-! ## The chain -/

theorem linkedChain_of_programChain {engine : XdmaEngine} {offset : BitVec 64}
    {sgList : ScatterGatherList}
    (h : programChain engine direction offset sgList = some chain) :
    LinkedChain engine.descBuffer.logical chain := by
  have hcorrect := chainCorrect_of_programChain h
  have hlen : chain.length = sgList.elements.length := (programChain_getElem? h).1
  have hadmitted := sgList.admitted
  have hsize : 32 * sgMaxElements ≤ descBufferSize := by decide
  refine ⟨?_, by omega, engine.descBuffer.inRange, fun k desc hdesc => ?_, fun k desc hdesc => ?_,
    fun k desc hdesc => ?_, fun k desc hdesc hlt => ?_⟩
  · intro hnil
    have := sgList.length_pos
    rw [hnil, List.length_nil] at hlen
    omega
  · have := hcorrect.magic desc (List.mem_of_getElem? hdesc)
    simp [DmaDescriptor.valid, this]
  · rw [hlen, ← hcorrect.stop k desc hdesc]
    simp [DmaDescriptor.stops]
  · rw [hlen, ← hcorrect.completed k desc hdesc]
    simp [DmaDescriptor.completes]
  · rw [programChain_nextAddr h hdesc, if_neg (by omega)]

theorem HoldsOrCleared.clear : HoldsOrCleared chain fun _ => .zero := fun _ _ _ => .inr rfl

theorem holdsOrCleared_write (descBuffer : Nat → DmaDescriptor) :
    HoldsOrCleared chain fun k => chain[k]?.getD (descBuffer k) := by
  intro k desc h
  left
  simp only [h, Option.getD_some]

theorem descriptorAt_descAddr (hlink : LinkedChain base chain) (hf : f < chain.length) :
    SgEngine.descriptorAt base descBuffer (descAddr base f) = some (descBuffer f) := by
  have hoff : (descAddr base f - base).toNat = 32 * f := by
    have := hlink.inBuffer
    have := hlink.inRange
    rw [descAddr, BitVec.add_comm, BitVec.add_sub_cancel, BitVec.toNat_ofNat]
    omega
  have := hlink.inBuffer
  simp only [SgEngine.descriptorAt, hoff]
  rw [if_pos (by omega)]
  congr 2
  omega

/-! ## Fetches -/

theorem zero_valid : DmaDescriptor.zero.valid = false := by decide

theorem take_succ_drop (hn : n ≤ f) (hdesc : chain[f]? = some desc) :
    (chain.take (f + 1)).drop n = (chain.take f).drop n ++ [desc] := by
  have hlt : f < chain.length := (List.getElem?_eq_some_iff.mp hdesc).1
  rw [List.take_add_one, hdesc, Option.toList_some, List.drop_append_of_le_length]
  rw [List.length_take]
  omega

theorem FetchedTo.fetch (hlink : LinkedChain base chain) (hbuffer : HoldsOrCleared chain descBuffer)
    (hn : n ≤ f) (hf : f ≤ chain.length) (hfetched : FetchedTo base chain n f s)
    (h : s.fetch base descBuffer = some s') :
    s'.busy = s.busy ∧ s'.interrupt = s.interrupt ∧
      ∃ f', n ≤ f' ∧ f' ≤ chain.length ∧ FetchedTo base chain n f' s' := by
  simp only [SgEngine.fetch, Option.bind_eq_bind, Option.pure_def] at h
  split at h
  · obtain ⟨addr, haddr, h⟩ := Option.bind_eq_some_iff.mp h
    obtain ⟨desc, hdesc, h⟩ := Option.bind_eq_some_iff.mp h
    cases h
    refine ⟨rfl, rfl, ?_⟩
    cases hfetched with
    | cleared _ hnext => rw [hnext] at haddr; cases haddr
    | chain hlist hnext =>
      rw [hnext] at haddr
      split at haddr
      · next hlt =>
        cases haddr
        have hget : chain[f]? = some chain[f] := List.getElem?_eq_getElem hlt
        rw [descriptorAt_descAddr hlink hlt] at hdesc
        cases hdesc
        rcases hbuffer f chain[f] hget with heq | heq
        · refine ⟨f + 1, by omega, hlt, .chain ?_ ?_⟩
          · rw [take_succ_drop hn hget, ← hlist, heq]
          · simp only [heq, hlink.valid f _ hget, Bool.true_and]
            by_cases hlast : f + 1 = chain.length
            · rw [(hlink.stops f _ hget).mpr hlast, if_neg (by simp), if_neg (by omega)]
            · have hstops : chain[f].stops = false := by
                rw [← Bool.not_eq_true, hlink.stops f _ hget]
                exact hlast
              rw [hstops, if_pos (by decide), if_pos (by omega), hlink.next f _ hget (by omega)]
        · refine ⟨f, hn, hf, .cleared ?_ ?_⟩
          · rw [← hlist, heq]
          · simp [heq, zero_valid]
      · cases haddr
  · cases h

theorem Progress.fetch (hlink : LinkedChain base chain) (hbuffer : HoldsOrCleared chain descBuffer)
    (hp : Progress base chain n s) (h : s.fetch base descBuffer = some s') :
    Progress base chain n s' := by
  rcases hp with hp | hp
  · obtain ⟨f, hn, hf, hfetched⟩ := hp.ahead
    obtain ⟨hbusy, hinterrupt, hahead⟩ := hfetched.fetch hlink hbuffer hn hf h
    exact .inl ⟨hbusy.trans hp.busy, hinterrupt.trans hp.interrupt, hp.left, hahead⟩
  · simp [SgEngine.fetch, hp.idle] at h

/-! ## Execution -/

theorem Progress.start (hlink : LinkedChain base chain) (hinterrupt : s.interrupt = false) :
    Progress base chain 0 (s.start base) := by
  have hpos : 0 < chain.length := List.length_pos_iff.mpr hlink.nonempty
  refine .inl ⟨rfl, hinterrupt, hpos, 0, Nat.le_refl 0, Nat.zero_le _, .chain rfl ?_⟩
  rw [if_pos hpos, descAddr_zero]
  rfl

theorem or_and_ne_zero {x y m : BitVec 32} (h : y &&& m ≠ 0) : (x ||| y) &&& m ≠ 0 := by
  intro h0
  rw [BitVec.and_or_distrib_right] at h0
  exact h (BitVec.or_eq_zero_iff.mp h0).2

theorem stopped_finish {bits : BitVec 32} (hle : n ≤ chain.length)
    (hall : bits &&& xdmaStatExpectedZero = 0 → n = chain.length) :
    Stopped chain n (s.finish bits) := by
  refine ⟨rfl, rfl, hle, fun h => hall ?_⟩
  by_contra hne
  exact or_and_ne_zero hne h

/-- What is fetched next is the descriptor behind those that are executed, or a cleared one. -/
theorem FetchedTo.head (hn : n ≤ f) (hf : f ≤ chain.length)
    (hfetched : FetchedTo base chain n f s) {rest : List DmaDescriptor}
    (h : s.fetched = desc :: rest) :
    chain[n]? = some desc ∧ n < f ∧
        (∀ s' : SgEngine, s'.fetched = rest → s'.next = s.next →
          FetchedTo base chain (n + 1) f s') ∨
      desc = .zero := by
  have hcons : n < f → ∃ d, chain[n]? = some d ∧
      (chain.take f).drop n = d :: (chain.take f).drop (n + 1) := by
    intro hlt
    have hlen : n < (chain.take f).length := by
      rw [List.length_take]
      omega
    refine ⟨chain[n], List.getElem?_eq_getElem (by omega), ?_⟩
    rw [List.drop_eq_getElem_cons hlen, List.getElem_take]
  rcases Nat.lt_or_ge n f with hlt | hge
  · obtain ⟨d, hd, hdrop⟩ := hcons hlt
    left
    cases hfetched with
    | chain hlist hnext =>
      rw [hlist, hdrop] at h
      cases h
      exact ⟨hd, hlt, fun s' hs' hn' => .chain hs' (hn'.trans hnext)⟩
    | cleared hlist hnext =>
      rw [hlist, hdrop] at h
      cases h
      exact ⟨hd, hlt, fun s' hs' hn' => .cleared hs' (hn'.trans hnext)⟩
  · have hnil : (chain.take f).drop n = [] := by
      rw [List.drop_eq_nil_iff, List.length_take]
      omega
    right
    cases hfetched with
    | chain hlist _ => rw [hlist, hnil] at h; cases h
    | cleared hlist _ => rw [hlist, hnil] at h; cases h; rfl

/-- A descriptor of the chain is executed, or the engine stops at a cleared one. -/
theorem Progress.execute (hlink : LinkedChain base chain) (hp : Progress base chain n s)
    {ts : List Transfer} (h : s.execute direction = some (s', ts)) :
    ∃ n', Progress base chain n' s' ∧
      (chain.map (DmaDescriptor.transfer direction)).take n ++ ts =
        (chain.map (DmaDescriptor.transfer direction)).take n' := by
  rcases hp with hp | hp
  · obtain ⟨f, hn, hf, hfetched⟩ := hp.ahead
    simp only [SgEngine.execute, hp.busy, if_true] at h
    cases hlist : s.fetched with
    | nil => simp [hlist] at h
    | cons desc rest =>
      simp only [hlist] at h
      rcases hfetched.head hn hf hlist with ⟨hdesc, hlt, hrest⟩ | rfl
      · have hvalid := hlink.valid n desc hdesc
        have htake : (chain.map (DmaDescriptor.transfer direction)).take n ++
            [desc.transfer direction] =
              (chain.map (DmaDescriptor.transfer direction)).take (n + 1) := by
          rw [List.take_add_one, List.getElem?_map, hdesc, Option.map_some, Option.toList_some]
        simp only [hvalid, Bool.not_true, Bool.false_eq_true, if_false] at h
        by_cases hlast : n + 1 = chain.length
        · rw [if_pos ((hlink.stops n desc hdesc).mpr hlast)] at h
          cases h
          exact ⟨n + 1, .inr (stopped_finish (by omega) fun _ => hlast), htake⟩
        · have hcompletes : desc.completes = false := by
            rw [← Bool.not_eq_true, hlink.completes n desc hdesc]
            exact hlast
          rw [if_neg fun hstop => hlast ((hlink.stops n desc hdesc).mp hstop)] at h
          cases h
          refine ⟨n + 1, .inl ⟨rfl, ?_, by omega, f, hlt, hf, hrest _ rfl rfl⟩, htake⟩
          simp [hcompletes, hp.interrupt]
      · rw [zero_valid] at h
        cases h
        refine ⟨n, .inr (stopped_finish (Nat.le_of_lt hp.left) fun h0 => ?_), by simp⟩
        exact absurd h0 (by decide)
  · simp [SgEngine.execute, hp.idle] at h

theorem Progress.fail {bits : BitVec 32} (hp : Progress base chain n s)
    (h : s.fail bits = some s') : Progress base chain n s' := by
  rcases hp with hp | hp
  · simp only [SgEngine.fail, hp.busy, true_and] at h
    split at h
    · next hbits =>
      cases h
      exact .inr (stopped_finish (Nat.le_of_lt hp.left) fun h0 => absurd h0 hbits)
    · cases h
  · simp [SgEngine.fail, hp.idle] at h

end Xadma
