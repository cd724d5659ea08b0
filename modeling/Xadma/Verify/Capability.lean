import Xadma.Libxdma.PcieCommon
import Mathlib.Data.Nat.Count

/-!
# The walk of `FindCapability` along the capability list

The buffer that a read fills starts as zero and is kept when a read returns no data. Behind the
first read that returns data it holds an entry that did not match and that links to the offset of
the next read, so that the loop repeats a read until it returns data. Where the chain repeats
without a match the loop does not end.
-/

namespace Xadma

/-! ## The chain -/

namespace PciBus

variable (bus : PciBus) (capabilityID : BitVec 32)

/-- The offset that the entry at `offset` links to. Behind the last byte there is none. -/
def link (offset : BitVec 8) : BitVec 8 :=
  if offset = 255 then 0 else bus.config (offset + 1)

/-- The offset of entry `k` of the chain from `start`. -/
def chain (start : BitVec 8) (k : Nat) : BitVec 8 :=
  bus.link^[k] start

/-- The chain has an entry `k`. -/
def OnChain (start : BitVec 8) (k : Nat) : Prop :=
  ∀ j ≤ k, bus.chain start j ≠ 0

def Matches (offset : BitVec 8) : Prop :=
  (bus.config offset).setWidth 32 = capabilityID

instance (offset : BitVec 8) : Decidable (bus.Matches capabilityID offset) :=
  inferInstanceAs (Decidable (_ = _))

def NoMatch (start : BitVec 8) : Prop :=
  ∀ k, bus.OnChain start k → ¬ bus.Matches capabilityID (bus.chain start k)

/-- `offset` is the offset of the first entry on the chain whose ID matches, and 0 if there is no
such entry. -/
def Finds (start offset : BitVec 8) : Prop :=
  (∃ k, bus.OnChain start k ∧ bus.Matches capabilityID (bus.chain start k) ∧
    (∀ j < k, ¬ bus.Matches capabilityID (bus.chain start j)) ∧ offset = bus.chain start k) ∨
  bus.NoMatch capabilityID start ∧ offset = 0

/-- From `start` the chain leads in `reads` entries to a match or to its end, `offset`, and no other
entry is at the last byte. -/
inductive Leads : (start : BitVec 8) → (reads : Nat) → (offset : BitVec 8) → Prop
  | ends : Leads 0 0 0
  | found {start : BitVec 8} (h0 : start ≠ 0) (hmatch : bus.Matches capabilityID start) :
    Leads start 1 start
  | next {start offset : BitVec 8} {reads : Nat} (h0 : start ≠ 0)
    (hmatch : ¬ bus.Matches capabilityID start) (hlast : start ≠ 255)
    (hlink : Leads (bus.link start) reads offset) : Leads start (reads + 1) offset

/-- At least `count` of the reads from `read` on return data. -/
def Delivers (read count : Nat) : Prop :=
  ∃ n, count ≤ Nat.count (fun j => bus.delivers (read + j) = true) n

/-- The reads from `read` on lead to a match or to the end. -/
def Walks (read : Nat) (start : BitVec 8) : Prop :=
  ∃ reads offset, bus.Leads capabilityID start reads offset ∧ bus.Delivers read reads

/-- The search from `start` with the reads from `read` on ends. -/
def Ends (read : Nat) (start : BitVec 8) : Prop :=
  start = 0 ∨ bus.delivers read = false ∨ bus.Matches capabilityID start ∨
    bus.Walks capabilityID (read + 1) (bus.link start)

/-- The search is right. Without data for the first entry that entry counts as one without ID and
without link. -/
def Searchable (read : Nat) (start : BitVec 8) : Prop :=
  if start = 0 then True
  else if bus.delivers read = true then
    bus.Matches capabilityID start ∨ bus.Walks capabilityID (read + 1) (bus.link start)
  else if capabilityID = 0 then bus.Matches capabilityID start
  else bus.NoMatch capabilityID start

end PciBus

/-- The start of the chain; there is none without a capabilities list. -/
def PciCommonHeader.chainStart (pciHeader : PciCommonHeader) : BitVec 8 :=
  if pciHeader.status &&& pciStatusCapabilitiesList = 0 then 0 else pciHeader.capabilitiesPtr

variable {bus : PciBus} {capabilityID : BitVec 32} {start offset result : BitVec 8}
  {entry : PciCapabilitiesHeader} {bound read next reads : Nat}

/-! ## What the chain finds -/

namespace PciBus

theorem onChain_zero : bus.OnChain start 0 ↔ start ≠ 0 :=
  ⟨fun h => h 0 le_rfl, fun h j hj => by rw [Nat.le_zero.mp hj]; exact h⟩

theorem onChain_succ (k : Nat) :
    bus.OnChain start (k + 1) ↔ start ≠ 0 ∧ bus.OnChain (bus.link start) k := by
  constructor
  · exact fun h => ⟨h 0 (Nat.zero_le _), fun j hj => h (j + 1) (Nat.succ_le_succ hj)⟩
  · rintro ⟨h0, hlink⟩ (_ | j) hj
    · exact h0
    · exact hlink j (Nat.le_of_succ_le_succ hj)

theorem noMatch_zero : bus.NoMatch capabilityID 0 :=
  fun _ hon => absurd rfl (hon 0 (Nat.zero_le _))

theorem noMatch_link (h0 : start ≠ 0) (hmatch : ¬ bus.Matches capabilityID start) :
    bus.NoMatch capabilityID start ↔ bus.NoMatch capabilityID (bus.link start) := by
  constructor
  · exact fun h k hon => h (k + 1) ((onChain_succ k).mpr ⟨h0, hon⟩)
  · rintro h (_ | k) hon
    · exact hmatch
    · exact h k ((onChain_succ k).mp hon).2

theorem finds_zero : bus.Finds capabilityID 0 0 := .inr ⟨noMatch_zero, rfl⟩

theorem finds_of_matches (h0 : start ≠ 0) (hmatch : bus.Matches capabilityID start) :
    bus.Finds capabilityID start start :=
  .inl ⟨0, onChain_zero.mpr h0, hmatch, fun _ hj => absurd hj (Nat.not_lt_zero _), rfl⟩

/-- An entry that does not match is passed over. -/
theorem Finds.of_link (h0 : start ≠ 0) (hmatch : ¬ bus.Matches capabilityID start)
    (h : bus.Finds capabilityID (bus.link start) offset) :
    bus.Finds capabilityID start offset := by
  obtain ⟨k, hon, hk, hbefore, rfl⟩ | ⟨hno, rfl⟩ := h
  · refine .inl ⟨k + 1, (onChain_succ k).mpr ⟨h0, hon⟩, hk, ?_, rfl⟩
    rintro (_ | j) hj
    · exact hmatch
    · exact hbefore j (Nat.lt_of_succ_lt_succ hj)
  · exact .inr ⟨(noMatch_link h0 hmatch).mpr hno, rfl⟩

theorem Finds.eq_zero_or_matches (h : bus.Finds capabilityID start offset) :
    offset = 0 ∨ bus.Matches capabilityID offset := by
  obtain ⟨k, -, hk, -, rfl⟩ | ⟨-, rfl⟩ := h
  · exact .inr hk
  · exact .inl rfl

theorem finds_zero_iff : bus.Finds capabilityID start 0 ↔ bus.NoMatch capabilityID start := by
  constructor
  · rintro (⟨k, hon, -, -, hzero⟩ | ⟨hno, -⟩)
    · exact absurd hzero.symm (hon k le_rfl)
    · exact hno
  · exact fun hno => .inr ⟨hno, rfl⟩

theorem Leads.finds (h : bus.Leads capabilityID start reads offset) :
    bus.Finds capabilityID start offset := by
  induction h with
  | ends => exact finds_zero
  | found h0 hmatch => exact finds_of_matches h0 hmatch
  | next h0 hmatch _ _ ih => exact ih.of_link h0 hmatch

/-- An unmatched entry at the last byte leads nowhere. -/
theorem not_leads_last (hmatch : ¬ bus.Matches capabilityID 255) :
    ¬ bus.Leads capabilityID 255 reads offset := by
  rintro (_ | ⟨-, hfound⟩ | ⟨-, -, hlast, -⟩)
  · exact hmatch hfound
  · exact hlast rfl

/-- A part of the space that the links do not leave, without a match and without an end. -/
theorem not_leads_of_closed (part : BitVec 8 → Prop)
    (hlink : ∀ offset, part offset → part (bus.link offset))
    (hpart : ∀ offset, part offset → offset ≠ 0 ∧ ¬ bus.Matches capabilityID offset)
    (hstart : part start) : ¬ bus.Leads capabilityID start reads offset := by
  intro h
  induction h with
  | ends => exact (hpart 0 hstart).1 rfl
  | found _ hmatch => exact (hpart _ hstart).2 hmatch
  | next _ _ _ _ ih => exact ih (hlink _ hstart)

/-! ## The reads -/

theorem count_delivers_succ (n : Nat) :
    Nat.count (fun j => bus.delivers (read + j) = true) (n + 1) =
      Nat.count (fun j => bus.delivers (read + 1 + j) = true) n +
        if bus.delivers read = true then 1 else 0 := by
  rw [Nat.count_succ']
  simp only [Nat.add_zero, Nat.add_assoc, Nat.add_comm 1]

theorem Delivers.zero : bus.Delivers read 0 := ⟨0, Nat.zero_le _⟩

theorem Delivers.cons (hread : bus.delivers read = true) (h : bus.Delivers (read + 1) reads) :
    bus.Delivers read (reads + 1) := by
  obtain ⟨n, hn⟩ := h
  refine ⟨n + 1, ?_⟩
  rw [count_delivers_succ, if_pos hread]
  exact Nat.succ_le_succ hn

theorem Delivers.of_succ (h : bus.Delivers (read + 1) reads) : bus.Delivers read reads := by
  obtain ⟨n, hn⟩ := h
  refine ⟨n + 1, ?_⟩
  rw [count_delivers_succ]
  exact hn.trans (Nat.le_add_right _ _)

/-- At the last byte a read returns the ID alone. -/
theorem getBusData_header (hread : bus.delivers read = true) (offset : BitVec 8) :
    bus.getBusData read offset.toNat sizeofPciCapabilitiesHeader =
      if offset = 255 then [bus.config 255] else [bus.config offset, bus.config (offset + 1)] := by
  have hbytes : List.range' offset.toNat sizeofPciCapabilitiesHeader =
      [offset.toNat, offset.toNat + 1] := rfl
  rw [getBusData, if_pos hread, hbytes]
  split
  · next hlast =>
    subst hlast
    rfl
  · next hlast =>
    have hlt : offset.toNat + 1 < 256 := by
      have hne : offset.toNat ≠ 255 := fun h => hlast (BitVec.eq_of_toNat_eq h)
      have hoffset := offset.isLt
      omega
    have hnext : BitVec.ofNat 8 (offset.toNat + 1) = offset + 1 := by
      rw [BitVec.ofNat_add, BitVec.ofNat_toNat, BitVec.setWidth_eq]
      rfl
    simp [hlt, Nat.lt_of_succ_lt hlt, hnext]

end PciBus

/-! ## The loop -/

namespace PciCapabilitiesHeader

/-- The buffer after a read that returned data. -/
def readAt (entry : PciCapabilitiesHeader) (bus : PciBus) (offset : BitVec 8) :
    PciCapabilitiesHeader :=
  ⟨bus.config offset, if offset = 255 then entry.next else bus.link offset⟩

theorem fill_getBusData (hread : bus.delivers read = true) :
    entry.fill (bus.getBusData read offset.toNat sizeofPciCapabilitiesHeader) =
      entry.readAt bus offset := by
  rw [PciBus.getBusData_header hread, readAt, PciBus.link]
  split
  · next hlast => rw [hlast, fill]
  · rfl

theorem readAt_next (hlast : offset ≠ 255) : (entry.readAt bus offset).next = bus.link offset :=
  if_neg hlast

theorem readAt_next_last : (entry.readAt bus 255).next = entry.next := by
  rw [readAt, if_pos rfl]

/-- The buffer holds an entry that does not match and that links to `offset`. -/
structure WaitsFor (entry : PciCapabilitiesHeader) (capabilityID : BitVec 32)
    (offset : BitVec 8) : Prop where
  next_eq : entry.next = offset
  not_match : entry.capabilityID.setWidth 32 ≠ capabilityID

theorem waitsFor_readAt (hmatch : ¬ bus.Matches capabilityID offset) :
    (entry.readAt bus offset).WaitsFor capabilityID (entry.readAt bus offset).next :=
  ⟨rfl, hmatch⟩

end PciCapabilitiesHeader

open PciCapabilitiesHeader

theorem findCapabilityLoop_zero :
    findCapabilityLoop bus capabilityID (bound + 1) read 0 entry = some (0, read) := rfl

theorem findCapabilityLoop_read (h0 : offset ≠ 0) (hread : bus.delivers read = true) :
    findCapabilityLoop bus capabilityID (bound + 1) read offset entry =
      if bus.Matches capabilityID offset then some (offset, read + 1)
      else findCapabilityLoop bus capabilityID bound (read + 1) (entry.readAt bus offset).next
        (entry.readAt bus offset) := by
  rw [findCapabilityLoop, if_pos h0]
  simp only [fill_getBusData hread]
  rfl

theorem findCapabilityLoop_noData (h0 : offset ≠ 0) (hread : bus.delivers read = false) :
    findCapabilityLoop bus capabilityID (bound + 1) read offset entry =
      if entry.capabilityID.setWidth 32 = capabilityID then some (offset, read + 1)
      else findCapabilityLoop bus capabilityID bound (read + 1) entry.next entry := by
  have hnone : bus.getBusData read offset.toNat sizeofPciCapabilitiesHeader = [] :=
    if_neg (Bool.eq_false_iff.mp hread)
  rw [findCapabilityLoop, if_pos h0, hnone]
  rfl

/-- What the waiting loop returns is where the chain leads to. -/
theorem PciCapabilitiesHeader.WaitsFor.walks (hwait : entry.WaitsFor capabilityID start)
    (h : findCapabilityLoop bus capabilityID bound read start entry = some (offset, next)) :
    ∃ reads, bus.Leads capabilityID start reads offset ∧ bus.Delivers read reads := by
  induction bound generalizing read start entry with
  | zero => cases h
  | succ bound ih =>
    by_cases h0 : start = 0
    · subst h0
      cases h
      exact ⟨0, .ends, .zero⟩
    cases hread : bus.delivers read with
    | false =>
      rw [findCapabilityLoop_noData h0 hread, if_neg hwait.not_match, hwait.next_eq] at h
      obtain ⟨reads, hleads, hdelivers⟩ := ih hwait h
      exact ⟨reads, hleads, hdelivers.of_succ⟩
    | true =>
      rw [findCapabilityLoop_read h0 hread] at h
      by_cases hmatch : bus.Matches capabilityID start
      · rw [if_pos hmatch] at h
        cases h
        exact ⟨1, .found h0 hmatch, .cons hread .zero⟩
      rw [if_neg hmatch] at h
      obtain ⟨reads, hleads, hdelivers⟩ := ih (waitsFor_readAt hmatch) h
      by_cases hlast : start = 255
      · -- the entry's own offset stays in the buffer
        subst hlast
        rw [readAt_next_last, hwait.next_eq] at hleads
        exact absurd hleads (PciBus.not_leads_last hmatch)
      · rw [readAt_next hlast] at hleads
        exact ⟨reads + 1, .next h0 hmatch hlast hleads, hdelivers.cons hread⟩

/-- Where the chain leads to, the waiting loop gets to once enough reads have returned data. -/
theorem PciCapabilitiesHeader.WaitsFor.returns (hwait : entry.WaitsFor capabilityID start)
    (hleads : bus.Leads capabilityID start reads offset) (hdelivers : bus.Delivers read reads) :
    ∃ bound next,
      findCapabilityLoop bus capabilityID bound read start entry = some (offset, next) := by
  obtain ⟨n, hn⟩ := hdelivers
  induction n generalizing read start entry reads with
  | zero =>
    rw [Nat.count_zero, Nat.le_zero] at hn
    subst hn
    cases hleads
    exact ⟨1, read, findCapabilityLoop_zero⟩
  | succ n ih =>
    rw [PciBus.count_delivers_succ] at hn
    by_cases h0 : start = 0
    · subst h0
      cases hleads with
      | ends => exact ⟨1, read, findCapabilityLoop_zero⟩
      | found h0 _ => exact absurd rfl h0
      | next h0 _ _ _ => exact absurd rfl h0
    cases hread : bus.delivers read with
    | false =>
      rw [hread, if_neg Bool.false_ne_true, Nat.add_zero] at hn
      obtain ⟨bound, next, h⟩ := ih hwait hleads hn
      refine ⟨bound + 1, next, ?_⟩
      rw [findCapabilityLoop_noData h0 hread, if_neg hwait.not_match, hwait.next_eq]
      exact h
    | true =>
      rw [hread, if_pos rfl] at hn
      cases hleads with
      | ends => exact absurd rfl h0
      | found _ hmatch =>
        refine ⟨1, read + 1, ?_⟩
        rw [findCapabilityLoop_read h0 hread, if_pos hmatch]
      | next _ hmatch hlast hlink =>
        have hnext : (entry.readAt bus start).next = bus.link start := readAt_next hlast
        rw [← hnext] at hlink
        obtain ⟨bound, next, h⟩ := ih (waitsFor_readAt hmatch) hlink (Nat.le_of_succ_le_succ hn)
        refine ⟨bound + 1, next, ?_⟩
        rw [findCapabilityLoop_read h0 hread, if_neg hmatch]
        exact h

/-! ## The search -/

/-- The loop returns `offset` from the buffer that holds zero. -/
def PciBus.Returns (bus : PciBus) (capabilityID : BitVec 32) (read : Nat)
    (start offset : BitVec 8) : Prop :=
  ∃ bound next, findCapabilityLoop bus capabilityID bound read start ⟨0, 0⟩ = some (offset, next)

theorem zero_readAt_next :
    (PciCapabilitiesHeader.readAt ⟨0, 0⟩ bus offset).next = bus.link offset := by
  by_cases hlast : offset = 255
  · subst hlast
    rw [readAt_next_last, PciBus.link, if_pos rfl]
  · exact readAt_next hlast

namespace PciBus

theorem returns_zero : bus.Returns capabilityID read 0 offset ↔ offset = 0 := by
  constructor
  · rintro ⟨_ | bound, next, h⟩ <;> cases h
    rfl
  · rintro rfl
    exact ⟨1, read, findCapabilityLoop_zero⟩

theorem returns_match (h0 : start ≠ 0) (hread : bus.delivers read = true)
    (hmatch : bus.Matches capabilityID start) :
    bus.Returns capabilityID read start offset ↔ offset = start := by
  constructor
  · rintro ⟨_ | bound, next, h⟩
    · cases h
    · rw [findCapabilityLoop_read h0 hread, if_pos hmatch] at h
      cases h
      rfl
  · rintro rfl
    refine ⟨1, read + 1, ?_⟩
    rw [findCapabilityLoop_read h0 hread, if_pos hmatch]

/-- The first entry does not match, so that the loop waits for the one it links to. -/
theorem returns_next (h0 : start ≠ 0) (hread : bus.delivers read = true)
    (hmatch : ¬ bus.Matches capabilityID start) :
    bus.Returns capabilityID read start offset ↔
      ∃ reads, bus.Leads capabilityID (bus.link start) reads offset ∧
        bus.Delivers (read + 1) reads := by
  have hwait : (PciCapabilitiesHeader.readAt ⟨0, 0⟩ bus start).WaitsFor capabilityID
      (bus.link start) := ⟨zero_readAt_next, hmatch⟩
  constructor
  · rintro ⟨_ | bound, next, h⟩
    · cases h
    · rw [findCapabilityLoop_read h0 hread, if_neg hmatch, zero_readAt_next] at h
      exact hwait.walks h
  · rintro ⟨reads, hleads, hdelivers⟩
    obtain ⟨bound, next, h⟩ := hwait.returns hleads hdelivers
    refine ⟨bound + 1, next, ?_⟩
    rw [findCapabilityLoop_read h0 hread, if_neg hmatch, zero_readAt_next]
    exact h

/-- The buffer still holds zero, an entry of ID 0 that links to nothing. -/
theorem returns_noData (h0 : start ≠ 0) (hread : bus.delivers read = false) :
    bus.Returns capabilityID read start offset ↔
      offset = if capabilityID = 0 then start else 0 := by
  have hid : (0#8).setWidth 32 = capabilityID ↔ capabilityID = 0 := eq_comm
  have hloop (bound : Nat) : findCapabilityLoop bus capabilityID (bound + 1) read start ⟨0, 0⟩ =
      if capabilityID = 0 then some (start, read + 1)
      else findCapabilityLoop bus capabilityID bound (read + 1) 0 ⟨0, 0⟩ := by
    rw [findCapabilityLoop_noData h0 hread]
    exact if_congr hid rfl rfl
  by_cases hzero : capabilityID = 0
  · simp only [if_pos hzero] at hloop ⊢
    constructor
    · rintro ⟨_ | bound, next, h⟩
      · cases h
      · cases (hloop bound).symm.trans h
        rfl
    · rintro rfl
      exact ⟨1, read + 1, hloop 0⟩
  · have hend : bus.Returns capabilityID (read + 1) 0 offset ↔ offset = 0 := returns_zero
    simp only [if_neg hzero] at hloop ⊢
    rw [← hend]
    constructor
    · rintro ⟨_ | bound, next, h⟩
      · cases h
      · exact ⟨bound, next, (hloop bound).symm.trans h⟩
    · rintro ⟨bound, next, h⟩
      exact ⟨bound + 1, next, (hloop bound).trans h⟩

/-- The loop returns from every start but those from which it walks on without end. -/
theorem returns_iff_ends :
    (∃ offset, bus.Returns capabilityID read start offset) ↔
      bus.Ends capabilityID read start := by
  by_cases h0 : start = 0
  · subst h0
    exact iff_of_true ⟨0, returns_zero.mpr rfl⟩ (.inl rfl)
  cases hread : bus.delivers read with
  | false => exact iff_of_true ⟨_, (returns_noData h0 hread).mpr rfl⟩ (.inr (.inl hread))
  | true =>
    by_cases hmatch : bus.Matches capabilityID start
    · exact iff_of_true ⟨start, (returns_match h0 hread hmatch).mpr rfl⟩ (.inr (.inr (.inl hmatch)))
    simp only [returns_next h0 hread hmatch, Ends, h0, hread, hmatch, Bool.true_eq_false, false_or]
    exact exists_comm

/-- Where it returns behind a read that returned data, it is right. -/
theorem returns_finds_iff_searchable :
    (∃ offset, bus.Returns capabilityID read start offset ∧
        bus.Finds capabilityID start offset) ↔
      bus.Searchable capabilityID read start := by
  rw [Searchable]
  split
  · next h0 =>
    subst h0
    exact iff_of_true ⟨0, returns_zero.mpr rfl, finds_zero⟩ trivial
  next h0 =>
  split
  · next hread =>
    by_cases hmatch : bus.Matches capabilityID start
    · exact iff_of_true
        ⟨start, (returns_match h0 hread hmatch).mpr rfl, finds_of_matches h0 hmatch⟩ (.inl hmatch)
    simp only [returns_next h0 hread hmatch, hmatch, false_or, Walks]
    constructor
    · rintro ⟨offset, ⟨reads, hleads, hdelivers⟩, -⟩
      exact ⟨reads, offset, hleads, hdelivers⟩
    · rintro ⟨reads, offset, hleads, hdelivers⟩
      exact ⟨offset, ⟨reads, hleads, hdelivers⟩, hleads.finds.of_link h0 hmatch⟩
  · next hread =>
    simp only [returns_noData h0 (Bool.eq_false_iff.mpr hread), exists_eq_left]
    split
    · exact ⟨fun h => h.eq_zero_or_matches.resolve_left h0, finds_of_matches h0⟩
    · exact finds_zero_iff

end PciBus

/-! ## `FindCapability` and `GetNumMsiVectors` -/

theorem findCapability_iff_returns (pciHeader : PciCommonHeader) :
    (∃ bound next, findCapability bus bound read pciHeader capabilityID = some (offset, next)) ↔
      bus.Returns capabilityID read pciHeader.chainStart offset := by
  simp only [findCapability, PciCommonHeader.chainStart]
  split
  · rw [PciBus.returns_zero]
    constructor
    · rintro ⟨bound, next, h⟩
      cases h
      rfl
    · rintro rfl
      exact ⟨0, read, rfl⟩
  · exact Iff.rfl

/-- The header as the space holds it. -/
def PciBus.commonHeader (bus : PciBus) : PciCommonHeader :=
  .ofBytes ((List.range pciCommonHdrLength).map fun o => bus.config (BitVec.ofNat 8 o))

theorem getBusData_commonHeader (hread : bus.delivers 0 = true) :
    bus.getBusData 0 0 pciCommonHdrLength =
      (List.range pciCommonHdrLength).map fun o => bus.config (BitVec.ofNat 8 o) := by
  have hall : (List.range' 0 pciCommonHdrLength).filter (· < 256) =
      List.range pciCommonHdrLength := by decide
  rw [PciBus.getBusData, if_pos hread, hall]

/-- Behind the header there is nothing but the search that may not end. -/
theorem getNumMsiVectors_returns_iff (interfaceStatus : NtStatus) :
    (∃ bound answer, getNumMsiVectors bus bound interfaceStatus = some answer) ↔
      ntSuccess interfaceStatus = false ∨ bus.delivers 0 = false ∨
        ∃ offset, bus.Returns pciCapabilityIdMsi 1 bus.commonHeader.chainStart offset := by
  cases hstatus : ntSuccess interfaceStatus with
  | false =>
    refine iff_of_true ⟨0, .error interfaceStatus, ?_⟩ (.inl rfl)
    rw [getNumMsiVectors, hstatus]
    rfl
  | true =>
  cases hread : bus.delivers 0 with
  | false =>
    refine iff_of_true ⟨0, .error statusInvalidDeviceRequest, ?_⟩ (.inr (.inl rfl))
    rw [getNumMsiVectors, hstatus, PciBus.getBusData, hread]
    rfl
  | true =>
  have hlength : (bus.getBusData 0 0 pciCommonHdrLength).length = pciCommonHdrLength := by
    rw [getBusData_commonHeader hread, List.length_map, List.length_range]
  have hheader : PciCommonHeader.ofBytes (bus.getBusData 0 0 pciCommonHdrLength) =
      bus.commonHeader := by
    rw [getBusData_commonHeader hread, PciBus.commonHeader]
  simp only [← findCapability_iff_returns, getNumMsiVectors, hstatus, hlength, hheader, ne_eq,
    not_true_eq_false, if_false, Bool.not_true, Bool.false_eq_true, Bool.true_eq_false, false_or]
  constructor
  · rintro ⟨bound, answer, h⟩
    obtain ⟨⟨offset, next⟩, hfound, -⟩ := Option.bind_eq_some_iff.mp h
    exact ⟨offset, bound, next, hfound⟩
  · rintro ⟨offset, bound, next, hfound⟩
    refine ⟨bound, ?_⟩
    simp only [hfound, Option.bind_eq_bind, Option.bind_some]
    split
    · exact ⟨_, rfl⟩
    · split
      · exact ⟨_, rfl⟩
      · exact ⟨_, rfl⟩

/-- **The capability search.** It ends with the right offset if and only if the list ends or has a
match before it repeats, and reads that return no data come neither first nor without end; the
start of the device waits for nothing else. -/
theorem findCapability_right_iff (bus : PciBus) (read : Nat) (pciHeader : PciCommonHeader)
    (capabilityID : BitVec 32) (interfaceStatus : NtStatus) :
    ((∃ bound next offset,
        findCapability bus bound read pciHeader capabilityID = some (offset, next) ∧
          bus.Finds capabilityID pciHeader.chainStart offset) ↔
      bus.Searchable capabilityID read pciHeader.chainStart) ∧
    ((∃ bound next offset,
        findCapability bus bound read pciHeader capabilityID = some (offset, next)) ↔
      bus.Ends capabilityID read pciHeader.chainStart) ∧
    ((∃ bound answer, getNumMsiVectors bus bound interfaceStatus = some answer) ↔
      ntSuccess interfaceStatus = false ∨ bus.delivers 0 = false ∨
        bus.Ends pciCapabilityIdMsi 1 bus.commonHeader.chainStart) := by
  refine ⟨?_, ?_, ?_⟩
  · rw [← PciBus.returns_finds_iff_searchable]
    simp only [← findCapability_iff_returns]
    constructor
    · rintro ⟨bound, next, offset, hfound, hright⟩
      exact ⟨offset, ⟨bound, next, hfound⟩, hright⟩
    · rintro ⟨offset, ⟨bound, next, hfound⟩, hright⟩
      exact ⟨bound, next, offset, hfound, hright⟩
  · rw [← PciBus.returns_iff_ends]
    simp only [← findCapability_iff_returns]
    constructor
    · rintro ⟨bound, next, offset, hfound⟩
      exact ⟨offset, bound, next, hfound⟩
    · rintro ⟨offset, bound, next, hfound⟩
      exact ⟨bound, next, offset, hfound⟩
  · rw [getNumMsiVectors_returns_iff, PciBus.returns_iff_ends]

/-- A list of one entry, the power management capability at 0x40, that links to itself. -/
def selfLinkedBus : PciBus where
  config offset :=
    if offset = 0x06 then 0x10 else if offset = 0x34 then 0x40 else if offset = 0x40 then 0x01
    else if offset = 0x41 then 0x40 else 0
  delivers _ := true

/-- The search for the MSI capability never ends, and neither does the start of the device. -/
theorem selfLinkedBus_not_searched :
    ¬ (∃ bound next offset, findCapability selfLinkedBus bound 1 selfLinkedBus.commonHeader
        pciCapabilityIdMsi = some (offset, next)) ∧
      ¬ ∃ bound answer, getNumMsiVectors selfLinkedBus bound statusSuccess = some answer := by
  have hstart : selfLinkedBus.commonHeader.chainStart = 0x40 := by decide
  have hlink : selfLinkedBus.link 0x40 = 0x40 := by decide
  have hentry : (0x40#8 ≠ 0) ∧ ¬ selfLinkedBus.Matches pciCapabilityIdMsi 0x40 := by decide
  have hends : ¬ ∃ offset, selfLinkedBus.Returns pciCapabilityIdMsi 1 0x40 offset := by
    rw [PciBus.returns_iff_ends]
    rintro (h0 | hread | hmatch | ⟨reads, offset, hleads, -⟩)
    · exact hentry.1 h0
    · cases hread
    · exact hentry.2 hmatch
    · rw [hlink] at hleads
      refine PciBus.not_leads_of_closed (· = 0x40) ?_ ?_ rfl hleads
      · rintro _ rfl
        exact hlink
      · rintro _ rfl
        exact hentry
  constructor
  · rintro ⟨bound, next, offset, hfound⟩
    refine hends ⟨offset, ?_⟩
    rw [← hstart, ← findCapability_iff_returns]
    exact ⟨bound, next, hfound⟩
  · rw [getNumMsiVectors_returns_iff, hstart]
    rintro (hstatus | hread | hreturns)
    · exact absurd hstatus (by decide)
    · cases hread
    · exact hends hreturns

end Xadma
