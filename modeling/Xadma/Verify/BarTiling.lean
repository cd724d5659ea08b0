import Xadma.Verify.Bar

/-!
# The register accesses of a BAR request

`ReadBarToRequest` and `WriteBarFromRequest` choose the unit of their access by the length of the
request alone, and count the units after the length is cut to a `ULONG`.
-/

namespace Xadma

/-- One register access of a buffer routine: `size` bytes from `addr` on, to or from the bytes of
the request buffer from `buffer` on. -/
structure UnitAccess (w : PointerWidth) where
  addr : BitVec w.bits
  size : Nat
  buffer : Nat
  deriving DecidableEq

variable {w : PointerWidth} {bar addr : BitVec w.bits} {size : Nat} {request : IoRequest w}

/-- The `n` units behind the first `i`. -/
def unitsFrom (addr : BitVec w.bits) (size i n : Nat) : List (UnitAccess w) :=
  (List.range' i n).map fun k => ⟨addr + BitVec.ofNat w.bits (size * k), size, size * k⟩

def RegisterAccess.units (a : RegisterAccess w) : List (UnitAccess w) :=
  unitsFrom a.addr a.size 0 a.count

/-- Behind the first `done` bytes, the accesses take the bytes of the BAR from `base` on and those
of the request buffer one after the other, up to `length`. -/
def Tiles (bar : BitVec w.bits) (base length : Nat) : (done : Nat) → List (UnitAccess w) → Prop
  | done, [] => done = length
  | done, u :: rest =>
    u.buffer = done ∧ 0 < u.size ∧
      (∀ j < u.size, (u.addr + BitVec.ofNat w.bits j - bar).toNat = base + done + j) ∧
      Tiles bar base length (done + u.size) rest

/-- The accesses of a request tile it, and each is aligned to its size. -/
structure TilesRequest (bar : BitVec w.bits) (request : IoRequest w)
    (accesses : List (RegisterAccess w)) : Prop where
  tiles : Tiles bar request.deviceOffset.toNat request.length.toNat 0
    (accesses.flatMap RegisterAccess.units)
  aligned : ∀ u ∈ accesses.flatMap RegisterAccess.units, u.size ∣ u.addr.toNat

/-- The unit that goes into the length. -/
def unitSize (length : BitVec w.bits) : Nat :=
  if length.toNat % 4 = 0 then 4 else if length.toNat % 2 = 0 then 2 else 1

/-- The bytes are within the reach of a pointer offset, their number is one of 32 bits, and the
first of them is aligned to the unit that goes into the length. -/
structure UnitsFit (bar : BitVec w.bits) (request : IoRequest w) : Prop where
  reach : request.deviceOffset.toNat + request.length.toNat ≤ 2 ^ w.bits
  ulong : request.length.toNat < 2 ^ 32
  aligned : unitSize request.length ∣
    (bar + request.deviceOffset.setWidth w.bits).toNat

/-! ## Units -/

theorem barAccess_eq (addr length : BitVec w.bits) : barAccess addr length =
    ⟨addr, unitSize length, length.toNat % 2 ^ 32 / unitSize length⟩ := by
  unfold barAccess unitSize
  split
  · rfl
  · split
    · rfl
    · rw [Nat.div_one]

theorem unitSize_cases (length : BitVec w.bits) : unitSize length ∣ length.toNat ∧
    (unitSize length = 4 ∨ unitSize length = 2 ∨ unitSize length = 1) := by
  unfold unitSize
  split
  · next h => exact ⟨Nat.dvd_of_mod_eq_zero h, .inl rfl⟩
  · split
    · next h => exact ⟨Nat.dvd_of_mod_eq_zero h, .inr (.inl rfl)⟩
    · exact ⟨Nat.one_dvd _, .inr (.inr rfl)⟩

theorem unitSize_dvd_two_pow (length : BitVec w.bits) : unitSize length ∣ 2 ^ w.bits := by
  obtain ⟨-, h | h | h⟩ := unitSize_cases length <;> rw [h] <;> cases w <;> decide

/-- The units tile exactly what they reach, if no byte of it wraps. -/
theorem tiles_unitsFrom (bar addr : BitVec w.bits) (hsize : 0 < size) (base len i n : Nat) :
    Tiles bar base len (size * i) (unitsFrom addr size i n) ↔ size * (i + n) = len ∧
      ∀ k, i ≤ k → k < i + n → ∀ j < size,
        (addr + BitVec.ofNat w.bits (size * k) + BitVec.ofNat w.bits j - bar).toNat =
          base + size * k + j := by
  induction n generalizing i with
  | zero =>
    rw [unitsFrom, List.range'_zero, List.map_nil, Tiles]
    exact (and_iff_left fun k hik hki => absurd hki (by omega)).symm
  | succ n ih =>
    have hrest := ih (i + 1)
    rw [Nat.mul_succ, show i + 1 + n = i + (n + 1) by omega] at hrest
    rw [unitsFrom, List.range'_succ, List.map_cons, Tiles, ← unitsFrom, hrest]
    constructor
    · rintro ⟨-, -, hfirst, hlen, hall⟩
      refine ⟨hlen, fun k hik hki => ?_⟩
      obtain rfl | hlt := Nat.eq_or_lt_of_le hik
      · exact hfirst
      · exact hall k hlt hki
    · rintro ⟨hlen, hall⟩
      exact ⟨rfl, hsize, hall i (Nat.le_refl i) (by omega), hlen,
        fun k hik hki => hall k (by omega) hki⟩

/-- What byte `m` of a request is in the BAR, as the address is computed. -/
theorem byteOffset_eq_iff (bar : BitVec w.bits) (deviceOffset : BitVec 64) (m : Nat) :
    (bar + deviceOffset.setWidth w.bits + BitVec.ofNat w.bits m - bar).toNat =
      deviceOffset.toNat + m ↔ deviceOffset.toNat + m < 2 ^ w.bits := by
  have hback : bar + deviceOffset.setWidth w.bits + BitVec.ofNat w.bits m - bar =
      BitVec.ofNat w.bits (deviceOffset.toNat + m) := by
    rw [BitVec.add_assoc, BitVec.add_comm, BitVec.add_sub_cancel, BitVec.ofNat_add,
      BitVec.ofNat_toNat]
  rw [hback, BitVec.toNat_ofNat]
  exact Nat.mod_eq_iff_lt (Nat.two_pow_pos _).ne'

/-- The bytes of `n` units, by their number in the request. -/
theorem forall_unit_iff (hsize : 0 < size) (n : Nat) (P : Nat → Prop) :
    (∀ k, 0 ≤ k → k < 0 + n → ∀ j < size, P (size * k + j)) ↔ ∀ m < size * n, P m := by
  rw [Nat.zero_add]
  constructor
  · intro h m hm
    have hdiv : m / size < n := Nat.div_lt_of_lt_mul hm
    have hunit := h (m / size) (Nat.zero_le _) hdiv (m % size) (Nat.mod_lt _ hsize)
    rwa [Nat.div_add_mod] at hunit
  · intro h k _ hk j hj
    apply h
    calc size * k + j < size * k + size := Nat.add_lt_add_left hj _
      _ = size * (k + 1) := (Nat.mul_succ _ _).symm
      _ ≤ size * n := Nat.mul_le_mul_left _ hk

theorem unitSize_pos (length : BitVec w.bits) : 0 < unitSize length := by
  obtain ⟨-, h | h | h⟩ := unitSize_cases length <;> rw [h] <;> decide

/-- The count stands for the whole length exactly if the cut leaves the length as it is. -/
theorem unitSize_mul_count (length : BitVec w.bits) :
    unitSize length * (length.toNat % 2 ^ 32 / unitSize length) = length.toNat ↔
      length.toNat < 2 ^ 32 := by
  constructor
  · intro h
    have hle := Nat.mul_div_le (length.toNat % 2 ^ 32) (unitSize length)
    rw [h] at hle
    exact hle.trans_lt (Nat.mod_lt _ (by decide))
  · intro h
    rw [Nat.mod_eq_of_lt h]
    exact Nat.mul_div_cancel' (unitSize_cases length).1

/-- Every unit is as aligned as the first. -/
theorem dvd_unit_iff (addr : BitVec w.bits) (hdvd : size ∣ 2 ^ w.bits) (k : Nat) :
    size ∣ (addr + BitVec.ofNat w.bits (size * k)).toNat ↔ size ∣ addr.toNat := by
  rw [BitVec.toNat_add, BitVec.toNat_ofNat, Nat.add_mod_mod, Nat.dvd_mod_iff hdvd]
  exact Nat.dvd_add_left (Nat.dvd_mul_right size k)

theorem tiles_units_iff (bar : BitVec w.bits) (deviceOffset : BitVec 64) (hsize : 0 < size)
    {len : Nat} (hlen : 0 < len) (count : Nat) :
    Tiles bar deviceOffset.toNat len 0
        (unitsFrom (bar + deviceOffset.setWidth w.bits) size 0 count) ↔
      size * count = len ∧ deviceOffset.toNat + len ≤ 2 ^ w.bits := by
  have hfrom := tiles_unitsFrom bar (bar + deviceOffset.setWidth w.bits) hsize deviceOffset.toNat
    len 0 count
  rw [Nat.mul_zero] at hfrom
  rw [hfrom, Nat.zero_add]
  refine and_congr_right fun hcount => ?_
  have hbytes := forall_unit_iff hsize count fun m =>
    (bar + deviceOffset.setWidth w.bits + BitVec.ofNat w.bits m - bar).toNat =
      deviceOffset.toNat + m
  simp only [BitVec.ofNat_add, ← BitVec.add_assoc, ← Nat.add_assoc, Nat.zero_add] at hbytes
  rw [hbytes, hcount]
  constructor
  · intro h
    have hlast := (byteOffset_eq_iff bar deviceOffset (len - 1)).mp (h (len - 1) (by omega))
    omega
  · intro h m hm
    exact (byteOffset_eq_iff bar deviceOffset m).mpr (by omega)

/-! ## The request -/

theorem barAccess_tilesRequest_iff (hlength : request.length ≠ 0) :
    TilesRequest bar request
        [barAccess (bar + request.deviceOffset.setWidth w.bits) request.length] ↔
      UnitsFit bar request := by
  have hpos : 0 < request.length.toNat := BitVec.toNat_pos_of_ne_zero hlength
  have hunits : [barAccess (bar + request.deviceOffset.setWidth w.bits)
      request.length].flatMap RegisterAccess.units =
        unitsFrom (bar + request.deviceOffset.setWidth w.bits) (unitSize request.length) 0
          (request.length.toNat % 2 ^ 32 / unitSize request.length) := by
    rw [List.flatMap_singleton, barAccess_eq]
    rfl
  have htiles := tiles_units_iff bar request.deviceOffset (unitSize_pos request.length) hpos
    (request.length.toNat % 2 ^ 32 / unitSize request.length)
  rw [unitSize_mul_count, ← hunits] at htiles
  have haligned := dvd_unit_iff (bar + request.deviceOffset.setWidth w.bits)
    (unitSize_dvd_two_pow request.length)
  constructor
  · intro h
    obtain ⟨hulong, hreach⟩ := htiles.mp h.tiles
    have hcount := (unitSize_mul_count request.length).mpr hulong
    have hfirst : 0 < request.length.toNat % 2 ^ 32 / unitSize request.length := by
      by_contra hzero
      rw [Nat.eq_zero_of_not_pos hzero, Nat.mul_zero] at hcount
      omega
    have hunit := h.aligned
    rw [hunits] at hunit
    have hzero := hunit _ (List.mem_map_of_mem (List.mem_range'_1.mpr ⟨Nat.le_refl 0, by omega⟩))
    exact ⟨hreach, hulong, (haligned 0).mp hzero⟩
  · intro h
    refine ⟨htiles.mpr ⟨h.ulong, h.reach⟩, fun u hu => ?_⟩
    rw [hunits] at hu
    obtain ⟨k, -, rfl⟩ := List.mem_map.mp hu
    exact (haligned k).mpr h.aligned

/-- In both directions the accesses tile the request exactly if its bytes are in reach, its length
is one of 32 bits, and its first byte is aligned to the unit. -/
theorem barRequest_tiles_iff (bar : BitVec w.bits) (request : IoRequest w)
    (hlength : request.length ≠ 0) (hmemory : ntSuccess request.retrieveMemory = true) :
    (TilesRequest bar request (readBarToRequest request bar).2 ↔ UnitsFit bar request) ∧
      (TilesRequest bar request (writeBarFromRequest request bar).2 ↔ UnitsFit bar request) := by
  have hread : (readBarToRequest request bar).2 =
      [barAccess (bar + request.deviceOffset.setWidth w.bits) request.length] := by
    simp only [readBarToRequest, if_neg hlength, hmemory]
    rfl
  rw [writeBarFromRequest_eq, hread]
  exact ⟨barAccess_tilesRequest_iff hlength, barAccess_tilesRequest_iff hlength⟩

/-- Three words of 16 bits from the second one of a BAR on. -/
theorem barRequest_tiles_iff_words :
    TilesRequest (w := .w64) 0x10000 ⟨2, 6, statusSuccess, 0, 0⟩
      (readBarToRequest ⟨2, 6, statusSuccess, 0, 0⟩ 0x10000).2 :=
  (barRequest_tiles_iff (w := .w64) 0x10000 ⟨2, 6, statusSuccess, 0, 0⟩ (by decide)
    (by decide)).1.mpr ⟨by decide, by decide, by decide⟩

/-- Four bytes from the second word on are read by one access to an address that is no multiple of
four, and of 4 GB and a word only the word is read. -/
theorem barRequest_not_tiled :
    (readBarToRequest (w := .w64) ⟨2, 4, statusSuccess, 0, 0⟩ 0x10000).2 = [⟨0x10002, 4, 1⟩] ∧
      ¬ TilesRequest (w := .w64) 0x10000 ⟨2, 4, statusSuccess, 0, 0⟩ [⟨0x10002, 4, 1⟩] ∧
      (readBarToRequest (w := .w64) ⟨0, 0x100000004, statusSuccess, 0, 0⟩ 0x10000).2 =
        [⟨0x10000, 4, 1⟩] ∧
      ¬ TilesRequest (w := .w64) 0x10000 ⟨0, 0x100000004, statusSuccess, 0, 0⟩
        [⟨0x10000, 4, 1⟩] := by
  refine ⟨by decide, fun h => ?_, by decide, fun h => ?_⟩
  · exact absurd (h.aligned ⟨0x10002, 4, 0⟩ (by decide)) (by decide)
  · have hlen : 4 = 0x100000004 := h.tiles.2.2.2
    cases hlen

end Xadma
