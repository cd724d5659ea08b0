import Xadma.Libxdma.DmaEngine

/-!
# What the device does with descriptors

The scatter-gather side of the core reads descriptors from host memory. Following the next pointers
gives the order in which it executes them (`followChain`), and each descriptor is one transfer
(`DmaDescriptor.transfer`). It does not read them one at a time: a block of adjacent descriptors is
fetched at once, and the last descriptor of a block says how many the next block has (`fetchPass`).
-/

namespace Xadma

/-- The address of descriptor `i` of a buffer that starts at `base`. -/
def descAddr (base : BitVec 64) (i : Nat) : BitVec 64 := base + BitVec.ofNat 64 (32 * i)

/-- The index of the descriptor at `addr`, if the buffer `descs` has one there. -/
def descIndex (base : BitVec 64) (descs : List DmaDescriptor) (addr : BitVec 64) : Option Nat :=
  let off := (addr - base).toNat
  if off % 32 = 0 ∧ off / 32 < descs.length then some (off / 32) else none

/-- The indices of the descriptors that are visited from `addr` on, until a next pointer is 0. -/
def followChain (base : BitVec 64) (descs : List DmaDescriptor) :
    Nat → BitVec 64 → Option (List Nat)
  | 0, _ => none
  | fuel + 1, addr => do
    let i ← descIndex base descs addr
    let desc ← descs[i]?
    if desc.nextAddr = 0 then return [i]
    let is ← followChain base descs fuel desc.nextAddr
    return i :: is

/-- One transfer of the engine. -/
structure Transfer where
  hostAddr : BitVec 64
  deviceAddr : BitVec 64
  length : BitVec 32
  deriving DecidableEq, Repr

/-- The host memory is the source of a write to the device and the destination of a read. -/
def DmaDescriptor.transfer (direction : WdfDmaDirection) (desc : DmaDescriptor) : Transfer :=
  match direction with
  | .writeToDevice => ⟨desc.srcAddr, desc.dstAddr, desc.numBytes⟩
  | .readFromDevice => ⟨desc.dstAddr, desc.srcAddr, desc.numBytes⟩

@[simp] theorem DmaDescriptor.orAdj_transfer (direction : WdfDmaDirection) (desc : DmaDescriptor)
    (adj : BitVec 32) : (desc.orAdj adj).transfer direction = desc.transfer direction := rfl

/-- The transfers that the engine makes on the chain from `base`. -/
def executeChain (direction : WdfDmaDirection) (base : BitVec 64) (descs : List DmaDescriptor) :
    Option (List Transfer) := do
  let is ← followChain base descs descs.length base
  is.mapM fun i => descs[i]?.map (DmaDescriptor.transfer direction)

/-! ## Fetches -/

/-- A read request of the device: `count` descriptors from `addr` on. -/
structure FetchBlock where
  addr : BitVec 64
  count : Nat
  deriving DecidableEq, Repr

def FetchBlock.addrs (b : FetchBlock) : List (BitVec 64) :=
  (List.range b.count).map (descAddr b.addr)

/-- Where the next fetch starts and how many descriptors it takes beyond the first. -/
structure FetchState where
  addr : BitVec 64
  adj : BitVec 32
  deriving DecidableEq, Repr

/-- One pass over the buffer: fetch blocks until one ends with the last descriptor. -/
def fetchPass (base : BitVec 64) (descs : List DmaDescriptor) :
    Nat → FetchState → Option (List FetchBlock × FetchState)
  | 0, _ => none
  | fuel + 1, s => do
    let block : FetchBlock := ⟨s.addr, s.adj.toNat + 1⟩
    let i ← descIndex base descs (descAddr s.addr s.adj.toNat)
    let last ← descs[i]?
    let s' : FetchState := ⟨last.nextAddr, last.nextAdj⟩
    if i + 1 = descs.length then return ([block], s')
    let (blocks, s'') ← fetchPass base descs fuel s'
    return (block :: blocks, s'')

/-- `k` passes, each from where the one before ended. -/
def fetchPasses (base : BitVec 64) (descs : List DmaDescriptor) :
    Nat → FetchState → Option (List (List FetchBlock))
  | 0, _ => some []
  | k + 1, s => do
    let (blocks, s') ← fetchPass base descs descs.length s
    let passes ← fetchPasses base descs k s'
    return blocks :: passes

/-! ## Addresses of the buffer -/

section
variable {base : BitVec 64} {n : Nat}

theorem descAddr_zero (base : BitVec 64) : descAddr base 0 = base := by simp [descAddr]

theorem descAddr_succ (base : BitVec 64) (i : Nat) :
    descAddr base (i + 1) = descAddr base i + BitVec.ofNat 64 sizeofDmaDescriptor := by
  simp only [descAddr, sizeofDmaDescriptor, BitVec.add_assoc, ← BitVec.ofNat_add]
  rfl

theorem descAddr_descAddr (base : BitVec 64) (i j : Nat) :
    descAddr (descAddr base i) j = descAddr base (i + j) := by
  simp only [descAddr, BitVec.add_assoc, ← BitVec.ofNat_add, Nat.mul_add]

theorem descAddr_toNat {i : Nat} (h : base.toNat + 32 * n ≤ 2 ^ 64) (hi : i < n) :
    (descAddr base i).toNat = base.toNat + 32 * i := by
  rw [descAddr, BitVec.toNat_add, BitVec.toNat_ofNat]
  omega

theorem descIndex_descAddr {descs : List DmaDescriptor} {i : Nat}
    (h : base.toNat + 32 * descs.length ≤ 2 ^ 64) (hi : i < descs.length) :
    descIndex base descs (descAddr base i) = some i := by
  have hoff : (descAddr base i - base).toNat = 32 * i := by
    rw [descAddr, BitVec.add_comm, BitVec.add_sub_cancel, BitVec.toNat_ofNat]
    omega
  simp only [descIndex, hoff]
  rw [if_pos ⟨by omega, by omega⟩]
  congr 1
  omega

/-- Only the start of the address space is at 0, and no descriptor behind the first is there. -/
theorem descAddr_ne_zero {i : Nat} (h : base.toNat + 32 * n ≤ 2 ^ 64) (hi : i + 1 < n) :
    descAddr base (i + 1) ≠ 0 := by
  intro h0
  have := descAddr_toNat h hi
  rw [h0] at this
  simp at this

end

end Xadma
