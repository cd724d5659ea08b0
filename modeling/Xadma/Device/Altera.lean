import Xadma.Libadma.Engine
import Xadma.Device.Descriptors

/-!
# What the Altera cores do with descriptors

The Arria 10 core executes the slots of the table one after the other, and the length is in the low
18 bits of the control word. The dispatcher of the Cyclone core executes the committed descriptors;
its host side addresses go through the entry of the translation table.
-/

namespace Xadma

/-- The part of the control word below the number of the descriptor. -/
def admaLengthMask : BitVec 32 := BitVec.ofNat 32 (2 ^ 18 - 1)

def AdmaDescriptor.length (descriptor : AdmaDescriptor) : BitVec 32 :=
  descriptor.control &&& admaLengthMask

def AdmaDescriptor.transfer (direction : WdfDmaDirection) (descriptor : AdmaDescriptor) :
    Transfer :=
  let src := descriptor.srcAddrHi ++ descriptor.srcAddrLo
  let dst := descriptor.dstAddrHi ++ descriptor.dstAddrLo
  match direction with
  | .writeToDevice => ⟨src, dst, descriptor.length⟩
  | .readFromDevice => ⟨dst, src, descriptor.length⟩

/-- The slots behind `id` that `n` descriptors take. -/
def slots : BitVec 32 → Nat → List (BitVec 32)
  | _, 0 => []
  | id, n + 1 => nextId id :: slots (nextId id) n

def ModularSgdmaDescriptor.hostAddress (direction : WdfDmaDirection)
    (descriptor : ModularSgdmaDescriptor) : BitVec 32 :=
  match direction with
  | .writeToDevice => descriptor.readAddress
  | .readFromDevice => descriptor.writeAddress

def ModularSgdmaDescriptor.deviceAddress (direction : WdfDmaDirection)
    (descriptor : ModularSgdmaDescriptor) : BitVec 32 :=
  match direction with
  | .writeToDevice => descriptor.writeAddress
  | .readFromDevice => descriptor.readAddress

/-- A mask as it is read back from the device: ones down to `bit`. -/
structure A2pMask where
  bit : Nat
  two_le_bit : 2 ≤ bit
  bit_lt : bit < 32

def A2pMask.word (mask : A2pMask) : BitVec 32 := BitVec.allOnes 32 <<< mask.bit

/-- The host address that the Avalon address `x` stands for. -/
def AdmaRegs.translate (s : AdmaRegs) (mask : A2pMask) (x : BitVec 32) : BitVec 64 :=
  s.a2pAddrHi0 ++ (s.a2pAddrLo0 &&& mask.word ||| x &&& ~~~ mask.word)

/-- The bytes from `x` on stay below the end of the window that the entry translates. -/
def A2pMask.InWindow (mask : A2pMask) (x length : BitVec 32) : Prop :=
  (x &&& ~~~ mask.word).toNat + length.toNat ≤ 2 ^ mask.bit

end Xadma
