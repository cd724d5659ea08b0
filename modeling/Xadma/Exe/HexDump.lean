import Mathlib.Algebra.Ring.Nat
import Xadma.Exe.XdmaRw

/-!
# The hex dump (`print_bytes` of `exe/xdma_rw/xdma_rw.c` and `exe/streaming_dma/streaming_dma.cpp`)

A row shows its address, sixteen columns for the bytes and sixteen for their characters. The two
clients differ in the case of the address and in the type of the index of a row, `int` in `xdma_rw`
and `unsigned` in `streaming_dma`. There is no text here where its product with 16 overflows.
-/

namespace Xadma

namespace Dump

/-- The parameter of `is_printable` is a signed `char`. -/
def isPrintable (c : BitVec 8) : Bool := !(c.toInt < 32 || c.toInt = 127)

/-- A number in hexadecimal digits. -/
def digits (upper : Bool) (n : Nat) : List Char :=
  if upper then (Nat.toDigits 16 n).map Char.toUpper else Nat.toDigits 16 n

/-- The number, filled with zeros up to the width. -/
def hex (upper : Bool) (width n : Nat) : List Char := (digits upper n).leftpad width '0'

def rowCount (length : Nat) : Nat := length / 16 + if length % 16 ≠ 0 then 1 else 0

/-- `min(16, length - row * 16)` bytes from `row * 16` on. -/
def rowBytes (data : List (BitVec 8)) (row : Nat) : List (BitVec 8) :=
  (data.drop (row * 16)).take 16

def printRow (upper : Bool) (addr : BitVec 64) (bytes : List (BitVec 8)) : List Char :=
  ['0', 'x'] ++ hex upper 4 addr.toNat ++ [':', ' ', ' '] ++
    bytes.flatMap (fun byte => hex false 2 byte.toNat ++ [' ']) ++
    (List.replicate (16 - bytes.length) [' ', ' ', ' ']).flatten ++
    -- the gutter
    [' ', ' ', ' ', ' '] ++
    bytes.map (fun byte => if isPrintable byte then Char.ofNat byte.toNat else '.') ++
    List.replicate (16 - bytes.length) ' ' ++ ['\n']

/-- `limit` is the number of rows up to which the index and its product with 16 are in range. -/
def printRows (upper : Bool) (limit : Nat) (addr : BitVec 64) (data : List (BitVec 8)) :
    Option (List Char) :=
  if rowCount data.length ≤ limit then
    some <| (List.range (rowCount data.length)).flatMap fun row =>
      printRow upper (addr + BitVec.ofNat 64 (row * 16)) (rowBytes data row)
  else none

end Dump

/-- `print_bytes` of `xdma_rw`, without the file that it prints to. -/
def Rw.printBytes (addr : BitVec 64) (data : List (BitVec 8)) : Option (List Char) :=
  Dump.printRows true (2 ^ 27) addr data

/-- `print_bytes` of `streaming_dma`. -/
def Streaming.printBytes (addr : BitVec 64) (data : List (BitVec 8)) : Option (List Char) :=
  Dump.printRows false (2 ^ 28) addr data

end Xadma
