import Xadma.Libadma.EntryPoints
import Mathlib.Data.List.TakeWhile

/-!
# The name of a device file (`sys/file_io.c`, `ADMA_Driver/file_io.c`)

The framework hands the name over as a counted string. `GetDevNodeType` of either driver compares
its buffer with the terminated names of its table.
-/

namespace Xadma

namespace FileName

/-- `length` bytes from the start of `buffer`. What stands behind them is not part of the string. -/
structure UnicodeString where
  length : BitVec 16
  buffer : Nat → BitVec 8

def UnicodeString.char (s : UnicodeString) (i : Nat) : BitVec 16 :=
  s.buffer (2 * i + 1) ++ s.buffer (2 * i)

/-- The characters of a wide string, up to its terminator. -/
structure WideString where
  chars : List (BitVec 16)
  nonzero : ∀ c ∈ chars, c ≠ 0

/-- The character at an index, where the terminator stands behind the last one. -/
def WideString.char (w : WideString) (i : Nat) : BitVec 16 := w.chars.getD i 0

/-- The literal of a string in the basic plane. -/
def WideString.ofLiteral (t : String) : WideString where
  chars := (t.toList.map fun c => BitVec.ofNat 16 c.toNat).takeWhile (· ≠ 0)
  nonzero := fun c hc => by simpa using List.mem_takeWhile_imp hc

/-! ## The comparison -/

inductive NameOp
  | readChar (i : Nat)
  deriving DecidableEq, Repr

abbrev NameOp.Res : NameOp → Type
  | .readChar _ => BitVec 16

abbrev NameProg := Prog NameOp NameOp.Res

def NameOp.perform (o : NameOp) : NameProg o.Res := Prog.perform o

def UnicodeString.read (s : UnicodeString) : (o : NameOp) → o.Res
  | .readChar i => s.char i

/-- Whether `wcscmp` finds the buffer from `i` on and a terminated string equal. -/
def wcscmp : (i : Nat) → List (BitVec 16) → NameProg Bool
  | i, [] => do
    let c : BitVec 16 ← (NameOp.readChar i).perform
    return decide (c = 0)
  | i, d :: ds => do
    let c : BitVec 16 ← (NameOp.readChar i).perform
    if c = d then wcscmp (i + 1) ds else return false

/-- An entry of the table: the name, the node type and the channel. -/
abbrev LutEntry := WideString × DevNodeType × Nat

/-- `index` is what the caller has stored before; an unknown name leaves it. -/
def lookup (index : Nat) : List LutEntry → NameProg (DevNodeType × Nat)
  | [] => return (.unknown, index)
  | (wstr, devType, channel) :: lut => do
    let equal ← wcscmp 0 wstr.chars
    if equal then return (devType, channel) else lookup index lut

/-! ## The two drivers -/

def wideLut (lut : List (String × DevNodeType × Nat)) : List LutEntry :=
  lut.map fun entry => (.ofLiteral entry.1, entry.2)

def xdmaLut : List LutEntry := wideLut Entry.fileNameLut

def admaLut : List LutEntry := wideLut Adma.fileNameLut

/-- `GetDevNodeType` of `sys/file_io.c`. -/
def getDevNodeType (index : Nat) : NameProg (DevNodeType × Nat) := lookup index xdmaLut

/-- `GetDevNodeType` of `ADMA_Driver/file_io.c`. -/
def admaGetDevNodeType (index : Nat) : NameProg (DevNodeType × Nat) := lookup index admaLut

end FileName

end Xadma
