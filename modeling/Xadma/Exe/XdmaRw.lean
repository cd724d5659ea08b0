import Xadma.Theory.Prog
import Mathlib.Data.List.TakeWhile

/-!
# The command line of `xdma_rw` (`exe/xdma_rw/xdma_rw.c`)

`parse` walks over the argument vector by an index: the positional arguments first, then the options
in a loop, and the data bytes, which it stores in a buffer of its own. An access outside the vector
gets `NULL`, which stands behind the last argument.
-/

namespace Xadma

namespace Rw

/-! ## Strings -/

def nul : Char := Char.ofNat 0

/-- The characters of a string, up to its terminator. -/
structure CString where
  chars : List Char
  nonzero : ∀ c ∈ chars, c ≠ nul
  deriving DecidableEq, Repr

def CString.ofLiteral (t : String) : CString where
  chars := t.toList.takeWhile (· ≠ nul)
  nonzero := fun c hc => by simpa using List.mem_takeWhile_imp hc

def CString.char (s : CString) (i : Nat) : Char := s.chars.getD i nul

/-- Whether `strcmp` finds the two equal. -/
def strcmp (s t : CString) : Bool := decide (s.chars = t.chars)

def isSpace (c : Char) : Bool := c = ' ' || (9 ≤ c.toNat && c.toNat ≤ 13)

/-- The value of a digit, in any base up to 36. -/
def digitValue (c : Char) : Option Nat :=
  if c.isDigit then some (c.toNat - 48)
  else if c.isUpper then some (c.toNat - 55)
  else if c.isLower then some (c.toNat - 87)
  else none

/-- The value of the digits up to the first character that is not one. -/
def digitsValue (base : Nat) : (value : Nat) → List Char → Nat
  | value, [] => value
  | value, c :: cs =>
    match digitValue c with
    | some digit => if digit < base then digitsValue base (value * base + digit) cs else value
    | none => value

/-- The sign and what stands behind it. -/
def splitSign : List Char → Bool × List Char
  | '-' :: cs => (true, cs)
  | '+' :: cs => (false, cs)
  | cs => (false, cs)

/-- The base that the prefix shows, and the digits. -/
def splitBase : List Char → Nat × List Char
  | '0' :: 'x' :: cs => (16, cs)
  | '0' :: 'X' :: cs => (16, cs)
  | '0' :: cs => (8, cs)
  | cs => (10, cs)

/-- `strtoul` and `strtoull` with base 0: an unsigned number of `w` bits, or the largest one. -/
def strtoul (w : Nat) (s : CString) : BitVec w :=
  let (negative, cs) := splitSign (s.chars.dropWhile isSpace)
  let (base, cs) := splitBase cs
  let value := digitsValue base 0 cs
  if (BitVec.allOnes w).toNat < value then BitVec.allOnes w
  else if negative then -BitVec.ofNat w value
  else BitVec.ofNat w value

/-! ## Calls -/

inductive Direction
  | c2h
  | h2c
  deriving DecidableEq, Repr

/-- `data` is whether the pointer is not `NULL`; the buffer that it points to is part of the
state. -/
structure Options where
  verbose : Bool
  device : Option CString
  file : Option CString
  data : Bool
  address : BitVec 64
  size : BitVec 32
  direction : Direction
  alignment : Nat
  binary : Bool
  deriving DecidableEq

inductive RwOp
  /-- An access to `argv[i]`. -/
  | arg (i : Nat)
  | usage (exeName : Option CString)
  | unknownOption (c : Char)
  /-- `GetSystemInfo`, for the page size. -/
  | getSystemInfo
  | alignedMalloc (size alignment : Nat)
  /-- `options.data[byteidx] = value`. -/
  | storeData (byteidx : Nat) (value : BitVec 8)
  /-- A string is accessed through `NULL`. -/
  | fault
  /-- A loop is not over. -/
  | looping
  deriving DecidableEq

abbrev RwOp.Res : RwOp → Type
  | .arg _ => Option CString
  | .getSystemInfo => Nat
  | .alignedMalloc .. => Bool
  | _ => Unit

abbrev RwProg := Prog RwOp RwOp.Res

def RwOp.perform (o : RwOp) : RwProg o.Res := Prog.perform o

/-- The string at `argv[i]` is used by `f`. -/
def readArg {α : Type} [Inhabited α] (i : Nat) (f : CString → α) : RwProg α := do
  let a : Option CString ← (RwOp.arg i).perform
  match a with
  | some a => return f a
  | none => do
    RwOp.fault.perform
    return default

/-- `argv[i][j]` -/
def argChar (i j : Nat) : RwProg Char := readArg i fun a => a.char j

/-- `strtoul(argv[i], NULL, 0)` -/
def argNumber (w i : Nat) : RwProg (BitVec w) := readArg i (strtoul w)

/-! ## `parse` -/

def usage : RwProg Unit := do
  let exeName : Option CString ← (RwOp.arg 0).perform
  (RwOp.usage exeName).perform

def allocateBuffer (size alignment : Nat) : RwProg Bool := do
  let size := if size = 0 then 4 else size
  if alignment = 0 then do
    let pageSize : Nat ← RwOp.getSystemInfo.perform
    (RwOp.alignedMalloc size pageSize).perform
  else (RwOp.alignedMalloc size alignment).perform

/-- The switch over the letter of an option. `next` is the loop behind it. -/
def optionSwitch (next : (argidx : Nat) → Options → RwProg (Option (Nat × Options)))
    (argidx : Nat) (o : Options) : Char → RwProg (Option (Nat × Options))
  | '?' | 'h' => do
    usage
    return none
  | 'b' => next (argidx + 1) { o with binary := true }
  | 'v' => next (argidx + 1) { o with verbose := true }
  | 'f' => do
    let file : Option CString ← (RwOp.arg (argidx + 1)).perform
    next (argidx + 2) { o with file := file }
  | 'l' => do
    let size ← argNumber 32 (argidx + 1)
    next (argidx + 2) { o with size := size }
  | 'a' => do
    let alignment ← argNumber 32 (argidx + 1)
    next (argidx + 2) { o with alignment := alignment.toNat }
  | letter => do
    (RwOp.unknownOption letter).perform
    usage
    return none

/-- The loop over the options, with a bound on the tests of its condition: the index behind them, or
`none` if `parse` returns 0. -/
def optionLoop (argc : Nat) : (bound argidx : Nat) → Options → RwProg (Option (Nat × Options))
  | 0, _, _ => do
    RwOp.looping.perform
    return none
  | bound + 1, argidx, o =>
    if argidx < argc then do
      let first ← argChar argidx 0
      if first = '-' ∨ first = '/' then do
        let letter ← argChar argidx 1
        optionSwitch (optionLoop argc bound) argidx o letter
      else return some (argidx, o)
    else return some (argidx, o)

/-- The loop over the data, with the arguments that are left. -/
def dataLoop : (rest argidx byteidx : Nat) → RwProg Unit
  | 0, _, _ => return ()
  | rest + 1, argidx, byteidx => do
    let value ← argNumber 32 argidx
    (RwOp.storeData byteidx (value.setWidth 8)).perform
    dataLoop rest (argidx + 1) (byteidx + 1)

/-- The part of `parse` behind the options. -/
def parseData (argc argidx : Nat) (o : Options) : RwProg (Option Options) :=
  if argidx ≠ argc then
    if o.direction = .h2c then do
      let size := BitVec.ofNat 32 argc - BitVec.ofNat 32 argidx
      let data ← allocateBuffer size.toNat o.alignment
      dataLoop (argc - argidx) argidx 0
      return some { o with size := size, data := data }
    else do
      usage
      return none
  else return some o

/-- The options before `parse`. -/
def Options.init : Options where
  verbose := false
  device := none
  file := none
  data := false
  address := 0
  size := 0
  direction := .c2h
  alignment := 0
  binary := false

/-- What the argument behind the device says. -/
def directionOf (a : CString) : Option Direction :=
  if strcmp a (.ofLiteral "write") then some .h2c
  else if strcmp a (.ofLiteral "read") then some .c2h
  else none

def argDirection (i : Nat) : RwProg (Option Direction) := readArg i directionOf

/-- The part of `parse` behind the direction. -/
def parseOptions (argc bound : Nat) (device : Option CString) (direction : Direction) :
    RwProg (Option Options) := do
  let address ← argNumber 64 3
  let parsed ← optionLoop argc bound 4
    { Options.init with device := device, direction := direction, address := address }
  match parsed with
  | none => return none
  | some (argidx, o) => parseData argc argidx o

/-- The options, or `none` if the routine returns 0. -/
def parse (argc bound : Nat) : RwProg (Option Options) :=
  if argc < 3 then do
    usage
    return none
  else do
    let device : Option CString ← (RwOp.arg 1).perform
    let direction ← argDirection 2
    match direction with
    | none => do
      usage
      return none
    | some direction => parseOptions argc bound device direction

/-! ## The process -/

/-- The buffer that `_aligned_malloc` returns. -/
structure Buffer where
  size : Nat
  bytes : Nat → BitVec 8

structure RwWorld where
  usageShown : Bool
  buffer : Option Buffer

/-- What `main` is called with, and what the system answers. -/
structure RwEnv where
  argv : List CString
  argv_pos : 0 < argv.length
  /-- `argc` is an `int`. -/
  argv_lt : argv.length < 0x80000000
  pageSize : Nat
  malloc : (size alignment : Nat) → Bool
  fresh : Nat → BitVec 8

def RwEnv.answer (env : RwEnv) : (o : RwOp) → RwWorld → o.Res
  | .arg i, _ => env.argv[i]?
  | .usage _, _ => ()
  | .unknownOption _, _ => ()
  | .getSystemInfo, _ => env.pageSize
  | .alignedMalloc size alignment, _ => env.malloc size alignment
  | .storeData .., _ => ()
  | .fault, _ => ()
  | .looping, _ => ()

/-- A store outside the buffer is not possible. -/
def RwEnv.act (env : RwEnv) : (o : RwOp) → RwWorld → o.Res → Option RwWorld
  | .arg _, w, _ => some w
  | .usage _, w, _ => some { w with usageShown := true }
  | .unknownOption _, w, _ => some w
  | .getSystemInfo, w, _ => some w
  | .alignedMalloc size _, w, r =>
    some { w with buffer := if r then some ⟨size, env.fresh⟩ else none }
  | .storeData k value, w, _ =>
    match w.buffer with
    | none => none
    | some buffer =>
      if k < buffer.size then
        some { w with buffer := some ⟨buffer.size, Function.update buffer.bytes k value⟩ }
      else none
  | .fault, _, _ => none
  | .looping, _, _ => none

def RwWorld.start : RwWorld := ⟨false, none⟩

end Rw

end Xadma
