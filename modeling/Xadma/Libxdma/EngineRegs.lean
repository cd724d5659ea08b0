import Xadma.Libxdma.DmaEngine

/-!
# Alignment and performance registers of an engine (`libxdma/dma_engine.c`)

`EngineGetAlignments` reads one register when the engine is created; `EngineGetPerf` reads each of
three running 64-bit counters as two registers. `libadma/adma_engine.c` has both with the same text.
-/

namespace Xadma

/-! ## `EngineGetAlignments` -/

/-- What an engine requires of the descriptors, as it is kept beside the engine. -/
structure AlignmentData where
  alignAddr : BitVec 32
  alignLength : BitVec 32
  alignAddrBits : BitVec 32
  deriving DecidableEq

def alignBytes (alignments : BitVec 32) : BitVec 32 := (alignments &&& 0x00ff0000#32) >>> 16
def granularityBytes (alignments : BitVec 32) : BitVec 32 := (alignments &&& 0x0000ff00#32) >>> 8
def addressBits (alignments : BitVec 32) : BitVec 32 := alignments &&& 0x000000ff#32

def engineGetAlignments (alignments : BitVec 32) : AlignmentData :=
  if alignments ≠ 0 then
    { alignAddr := alignBytes alignments
      alignLength := granularityBytes alignments
      alignAddrBits := addressBits alignments }
  else -- Some default values if alignments are unspecified
    { alignAddr := 1
      alignLength := 1
      alignAddrBits := 64 }

/-- The engine behind `EngineGetAlignments`. No modelled routine reads `alignAddrBits`. -/
def XdmaEngine.getAlignments (engine : XdmaEngine) (alignments : BitVec 32) : XdmaEngine :=
  { engine with
    alignAddr := (engineGetAlignments alignments).alignAddr
    alignLength := (engineGetAlignments alignments).alignLength }

/-! ## `EngineGetPerf` -/

/-- The performance counters in the hardware. -/
structure PerfCounters where
  cycle : BitVec 64
  data : BitVec 64
  pending : BitVec 64
  deriving DecidableEq

inductive PerfReg
  | cycLo
  | cycHi
  | datLo
  | datHi
  | pndLo
  | pndHi
  deriving DecidableEq, Repr

def PerfReg.read (counters : PerfCounters) : PerfReg → BitVec 32
  | .cycLo => lowPart counters.cycle
  | .cycHi => highPart counters.cycle
  | .datLo => lowPart counters.data
  | .datHi => highPart counters.data
  | .pndLo => lowPart counters.pending
  | .pndHi => highPart counters.pending

/-- The counters over the time that counts the register reads. -/
abbrev PerfEvolution := Nat → PerfCounters

/-- C leaves open which operand of a sum is read first. -/
inductive OperandOrder
  | leftFirst
  | rightFirst
  deriving DecidableEq, Repr

/-- The counters run on before every read. -/
def readPerf (hw : PerfEvolution) (reg : PerfReg) : StateM Nat (BitVec 32) := fun time =>
  (reg.read (hw (time + 1)), time + 1)

/-- `((UINT64)left << 32) + right` -/
def recombine (hw : PerfEvolution) (left right : PerfReg) :
    OperandOrder → StateM Nat (BitVec 64)
  | .leftFirst => do
    let hi ← readPerf hw left
    let lo ← readPerf hw right
    return (hi.setWidth 64 <<< 32) + lo.setWidth 64
  | .rightFirst => do
    let lo ← readPerf hw right
    let hi ← readPerf hw left
    return (hi.setWidth 64 <<< 32) + lo.setWidth 64

/-- The operand order the compiler has chosen for each of the sums, and the registers that
`TraceVerbose` reads in front of them: six in some order, or none where the trace is off. -/
structure PerfCompilation where
  traced : List PerfReg
  cycle : OperandOrder
  data : OperandOrder
  pending : OperandOrder

/-- `XDMA_PERF_DATA` -/
structure PerfData where
  clockCycleCount : BitVec 64
  dataCycleCount : BitVec 64
  pendingCount : BitVec 64
  deriving DecidableEq

def engineGetPerf (hw : PerfEvolution) (code : PerfCompilation) : StateM Nat PerfData := do
  code.traced.forM fun reg => do
    let _ ← readPerf hw reg
  let clockCycleCount ← recombine hw .cycHi .cycLo code.cycle
  let dataCycleCount ← recombine hw .datHi .datLo code.data
  -- the high register stands on both sides
  let pendingCount ← recombine hw .pndHi .pndHi code.pending
  return { clockCycleCount, dataCycleCount, pendingCount }

end Xadma
