import Xadma.Exe.HexDump

/-!
# `main` of `xdma_rw` (`exe/xdma_rw/xdma_rw.c`)

Behind `parse` the client opens the file of the device, moves its pointer to the address, and reads
from it to a file or to the output, or writes to it from a file or from the arguments. What a call
does to the device is a parameter (`DeviceFile`). The text that is written for a verbose call only
is left out, and the time that a transfer takes.
-/

namespace Xadma

/-- A file of the driver. A call that fails can have changed the device. -/
structure DeviceFile (δ : Type) where
  read : δ → (offset : BitVec 64) → (length : Nat) → Option (List (BitVec 8)) × δ
  write : δ → (offset : BitVec 64) → List (BitVec 8) → Option Nat × δ
  read_le : ∀ {d offset length bytes}, (read d offset length).1 = some bytes → bytes.length ≤ length
  write_le : ∀ {d offset bytes n}, (write d offset bytes).1 = some n → n ≤ bytes.length

namespace Rw

/-! ## Calls -/

/-- What is written to the error output, or to the output at the end of a transfer. -/
inductive Message
  | openingDevice
  | settingFilePointer
  | allocating (size : BitVec 32)
  | readFile (path : List Char)
  | couldNotOpen (file : CString)
  | readFromFile (size : BitVec 32) (file : CString)
  | noValidData
  | writeFile (path : List Char)
  | received (size : BitVec 32)
  | written (size : BitVec 32)
  deriving DecidableEq

inductive MainOp
  | rw (o : RwOp)
  /-- `get_devices`: how many there are, and the path of the last one. The process ends if the
  answer is `none`. -/
  | getDevices
  | createFile (path : List Char)
  | setFilePointerEx (address : BitVec 64)
  | memset (size : Nat)
  /-- `ReadFile` and `WriteFile`, with the buffer. -/
  | readFile (size : BitVec 32)
  | writeFile (size : BitVec 32)
  | closeHandle
  | fopen (file : CString) (write : Bool)
  /-- `fseek` to the end, `fgetpos`, and `fseek` back. -/
  | fileSize
  | fread (size : BitVec 32)
  | fclose
  /-- The first bytes of the buffer are used. -/
  | data (size : Nat)
  /-- `fwrite` and `fprintf`, to the file that is open or to `stdout`. -/
  | print (bytes : List (BitVec 8))
  | message (m : Message)
  /-- A call that the C library or the language leaves undefined. -/
  | fault

abbrev MainOp.Res : MainOp → Type
  | .rw o => o.Res
  | .getDevices => Option (BitVec 32 × List Char)
  | .createFile _ => Bool
  | .setFilePointerEx _ => BitVec 32
  | .readFile _ | .writeFile _ => Option (BitVec 32)
  | .fopen .. => Bool
  | .fileSize => BitVec 64
  | .fread _ => BitVec 32
  | .data _ => List (BitVec 8)
  | _ => Unit

abbrev MainProg := Prog MainOp MainOp.Res

def MainOp.perform (o : MainOp) : MainProg o.Res := Prog.perform o

/-- A routine of `parse` or of the allocation. -/
def RwProg.lift {α : Type} (p : RwProg α) : MainProg α := p.mapOp .rw fun _ r => r

/-! ## Printing -/

/-- The file is printed to that a read is given, and `stdout` else. `print` and `fclose` get `NULL`
if the file cannot be opened. -/
def toOutput (o : Options) (print : MainProg Unit) : MainProg Unit :=
  if o.direction = .c2h then
    match o.file with
    | none => print
    | some file => do
      let opened : Bool ← (MainOp.fopen file true).perform
      if opened then do
        print
        MainOp.fclose.perform
      else MainOp.fault.perform
  else print

def printBytesBinary (o : Options) (data : List (BitVec 8)) : MainProg Unit :=
  toOutput o (MainOp.print data).perform

/-- The bytes of a text. -/
def textBytes (text : List Char) : List (BitVec 8) := text.map fun c => BitVec.ofNat 8 c.toNat

def printBytesText (o : Options) (data : List (BitVec 8)) : MainProg Unit :=
  toOutput o <|
    match printBytes o.address data with
    | some text => (MainOp.print (textBytes text)).perform
    | none => MainOp.fault.perform

/-- What a read has brought. -/
def printData (o : Options) (data : List (BitVec 8)) : MainProg Unit :=
  if o.binary then printBytesBinary o data else printBytesText o data

/-! ## The transfers -/

def readDevice (path : List Char) (o : Options) : MainProg Int := do
  let data ← (allocateBuffer o.size.toNat o.alignment).lift
  if data then do
    (MainOp.memset o.size.toNat).perform
    let read : Option (BitVec 32) ← (MainOp.readFile o.size).perform
    match read with
    | none => do
      (MainOp.message (.readFile path)).perform
      return -1
    | some size => do
      let bytes : List (BitVec 8) ← (MainOp.data size.toNat).perform
      printData o bytes
      (MainOp.message (.received size)).perform
      return 0
  else do
    (MainOp.message (.allocating o.size)).perform
    return -1

/-- `options.size` if it is not zero, and the size of the file else, as a `DWORD`. -/
def sizeOfFile (o : Options) : MainProg (BitVec 32) :=
  if o.size = 0 then do
    let position : BitVec 64 ← MainOp.fileSize.perform
    return position.setWidth 32
  else return o.size

/-- The part of a write that reads the file, with the options behind it. -/
def loadFile (o : Options) (file : CString) : MainProg (Option Options) := do
  let opened : Bool ← (MainOp.fopen file false).perform
  if opened then do
    let size ← sizeOfFile o
    let data ← (allocateBuffer size.toNat o.alignment).lift
    if data then do
      let size : BitVec 32 ← (MainOp.fread size).perform
      MainOp.fclose.perform
      (MainOp.message (.readFromFile size file)).perform
      return some { o with size := size, data := true }
    else do
      (MainOp.message (.allocating size)).perform
      return none
  else do
    (MainOp.message (.couldNotOpen file)).perform
    return none

/-- A verbose write shows what the device has taken. -/
def printWritten (o : Options) (size : BitVec 32) : MainProg Unit :=
  Prog.when o.verbose do
    let bytes : List (BitVec 8) ← (MainOp.data size.toNat).perform
    printBytesText o bytes

def writeBuffer (path : List Char) (o : Options) : MainProg Int :=
  if o.data then do
    let written : Option (BitVec 32) ← (MainOp.writeFile o.size).perform
    match written with
    | none => do
      (MainOp.message (.writeFile path)).perform
      return -1
    | some size => do
      printWritten o size
      (MainOp.message (.written size)).perform
      return 0
  else do
    (MainOp.message .noValidData).perform
    usage.lift
    return -1

def writeDevice (path : List Char) (o : Options) : MainProg Int :=
  match o.file with
  | none => writeBuffer path o
  | some file => do
    let loaded ← loadFile o file
    match loaded with
    | none => return -1
    | some o => writeBuffer path o

/-! ## `main` -/

def maxPath : Nat := 260

def invalidSetFilePointer : BitVec 32 := 0xFFFFFFFF

/-- The path of the node. -/
def devicePath (basePath : List Char) (device : CString) : List Char :=
  basePath ++ '\\' :: device.chars

/-- `SetFilePointerEx` returns a `BOOL`, and is compared with what `SetFilePointer` returns when it
fails. -/
def transfer (path : List Char) (o : Options) : MainProg Int := do
  let moved : BitVec 32 ← (MainOp.setFilePointerEx o.address).perform
  if moved = invalidSetFilePointer then do
    (MainOp.message .settingFilePointer).perform
    return -1
  else if o.direction = .c2h then readDevice path o
  else writeDevice path o

/-- The part of `main` that has the file of the device open. -/
def withDevice (path : List Char) (o : Options) : MainProg Int := do
  let status ← transfer path o
  MainOp.closeHandle.perform
  return status

/-- The part of `main` behind `parse`. -/
def openDevice (basePath : List Char) (o : Options) : MainProg Int :=
  match o.device with
  | some device =>
    if (devicePath basePath device).length ≤ maxPath then do
      let opened : Bool ← (MainOp.createFile (devicePath basePath device)).perform
      if opened then withDevice (devicePath basePath device) o
      else do
        (MainOp.message .openingDevice).perform
        return -1
    else do
      -- `strcat_s` does not return
      MainOp.fault.perform
      return -1
  | none => do
    MainOp.fault.perform
    return -1

/-- The status that the process ends with. -/
def main (argc bound : Nat) : MainProg Int := do
  let devices : Option (BitVec 32 × List Char) ← MainOp.getDevices.perform
  match devices with
  | none => return -1
  | some (numDevices, basePath) =>
    if numDevices.ult 1 then return -1
    else do
      let parsed ← (parse argc bound).lift
      match parsed with
      | none => return -1
      | some o => openDevice basePath o

/-! ## The process -/

/-- What leaves through a stream in text mode: a line feed gets a carriage return in front. -/
def textMode (bytes : List (BitVec 8)) : List (BitVec 8) :=
  bytes.flatMap fun b => if b = 0x0A then [0x0D, 0x0A] else [b]

def Buffer.load (b : Buffer) (n : Nat) : List (BitVec 8) := (List.range n).map b.bytes

/-- The bytes are stored from the beginning on. -/
def Buffer.store (b : Buffer) (bytes : List (BitVec 8)) : Buffer :=
  { b with bytes := fun i => bytes.getD i (b.bytes i) }

/-- What `main` is called with, and what the system answers to its calls. -/
structure MainEnv (δ : Type) extends RwEnv where
  devices : Option (BitVec 32 × List Char)
  node : List Char → Option (DeviceFile δ)
  /-- The files that can be written to. -/
  creatable : List Char → Bool

structure MainWorld (δ : Type) where
  rw : RwWorld
  device : δ
  files : List Char → Option (List (BitVec 8))
  /-- What has left through `stdout`, which stays in text mode; the files are opened as binary. -/
  stdout : List (BitVec 8)
  /-- The file of the device that is open, and its pointer. -/
  handle : Option (DeviceFile δ × BitVec 64)
  /-- What is left of the file that is open for reading. -/
  input : List (BitVec 8)
  /-- The file that is open for writing. -/
  output : Option (List Char)
  messages : List Message

variable {δ : Type}

/-- What the device answers to a read through the open file. -/
def MainWorld.read (w : MainWorld δ) (size : Nat) : Option (List (BitVec 8)) × δ :=
  match w.handle with
  | some (file, pointer) => file.read w.device pointer size
  | none => (none, w.device)

def MainWorld.write (w : MainWorld δ) (bytes : List (BitVec 8)) : Option Nat × δ :=
  match w.handle with
  | some (file, pointer) => file.write w.device pointer bytes
  | none => (none, w.device)

def MainWorld.load (w : MainWorld δ) (n : Nat) : List (BitVec 8) :=
  match w.rw.buffer with
  | some b => b.load n
  | none => []

/-- Stored to the buffer, which `length` bytes of are used. -/
def MainWorld.store (w : MainWorld δ) (length : Nat) (bytes : List (BitVec 8)) :
    Option (MainWorld δ) :=
  match w.rw.buffer with
  | some b =>
    if length ≤ b.size then some { w with rw := { w.rw with buffer := some (b.store bytes) } }
    else none
  | none => none

def MainEnv.answer (env : MainEnv δ) : (o : MainOp) → MainWorld δ → o.Res
  | .rw o, w => env.toRwEnv.answer o w.rw
  | .getDevices, _ => env.devices
  | .createFile path, _ => (env.node path).isSome
  -- a pointer in front of the file is an error
  | .setFilePointerEx address, _ => if address.toInt < 0 then 0 else 1
  | .readFile size, w => (w.read size.toNat).1.map fun bytes => BitVec.ofNat 32 bytes.length
  | .writeFile size, w => (w.write (w.load size.toNat)).1.map (BitVec.ofNat 32)
  | .fopen file false, w => (w.files file.chars).isSome
  | .fopen file true, _ => env.creatable file.chars
  | .fileSize, w => BitVec.ofNat 64 w.input.length
  | .fread size, w => BitVec.ofNat 32 (w.input.take size.toNat).length
  | .data size, w => w.load size
  | .memset _, _ | .closeHandle, _ | .fclose, _ | .print _, _ | .message _, _ | .fault, _ => ()

/-- An access outside the buffer is not possible. -/
def MainEnv.act (env : MainEnv δ) : (o : MainOp) → MainWorld δ → o.Res → Option (MainWorld δ)
  | .rw o, w, r => (env.toRwEnv.act o w.rw r).map fun rw => { w with rw := rw }
  | .getDevices, w, _ => some w
  | .createFile path, w, _ => some { w with handle := (env.node path).map fun file => (file, 0) }
  | .setFilePointerEx address, w, r =>
    if r = 0 then some w
    else some { w with handle := w.handle.map fun handle => (handle.1, address) }
  | .memset size, w, _ => w.store size (List.replicate size 0)
  | .readFile size, w, _ =>
    { w with device := (w.read size.toNat).2 }.store size.toNat ((w.read size.toNat).1.getD [])
  | .writeFile size, w, _ =>
    { w with device := (w.write (w.load size.toNat)).2 }.store size.toNat []
  | .closeHandle, w, _ => some { w with handle := none }
  | .fopen file false, w, r =>
    some (if r then { w with input := (w.files file.chars).getD [] } else w)
  | .fopen file true, w, r =>
    some (if r then
      { w with
        files := Function.update w.files file.chars (some [])
        output := some file.chars }
    else w)
  | .fileSize, w, _ => some w
  | .fread size, w, _ =>
    { w with input := w.input.drop size.toNat }.store size.toNat (w.input.take size.toNat)
  | .fclose, w, _ => some { w with input := [], output := none }
  | .data size, w, _ => w.store size []
  | .print bytes, w, _ =>
    match w.output with
    | some file => some { w with
        files := Function.update w.files file ((w.files file).map (· ++ bytes)) }
    | none => some { w with stdout := w.stdout ++ textMode bytes }
  | .message m, w, _ => some { w with messages := w.messages ++ [m] }
  | .fault, _, _ => none

/-- The process begins, with the device and the files as they are. -/
def MainWorld.start (device : δ) (files : List Char → Option (List (BitVec 8))) : MainWorld δ :=
  ⟨.start, device, files, [], none, [], none, []⟩

/-- The status of the process and what it leaves, unless it is ended by a fault. -/
def MainEnv.run (env : MainEnv δ) (w : MainWorld δ) : Option (Int × MainWorld δ) :=
  (main env.argv.length env.argv.length).exec env.act env.answer w

end Rw

end Xadma
