import Mathlib.Algebra.Ring.Nat
import Xadma.Exe.XdmaRwMain
import Xadma.Verify.CommandLine
import Xadma.Verify.HexDump

/-!
# What `xdma_rw` does

A call that finds the device, memory and its files makes one transfer at the address of the command
line, unless that has its highest bit set: the pointer stays at the beginning of the device then,
and nothing is noticed. The status is 0 exactly if the driver completes the transfer with success. A
read without a length asks for no bytes: the four bytes of the usage are those of the buffer only.
-/

namespace Xadma

namespace Rw

/-! ## What is meant -/

variable {δ : Type}

/-- Where the pointer of the device file is set to. -/
def pointerOf (address : BitVec 64) : BitVec 64 := if address.toInt < 0 then 0 else address

/-- What a read prints. -/
def readOutput (o : Options) (data : List (BitVec 8)) : Option (List (BitVec 8)) :=
  if o.binary then some data else (printBytes o.address data).map textBytes

/-- The bytes are printed, to the file of a read as they are or to `stdout`, which is in text
mode. -/
def Printed (o : Options) (bytes : List (BitVec 8)) (w w' : MainWorld δ) : Prop :=
  match o.file with
  | some file => w'.files = Function.update w.files file.chars (some bytes) ∧ w'.stdout = w.stdout
  | none => w'.files = w.files ∧ w'.stdout = w.stdout ++ textMode bytes

/-- The number of bytes that are read of a file with these contents. -/
def contentsSize (o : Options) (contents : List (BitVec 8)) : BitVec 32 :=
  if o.size = 0 then BitVec.ofNat 32 contents.length else o.size

/-- What a write takes to the device. -/
def CommandLine.content (line : CommandLine) (files : List Char → Option (List (BitVec 8))) :
    Option (List (BitVec 8)) :=
  match line.options.file with
  | some file =>
    (files file.chars).map fun contents =>
      contents.take (contentsSize line.options contents).toNat
  | none => if line.data = [] then none else some (line.data.map dataByte)

/-- The vector spells the line, and the process finds the file of the device and memory. -/
structure Usable (env : MainEnv δ) (line : CommandLine) (file : DeviceFile δ) : Prop where
  spells : Spells env.argv line
  memory : ∀ size alignment, env.malloc size alignment = true
  found : ∃ numDevices basePath, env.devices = some (numDevices, basePath) ∧
    numDevices.ult 1 = false ∧ (devicePath basePath line.device).length ≤ maxPath ∧
    env.node (devicePath basePath line.device) = some file

/-! ## Calls -/

variable {env : MainEnv δ} {w : MainWorld δ} {o : Options} {line : CommandLine}
  {file : DeviceFile δ} {pointer : BitVec 64} {bytes out : List (BitVec 8)} {path : List Char}
  {b : Buffer} {n : Nat}

/-- The routine returns, and ends so. -/
abbrev MainEnv.Ends {α : Type} (env : MainEnv δ) (p : MainProg α) (Q : α → MainWorld δ → Prop)
    (w : MainWorld δ) : Prop :=
  Prog.Runs env.act env.answer False p Q w

theorem exec_lift {α : Type} (p : RwProg α) :
    p.lift.exec env.act env.answer w =
      (p.exec env.toRwEnv.act env.toRwEnv.answer w.rw).map fun x => (x.1, { w with rw := x.2 }) :=
  Prog.exec_mapOp MainWorld.rw (fun w rw => { w with rw := rw }) (fun _ _ => rfl) (fun _ _ => rfl)
    (fun _ _ => rfl) (fun _ _ _ => rfl) (fun _ => rfl) p w

theorem ends_lift {α : Type} {p : RwProg α} {Q : α → MainWorld δ → Prop} {a : α} {s : RwWorld}
    (hexec : p.exec env.toRwEnv.act env.toRwEnv.answer w.rw = some (a, s))
    (h : Q a { w with rw := s }) : env.Ends p.lift Q w := by
  refine .of_eq_some ?_ h
  rw [exec_lift, hexec]
  rfl

def MainWorld.withBuffer (w : MainWorld δ) (b : Buffer) : MainWorld δ :=
  { w with rw := { w.rw with buffer := some b } }

/-- An empty buffer has four bytes. -/
def bufferSize (size : Nat) : Nat := if size = 0 then 4 else size

theorem le_bufferSize (size : Nat) : size ≤ bufferSize size := by
  unfold bufferSize
  split <;> omega

theorem ends_allocateBuffer {size alignment : Nat} {Q : Bool → MainWorld δ → Prop}
    (hmemory : ∀ size alignment, env.malloc size alignment = true)
    (h : Q true (w.withBuffer ⟨bufferSize size, env.fresh⟩)) :
    env.Ends (allocateBuffer size alignment).lift Q w := by
  have hsize : allocateBuffer size alignment = allocateBuffer (bufferSize size) alignment := by
    by_cases hzero : size = 0
    · subst hzero
      rfl
    · rw [bufferSize, if_neg hzero]
  have hne : bufferSize size ≠ 0 := by
    unfold bufferSize
    split <;> omega
  rw [hsize]
  have hleads : Leads env.toRwEnv 0 (allocateBuffer (bufferSize size) alignment) w.rw (.ret true)
      { w.rw with buffer := some ⟨bufferSize size, env.fresh⟩ } :=
    leads_allocateBuffer hne (hmemory _ _)
  exact ends_lift hleads.exec h

/-! ## The buffer -/

theorem Buffer.load_store (b : Buffer) (bytes : List (BitVec 8)) :
    (b.store bytes).load bytes.length = bytes := by
  refine List.ext_getElem (by simp [load]) fun i hi hi' => ?_
  simp [load, store, hi']

theorem MainWorld.store_withBuffer {length : Nat} (hle : length ≤ b.size) :
    (w.withBuffer b).store length bytes = some (w.withBuffer (b.store bytes)) :=
  if_pos hle

/-! ## Printing -/

/-- The world behind the output of a read. -/
def MainWorld.printed (w : MainWorld δ) (o : Options) (bytes : List (BitVec 8)) : MainWorld δ :=
  match o.file with
  | some file => { w with files := Function.update w.files file.chars (some bytes) }
  | none => { w with stdout := w.stdout ++ textMode bytes }

theorem MainWorld.printed_spec : Printed o bytes w (w.printed o bytes) := by
  unfold Printed printed
  cases o.file with
  | some file => exact ⟨rfl, rfl⟩
  | none => exact ⟨rfl, rfl⟩

theorem MainWorld.printed_device : (w.printed o bytes).device = w.device := by
  unfold printed
  cases o.file <;> rfl

theorem MainWorld.printed_messages : (w.printed o bytes).messages = w.messages := by
  unfold printed
  cases o.file <;> rfl

/-- No file is open but that of the device. -/
structure Closed (w : MainWorld δ) : Prop where
  input : w.input = []
  output : w.output = none

theorem ends_print (h : w.output = none) :
    env.Ends (MainOp.print bytes).perform
      (fun _ w' => w' = { w with stdout := w.stdout ++ textMode bytes }) w := by
  refine .performs ?_ rfl
  simp only [MainEnv.act, h]

theorem ends_toOutput_read (hclosed : Closed w) (hread : o.direction = .c2h)
    (hcreate : ∀ file, o.file = some file → env.creatable file.chars = true) :
    env.Ends (toOutput o (MainOp.print bytes).perform) (fun _ w' => w' = w.printed o bytes) w := by
  unfold toOutput MainWorld.printed
  rw [if_pos hread]
  cases hfile : o.file with
  | none => exact ends_print hclosed.output
  | some file =>
    have hopen : env.Ends (MainOp.fopen file true).perform (fun opened w' => opened = true ∧
        w' = { w with
          files := Function.update w.files file.chars (some [])
          output := some file.chars }) w := by
      refine .performs rfl ⟨hcreate file hfile, ?_⟩
      exact if_pos (hcreate file hfile)
    refine hopen.bind fun opened w' ⟨hopened, hw'⟩ => ?_
    rw [if_pos hopened]
    have hprint : env.Ends (MainOp.print bytes).perform (fun _ w'' => w'' = { w with
        files := Function.update w.files file.chars (some bytes)
        output := some file.chars }) w' := by
      subst hw'
      refine .performs rfl ?_
      simp [Function.update_self]
    refine hprint.bind fun _ w'' hw'' => ?_
    subst hw''
    refine .performs rfl ?_
    obtain ⟨rw, device, files, stdout, handle, input, output, messages⟩ := w
    obtain ⟨rfl, rfl⟩ := hclosed
    rfl

/-- The routine that prints what a read has brought. -/
theorem printData_eq (hout : readOutput o bytes = some out) :
    printData o bytes = toOutput o (MainOp.print out).perform := by
  unfold readOutput at hout
  unfold printData
  split at hout
  · next hbinary =>
    cases hout
    exact if_pos hbinary
  · next hbinary =>
    obtain ⟨text, htext, rfl⟩ := Option.map_eq_some_iff.mp hout
    rw [if_neg hbinary, printBytesText, htext]

/-! ## A read -/

/-- What a read comes to where the device gives the answer. -/
def ReadOutcome (o : Options) (w : MainWorld δ) (answer : Option (List (BitVec 8)) × δ)
    (status : Int) (w' : MainWorld δ) : Prop :=
  w'.device = answer.2 ∧
    match answer.1 with
    | some bytes => status = 0 ∧ (∃ out, readOutput o bytes = some out ∧ Printed o out w w') ∧
      w'.messages = w.messages ++ [.received (BitVec.ofNat 32 bytes.length)]
    | none => status = -1 ∧ w'.files = w.files ∧ w'.stdout = w.stdout

theorem ends_message {m : Message} :
    env.Ends (MainOp.message m).perform
      (fun _ w' => w' = { w with messages := w.messages ++ [m] }) w :=
  .performs rfl rfl

/-- The number of bytes that are moved, as a `DWORD`. -/
theorem toNat_ofNat_le {size : BitVec 32} (h : n ≤ size.toNat) : (BitVec.ofNat 32 n).toNat = n := by
  rw [BitVec.toNat_ofNat]
  have := size.isLt
  omega

/-- The transfer of a read: what the device has given is in the buffer. -/
theorem ends_readFile {size : BitVec 32} (hhandle : w.handle = some (file, pointer))
    (hsize : size.toNat ≤ b.size) :
    env.Ends (MainOp.readFile size).perform (fun answer w' => ∃ b' : Buffer,
      w' = { w with device := (file.read w.device pointer size.toNat).2 }.withBuffer b' ∧
        b'.size = b.size ∧
        match (file.read w.device pointer size.toNat).1 with
        | some bytes => answer = some (BitVec.ofNat 32 bytes.length) ∧
          b'.load bytes.length = bytes ∧ bytes.length ≤ size.toNat
        | none => answer = none) (w.withBuffer b) := by
  have hread : (w.withBuffer b).read size.toNat = file.read w.device pointer size.toNat := by
    unfold MainWorld.read
    rw [show (w.withBuffer b).handle = some (file, pointer) from hhandle]
    rfl
  have hact : env.act (.readFile size) (w.withBuffer b)
      (env.answer (.readFile size) (w.withBuffer b)) =
      some ({ w with device := (file.read w.device pointer size.toNat).2 }.withBuffer
        (b.store ((file.read w.device pointer size.toNat).1.getD []))) := by
    simp only [MainEnv.act, hread]
    exact MainWorld.store_withBuffer
      (w := { w with device := (file.read w.device pointer size.toNat).2 }) hsize
  refine .performs hact ⟨_, rfl, rfl, ?_⟩
  simp only [MainEnv.answer, hread]
  cases hanswer : (file.read w.device pointer size.toNat).1 with
  | none => rfl
  | some bytes => exact ⟨rfl, b.load_store bytes, file.read_le hanswer⟩

theorem ends_data (hle : n ≤ b.size) :
    env.Ends (MainOp.data n).perform
      (fun bytes w' => bytes = b.load n ∧ w' = w.withBuffer b) (w.withBuffer b) :=
  .performs (MainWorld.store_withBuffer hle) ⟨rfl, rfl⟩

theorem ends_readDevice (hmemory : ∀ size alignment, env.malloc size alignment = true)
    (hclosed : Closed w) (hhandle : w.handle = some (file, pointer)) (hread : o.direction = .c2h)
    (hcreate : ∀ f, o.file = some f → env.creatable f.chars = true)
    (hout : ∀ bytes, (file.read w.device pointer o.size.toNat).1 = some bytes →
      ∃ out, readOutput o bytes = some out) :
    env.Ends (readDevice path o) (ReadOutcome o w (file.read w.device pointer o.size.toNat)) w := by
  have hallocate : env.Ends (allocateBuffer o.size.toNat o.alignment).lift
      (fun data w' => data = true ∧ w' = w.withBuffer ⟨bufferSize o.size.toNat, env.fresh⟩) w :=
    ends_allocateBuffer hmemory ⟨rfl, rfl⟩
  have hsize : o.size.toNat ≤ bufferSize o.size.toNat := le_bufferSize _
  unfold readDevice
  refine hallocate.bind fun data w' ⟨hdata, hw'⟩ => ?_
  subst hw'
  rw [if_pos hdata]
  have hmemset : env.Ends (MainOp.memset o.size.toNat).perform
      (fun _ w' => ∃ b' : Buffer, w' = w.withBuffer b' ∧ o.size.toNat ≤ b'.size)
      (w.withBuffer ⟨bufferSize o.size.toNat, env.fresh⟩) :=
    .performs (MainWorld.store_withBuffer hsize) ⟨_, rfl, hsize⟩
  refine hmemset.bind fun _ w' ⟨b, hw', hb⟩ => ?_
  subst hw'
  refine (ends_readFile hhandle hb).bind fun answer w' ⟨b', hw', hb', hanswer⟩ => ?_
  subst hw'
  cases hdone : (file.read w.device pointer o.size.toNat).1 with
  | none =>
    rw [hdone] at hanswer
    subst hanswer
    refine ends_message.bind fun _ w' hw' => .ret ?_
    subst hw'
    refine ⟨rfl, ?_⟩
    rw [hdone]
    exact ⟨rfl, rfl, rfl⟩
  | some bytes =>
    rw [hdone] at hanswer
    obtain ⟨rfl, hload, hle⟩ := hanswer
    obtain ⟨out, hout⟩ := hout bytes hdone
    have hn : (BitVec.ofNat 32 bytes.length).toNat = bytes.length := toNat_ofNat_le hle
    refine (ends_data (by omega)).bind fun data w' ⟨hdata, hw'⟩ => ?_
    subst hw'
    rw [hdata, hn, hload, printData_eq hout]
    have hclosed' : Closed ({ w with
        device := (file.read w.device pointer o.size.toNat).2 }.withBuffer b') :=
      ⟨hclosed.input, hclosed.output⟩
    refine (ends_toOutput_read hclosed' hread hcreate).bind fun _ w' hw' => ?_
    refine ends_message.bind fun _ w'' hw'' => .ret ?_
    subst hw' hw''
    refine ⟨MainWorld.printed_device, ?_⟩
    rw [hdone]
    exact ⟨rfl, ⟨out, hout, MainWorld.printed_spec⟩, congrArg (· ++ _) MainWorld.printed_messages⟩

/-! ## A write -/

/-- What a write comes to where the device gives the answer. -/
def WriteOutcome (w : MainWorld δ) (answer : Option Nat × δ) (status : Int) (w' : MainWorld δ) :
    Prop :=
  w'.device = answer.2 ∧ w'.files = w.files ∧
    match answer.1 with
    | some n => status = 0 ∧ w'.messages.getLast? = some (.written (BitVec.ofNat 32 n))
    | none => status = -1

/-- The transfer of a write: the device gets what is in the buffer. -/
theorem ends_writeFile {size : BitVec 32} (hhandle : w.handle = some (file, pointer))
    (hsize : size.toNat ≤ b.size) (hload : b.load size.toNat = bytes) :
    env.Ends (MainOp.writeFile size).perform (fun answer w' =>
      w' = { w with device := (file.write w.device pointer bytes).2 }.withBuffer b ∧
        answer = (file.write w.device pointer bytes).1.map (BitVec.ofNat 32)) (w.withBuffer b) := by
  subst hload
  have hwrite : (w.withBuffer b).write ((w.withBuffer b).load size.toNat) =
      file.write w.device pointer (b.load size.toNat) := by
    unfold MainWorld.write
    rw [show (w.withBuffer b).handle = some (file, pointer) from hhandle]
    rfl
  have hact : env.act (.writeFile size) (w.withBuffer b)
      (env.answer (.writeFile size) (w.withBuffer b)) =
      some ({ w with
        device := (file.write w.device pointer (b.load size.toNat)).2 }.withBuffer b) := by
    simp only [MainEnv.act, hwrite]
    exact MainWorld.store_withBuffer
      (w := { w with device := (file.write w.device pointer (b.load size.toNat)).2 }) hsize
  refine .performs hact ⟨rfl, ?_⟩
  simp only [MainEnv.answer, hwrite]

theorem Buffer.length_load : (b.load n).length = n := by simp [load]

theorem Buffer.load_take {k : Nat} (hle : k ≤ n) : (b.load n).take k = b.load k := by
  rw [load, load, ← List.map_take, List.take_range, Nat.min_eq_left hle]

theorem ends_printWritten {size : BitVec 32} (hwrite : o.direction = .h2c)
    (houtput : w.output = none) (hsize : size.toNat ≤ b.size)
    (htext : o.verbose = true → ∃ text, printBytes o.address (b.load size.toNat) = some text) :
    env.Ends (printWritten o size)
      (fun _ w' => ∃ out, w' = { w with stdout := w.stdout ++ out }.withBuffer b)
      (w.withBuffer b) := by
  refine .when (fun hverbose => ?_) fun _ => ⟨[], by rw [List.append_nil]⟩
  obtain ⟨text, htext⟩ := htext hverbose
  refine (ends_data hsize).bind fun bytes w' ⟨hbytes, hw'⟩ => ?_
  subst hbytes hw'
  have hne : o.direction ≠ .c2h := by
    rw [hwrite]
    nofun
  rw [printBytesText, toOutput, if_neg hne, htext]
  have hprint : env.Ends (MainOp.print (textBytes text)).perform (fun _ w' => w' = { w with
      stdout := w.stdout ++ textMode (textBytes text) }.withBuffer b) (w.withBuffer b) :=
    ends_print houtput
  exact hprint.post fun _ w' hw' => ⟨_, hw'⟩

theorem ends_writeBuffer (hhandle : w.handle = some (file, pointer)) (houtput : w.output = none)
    (hwrite : o.direction = .h2c) (hdata : o.data = true) (hsize : o.size.toNat ≤ b.size)
    (hload : b.load o.size.toNat = bytes)
    (htext : o.verbose = true → ∀ n, (file.write w.device pointer bytes).1 = some n →
      ∃ text, printBytes o.address (bytes.take n) = some text) :
    env.Ends (writeBuffer path o) (WriteOutcome w (file.write w.device pointer bytes))
      (w.withBuffer b) := by
  unfold writeBuffer
  rw [if_pos hdata]
  refine (ends_writeFile hhandle hsize hload).bind fun answer w' ⟨hw', hanswer⟩ => ?_
  subst hw'
  cases hdone : (file.write w.device pointer bytes).1 with
  | none =>
    rw [hdone] at hanswer
    subst hanswer
    refine ends_message.bind fun _ w' hw' => .ret ?_
    subst hw'
    refine ⟨rfl, rfl, ?_⟩
    rw [hdone]
  | some n =>
    rw [hdone] at hanswer
    subst hanswer
    have hle : n ≤ o.size.toNat := by
      have hle := file.write_le hdone
      rwa [← hload, Buffer.length_load] at hle
    have hn : (BitVec.ofNat 32 n).toNat = n := toNat_ofNat_le hle
    have htext' : o.verbose = true →
        ∃ text, printBytes o.address (b.load (BitVec.ofNat 32 n).toNat) = some text := by
      rw [hn, ← Buffer.load_take hle, hload]
      exact fun hverbose => htext hverbose n hdone
    have hprint : env.Ends (printWritten o (BitVec.ofNat 32 n)) (fun _ w' => ∃ out,
        w' = { w with
          device := (file.write w.device pointer bytes).2
          stdout := w.stdout ++ out }.withBuffer b)
        ({ w with device := (file.write w.device pointer bytes).2 }.withBuffer b) :=
      ends_printWritten (w := { w with device := (file.write w.device pointer bytes).2 }) hwrite
        houtput (by omega) htext'
    refine hprint.bind fun _ w' ⟨out, hw'⟩ => ?_
    refine ends_message.bind fun _ w'' hw'' => .ret ?_
    subst hw' hw''
    refine ⟨rfl, rfl, ?_⟩
    rw [hdone]
    exact ⟨rfl, List.getLast?_concat⟩

/-- The file is read as far as it is asked for, and is closed. -/
theorem ends_loadFile {f : CString} {contents : List (BitVec 8)}
    (hmemory : ∀ size alignment, env.malloc size alignment = true) (hclosed : Closed w)
    (hcontents : w.files f.chars = some contents)
    (hbytes : bytes = contents.take (contentsSize o contents).toNat) :
    env.Ends (loadFile o f) (fun loaded w' => ∃ b : Buffer,
      loaded = some { o with size := BitVec.ofNat 32 bytes.length, data := true } ∧
        bytes.length ≤ b.size ∧ b.load bytes.length = bytes ∧
        w' = { w with messages := w.messages ++
          [Message.readFromFile (BitVec.ofNat 32 bytes.length) f] }.withBuffer b) w := by
  have hopen : env.Ends (MainOp.fopen f false).perform (fun opened w' => opened = true ∧
      w' = { w with input := contents }) w := by
    refine .performs rfl ⟨?_, ?_⟩
    · simp only [MainEnv.answer, hcontents]
      rfl
    · simp only [MainEnv.answer, hcontents]
      rfl
  have hsizeOf : env.Ends (sizeOfFile o) (fun size w' => size = contentsSize o contents ∧
      w' = { w with input := contents }) { w with input := contents } := by
    unfold sizeOfFile contentsSize
    split
    · next hzero =>
      have hposition : env.Ends MainOp.fileSize.perform (fun position w' =>
          position = BitVec.ofNat 64 contents.length ∧ w' = { w with input := contents })
          { w with input := contents } := .performs rfl ⟨rfl, rfl⟩
      refine hposition.bind fun position w' ⟨hposition, hw'⟩ => .ret ⟨?_, hw'⟩
      rw [hposition, BitVec.setWidth_ofNat_of_le (by decide)]
    · next hzero => exact .ret ⟨rfl, rfl⟩
  unfold loadFile
  refine hopen.bind fun opened w' ⟨hopened, hw'⟩ => ?_
  subst hw'
  rw [if_pos hopened]
  refine hsizeOf.bind fun size w' ⟨hsize, hw'⟩ => ?_
  subst hsize hw'
  have hallocate : env.Ends (allocateBuffer (contentsSize o contents).toNat o.alignment).lift
      (fun data w' => data = true ∧ w' = { w with input := contents }.withBuffer
        ⟨bufferSize (contentsSize o contents).toNat, env.fresh⟩) { w with input := contents } :=
    ends_allocateBuffer hmemory ⟨rfl, rfl⟩
  refine hallocate.bind fun data w' ⟨hdata, hw'⟩ => ?_
  subst hw'
  rw [if_pos hdata]
  -- what the file gives is in the buffer
  have hsize : (contentsSize o contents).toNat ≤ bufferSize (contentsSize o contents).toNat :=
    le_bufferSize _
  have hfread : env.Ends (MainOp.fread (contentsSize o contents)).perform (fun size w' =>
      size = BitVec.ofNat 32 bytes.length ∧ ∃ b : Buffer,
        b.size = bufferSize (contentsSize o contents).toNat ∧ b.load bytes.length = bytes ∧
        w' = { w with input := contents.drop (contentsSize o contents).toNat }.withBuffer b)
      ({ w with input := contents }.withBuffer
        ⟨bufferSize (contentsSize o contents).toNat, env.fresh⟩) := by
    subst hbytes
    refine .performs (MainWorld.store_withBuffer
      (w := { w with input := contents.drop (contentsSize o contents).toNat }) hsize) ?_
    exact ⟨rfl, _, rfl, Buffer.load_store _ _, rfl⟩
  refine hfread.bind fun size w' ⟨hn, b, hb, hload, hw'⟩ => ?_
  subst hn hw'
  have hclose : env.Ends MainOp.fclose.perform (fun _ w' => w' = w.withBuffer b)
      ({ w with input := contents.drop (contentsSize o contents).toNat }.withBuffer b) := by
    refine .performs rfl ?_
    obtain ⟨rw, device, files, stdout, handle, input, output, messages⟩ := w
    obtain ⟨rfl, rfl⟩ := hclosed
    rfl
  refine hclose.bind fun _ w' hw' => ?_
  subst hw'
  refine ends_message.bind fun _ w' hw' => .ret ⟨b, rfl, ?_, hload, hw'⟩
  have hlen : bytes.length ≤ (contentsSize o contents).toNat := by
    rw [hbytes]
    exact List.length_take_le _ _
  omega

/-- The bytes that the routine takes to the device. -/
def Holds (o : Options) (w : MainWorld δ) (bytes : List (BitVec 8)) : Prop :=
  match o.file with
  | some f => ∃ contents, w.files f.chars = some contents ∧
    bytes = contents.take (contentsSize o contents).toNat
  | none => o.data = true ∧ ∃ b : Buffer, w.rw.buffer = some b ∧ o.size.toNat ≤ b.size ∧
    b.load o.size.toNat = bytes

theorem ends_writeDevice (hmemory : ∀ size alignment, env.malloc size alignment = true)
    (hclosed : Closed w) (hhandle : w.handle = some (file, pointer)) (hwrite : o.direction = .h2c)
    (hholds : Holds o w bytes)
    (htext : o.verbose = true → ∀ n, (file.write w.device pointer bytes).1 = some n →
      ∃ text, printBytes o.address (bytes.take n) = some text) :
    env.Ends (writeDevice path o) (WriteOutcome w (file.write w.device pointer bytes)) w := by
  unfold Holds at hholds
  unfold writeDevice
  cases hfile : o.file with
  | none =>
    rw [hfile] at hholds
    obtain ⟨hdata, b, hbuffer, hsize, hload⟩ := hholds
    have hw : w = w.withBuffer b := by
      obtain ⟨⟨shown, buffer⟩, device, files, stdout, handle, input, output, messages⟩ := w
      cases hbuffer
      rfl
    rw [hw]
    exact ends_writeBuffer hhandle hclosed.output hwrite hdata hsize hload htext
  | some f =>
    rw [hfile] at hholds
    obtain ⟨contents, hcontents, hbytes⟩ := hholds
    refine (ends_loadFile hmemory hclosed hcontents hbytes).bind
      fun loaded w' ⟨b, hloaded, hsize, hload, hw'⟩ => ?_
    subst hloaded hw'
    have hle : bytes.length ≤ (contentsSize o contents).toNat := by
      rw [hbytes]
      exact List.length_take_le _ _
    have hn : (BitVec.ofNat 32 bytes.length).toNat = bytes.length := toNat_ofNat_le hle
    have hdone : env.Ends
        (writeBuffer path { o with size := BitVec.ofNat 32 bytes.length, data := true })
        (WriteOutcome { w with messages := w.messages ++
            [Message.readFromFile (BitVec.ofNat 32 bytes.length) f] }
          (file.write w.device pointer bytes))
        ({ w with messages := w.messages ++
          [Message.readFromFile (BitVec.ofNat 32 bytes.length) f] }.withBuffer b) := by
      refine ends_writeBuffer hhandle hclosed.output hwrite rfl ?_ ?_ htext
      · dsimp only
        rwa [hn]
      · dsimp only
        rwa [hn]
    exact hdone

/-! ## `main` -/

/-- The pointer moves, or stays at the beginning of the file that has just been opened. -/
theorem ends_setFilePointerEx (hhandle : w.handle = some (file, 0)) (address : BitVec 64) :
    env.Ends (MainOp.setFilePointerEx address).perform (fun moved w' =>
      moved ≠ invalidSetFilePointer ∧ w' = { w with handle := some (file, pointerOf address) })
      w := by
  unfold pointerOf
  by_cases hneg : address.toInt < 0
  · have hanswer : env.answer (.setFilePointerEx address) w = 0#32 := if_pos hneg
    have hact : env.act (.setFilePointerEx address) w
        (env.answer (.setFilePointerEx address) w) = some w := by
      rw [hanswer]
      rfl
    rw [if_pos hneg]
    refine .performs hact ?_
    · rw [hanswer, ← hhandle]
      exact ⟨(by decide : 0#32 ≠ invalidSetFilePointer), rfl⟩
  · have hanswer : env.answer (.setFilePointerEx address) w = 1#32 := if_neg hneg
    have hact : env.act (.setFilePointerEx address) w
        (env.answer (.setFilePointerEx address) w) =
          some { w with handle := some (file, address) } := by
      rw [hanswer]
      simp only [MainEnv.act, hhandle]
      rfl
    rw [if_neg hneg]
    refine .performs hact ?_
    · rw [hanswer]
      exact ⟨(by decide : 1#32 ≠ invalidSetFilePointer), rfl⟩

theorem device_foldl (items : List OptionItem) (o : Options) :
    (items.foldl OptionItem.apply o).device = o.device := by
  induction items generalizing o with
  | nil => rfl
  | cons item items ih =>
    rw [List.foldl_cons, ih]
    cases item <;> rfl

theorem CommandLine.options_device (line : CommandLine) :
    line.options.device = some line.device := by
  unfold options
  split <;> exact device_foldl _ _

theorem CommandLine.options_direction (line : CommandLine) :
    line.options.direction = line.direction := by
  unfold options
  split <;> exact direction_foldl _ _

variable {device : δ} {files : List Char → Option (List (BitVec 8))}

/-- The world when the transfer begins, with what `parse` leaves. -/
def MainWorld.opened (device : δ) (files : List Char → Option (List (BitVec 8))) (s : RwWorld)
    (file : DeviceFile δ) (pointer : BitVec 64) : MainWorld δ :=
  ⟨s, device, files, [], some (file, pointer), [], none, []⟩

theorem closed_opened {s : RwWorld} : Closed (.opened device files s file pointer) := ⟨rfl, rfl⟩

/-- A process that is usable comes to its transfer. -/
theorem ends_main (h : Usable env line file) {Q : Int → MainWorld δ → Prop}
    (hclose : ∀ status w, Q status w → Q status { w with handle := none })
    (hbody : ∀ path s, line.Filled s.buffer → env.Ends
      (if line.options.direction = .c2h then readDevice path line.options
        else writeDevice path line.options) Q
      (.opened device files s file (pointerOf line.options.address))) :
    env.Ends (main env.argv.length env.argv.length) Q (.start device files) := by
  obtain ⟨numDevices, basePath, hdevices, hsome, hpath, hnode⟩ := h.found
  obtain ⟨r, s, hrun, hparsed, -⟩ :=
    ((parseRight_iff_of_line (Nat.le_refl _) h.spells).mpr fun _ => h.memory _ _).returns
  have hdevices' : env.Ends MainOp.getDevices.perform (fun found w' =>
      found = some (numDevices, basePath) ∧ w' = .start device files) (.start device files) :=
    .performs rfl ⟨hdevices, rfl⟩
  unfold main
  refine hdevices'.bind fun found w' ⟨hfound, hw'⟩ => ?_
  subst hfound hw'
  dsimp only
  rw [if_neg (by rw [hsome]; decide)]
  cases r with
  | none => exact absurd ⟨line, h.spells⟩ hparsed.2
  | some o =>
    obtain ⟨-, line', hline', -, ho, hfilled⟩ := hparsed
    obtain rfl : line' = line := h.spells.unique line' hline'
    have hparse : env.Ends (parse env.argv.length env.argv.length).lift (fun parsed w' =>
        parsed = some o ∧ w' = { MainWorld.start device files with rw := s })
        (.start device files) := ends_lift hrun ⟨rfl, rfl⟩
    refine hparse.bind fun parsed w' ⟨hparsed, hw'⟩ => ?_
    subst hparsed hw'
    dsimp only
    unfold openDevice
    rw [ho, CommandLine.options_device]
    dsimp only
    rw [if_pos hpath]
    have hcreate : env.Ends (MainOp.createFile (devicePath basePath line'.device)).perform
        (fun opened w' => opened = true ∧ w' = .opened device files s file 0)
        { MainWorld.start device files with rw := s } := by
      refine .performs rfl ⟨?_, ?_⟩
      · simp only [MainEnv.answer, hnode]
        rfl
      · rw [hnode]
        rfl
    refine hcreate.bind fun opened w' ⟨hopened, hw'⟩ => ?_
    subst hw'
    rw [if_pos hopened]
    have htransfer : env.Ends (transfer (devicePath basePath line'.device) line'.options) Q
        (.opened device files s file 0) := by
      unfold transfer
      refine (ends_setFilePointerEx rfl _).bind fun moved w' ⟨hmoved, hw'⟩ => ?_
      subst hw'
      rw [if_neg hmoved]
      exact hbody _ s hfilled
    refine htransfer.bind fun status w' hQ => ?_
    have hend : env.Ends MainOp.closeHandle.perform
        (fun _ w'' => w'' = { w' with handle := none }) w' := .performs rfl rfl
    refine hend.bind fun _ w'' hw'' => .ret ?_
    subst hw''
    exact hclose status w' hQ

theorem run_of_ends {Q : Int → MainWorld δ → Prop}
    (h : env.Ends (main env.argv.length env.argv.length) Q w) :
    ∃ status w', env.run w = some (status, w') ∧ Q status w' := by
  obtain ⟨⟨status, w'⟩, hrun⟩ := Option.isSome_iff_exists.mp (h.isSome id)
  exact ⟨status, w', hrun, h.of_some hrun⟩

/-- Every dump of up to 2³¹ bytes is text. -/
theorem exists_printBytes {address : BitVec 64} (h : bytes.length ≤ 2 ^ 31) :
    ∃ text, printBytes address bytes = some text ∧ Dump.Shows text address bytes := by
  refine Dump.printRows_shows ?_
  unfold Dump.rowCount
  split <;> omega

theorem run_read (h : Usable env line file) (hread : line.direction = .c2h)
    (hcreate : ∀ f, line.options.file = some f → env.creatable f.chars = true)
    (hdump : line.options.binary = true ∨ line.options.size.toNat ≤ 2 ^ 31) :
    ∃ status w, env.run (.start device files) = some (status, w) ∧
      ReadOutcome line.options (.start device files)
        (file.read device (pointerOf line.options.address) line.options.size.toNat) status w := by
  refine run_of_ends (ends_main h (fun _ _ hdone => hdone) fun path s hfilled => ?_)
  have hdirection := (CommandLine.options_direction line).trans hread
  rw [if_pos hdirection]
  refine ends_readDevice h.memory closed_opened rfl hdirection hcreate fun bytes hbytes => ?_
  unfold readOutput
  split
  · exact ⟨_, rfl⟩
  · next hbinary =>
    have hsize := hdump.resolve_left hbinary
    obtain ⟨text, htext, -⟩ : ∃ text, printBytes line.options.address bytes = some text ∧ _ :=
      exists_printBytes ((file.read_le hbytes).trans hsize)
    exact ⟨_, congrArg (Option.map textBytes) htext⟩

theorem Spells.length_data (h : Spells env.argv line) : line.data.length < 2 ^ 32 := by
  obtain ⟨word, opts, hargv, -⟩ := h
  have hlen := env.argv_lt
  rw [hargv] at hlen
  simp only [List.length_cons, List.length_append] at hlen
  omega

theorem Spells.length_content (h : Spells env.argv line)
    (hcontent : line.content files = some bytes) : bytes.length < 2 ^ 32 := by
  unfold CommandLine.content at hcontent
  split at hcontent
  · next f hfile =>
    obtain ⟨contents, -, rfl⟩ := Option.map_eq_some_iff.mp hcontent
    exact (List.length_take_le _ _).trans_lt (BitVec.isLt _)
  · next hfile =>
    split at hcontent
    · cases hcontent
    · cases hcontent
      rw [List.length_map]
      exact h.length_data

/-- What the line says is what the routine has, behind `parse`. -/
theorem holds_of_content {s : RwWorld} (hspells : Spells env.argv line)
    (hfilled : line.Filled s.buffer) (hcontent : line.content files = some bytes) :
    Holds line.options (.opened device files s file pointer) bytes := by
  unfold CommandLine.content at hcontent
  unfold Holds
  cases hfile : line.options.file with
  | some f =>
    rw [hfile] at hcontent
    obtain ⟨contents, hcontents, hbytes⟩ := Option.map_eq_some_iff.mp hcontent
    exact ⟨contents, hcontents, hbytes.symm⟩
  | none =>
    rw [hfile] at hcontent
    dsimp only at hcontent
    split at hcontent
    · cases hcontent
    · next hdata =>
      rw [CommandLine.Filled, if_neg hdata] at hfilled
      obtain ⟨b, hbuffer, hload⟩ := hfilled
      have hsize : b.size = line.data.length := by
        have hlen := congrArg List.length hload
        simpa using hlen
      have hoptions : line.options = { line.before with
          size := BitVec.ofNat 32 line.data.length
          data := true } := if_neg hdata
      have hn : line.options.size.toNat = b.size := by
        rw [hoptions, hsize]
        exact Nat.mod_eq_of_lt hspells.length_data
      refine ⟨by rw [hoptions], b, hbuffer, hn.le, ?_⟩
      rw [hn]
      exact hload.trans (Option.some.inj hcontent)

theorem run_write (h : Usable env line file) (hwrite : line.direction = .h2c)
    (hcontent : line.content files = some bytes)
    (hdump : line.options.verbose = true → bytes.length ≤ 2 ^ 31) :
    ∃ status w, env.run (.start device files) = some (status, w) ∧
      WriteOutcome (.start device files)
        (file.write device (pointerOf line.options.address) bytes) status w := by
  refine run_of_ends (ends_main h (fun _ _ hdone => hdone) fun path s hfilled => ?_)
  have hdirection := (CommandLine.options_direction line).trans hwrite
  have hne : line.options.direction ≠ .c2h := by
    rw [hdirection]
    nofun
  rw [if_neg hne]
  refine ends_writeDevice h.memory closed_opened rfl hdirection ?_ fun hverbose n _ => ?_
  · exact holds_of_content h.spells hfilled hcontent
  · obtain ⟨text, htext, -⟩ :
        ∃ text, printBytes line.options.address (bytes.take n) = some text ∧ _ :=
      exists_printBytes ((List.length_take_le' n bytes).trans (hdump hverbose))
    exact ⟨text, htext⟩

end Rw

end Xadma
