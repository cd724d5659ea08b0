import Xadma.Verify.DmaMemory
import Xadma.Verify.XdmaRwMain

/-!
# A file that goes through the card

One process writes a file to the card through an H2C engine, another one reads it back through a C2H
engine. Between the two clients are the requests of the driver in any runs of its DMA routines next
to the hardware.
-/

namespace Xadma

open Threads

abbrev Card := Memory 64 (BitVec 8)

/-- In some run the request is completed with success and the information, and this is what has been
done to the memories then. -/
def ServedBy (e : TransferEngine) (req : DmaRequest) (n : Nat) (m m' : Memories) : Prop :=
  ∃ buffer requests c k status,
    (dmaThreads e).Reach (fun _ _ => True) (dmaConfig buffer requests) c ∧ requests k = req ∧
      (status, n) ∈ c.state.transfer.wdf.completions k ∧ ntSuccess status = true ∧
      m' = runTransfers e.direction (c.state.moved k) m

/-- A write to the file that succeeds is a request of the engine. -/
def WritesThrough (e : TransferEngine) (d : DeviceFile Card) : Prop :=
  ∀ card offset bytes n, (d.write card offset bytes).1 = some n → ∃ req host m',
    req.deviceOffset = offset ∧ Memory.gather host req.blocks = bytes ∧
      ServedBy e req n ⟨host, card⟩ m' ∧ (d.write card offset bytes).2 = m'.card

/-- A read from the file that succeeds is a request of the engine, with a buffer that has no byte
twice. -/
def ReadsThrough (e : TransferEngine) (d : DeviceFile Card) : Prop :=
  ∀ card offset size bytes, (d.read card offset size).1 = some bytes → ∃ req host m',
    req.deviceOffset = offset ∧ Block.total req.blocks = size ∧
      req.blocks.Pairwise Block.Disjoint ∧ ServedBy e req bytes.length ⟨host, card⟩ m' ∧
      (d.read card offset size).2 = m'.card ∧
      (m'.host.gather req.blocks).take bytes.length = bytes

variable {e eh ec : TransferEngine} {d fw fr : DeviceFile Card} {card : Card}
  {offset : BitVec 64} {n size : Nat} {bytes : List (BitVec 8)}

/-- A write stores what it reports to the card. -/
theorem WritesThrough.stores (h : WritesThrough e d) (hdir : e.dir = .h2c)
    (hmode : e.engine.addressMode = .contiguous) (hdone : (d.write card offset bytes).1 = some n) :
    (d.write card offset bytes).2 = card.store (startOffset e.width offset 0) (bytes.take n) := by
  obtain ⟨req, host, m', rfl, rfl, hserves, hcard⟩ := h card offset bytes n hdone
  obtain ⟨buffer, requests, c, k, status, hreach, rfl, hmem, hstatus, rfl⟩ := hserves
  have hwrite := ((dmaInv_of_reach hreach).truthful k).write hdir hmode hmem hstatus
    (m := ⟨host, card⟩)
  rw [hcard, hwrite.2]

/-- A read gives what is on the card, and leaves it there. -/
theorem ReadsThrough.loads (h : ReadsThrough e d) (hdir : e.dir = .c2h)
    (hmode : e.engine.addressMode = .contiguous)
    (hdone : (d.read card offset size).1 = some bytes) :
    bytes = card.load (startOffset e.width offset 0) bytes.length ∧
      (d.read card offset size).2 = card := by
  obtain ⟨req, host, m', rfl, -, hdisjoint, hserves, hcard, hbytes⟩ :=
    h card offset size bytes hdone
  obtain ⟨buffer, requests, c, k, status, hreach, rfl, hmem, hstatus, rfl⟩ := hserves
  have hread := ((dmaInv_of_reach hreach).truthful k).read hdir hmode hmem hstatus hdisjoint
    (m := ⟨host, card⟩)
  refine ⟨?_, hcard.trans hread.2.1⟩
  rw [hread.2.2.1] at hbytes
  exact hbytes.symm

/-! ## Two processes -/

section

open Rw

variable {ew er : MainEnv Card} {lw lr : CommandLine} {f : CString} {data : List (BitVec 8)}
  {files : List Char → Option (List (BitVec 8))}

/-- The file of the second process has what the first one has taken from its own, or the dump of
it. -/
theorem copy_through_card (hw : Usable ew lw fw) (hr : Usable er lr fr)
    (hwrite : lw.direction = .h2c) (hread : lr.direction = .c2h)
    (hthrough : WritesThrough eh fw) (hback : ReadsThrough ec fr)
    (heh : eh.dir = .h2c ∧ eh.engine.addressMode = .contiguous)
    (hec : ec.dir = .c2h ∧ ec.engine.addressMode = .contiguous)
    (hwidth : ec.width = eh.width)
    (haddr : pointerOf lr.options.address = pointerOf lw.options.address)
    (hcontent : lw.content files = some bytes)
    (hverbose : lw.options.verbose = true → bytes.length ≤ 2 ^ 31)
    (hfile : lr.options.file = some f) (hcreate : er.creatable f.chars = true)
    (hdump : lr.options.binary = true ∨ lr.options.size.toNat ≤ 2 ^ 31)
    (hwritten : (fw.write card (pointerOf lw.options.address) bytes).1 = some n)
    (hdata : (fr.read (fw.write card (pointerOf lw.options.address) bytes).2
      (pointerOf lr.options.address) lr.options.size.toNat).1 = some data)
    (hle : data.length ≤ n) :
    ∃ w w' out, ew.run (.start card files) = some (0, w) ∧
      er.run (.start w.device w.files) = some (0, w') ∧ w'.device = w.device ∧
      w'.files = Function.update files f.chars (some out) ∧
      if lr.options.binary then out = bytes.take data.length
      else ∃ text, out = textBytes text ∧
        Dump.Shows text lr.options.address (bytes.take data.length) := by
  obtain ⟨status, w, hrun, hdevice, hfiles, hstatus⟩ := run_write hw hwrite hcontent hverbose
  rw [hwritten] at hstatus
  obtain ⟨rfl, -⟩ := hstatus
  -- what is read is what is on the card, and that is what was written
  have hstored := hthrough.stores heh.1 heh.2 hwritten
  obtain ⟨hloaded, hkept⟩ := hback.loads hec.1 hec.2 hdata
  have hlen : (bytes.take n).length = n := List.length_take_of_le (fw.write_le hwritten)
  have hshort : n ≤ 2 ^ 64 :=
    (fw.write_le hwritten).trans ((hw.spells.length_content hcontent).le.trans (by decide))
  have hcopy : data = bytes.take data.length := by
    rw [hstored, hwidth, haddr,
      Memory.load_store_take (hle.trans_eq hlen.symm) (hlen.trans_le hshort),
      List.take_take, Nat.min_eq_left hle] at hloaded
    exact hloaded
  have hcreate' : ∀ g, lr.options.file = some g → er.creatable g.chars = true := fun g hg => by
    rw [hfile] at hg
    cases hg
    exact hcreate
  obtain ⟨status', w', hrun', hdone⟩ : ∃ status' w',
      er.run (.start w.device w.files) = some (status', w') ∧
        ReadOutcome lr.options (.start w.device w.files)
          (fr.read w.device (pointerOf lr.options.address) lr.options.size.toNat) status' w' :=
    run_read hr hread hcreate' hdump
  rw [hdevice] at hdone
  obtain ⟨hdevice', hdone⟩ := hdone
  rw [hdata] at hdone
  obtain ⟨rfl, ⟨out, hout, hprinted⟩, -⟩ := hdone
  rw [Printed, hfile] at hprinted
  have hfiles' : w'.files = Function.update files f.chars (some out) := by
    rw [hprinted.1, MainWorld.start, hfiles]
    rfl
  refine ⟨w, w', out, hrun, hrun', (hdevice'.trans hkept).trans hdevice.symm, hfiles', ?_⟩
  rw [readOutput] at hout
  split at hout
  · next hbinary =>
    rw [if_pos hbinary, ← hcopy]
    exact (Option.some.inj hout).symm
  · next hbinary =>
    obtain ⟨text, htext, hshows⟩ : ∃ text,
        printBytes lr.options.address data = some text ∧
          Dump.Shows text lr.options.address data :=
      exists_printBytes ((fr.read_le hdata).trans (hdump.resolve_left hbinary))
    rw [if_neg hbinary, ← hcopy]
    rw [htext] at hout
    exact ⟨text, (Option.some.inj hout).symm, hshows⟩

/-! ## A file of 128 bytes -/

def blank : Memory 64 (BitVec 8) := fun _ => 0

/-- The device file through which `sampleRequest` goes. -/
def sampleWrites : DeviceFile Card where
  read card _ _ := (none, card)
  write card offset bytes :=
    if offset = sampleRequest.deviceOffset ∧ bytes.length = 0x80 then
      (some bytes.length, card.store sampleRequest.deviceOffset bytes)
    else (none, card)
  read_le h := by cases h
  write_le {card offset bytes n} h := by
    split at h
    · cases h
      exact Nat.le_refl _
    · cases h

/-- The one through which `readRequest` goes. -/
def sampleReads : DeviceFile Card where
  read card offset size :=
    if offset = readRequest.deviceOffset ∧ size = 0x80 then
      (some (card.load readRequest.deviceOffset size), card)
    else (none, card)
  write card _ _ := (none, card)
  read_le {card offset size bytes} h := by
    split at h
    · cases h
      exact Memory.length_load.le
    · cases h
  write_le h := by cases h

theorem sampleRequest_disjoint : sampleRequest.blocks.Pairwise Block.Disjoint := by
  refine List.pairwise_cons.mpr ⟨fun b hb => ?_, List.pairwise_singleton _ _⟩
  cases List.mem_singleton.mp hb
  exact Memory.disjoint_of_le (by decide) (by decide)

theorem sampleWrites_through : WritesThrough sampleEngine sampleWrites := by
  intro card offset bytes n hdone
  obtain ⟨c, hreach, hmem⟩ := exists_written
  simp only [sampleWrites] at hdone ⊢
  split at hdone
  · next hfits =>
    obtain ⟨rfl, hlen⟩ := hfits
    cases hdone
    have hgather : (blank.scatter sampleRequest.blocks bytes).gather sampleRequest.blocks = bytes :=
      Memory.gather_scatter sampleRequest_disjoint (by decide) hlen
    refine ⟨sampleRequest, _, _, rfl, hgather,
      ⟨_, _, c, 0, statusSuccess, hreach, rfl, hlen ▸ hmem, by decide, rfl⟩, ?_⟩
    have hwrite := ((dmaInv_of_reach hreach).truthful 0).write rfl rfl hmem (by decide)
      (m := ⟨blank.scatter sampleRequest.blocks bytes, card⟩)
    rw [hwrite.2, if_pos ⟨rfl, hlen⟩, DmaRequest.Addressable.start (.inl rfl)]
    dsimp only
    rw [hgather, List.take_of_length_le hlen.le]
  · cases hdone

theorem sampleReads_through : ReadsThrough readEngine sampleReads := by
  intro card offset size bytes hdone
  obtain ⟨c, hreach, hmem⟩ := exists_read
  simp only [sampleReads] at hdone ⊢
  split at hdone
  · next hfits =>
    obtain ⟨rfl, rfl⟩ := hfits
    cases hdone
    have hread := ((dmaInv_of_reach hreach).truthful 0).read rfl rfl hmem (by decide)
      readRequest_disjoint (m := ⟨blank, card⟩)
    refine ⟨readRequest, blank, _, rfl, rfl, readRequest_disjoint,
      ⟨_, _, c, 0, statusSuccess, hreach, rfl, ?_, by decide, rfl⟩, ?_, ?_⟩
    · rwa [Memory.length_load]
    · rw [if_pos ⟨rfl, rfl⟩, hread.2.1]
    · rw [Memory.length_load]
      exact hread.2.2.1
  · cases hdone

def sampleEnv (args : List String) (h : args.length + 1 < 0x80000000) (d : DeviceFile Card) :
    MainEnv Card :=
  { RwEnv.ofArgs "xdma_rw" args h with
    devices := some (1, ['x'])
    node := fun _ => some d
    creatable := fun _ => true }

def writerEnv : MainEnv Card :=
  sampleEnv ["h2c_0", "write", "0", "-f", "a"] (by decide) sampleWrites

def readerEnv : MainEnv Card :=
  sampleEnv ["c2h_0", "read", "0", "-l", "128", "-f", "b"] (by decide) sampleReads

def writerLine : CommandLine where
  exeName := .ofLiteral "xdma_rw"
  device := .ofLiteral "h2c_0"
  direction := .h2c
  address := .ofLiteral "0"
  items := [.file (.ofLiteral "a")]
  data := []

def readerLine : CommandLine where
  exeName := .ofLiteral "xdma_rw"
  device := .ofLiteral "c2h_0"
  direction := .c2h
  address := .ofLiteral "0"
  items := [.length (.ofLiteral "128"), .file (.ofLiteral "b")]
  data := []

theorem writerLine_usable : Usable writerEnv writerLine sampleWrites where
  spells := scanLine_eq_line_iff.mp rfl
  memory := fun _ _ => rfl
  found := ⟨1, ['x'], rfl, by decide, by decide, rfl⟩

theorem readerLine_usable : Usable readerEnv readerLine sampleReads where
  spells := scanLine_eq_line_iff.mp rfl
  memory := fun _ _ => rfl
  found := ⟨1, ['x'], rfl, by decide, by decide, rfl⟩

/-- There is the one file `a`. -/
def sampleFiles (name : List Char) : Option (List (BitVec 8)) :=
  if name = ['a'] then some (List.replicate 128 0x5A) else none

theorem writerLine_content :
    writerLine.content sampleFiles = some (List.replicate 128 0x5A) := by
  have hzero : writerLine.options.size = 0 := rfl
  have hsize : contentsSize writerLine.options (List.replicate 128 0x5A) = 128 := by
    rw [contentsSize, if_pos hzero, List.length_replicate]
    rfl
  refine congrArg some (List.take_of_length_le ?_)
  rw [hsize, List.length_replicate]
  decide

theorem copy_through_card_dump : ∃ w w' out,
    writerEnv.run (.start blank sampleFiles) = some (0, w) ∧
      readerEnv.run (.start w.device w.files) = some (0, w') ∧
      w'.files = Function.update sampleFiles ['b'] (some out) ∧
      ∃ text, out = textBytes text ∧ Dump.Shows text 0 (List.replicate 128 0x5A) := by
  obtain ⟨bytes, hbytes⟩ : ∃ bytes : List (BitVec 8), bytes = List.replicate 128 0x5A := ⟨_, rfl⟩
  have hlen : bytes.length = 128 := by rw [hbytes, List.length_replicate]
  have hwritten : (sampleWrites.write blank 0 bytes).1 = some 128 := by
    rw [← hlen]
    exact congrArg Prod.fst (if_pos ⟨rfl, hlen⟩)
  have hdata : (sampleReads.read (sampleWrites.write blank 0 bytes).2 0 128).1 =
      some ((sampleWrites.write blank 0 bytes).2.load readRequest.deviceOffset 128) :=
    congrArg Prod.fst (if_pos ⟨rfl, rfl⟩)
  obtain ⟨w, w', out, hrun, hrun', -, hfiles, hdump⟩ := copy_through_card writerLine_usable
    readerLine_usable rfl rfl sampleWrites_through sampleReads_through ⟨rfl, rfl⟩ ⟨rfl, rfl⟩ rfl
    rfl (hbytes ▸ writerLine_content) nofun rfl rfl (.inr (by decide)) hwritten hdata
    (by rw [Memory.length_load])
  refine ⟨w, w', out, hrun, hrun', hfiles, ?_⟩
  rw [Memory.length_load, List.take_of_length_le hlen.le, hbytes] at hdump
  exact hdump

end

end Xadma
