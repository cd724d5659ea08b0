import Xadma.Exe.HexDump

/-!
# What a hex dump says

A reader of the text needs the address and the columns of the bytes only. He gets back the data,
and for each row the address that it came from.
-/

namespace Xadma

namespace Dump

/-! ## The reader -/

/-- The lines of a text, each without its end. -/
def lines : List Char → List (List Char)
  | [] => []
  | c :: cs =>
    if c = '\n' then [] :: lines cs
    else
      match lines cs with
      | [] => [[c]]
      | line :: rest => (c :: line) :: rest

/-- The bytes in up to `n` columns, until one is blank. -/
def readColumns : (n : Nat) → List Char → List (BitVec 8)
  | n + 1, a :: b :: _ :: cs =>
    match Rw.digitValue a, Rw.digitValue b with
    | some high, some low => BitVec.ofNat 8 (16 * high + low) :: readColumns n cs
    | _, _ => []
  | _, _ => []

/-- The address of a row and its bytes. -/
def readRow : List Char → Option (Nat × List (BitVec 8))
  | '0' :: 'x' :: cs =>
    match cs.dropWhile (· ≠ ':') with
    | ':' :: ' ' :: ' ' :: columns =>
      some (Rw.digitsValue 16 0 (cs.takeWhile (· ≠ ':')), readColumns 16 columns)
    | _ => none
  | _ => none

def readDump (text : List Char) : Option (List (Nat × List (BitVec 8))) := (lines text).mapM readRow

/-! ## Numbers -/

variable {upper : Bool} {width limit n value : Nat} {addr : BitVec 64} {c : Char}
  {cs line text : List Char} {bytes data : List (BitVec 8)} {byte : BitVec 8}

/-- The text of a number in base 16. -/
def IsHex (cs : List Char) : Prop := ∀ c ∈ cs, ∃ d < 16, Rw.digitValue c = some d

theorem digitValue_digitChar : ∀ d < 16, Rw.digitValue (Nat.digitChar d) = some d := by decide

theorem digitValue_toUpper_digitChar :
    ∀ d < 16, Rw.digitValue (Nat.digitChar d).toUpper = some d := by decide

/-- The number is its digits in front of the last one, and the last one. -/
theorem digits_eq (upper : Bool) (n : Nat) : ∃ c, Rw.digitValue c = some (n % 16) ∧
    digits upper n = (if n < 16 then [] else digits upper (n / 16)) ++ [c] := by
  have hlt : n % 16 < 16 := Nat.mod_lt _ (by decide)
  have hlast : Nat.toDigits 16 n =
      (if n < 16 then [] else Nat.toDigits 16 (n / 16)) ++ [(n % 16).digitChar] := by
    split
    · next h => rw [Nat.toDigits_of_lt_base h, Nat.mod_eq_of_lt h, List.nil_append]
    · next h => exact Nat.toDigits_of_base_le (by decide) (Nat.le_of_not_lt h)
  cases upper with
  | false => exact ⟨_, digitValue_digitChar _ hlt, hlast⟩
  | true =>
    refine ⟨_, digitValue_toUpper_digitChar _ hlt, ?_⟩
    simp only [digits, if_true, hlast, List.map_append]
    split <;> rfl

theorem digitsValue_append (h : IsHex line) :
    Rw.digitsValue 16 value (line ++ cs) =
      Rw.digitsValue 16 (Rw.digitsValue 16 value line) cs := by
  induction line generalizing value with
  | nil => rfl
  | cons c line ih =>
    obtain ⟨d, hd, hc⟩ := h c (List.mem_cons_self ..)
    simp only [List.cons_append, Rw.digitsValue, hc, hd, if_true]
    exact ih fun c hc => h c (List.mem_cons_of_mem _ hc)

theorem IsHex.append (h : IsHex cs) (hline : IsHex line) : IsHex (cs ++ line) :=
  fun c hc => (List.mem_append.mp hc).elim (h c) (hline c)

theorem IsHex.zeros (k : Nat) : IsHex (List.replicate k '0') :=
  fun c hc => ⟨0, by decide, by rw [List.eq_of_mem_replicate hc]; decide⟩

/-- The digits are digits, and they have the value of the number. -/
theorem digits_value (upper : Bool) (n : Nat) :
    IsHex (digits upper n) ∧ Rw.digitsValue 16 0 (digits upper n) = n := by
  induction n using Nat.strong_induction_on with
  | _ n ih =>
    obtain ⟨c, hc, hdigits⟩ := digits_eq upper n
    have hlt : n % 16 < 16 := Nat.mod_lt _ (by decide)
    have hlast : IsHex [c] := fun c' hc' => ⟨_, hlt, List.mem_singleton.mp hc' ▸ hc⟩
    rw [hdigits]
    split
    · next hsmall =>
      refine ⟨hlast, ?_⟩
      simp only [List.nil_append, Rw.digitsValue, hc, hlt, if_true]
      omega
    · next hlarge =>
      obtain ⟨hhex, hvalue⟩ := ih (n / 16) (by omega)
      refine ⟨hhex.append hlast, ?_⟩
      rw [digitsValue_append hhex, hvalue]
      simp only [Rw.digitsValue, hc, hlt, if_true]
      omega

theorem digitsValue_zeros (k : Nat) :
    Rw.digitsValue 16 0 (List.replicate k '0') = 0 := by
  induction k with
  | zero => rfl
  | succ k ih => exact ih

theorem isHex_hex : IsHex (hex upper width n) :=
  (IsHex.zeros _).append (digits_value upper n).1

theorem digitsValue_hex : Rw.digitsValue 16 0 (hex upper width n) = n := by
  rw [hex, List.leftpad, digitsValue_append (IsHex.zeros _), digitsValue_zeros,
    (digits_value upper n).2]

/-- A byte takes two digits. -/
theorem hex_byte (byte : BitVec 8) : ∃ a b, hex false 2 byte.toNat = [a, b] ∧
    Rw.digitValue a = some (byte.toNat / 16) ∧ Rw.digitValue b = some (byte.toNat % 16) := by
  have hbyte := byte.isLt
  obtain ⟨b, hb, hdigits⟩ := digits_eq false byte.toNat
  rw [hex, hdigits]
  split
  · next hsmall =>
    refine ⟨'0', b, rfl, ?_, hb⟩
    rw [Nat.div_eq_of_lt hsmall]
    decide
  · next hlarge =>
    obtain ⟨a, ha, hhigh⟩ := digits_eq false (byte.toNat / 16)
    rw [hhigh, if_pos (by omega : byte.toNat / 16 < 16)]
    rw [Nat.mod_eq_of_lt (by omega : byte.toNat / 16 < 16)] at ha
    exact ⟨a, b, rfl, ha, hb⟩

/-! ## Rows -/

/-- A text of printing characters, as it stands in a row. -/
def IsPlain (cs : List Char) : Prop := ∀ c ∈ cs, 32 ≤ c.toNat ∧ c.toNat < 127

theorem plain_of_digitValue {d : Nat} (h : Rw.digitValue c = some d) :
    c ≠ ':' ∧ 32 ≤ c.toNat ∧ c.toNat < 127 := by
  have hletter : c.isDigit = true ∨ c.isUpper = true ∨ c.isLower = true := by
    by_contra hno
    simp only [not_or, Bool.not_eq_true] at hno
    simp [Rw.digitValue, hno] at h
  rcases hletter with hdigit | hupper | hlower
  · have hbounds : (decide (48 ≤ c.toNat) && decide (c.toNat ≤ 57)) = true := hdigit
    simp only [Bool.and_eq_true, decide_eq_true_eq] at hbounds
    exact ⟨by rintro rfl; exact absurd hbounds (by decide), by omega⟩
  · have hbounds : 65 ≤ c.toNat ∧ c.toNat ≤ 90 := of_decide_eq_true hupper
    exact ⟨by rintro rfl; exact absurd hbounds (by decide), by omega⟩
  · have hbounds : (decide (97 ≤ c.toNat) && decide (c.toNat ≤ 122)) = true := hlower
    simp only [Bool.and_eq_true, decide_eq_true_eq] at hbounds
    exact ⟨by rintro rfl; exact absurd hbounds (by decide), by omega⟩

/-- The columns of the bytes, with what is behind them. -/
theorem readColumns_bytes (hlen : bytes.length ≤ n)
    (hrest : bytes.length < n → ∃ b cs', cs = ' ' :: b :: cs') :
    readColumns n (bytes.flatMap (fun byte => hex false 2 byte.toNat ++ [' ']) ++ cs) = bytes := by
  induction bytes generalizing n with
  | nil =>
    cases n with
    | zero => rfl
    | succ n =>
      obtain ⟨b, cs', rfl⟩ := hrest (Nat.succ_pos n)
      cases cs' <;> rfl
  | cons byte bytes ih =>
    cases n with
    | zero => cases hlen
    | succ n =>
      obtain ⟨a, b, hbyte, ha, hb⟩ := hex_byte byte
      have hrest' := ih (Nat.le_of_succ_le_succ hlen) fun h => hrest (Nat.succ_lt_succ h)
      simp only [List.flatMap_cons, hbyte, List.cons_append, List.nil_append, readColumns, ha, hb,
        hrest']
      congr 1
      apply BitVec.eq_of_toNat_eq
      rw [BitVec.toNat_ofNat]
      have := byte.isLt
      omega

theorem plain_of_isHex (h : IsHex line) : IsPlain line := fun c hc => by
  obtain ⟨d, -, hd⟩ := h c hc
  exact (plain_of_digitValue hd).2

theorem IsPlain.cons (hc : 32 ≤ c.toNat ∧ c.toNat < 127) (h : IsPlain cs) : IsPlain (c :: cs) :=
  List.forall_mem_cons.mpr ⟨hc, h⟩

theorem IsPlain.append (h : IsPlain cs) (hline : IsPlain line) : IsPlain (cs ++ line) :=
  fun c hc => (List.mem_append.mp hc).elim (h c) (hline c)

theorem plain_char (byte : BitVec 8) :
    IsPlain [if isPrintable byte then Char.ofNat byte.toNat else '.'] := by
  have hall : ∀ b : BitVec 8, let c := if isPrintable b then Char.ofNat b.toNat else '.'
      32 ≤ c.toNat ∧ c.toNat < 127 := by decide
  intro c hc
  rw [List.mem_singleton.mp hc]
  exact hall byte

theorem plain_spaces (n : Nat) : IsPlain (List.replicate n ' ') := fun c hc => by
  rw [List.eq_of_mem_replicate hc]
  decide

theorem IsPlain.flatMap {α : Type} {xs : List α} {f : α → List Char} (h : ∀ x, IsPlain (f x)) :
    IsPlain (xs.flatMap f) := fun c hc => by
  obtain ⟨x, -, hx⟩ := List.mem_flatMap.mp hc
  exact h x c hx

/-- What stands in the row behind the columns of the bytes. -/
def rowEnd (bytes : List (BitVec 8)) : List Char :=
  (List.replicate (16 - bytes.length) [' ', ' ', ' ']).flatten ++
    ([' ', ' ', ' ', ' '] ++
      (bytes.flatMap (fun byte => [if isPrintable byte then Char.ofNat byte.toNat else '.']) ++
        List.replicate (16 - bytes.length) ' '))

theorem plain_rowEnd (bytes : List (BitVec 8)) : IsPlain (rowEnd bytes) := by
  refine .append (fun c hc => ?_) (.append (plain_spaces 4)
    (.append (.flatMap plain_char) (plain_spaces _)))
  obtain ⟨cs, hcs, hc⟩ := List.mem_flatten.mp hc
  rw [List.eq_of_mem_replicate hcs] at hc
  exact plain_spaces 3 c hc

/-- The columns that stay empty are blank. -/
theorem rowEnd_eq (h : bytes.length < 16) : ∃ b cs, rowEnd bytes = ' ' :: b :: cs := by
  obtain ⟨k, hk⟩ : ∃ k, 16 - bytes.length = k + 1 := ⟨15 - bytes.length, by omega⟩
  rw [rowEnd, hk, List.replicate_succ, List.flatten_cons]
  exact ⟨' ', _, rfl⟩

/-- The columns of the bytes. -/
def byteColumns (bytes : List (BitVec 8)) : List Char :=
  bytes.flatMap fun byte => hex false 2 byte.toNat ++ [' ']

theorem plain_byteColumns (bytes : List (BitVec 8)) : IsPlain (byteColumns bytes) :=
  .flatMap fun _ => (plain_of_isHex isHex_hex).append (plain_spaces 1)

theorem printRow_append : printRow upper addr bytes =
    (['0', 'x'] ++ (hex upper 4 addr.toNat ++ ([':', ' ', ' '] ++
      (byteColumns bytes ++ rowEnd bytes)))) ++ ['\n'] := by
  simp only [printRow, rowEnd, byteColumns, List.append_assoc, ← List.map_eq_flatMap]

/-- A row is a line of printing characters, and says what it shows. -/
theorem printRow_eq (hlen : bytes.length ≤ 16) : ∃ line,
    printRow upper addr bytes = line ++ ['\n'] ∧ IsPlain line ∧
      readRow line = some (addr.toNat, bytes) := by
  have hstart : IsPlain ['0', 'x'] := .cons (by decide) (.cons (by decide) nofun)
  have hcolon : IsPlain [':', ' ', ' '] := .cons (by decide) (plain_spaces 2)
  refine ⟨_, printRow_append, hstart.append <| (plain_of_isHex isHex_hex).append <|
    hcolon.append <| (plain_byteColumns bytes).append (plain_rowEnd bytes), ?_⟩
  have haddr : ∀ c ∈ hex upper 4 addr.toNat, decide (c ≠ ':') = true := fun c hc => by
    obtain ⟨d, -, hd⟩ := isHex_hex c hc
    exact decide_eq_true (plain_of_digitValue hd).1
  have hcolumns : readColumns 16 (byteColumns bytes ++ rowEnd bytes) = bytes :=
    readColumns_bytes hlen rowEnd_eq
  simp only [List.cons_append, List.nil_append]
  rw [readRow, List.dropWhile_append_of_pos haddr, List.takeWhile_append_of_pos haddr]
  simp [digitsValue_hex, hcolumns]

/-! ## The text -/

theorem lines_append (h : IsPlain line) : lines (line ++ '\n' :: cs) = line :: lines cs := by
  induction line with
  | nil => rfl
  | cons c line ih =>
    have hc : c ≠ '\n' := by
      rintro rfl
      exact absurd (h _ (List.mem_cons_self ..)).1 (by decide)
    rw [List.cons_append, lines, if_neg hc, ih fun c hc => h c (List.mem_cons_of_mem _ hc)]

/-- The first rows show the first bytes. -/
theorem flatMap_rowBytes (data : List (BitVec 8)) (k : Nat) :
    (List.range k).flatMap (rowBytes data) = data.take (k * 16) := by
  induction k with
  | zero => rw [Nat.zero_mul, List.take_zero]; rfl
  | succ k ih =>
    rw [List.range_succ, List.flatMap_append, ih, List.flatMap_singleton, rowBytes, Nat.add_mul,
      Nat.one_mul, List.take_add]

theorem length_le_rowCount (n : Nat) : n ≤ rowCount n * 16 := by
  unfold rowCount
  split <;> omega

theorem readDump_rows (f : Nat → BitVec 64) (g : Nat → List (BitVec 8))
    (hg : ∀ k, (g k).length ≤ 16) (ks : List Nat) :
    readDump (ks.flatMap fun k => printRow upper (f k) (g k)) =
      some (ks.map fun k => ((f k).toNat, g k)) := by
  induction ks with
  | nil => rfl
  | cons k ks ih =>
    obtain ⟨line, hline, hplain, hrow⟩ : ∃ line, printRow upper (f k) (g k) = line ++ ['\n'] ∧
        IsPlain line ∧ readRow line = some ((f k).toNat, g k) := printRow_eq (hg k)
    rw [readDump] at ih
    rw [List.flatMap_cons, hline, List.append_assoc, List.singleton_append, readDump,
      lines_append hplain, List.mapM_cons, hrow, ih]
    rfl

/-- Who reads the text gets the data, and for each row the address that it comes from. -/
def Shows (text : List Char) (addr : BitVec 64) (data : List (BitVec 8)) : Prop :=
  ∃ rows, readDump text = some rows ∧ rows.flatMap Prod.snd = data ∧
    rows.map Prod.fst = (List.range (rowCount data.length)).map fun row =>
      (addr + BitVec.ofNat 64 (row * 16)).toNat

theorem printRows_shows (hlimit : rowCount data.length ≤ limit) :
    ∃ text, printRows upper limit addr data = some text ∧ Shows text addr data := by
  refine ⟨_, if_pos hlimit, _, readDump_rows _ _ (fun k => List.length_take_le _ _) _, ?_, ?_⟩
  · rw [List.flatMap_map]
    exact (flatMap_rowBytes data _).trans (List.take_of_length_le (length_le_rowCount _))
  · rw [List.map_map]
    rfl

/-- The dump of either client shows the data. -/
theorem readDump_printBytes (hlen : data.length ≤ 2 ^ 31) :
    (∃ text, Rw.printBytes addr data = some text ∧ Shows text addr data) ∧
      ∃ text, Streaming.printBytes addr data = some text ∧ Shows text addr data := by
  have hrows : rowCount data.length ≤ 2 ^ 27 := by
    unfold rowCount
    split <;> omega
  exact ⟨printRows_shows hrows, printRows_shows (hrows.trans (by decide))⟩

/-- The second address of the two is 8. -/
theorem readDump_printBytes_wraps : ∃ text,
    Rw.printBytes 0xFFFFFFFFFFFFFFF8 (List.replicate 17 0x0A) = some text ∧
      Shows text 0xFFFFFFFFFFFFFFF8 (List.replicate 17 0x0A) :=
  (readDump_printBytes (by decide)).1

end Dump

end Xadma
