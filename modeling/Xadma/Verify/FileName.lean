import Xadma.Sys.FileName
import Mathlib.Data.List.GetD
import Mathlib.Data.Nat.Find

/-!
# The lookup of a file name

The lookup goes on until the buffer differs from an entry or both have a terminator. It stays inside
a counted string only if that differs from each entry at one of its own characters, and then the
name is unknown: for a known one the character behind the string is read, and decides.
-/

namespace Xadma

namespace FileName

variable {s s' : UnicodeString} {w : WideString} {lut : List LutEntry} {index : Nat}

/-- The bytes of the string are exactly the name. -/
def UnicodeString.Holds (s : UnicodeString) (w : WideString) : Prop :=
  s.length.toNat = 2 * w.chars.length ∧ ∀ i < w.chars.length, s.char i = w.char i

/-- The two have the same length and the same bytes in it. -/
def SameName (s s' : UnicodeString) : Prop :=
  s'.length = s.length ∧ ∀ i < s.length.toNat, s'.buffer i = s.buffer i

/-- The lookup `p` depends on the name only, whatever is stored in `index` before: it finds a known
node for the names of the table, and reads no character that is not one of the string. -/
structure LookupRight (p : (index : Nat) → NameProg (DevNodeType × Nat)) (lut : List LutEntry)
    (s : UnicodeString) : Prop where
  independent : ∀ index s', SameName s s' → (p index).eval s'.read = (p index).eval s.read
  known : ∀ index, ((p index).eval s.read).1 ≠ .unknown ↔ ∃ entry ∈ lut, s.Holds entry.1
  inside : ∀ index i, .readChar i ∈ (p index).asked s.read → 2 * i + 2 ≤ s.length.toNat

/-- The string and the name with its terminator differ at a character of the string. -/
def UnicodeString.DiffersInside (s : UnicodeString) (w : WideString) : Prop :=
  ∃ i ≤ w.chars.length, 2 * i + 2 ≤ s.length.toNat ∧ s.char i ≠ w.char i

/-! ## The comparison -/

/-- The characters from `i` on are those of the string, and a terminator. -/
def UnicodeString.MatchesFrom (s : UnicodeString) (i : Nat) (ds : List (BitVec 16)) : Prop :=
  ∀ j ≤ ds.length, s.char (i + j) = ds.getD j 0

theorem UnicodeString.matchesFrom_cons {i : Nat} {d : BitVec 16} {ds : List (BitVec 16)} :
    s.MatchesFrom i (d :: ds) ↔ s.char i = d ∧ s.MatchesFrom (i + 1) ds := by
  constructor
  · intro h
    refine ⟨h 0 (Nat.zero_le _), fun j hj => ?_⟩
    rw [Nat.add_assoc, Nat.add_comm 1 j]
    exact h (j + 1) (Nat.succ_le_succ hj)
  · rintro ⟨hd, hds⟩ j hj
    cases j with
    | zero => exact hd
    | succ j =>
      rw [Nat.add_comm j 1, ← Nat.add_assoc, Nat.add_comm 1 j]
      exact hds j (Nat.le_of_succ_le_succ hj)

theorem eval_wcscmp (s : UnicodeString) (i : Nat) (ds : List (BitVec 16)) :
    (wcscmp i ds).eval s.read = true ↔ s.MatchesFrom i ds := by
  induction ds generalizing i with
  | nil =>
    have heval : (wcscmp i []).eval s.read = decide (s.char i = 0) := rfl
    rw [heval, decide_eq_true_eq]
    constructor
    · intro h j hj
      obtain rfl : j = 0 := Nat.le_zero.mp hj
      exact h
    · exact fun h => h 0 le_rfl
  | cons d ds ih =>
    have heval : (wcscmp i (d :: ds)).eval s.read =
        (if s.char i = d then wcscmp (i + 1) ds else .ret false).eval s.read := rfl
    rw [heval, s.matchesFrom_cons, ← ih]
    split
    · next heq => exact (and_iff_right heq).symm
    · next hne => exact iff_of_false Bool.false_ne_true fun h => hne h.1

/-- A character is read if all before it are equal. -/
theorem mem_asked_wcscmp (s : UnicodeString) (i k : Nat) (ds : List (BitVec 16)) :
    .readChar k ∈ (wcscmp i ds).asked s.read ↔
      ∃ j ≤ ds.length, k = i + j ∧ ∀ m < j, s.char (i + m) = ds.getD m 0 := by
  induction ds generalizing i with
  | nil =>
    have hasked : (wcscmp i []).asked s.read = [.readChar i] := rfl
    rw [hasked, List.mem_singleton]
    constructor
    · rintro ⟨⟩
      exact ⟨0, le_rfl, rfl, nofun⟩
    · rintro ⟨j, hj, rfl, -⟩
      obtain rfl : j = 0 := Nat.le_zero.mp hj
      rfl
  | cons d ds ih =>
    have hasked : (wcscmp i (d :: ds)).asked s.read = .readChar i ::
        (if s.char i = d then wcscmp (i + 1) ds else .ret false).asked s.read := rfl
    rw [hasked, List.mem_cons]
    constructor
    · rintro (hhead | hmem)
      · exact ⟨0, Nat.zero_le _, NameOp.readChar.inj hhead, nofun⟩
      · split at hmem
        · next heq =>
          obtain ⟨j, hj, rfl, hbefore⟩ := (ih (i + 1)).mp hmem
          refine ⟨j + 1, Nat.succ_le_succ hj, Nat.add_right_comm i 1 j, fun m hm => ?_⟩
          cases m with
          | zero => exact heq
          | succ m =>
            rw [Nat.add_comm m 1, ← Nat.add_assoc, Nat.add_comm 1 m]
            exact hbefore m (Nat.lt_of_succ_lt_succ hm)
        · cases hmem
    · rintro ⟨j, hj, rfl, hbefore⟩
      cases j with
      | zero => exact .inl rfl
      | succ j =>
        have heq : s.char i = d := hbefore 0 (Nat.succ_pos j)
        rw [if_pos heq, ih]
        refine .inr ⟨j, Nat.le_of_succ_le_succ hj, (Nat.add_right_comm i 1 j).symm, fun m hm => ?_⟩
        rw [Nat.add_assoc, Nat.add_comm 1 m]
        exact hbefore (m + 1) (Nat.succ_lt_succ hm)

/-! ## An entry -/

/-- The string and the name with its terminator are equal. -/
def UnicodeString.Matches (s : UnicodeString) (w : WideString) : Prop :=
  ∀ i ≤ w.chars.length, s.char i = w.char i

theorem UnicodeString.matches_iff : s.Matches w ↔ (wcscmp 0 w.chars).eval s.read = true := by
  rw [eval_wcscmp, MatchesFrom]
  simp only [Nat.zero_add]
  rfl

theorem UnicodeString.mem_asked_iff {k : Nat} :
    .readChar k ∈ (wcscmp 0 w.chars).asked s.read ↔
      k ≤ w.chars.length ∧ ∀ i < k, s.char i = w.char i := by
  rw [mem_asked_wcscmp]
  simp only [Nat.zero_add]
  constructor
  · rintro ⟨j, hj, rfl, hbefore⟩
    exact ⟨hj, hbefore⟩
  · rintro ⟨hk, hbefore⟩
    exact ⟨k, hk, rfl, hbefore⟩

theorem UnicodeString.DiffersInside.not_matches (h : s.DiffersInside w) : ¬ s.Matches w := by
  obtain ⟨i, hi, -, hne⟩ := h
  exact fun hmatch => hne (hmatch i hi)

/-- The comparison with an entry stays inside the string if and only if the two differ there, or
they are equal and the string holds the terminator. -/
theorem UnicodeString.inside_iff :
    (∀ k, .readChar k ∈ (wcscmp 0 w.chars).asked s.read → 2 * k + 2 ≤ s.length.toNat) ↔
      s.DiffersInside w ∨ s.Matches w ∧ 2 * w.chars.length + 2 ≤ s.length.toNat := by
  simp only [mem_asked_iff]
  constructor
  · intro h
    by_cases hmatch : s.Matches w
    · exact .inr ⟨hmatch, h _ ⟨le_rfl, fun i hi => hmatch i hi.le⟩⟩
    · have hexists : ∃ i, i ≤ w.chars.length ∧ s.char i ≠ w.char i := by
        simpa [Matches] using hmatch
      classical
      have hfirst := Nat.find_spec hexists
      refine .inl ⟨Nat.find hexists, hfirst.1, h _ ⟨hfirst.1, fun i hi => ?_⟩, hfirst.2⟩
      have := Nat.find_min hexists hi
      by_contra hne
      exact this ⟨hi.le.trans hfirst.1, hne⟩
  · rintro (⟨i, hi, hinside, hne⟩ | ⟨hmatch, hlength⟩) k ⟨hk, hbefore⟩
    · have hki : k ≤ i := Nat.le_of_not_lt fun hlt => hne (hbefore i hlt)
      omega
    · omega

/-- An exact name is not told from what stands behind it. -/
theorem UnicodeString.Holds.not_differsInside (h : s.Holds w) : ¬ s.DiffersInside w := by
  rintro ⟨i, -, hinside, hne⟩
  have hlength := h.1
  exact hne (h.2 i (by omega))

/-! ## The table -/

theorem eval_cons (entry : LutEntry) :
    (lookup index (entry :: lut)).eval s.read =
      if (wcscmp 0 entry.1.chars).eval s.read then entry.2
      else (lookup index lut).eval s.read := by
  obtain ⟨wstr, devType, channel⟩ := entry
  rw [lookup, Prog.eval_bind]
  split <;> rfl

theorem asked_cons (entry : LutEntry) :
    (lookup index (entry :: lut)).asked s.read =
      (wcscmp 0 entry.1.chars).asked s.read ++
        if (wcscmp 0 entry.1.chars).eval s.read then [] else (lookup index lut).asked s.read := by
  obtain ⟨wstr, devType, channel⟩ := entry
  rw [lookup, Prog.asked_bind]
  split <;> rfl

/-- A name is known where it matches an entry. -/
theorem known_iff (hlut : ∀ entry ∈ lut, entry.2.1 ≠ .unknown) :
    ((lookup index lut).eval s.read).1 ≠ .unknown ↔ ∃ entry ∈ lut, s.Matches entry.1 := by
  induction lut with
  | nil => exact iff_of_false (fun h => h rfl) fun ⟨_, hmem, _⟩ => List.not_mem_nil hmem
  | cons entry lut ih =>
    rw [List.forall_mem_cons] at hlut
    rw [eval_cons, List.exists_mem_cons_iff, s.matches_iff, ← ih hlut.2]
    split
    · next heq => exact iff_of_true hlut.1 (.inl heq)
    · next hne => exact (or_iff_right hne).symm

/-- Without a match all entries are compared. -/
theorem asked_of_not_matches (h : ∀ entry ∈ lut, ¬ s.Matches entry.1) :
    (lookup index lut).asked s.read =
      lut.flatMap fun entry => (wcscmp 0 entry.1.chars).asked s.read := by
  induction lut with
  | nil => rfl
  | cons entry lut ih =>
    rw [List.forall_mem_cons, s.matches_iff] at h
    rw [asked_cons, if_neg h.1, ih h.2, List.flatMap_cons]

/-- The lookup ends with the comparison of an entry that matches. -/
theorem exists_asked_of_matches (index : Nat) (h : ∃ entry ∈ lut, s.Matches entry.1) :
    ∃ entry ∈ lut, s.Matches entry.1 ∧
      ∀ o ∈ (wcscmp 0 entry.1.chars).asked s.read, o ∈ (lookup index lut).asked s.read := by
  induction lut with
  | nil =>
    obtain ⟨_, hmem, _⟩ := h
    cases hmem
  | cons entry lut ih =>
    rw [asked_cons]
    by_cases hmatch : s.Matches entry.1
    · exact ⟨entry, List.mem_cons_self, hmatch, fun o ho => List.mem_append_left _ ho⟩
    · rw [List.exists_mem_cons_iff, or_iff_right hmatch] at h
      obtain ⟨entry', hmem, hmatch', hasked⟩ := ih h
      rw [if_neg (mt s.matches_iff.mpr hmatch)]
      exact ⟨entry', List.mem_cons_of_mem _ hmem, hmatch',
        fun o ho => List.mem_append_right _ (hasked o ho)⟩

/-! ## The condition -/

theorem SameName.char (h : SameName s s') {i : Nat} (hi : 2 * i + 2 ≤ s.length.toNat) :
    s'.char i = s.char i := by
  rw [UnicodeString.char, UnicodeString.char, h.2 _ (by omega), h.2 _ (by omega)]

/-- The only terminator is the one behind the characters. -/
theorem WideString.char_eq_zero_iff {i : Nat} : w.char i = 0 ↔ w.chars.length ≤ i := by
  constructor
  · intro h
    by_contra hlt
    have hlt : i < w.chars.length := Nat.lt_of_not_le hlt
    rw [char, List.getD_eq_getElem _ _ hlt] at h
    exact w.nonzero _ (List.getElem_mem hlt) h
  · exact fun h => List.getD_eq_default _ _ h

/-- The terminator of an entry is not a character of another one. -/
theorem UnicodeString.Holds.length_le {w' : WideString} (h : s.Holds w) (hmatch : s.Matches w') :
    w.chars.length ≤ w'.chars.length := by
  by_contra hlt
  have hchar := h.2 _ (Nat.lt_of_not_le hlt)
  rw [hmatch _ le_rfl, WideString.char_eq_zero_iff.mpr le_rfl] at hchar
  exact hlt (WideString.char_eq_zero_iff.mp hchar.symm)

theorem LookupRight.not_matches (h : LookupRight (lookup · lut) lut s)
    (hlut : ∀ entry ∈ lut, entry.2.1 ≠ .unknown) : ∀ entry ∈ lut, ¬ s.Matches entry.1 := by
  by_contra hsome
  simp only [not_forall, not_not, exists_prop] at hsome
  obtain ⟨entry, -, hmatch, hasked⟩ := exists_asked_of_matches 0 hsome
  have hinside := UnicodeString.inside_iff.mp fun k hk => h.inside 0 k (hasked _ hk)
  rcases hinside with hdiff | ⟨-, hlength⟩
  · exact hdiff.not_matches hmatch
  · obtain ⟨entry', -, hholds⟩ := (h.known 0).mp ((known_iff hlut).mpr hsome)
    have hle := hholds.length_le hmatch
    have := hholds.1
    omega

theorem lookupRight_iff_differsInside (hlut : ∀ entry ∈ lut, entry.2.1 ≠ .unknown) :
    LookupRight (lookup · lut) lut s ↔ ∀ entry ∈ lut, s.DiffersInside entry.1 := by
  constructor
  · intro h entry hentry
    have hnone := h.not_matches hlut
    have hinside := UnicodeString.inside_iff.mp fun k hk => h.inside 0 k (by
      rw [asked_of_not_matches hnone]
      exact List.mem_flatMap.mpr ⟨entry, hentry, hk⟩)
    rcases hinside with hdiff | ⟨hmatch, -⟩
    · exact hdiff
    · exact absurd hmatch (hnone entry hentry)
  · intro h
    have hnone : ∀ entry ∈ lut, ¬ s.Matches entry.1 := fun entry hentry =>
      (h entry hentry).not_matches
    have hinside (index i : Nat) (hi : .readChar i ∈ (lookup index lut).asked s.read) :
        2 * i + 2 ≤ s.length.toNat := by
      rw [asked_of_not_matches hnone] at hi
      obtain ⟨entry, hentry, hi⟩ := List.mem_flatMap.mp hi
      exact UnicodeString.inside_iff.mpr (.inl (h entry hentry)) i hi
    refine ⟨fun index s' hsame => ?_, fun index => ?_, hinside⟩
    · apply Prog.eval_congr
      rintro ⟨i⟩ hi
      exact hsame.char (hinside index i hi)
    · rw [known_iff hlut]
      refine iff_of_false (fun ⟨entry, hentry, hmatch⟩ => hnone entry hentry hmatch) ?_
      rintro ⟨entry, hentry, hholds⟩
      exact hholds.not_differsInside (h entry hentry)

/-- **The lookup of a counted name.** The routine of either driver depends on the name only where
the string differs from every entry inside its length; a name of the table does not. -/
theorem getDevNodeType_right_iff (s : UnicodeString) :
    (LookupRight getDevNodeType xdmaLut s ↔ ∀ entry ∈ xdmaLut, s.DiffersInside entry.1) ∧
      (LookupRight admaGetDevNodeType admaLut s ↔
        ∀ entry ∈ admaLut, s.DiffersInside entry.1) := by
  have hxdma : ∀ entry ∈ xdmaLut, entry.2.1 ≠ .unknown := by
    decide
  have hadma : ∀ entry ∈ admaLut, entry.2.1 ≠ .unknown := by
    decide
  exact ⟨lookupRight_iff_differsInside hxdma, lookupRight_iff_differsInside hadma⟩

/-! ## A terminated string -/

/-- The characters are in the basic plane, and none of them is a terminator. -/
def Plain (t : String) : Prop := ∀ c ∈ t.toList, c.toNat < 0x10000 ∧ c.toNat ≠ 0

instance (t : String) : Decidable (Plain t) :=
  List.decidableBAll (fun c : Char => c.toNat < 0x10000 ∧ c.toNat ≠ 0) t.toList

theorem Plain.chars {t : String} (h : Plain t) :
    (WideString.ofLiteral t).chars = t.toList.map fun c => BitVec.ofNat 16 c.toNat := by
  refine List.takeWhile_eq_self_iff.mpr fun d hd => ?_
  obtain ⟨c, hc, rfl⟩ := List.mem_map.mp hd
  obtain ⟨hlt, hne⟩ := h c hc
  have hnat : (BitVec.ofNat 16 c.toNat).toNat = c.toNat := Nat.mod_eq_of_lt hlt
  refine decide_eq_true fun hzero => hne ?_
  rw [← hnat, hzero]
  rfl

theorem Plain.ofLiteral_inj {t u : String} (ht : Plain t) (hu : Plain u) :
    (WideString.ofLiteral t).chars = (WideString.ofLiteral u).chars ↔ t = u := by
  have hback {t : String} (ht : Plain t) :
      (WideString.ofLiteral t).chars.map (fun d => Char.ofNat d.toNat) = t.toList := by
    rw [ht.chars, List.map_map]
    refine (List.map_congr_left fun c hc => ?_).trans (List.map_id _)
    have hnat : (BitVec.ofNat 16 c.toNat).toNat = c.toNat := Nat.mod_eq_of_lt (ht c hc).1
    rw [Function.comp_apply, hnat, Char.ofNat_toNat]
    rfl
  refine ⟨fun h => String.toList_injective ?_, fun h => h ▸ rfl⟩
  rw [← hback ht, ← hback hu, h]

/-- With a terminator behind the string the comparison is one of the names. -/
theorem UnicodeString.Holds.matches_iff {w' : WideString} (h : s.Holds w)
    (hend : s.char w.chars.length = 0) : s.Matches w' ↔ w'.chars = w.chars := by
  constructor
  · intro hmatch
    have hle := h.length_le hmatch
    have hge : w'.chars.length ≤ w.chars.length := by
      rw [← WideString.char_eq_zero_iff, ← hmatch _ hle, hend]
    refine List.ext_getElem (Nat.le_antisymm hge hle) fun i hi' hi => ?_
    have hchar : w'.char i = w.char i := (hmatch i hi'.le).symm.trans (h.2 i hi)
    rwa [WideString.char, WideString.char, List.getD_eq_getElem _ _ hi',
      List.getD_eq_getElem _ _ hi] at hchar
  · intro heq i hi
    rw [heq] at hi
    rw [WideString.char, heq]
    rcases Nat.lt_or_eq_of_le hi with hlt | rfl
    · exact h.2 i hlt
    · exact hend.trans (WideString.char_eq_zero_iff.mpr le_rfl).symm

/-- A terminated name is looked up as the string that it holds. -/
theorem eval_lookup_terminated {t : String} {lut : List (String × DevNodeType × Nat)}
    (ht : Plain t) (hlut : ∀ entry ∈ lut, Plain entry.1) (h : s.Holds (.ofLiteral t))
    (hend : s.char (WideString.ofLiteral t).chars.length = 0) :
    (lookup index (wideLut lut)).eval s.read = (lut.lookup t).getD (.unknown, index) := by
  induction lut with
  | nil => rfl
  | cons entry lut ih =>
    rw [List.forall_mem_cons] at hlut
    have hmatch : (wcscmp 0 (WideString.ofLiteral entry.1).chars).eval s.read = true ↔
        entry.1 = t := by
      rw [← s.matches_iff, h.matches_iff hend, hlut.1.ofLiteral_inj ht]
    obtain ⟨name, node⟩ := entry
    rw [wideLut, List.map_cons, eval_cons, List.lookup_cons]
    by_cases heq : name = t
    · rw [if_pos (hmatch.mpr heq), heq, beq_self_eq_true]
      rfl
    · rw [if_neg (mt hmatch.mp heq), beq_eq_false_iff_ne.mpr (Ne.symm heq)]
      exact ih hlut.2

theorem getDevNodeType_terminated {t : String} (ht : Plain t) (h : s.Holds (.ofLiteral t))
    (hend : s.char (WideString.ofLiteral t).chars.length = 0) :
    (getDevNodeType 0).eval s.read = Entry.getDevNodeType t ∧
      (admaGetDevNodeType 0).eval s.read = Adma.getDevNodeType t :=
  ⟨eval_lookup_terminated ht (by decide) h hend, eval_lookup_terminated ht (by decide) h hend⟩

/-! ## Behind the string -/

/-- `length` bytes of a literal, which goes on in the buffer. -/
def UnicodeString.inLiteral (t : String) (length : BitVec 16) : UnicodeString where
  length := length
  buffer i :=
    if i % 2 = 0 then ((WideString.ofLiteral t).char (i / 2)).setWidth 8
    else ((WideString.ofLiteral t).char (i / 2) >>> 8).setWidth 8

/-- Eight characters of a longer name: with a terminator behind them they are another name. -/
theorem event_1_of_event_10 :
    ¬ LookupRight getDevNodeType xdmaLut (.inLiteral "\\event_10" 16) := by
  intro h
  have hsame : SameName (.inLiteral "\\event_10" 16) (.inLiteral "\\event_1" 16) :=
    ⟨rfl, by decide⟩
  have hten : (getDevNodeType 0).eval (UnicodeString.inLiteral "\\event_10" 16).read =
      (.events, 10) := by decide
  have hone : (getDevNodeType 0).eval (UnicodeString.inLiteral "\\event_1" 16).read =
      (.events, 1) := by decide
  have heq := h.independent 0 _ hsame
  rw [hten, hone] at heq
  cases heq

end FileName

end Xadma
