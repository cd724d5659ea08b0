import Xadma.Exe.XdmaRw

/-!
# The command line of `xdma_rw`

The grammar is the one that `usage` shows: an option is an argument that begins with a dash or a
slash and goes on with its letter, and one that takes a value is followed by it. `parse` reads a
line of the grammar and has the usage shown for another vector, but for two things. It leaves the
vector where that ends too early, without an address or behind an option that takes a value; and it
stores the data whether or not there is a buffer.
-/

namespace Xadma

namespace Rw

/-! ## The grammar -/

/-- An option with its value. -/
inductive OptionItem
  | binary
  | verbose
  | file (path : CString)
  | length (number : CString)
  | align (number : CString)
  deriving DecidableEq

/-- What an argument is, where an option may stand. -/
inductive ArgKind
  | data
  | flag (item : OptionItem)
  | value (item : CString → OptionItem)
  /-- A letter that is not listed, or one that asks for the usage. -/
  | other

def optionKind : Char → ArgKind
  | 'b' => .flag .binary
  | 'v' => .flag .verbose
  | 'f' => .value .file
  | 'l' => .value .length
  | 'a' => .value .align
  | _ => .other

def argKind (a : CString) : ArgKind :=
  if a.char 0 = '-' ∨ a.char 0 = '/' then optionKind (a.char 1) else .data

/-- The arguments are the options of the list, each with its value if it takes one. -/
inductive Spell : List CString → List OptionItem → Prop
  | nil : Spell [] []
  | flag {a : CString} {item : OptionItem} {opts : List CString} {items : List OptionItem}
    (h : argKind a = .flag item) (hrest : Spell opts items) : Spell (a :: opts) (item :: items)
  | value {a v : CString} {item : CString → OptionItem} {opts : List CString}
    {items : List OptionItem} (h : argKind a = .value item) (hrest : Spell opts items) :
    Spell (a :: v :: opts) (item v :: items)

structure CommandLine where
  exeName : CString
  device : CString
  direction : Direction
  address : CString
  items : List OptionItem
  data : List CString

def Direction.word : Direction → CString
  | .c2h => .ofLiteral "read"
  | .h2c => .ofLiteral "write"

/-- `<DEVNODE> <read|write> <ADDR> [OPTIONS] [DATA]`, where only a write has data and the first
data byte does not look like an option. -/
def Spells (argv : List CString) (line : CommandLine) : Prop :=
  ∃ word opts, argv = line.exeName :: line.device :: word :: line.address :: (opts ++ line.data) ∧
    word.chars = line.direction.word.chars ∧ Spell opts line.items ∧
    (∀ a ∈ line.data.head?, argKind a = .data) ∧ (line.data ≠ [] → line.direction = .h2c)

/-! ## What it means -/

def OptionItem.apply (o : Options) : OptionItem → Options
  | .binary => { o with binary := true }
  | .verbose => { o with verbose := true }
  | .file path => { o with file := some path }
  | .length number => { o with size := strtoul 32 number }
  | .align number => { o with alignment := (strtoul 32 number).toNat }

/-- The options before the data: of two values for one option the last one counts. -/
def CommandLine.before (line : CommandLine) : Options :=
  line.items.foldl OptionItem.apply { Options.init with
    device := some line.device
    direction := line.direction
    address := strtoul 64 line.address }

/-- The data gives the size, whatever the options say. -/
def CommandLine.options (line : CommandLine) : Options :=
  if line.data = [] then line.before
  else { line.before with size := BitVec.ofNat 32 line.data.length, data := true }

def dataByte (a : CString) : BitVec 8 := (strtoul 32 a).setWidth 8

/-- The buffer holds the bytes and no more; without data there is none. -/
def CommandLine.Filled (line : CommandLine) (buffer : Option Buffer) : Prop :=
  if line.data = [] then buffer.isNone = true
  else ∃ b, buffer = some b ∧ (List.range b.size).map b.bytes = line.data.map dataByte

/-- The alignment that is asked for: that of a page, if none is given. -/
def RwEnv.alignment (env : RwEnv) (alignment : Nat) : Nat :=
  if alignment = 0 then env.pageSize else alignment

/-- There is memory for the data. -/
def CommandLine.Allocates (env : RwEnv) (line : CommandLine) : Prop :=
  env.malloc line.data.length (env.alignment line.before.alignment) = true

/-! ## The property -/

/-- The calls of `parse`, in order. -/
def RwEnv.trace (env : RwEnv) (bound : Nat) : List RwOp :=
  (parse env.argv.length bound).trace env.act env.answer .start

def RwEnv.run (env : RwEnv) (bound : Nat) : Option (Option Options × RwWorld) :=
  (parse env.argv.length bound).exec env.act env.answer .start

/-- The usage is shown for a vector that is no line of the grammar, and what is returned of a line
is what it means. -/
def ParsedAs (argv : List CString) (s : RwWorld) : Option Options → Prop
  | none => s.usageShown = true ∧ ¬ ∃ line, Spells argv line
  | some o => s.usageShown = false ∧ ∃ line, Spells argv line ∧
    (∀ line', Spells argv line' → line' = line) ∧ o = line.options ∧ line.Filled s.buffer

/-- `parse` stays inside the vector and its buffer, and reads the grammar. -/
structure ParseRight (env : RwEnv) (bound : Nat) : Prop where
  args : ∀ i, .arg i ∈ env.trace bound → i < env.argv.length
  ends : .looping ∉ env.trace bound
  returns : ∃ r s, env.run bound = some (r, s) ∧ ParsedAs env.argv s r ∧
    ∀ k value, .storeData k value ∈ env.trace bound → ∃ b, s.buffer = some b ∧ k < b.size

/-! ## The vectors that end too early -/

/-- The vector ends behind the direction, or behind an option that takes a value. -/
def Truncated (argv : List CString) : Prop :=
  ∃ exeName device word, ∃ direction : Direction, word.chars = direction.word.chars ∧
    (argv = [exeName, device, word] ∨
      ∃ address opts items a item, argv = exeName :: device :: word :: address :: (opts ++ [a]) ∧
        Spell opts items ∧ argKind a = .value item)

/-! ## The scan -/

/-- What a part of the vector is read as. -/
inductive Scan (α : Type)
  | usage
  | truncated
  | line (a : α)

def Scan.bind {α β : Type} : Scan α → (α → Scan β) → Scan β
  | .usage, _ => .usage
  | .truncated, _ => .truncated
  | .line a, f => f a

/-- The options at the start, and the data behind them. -/
def scan : List CString → Scan (List OptionItem × List CString)
  | [] => .line ([], [])
  | a :: rest =>
    match argKind a with
    | .data => .line ([], a :: rest)
    | .other => .usage
    | .flag item => (scan rest).bind fun x => .line (item :: x.1, x.2)
    | .value item =>
      match rest with
      | [] => .truncated
      | v :: rest => (scan rest).bind fun x => .line (item v :: x.1, x.2)

def scanLine : List CString → Scan CommandLine
  | exeName :: device :: word :: rest =>
    match directionOf word, rest with
    | none, _ => .usage
    | some _, [] => .truncated
    | some direction, address :: rest =>
      (scan rest).bind fun x =>
        if x.2 ≠ [] ∧ direction = .c2h then .usage
        else .line ⟨exeName, device, direction, address, x.1, x.2⟩
  | _ => .usage

section Scan

variable {a v : CString} {args opts rest : List CString} {items : List OptionItem}

theorem scan_cons_flag {item : OptionItem} (h : argKind a = .flag item) :
    scan (a :: rest) = (scan rest).bind fun x => .line (item :: x.1, x.2) := by
  rw [scan, h]

theorem scan_cons_value {item : CString → OptionItem} (h : argKind a = .value item) :
    scan (a :: v :: rest) = (scan rest).bind fun x => .line (item v :: x.1, x.2) := by
  rw [scan, h]

/-- Behind options the scan goes on. -/
theorem Spell.scan_append (h : Spell opts items) (rest : List CString) :
    scan (opts ++ rest) = (scan rest).bind fun x => .line (items ++ x.1, x.2) := by
  induction h with
  | nil =>
    rw [List.nil_append]
    cases scan rest <;> rfl
  | flag h _ ih =>
    rw [List.cons_append, scan_cons_flag h, ih]
    cases scan rest <;> rfl
  | value h _ ih =>
    rw [List.cons_append, List.cons_append, scan_cons_value h, ih]
    cases scan rest <;> rfl

theorem scan_of_data (h : ∀ a ∈ rest.head?, argKind a = .data) : scan rest = .line ([], rest) := by
  cases rest with
  | nil => rfl
  | cons a rest => rw [scan, h a rfl]

theorem Scan.bind_eq_line {α β : Type} {x : Scan α} {f : α → Scan β} {b : β}
    (h : x.bind f = .line b) : ∃ a, x = .line a ∧ f a = .line b := by
  cases x with
  | usage => cases h
  | truncated => cases h
  | line a => exact ⟨a, rfl, h⟩

theorem Scan.bind_eq_truncated {α β : Type} {x : Scan α} {f : α → Scan β}
    (h : x.bind f = .truncated) : x = .truncated ∨ ∃ a, x = .line a ∧ f a = .truncated := by
  cases x with
  | usage => cases h
  | truncated => exact .inl rfl
  | line a => exact .inr ⟨a, rfl, h⟩

/-- What is scanned is spelt. -/
theorem spell_of_scan {data : List CString} (h : scan args = .line (items, data)) :
    ∃ opts, args = opts ++ data ∧ Spell opts items ∧ ∀ a ∈ data.head?, argKind a = .data := by
  fun_induction scan args generalizing items data with
  | case1 =>
    cases h
    exact ⟨[], rfl, .nil, nofun⟩
  | case2 a rest hkind =>
    cases h
    refine ⟨[], rfl, .nil, fun b hb => ?_⟩
    cases hb
    exact hkind
  | case3 => cases h
  | case4 a rest item hkind ih =>
    obtain ⟨⟨items, data⟩, hrest, hline⟩ := Scan.bind_eq_line h
    cases hline
    obtain ⟨opts, rfl, hopts, hdata⟩ := ih hrest
    exact ⟨a :: opts, rfl, .flag hkind hopts, hdata⟩
  | case5 => cases h
  | case6 a item hkind v rest ih =>
    obtain ⟨⟨items, data⟩, hrest, hline⟩ := Scan.bind_eq_line h
    cases hline
    obtain ⟨opts, rfl, hopts, hdata⟩ := ih hrest
    exact ⟨a :: v :: opts, rfl, .value hkind hopts, hdata⟩

/-- The scan is cut short behind options only, by one that takes a value. -/
theorem spell_of_scan_truncated (h : scan args = .truncated) :
    ∃ opts items a item, args = opts ++ [a] ∧ Spell opts items ∧ argKind a = .value item := by
  fun_induction scan args with
  | case1 => cases h
  | case2 => cases h
  | case3 => cases h
  | case4 a rest item hkind ih =>
    rcases Scan.bind_eq_truncated h with hrest | ⟨x, -, hx⟩
    · obtain ⟨opts, items, b, item', rfl, hopts, hb⟩ := ih hrest
      exact ⟨a :: opts, item :: items, b, item', rfl, .flag hkind hopts, hb⟩
    · cases hx
  | case5 a item hkind => exact ⟨[], [], a, item, rfl, .nil, hkind⟩
  | case6 a item hkind v rest ih =>
    rcases Scan.bind_eq_truncated h with hrest | ⟨x, -, hx⟩
    · obtain ⟨opts, items, b, item', rfl, hopts, hb⟩ := ih hrest
      exact ⟨a :: v :: opts, item v :: items, b, item', rfl, .value hkind hopts, hb⟩
    · cases hx

theorem directionOf_eq_some_iff {word : CString} {direction : Direction} :
    directionOf word = some direction ↔ word.chars = direction.word.chars := by
  have hne : (CString.ofLiteral "read").chars ≠ (CString.ofLiteral "write").chars := by decide
  unfold directionOf strcmp
  cases direction with
  | h2c =>
    by_cases hwrite : word.chars = (CString.ofLiteral "write").chars
    · rw [decide_eq_true hwrite]
      exact iff_of_true rfl hwrite
    · rw [decide_eq_false hwrite]
      refine iff_of_false (fun h => ?_) hwrite
      split at h
      · contradiction
      · split at h <;> cases h
  | c2h =>
    by_cases hread : word.chars = (CString.ofLiteral "read").chars
    · rw [hread, decide_eq_false hne, decide_eq_true rfl]
      exact iff_of_true rfl rfl
    · rw [decide_eq_false hread]
      refine iff_of_false (fun h => ?_) hread
      split at h
      · cases h
      · cases h

theorem scanLine_word {exeName device word : CString} {direction : Direction}
    (h : word.chars = direction.word.chars) :
    scanLine [exeName, device, word] = .truncated := by
  simp only [scanLine, directionOf_eq_some_iff.mpr h]

theorem scanLine_address {exeName device word address : CString} {direction : Direction}
    (h : word.chars = direction.word.chars) (rest : List CString) :
    scanLine (exeName :: device :: word :: address :: rest) =
      (scan rest).bind fun x =>
        if x.2 ≠ [] ∧ direction = .c2h then .usage
        else .line ⟨exeName, device, direction, address, x.1, x.2⟩ := by
  simp only [scanLine, directionOf_eq_some_iff.mpr h]

theorem scanLine_eq_line_iff {line : CommandLine} :
    scanLine args = .line line ↔ Spells args line := by
  constructor
  · intro h
    unfold scanLine at h
    split at h
    · next exeName device word rest =>
      split at h
      · cases h
      · cases h
      · next direction address rest hdirection =>
        obtain ⟨⟨items, data⟩, hscan, hline⟩ := Scan.bind_eq_line h
        split at hline
        · cases hline
        · next hdata =>
          cases hline
          obtain ⟨opts, rfl, hopts, hhead⟩ := spell_of_scan hscan
          refine ⟨word, opts, rfl, directionOf_eq_some_iff.mp hdirection, hopts, hhead, ?_⟩
          intro hne
          cases direction with
          | h2c => rfl
          | c2h => exact absurd ⟨hne, rfl⟩ hdata
    · cases h
  · rintro ⟨word, opts, rfl, hword, hopts, hhead, hdata⟩
    have hscan : scan (opts ++ line.data) = .line (line.items, line.data) := by
      rw [hopts.scan_append, scan_of_data hhead, Scan.bind, List.append_nil]
    have hallowed : ¬ (line.data ≠ [] ∧ line.direction = .c2h) := by
      rintro ⟨hne, hread⟩
      rw [hdata hne] at hread
      cases hread
    rw [scanLine_address hword, hscan, Scan.bind, if_neg hallowed]

theorem scanLine_eq_truncated_iff : scanLine args = .truncated ↔ Truncated args := by
  constructor
  · intro h
    unfold scanLine at h
    split at h
    · next exeName device word rest =>
      split at h
      · cases h
      · next direction hdirection =>
        exact ⟨exeName, device, word, direction, directionOf_eq_some_iff.mp hdirection, .inl rfl⟩
      · next direction address rest hdirection =>
        rcases Scan.bind_eq_truncated h with hscan | ⟨x, -, hx⟩
        · obtain ⟨opts, items, a, item, rfl, hopts, ha⟩ := spell_of_scan_truncated hscan
          exact ⟨exeName, device, word, direction, directionOf_eq_some_iff.mp hdirection,
            .inr ⟨address, opts, items, a, item, rfl, hopts, ha⟩⟩
        · split at hx <;> cases hx
    · cases h
  · rintro ⟨exeName, device, word, direction, hword, rfl | ⟨address, opts, items, a, item, rfl,
      hopts, ha⟩⟩
    · exact scanLine_word hword
    · have hscan : scan (opts ++ [a]) = .truncated := by
        rw [hopts.scan_append, scan, ha]
        rfl
      rw [scanLine_address hword, hscan, Scan.bind]

end Scan

/-! ## The calls -/

/-- What a run may call that stays inside a vector of `argc` arguments and a buffer of `n` bytes. -/
def InBounds (argc n : Nat) : RwOp → Prop
  | .arg i => i < argc
  | .storeData k _ => k < n
  | .fault | .looping => False
  | _ => True

section Runs

variable {env : RwEnv} {n i argidx bound : Nat} {a v : CString} {rest : List CString}
  {o : Options} {s : RwWorld}

/-- A run that stays inside the vector and the buffer. -/
abbrev Leads (env : RwEnv) (n : Nat) {α : Type} (p : RwProg α) (s : RwWorld) (q : RwProg α)
    (s' : RwWorld) : Prop :=
  Prog.Leads env.act env.answer (InBounds env.argv.length n) p s q s'

theorem leads_arg (h : env.argv[i]? = some a) :
    Leads env n (RwOp.arg i).perform s (.ret (some a)) s := by
  obtain ⟨hlt, -⟩ := List.getElem?_eq_some_iff.mp h
  have hcall : Leads env n (RwOp.arg i).perform s (.ret env.argv[i]?) s :=
    Prog.Leads.perform hlt rfl
  rwa [h] at hcall

theorem leads_readArg {α : Type} [Inhabited α] {f : CString → α} (h : env.argv[i]? = some a) :
    Leads env n (readArg i f) s (.ret (f a)) s :=
  (leads_arg h).seq .refl

theorem leads_usage : Leads env n usage s (.ret ()) { s with usageShown := true } :=
  (leads_arg (List.getElem?_eq_getElem env.argv_pos)).seq (Prog.Leads.perform trivial rfl)

/-! ## The option loop -/

variable {next : (argidx : Nat) → Options → RwProg (Option (Nat × Options))} {c : Char}

theorem optionSwitch_flag {item : OptionItem} (h : optionKind c = .flag item) :
    optionSwitch next argidx o c = next (argidx + 1) (item.apply o) := by
  unfold optionKind at h
  split at h <;> cases h <;> rfl

theorem leads_optionSwitch_value {item : CString → OptionItem} (h : optionKind c = .value item)
    (hv : env.argv[argidx + 1]? = some v) :
    Leads env n (optionSwitch next argidx o c) s (next (argidx + 2) ((item v).apply o)) s := by
  unfold optionKind at h
  split at h <;> cases h
  · exact (leads_arg hv).seq .refl
  · exact (leads_readArg hv).seq .refl
  · exact (leads_readArg hv).seq .refl

theorem optionSwitch_value_eq_call {item : CString → OptionItem} (h : optionKind c = .value item)
    (next : (argidx : Nat) → Options → RwProg (Option (Nat × Options))) (argidx : Nat)
    (o : Options) : ∃ k, optionSwitch next argidx o c = .call (.arg (argidx + 1)) k := by
  unfold optionKind at h
  split at h <;> cases h <;> exact ⟨_, rfl⟩

theorem leads_optionSwitch_other (h : optionKind c = .other) :
    Leads env n (optionSwitch next argidx o c) s (.ret none) { s with usageShown := true } := by
  have hunknown (letter : Char) : Leads env n (RwOp.unknownOption letter).perform s (.ret ()) s :=
    Prog.Leads.perform trivial rfl
  unfold optionSwitch
  split
  · exact leads_usage.seq .refl
  · exact leads_usage.seq .refl
  · cases h
  · cases h
  · cases h
  · cases h
  · cases h
  · exact (hunknown _).seq (leads_usage.seq .refl)

/-- What the loop comes to, where the arguments from its index on are scanned so. -/
def LoopEnds (env : RwEnv) (n : Nat) (p : RwProg (Option (Nat × Options))) (o : Options)
    (s : RwWorld) : Scan (List OptionItem × List CString) → Prop
  | .usage => Leads env n p s (.ret none) { s with usageShown := true }
  | .truncated => ∃ k, Leads env n p s (.call (.arg env.argv.length) k) s
  | .line x =>
    Leads env n p s (.ret (some (env.argv.length - x.2.length, x.1.foldl OptionItem.apply o))) s

theorem LoopEnds.trans {p q : RwProg (Option (Nat × Options))}
    {x : Scan (List OptionItem × List CString)} (h : Leads env n p s q s)
    (hq : LoopEnds env n q o s x) : LoopEnds env n p o s x := by
  cases x with
  | usage => exact Prog.Leads.trans h hq
  | truncated =>
    obtain ⟨k, hk⟩ := hq
    exact ⟨k, Prog.Leads.trans h hk⟩
  | line x => exact Prog.Leads.trans h hq

/-- An option in front of what is scanned. -/
theorem LoopEnds.cons {p : RwProg (Option (Nat × Options))} {item : OptionItem}
    {x : Scan (List OptionItem × List CString)} (h : LoopEnds env n p (item.apply o) s x) :
    LoopEnds env n p o s (x.bind fun x => .line (item :: x.1, x.2)) := by
  cases x with
  | usage => exact h
  | truncated => exact h
  | line x => exact h

theorem optionKind_ne_data : optionKind c ≠ .data := by
  unfold optionKind
  split <;> nofun

theorem arg_of_drop {args : List CString} (h : args.drop i = a :: rest) :
    args[i]? = some a ∧ args.drop (i + 1) = rest := by
  constructor
  · rw [← Nat.add_zero i, ← List.getElem?_drop, h]
    rfl
  · rw [← List.drop_drop, h]
    rfl

theorem length_of_drop {args : List CString} (h : args.drop i = a :: rest) :
    args.length = i + rest.length + 1 := by
  have hlength := congrArg List.length h
  rw [List.length_drop, List.length_cons] at hlength
  omega

/-- The switch, where the loop behind it is known. -/
theorem optionSwitch_ends (hdrop : env.argv.drop argidx = a :: rest)
    (hopt : a.char 0 = '-' ∨ a.char 0 = '/')
    (hnext : ∀ argidx' o, argidx < argidx' → argidx' ≤ env.argv.length →
      LoopEnds env n (next argidx' o) o s (scan (env.argv.drop argidx'))) :
    LoopEnds env n (optionSwitch next argidx o (a.char 1)) o s (scan (a :: rest)) := by
  have hlength := length_of_drop hdrop
  obtain ⟨-, hrest⟩ := arg_of_drop hdrop
  have hkind : argKind a = optionKind (a.char 1) := if_pos hopt
  cases hletter : optionKind (a.char 1) with
  | data => exact absurd hletter optionKind_ne_data
  | flag item =>
    rw [scan_cons_flag (hkind.trans hletter), optionSwitch_flag hletter, ← hrest]
    exact .cons (hnext _ _ (by omega) (by omega))
  | value item =>
    cases rest with
    | nil =>
      have htruncated : scan [a] = .truncated := by rw [scan, hkind, hletter]
      have hend : argidx + 1 = env.argv.length := hlength.symm
      obtain ⟨k, hcall⟩ := optionSwitch_value_eq_call hletter next argidx o
      rw [htruncated, hcall, hend]
      exact ⟨k, .refl⟩
    | cons v rest =>
      rw [List.length_cons] at hlength
      obtain ⟨hv, hrest⟩ := arg_of_drop hrest
      rw [scan_cons_value (hkind.trans hletter), ← hrest]
      exact .cons (.trans (leads_optionSwitch_value hletter hv) (hnext _ _ (by omega) (by omega)))
  | other =>
    have husage : scan (a :: rest) = .usage := by rw [scan, hkind, hletter]
    rw [husage]
    exact leads_optionSwitch_other hletter

/-- The index moves forward, so that the bound is not met. -/
theorem optionLoop_ends (hle : argidx ≤ env.argv.length)
    (hbound : env.argv.length < argidx + bound) :
    LoopEnds env n (optionLoop env.argv.length bound argidx o) o s
      (scan (env.argv.drop argidx)) := by
  induction bound generalizing argidx o with
  | zero => omega
  | succ bound ih =>
    cases hdrop : env.argv.drop argidx with
    | nil =>
      have hend : env.argv.length ≤ argidx := List.drop_eq_nil_iff.mp hdrop
      obtain rfl : argidx = env.argv.length := Nat.le_antisymm hle hend
      rw [optionLoop, if_neg (Nat.lt_irrefl _)]
      exact .refl
    | cons a rest =>
      have hlength := length_of_drop hdrop
      obtain ⟨harg, -⟩ := arg_of_drop hdrop
      have hlt : argidx < env.argv.length := by omega
      rw [optionLoop, if_pos hlt]
      apply LoopEnds.trans ((leads_readArg harg).seq .refl)
      split
      · next hopt =>
        apply LoopEnds.trans ((leads_readArg harg).seq .refl)
        apply optionSwitch_ends hdrop hopt
        intro argidx' o' hgt hle'
        exact ih hle' (by omega)
      · next hdata =>
        have hline : scan (a :: rest) = .line ([], a :: rest) := by
          rw [scan, argKind, if_neg hdata]
        have hindex : env.argv.length - (a :: rest).length = argidx := by
          rw [List.length_cons]
          omega
        rw [hline, LoopEnds, hindex]
        exact .refl

/-! ## The data loop -/

/-- The bytes where values are stored from an index on. -/
def stored (bytes : Nat → BitVec 8) : (byteidx : Nat) → List (BitVec 8) → Nat → BitVec 8
  | _, [] => bytes
  | byteidx, value :: values => stored (Function.update bytes byteidx value) (byteidx + 1) values

theorem stored_of_lt {bytes : Nat → BitVec 8} {byteidx k : Nat} {values : List (BitVec 8)}
    (h : k < byteidx) : stored bytes byteidx values k = bytes k := by
  induction values generalizing bytes byteidx with
  | nil => rfl
  | cons value values ih =>
    rw [stored, ih (Nat.lt_succ_of_lt h), Function.update_of_ne (Nat.ne_of_lt h)]

theorem map_stored (bytes : Nat → BitVec 8) (byteidx : Nat) (values : List (BitVec 8)) :
    (List.range' byteidx values.length).map (stored bytes byteidx values) = values := by
  induction values generalizing bytes byteidx with
  | nil => rfl
  | cons value values ih =>
    rw [List.length_cons, List.range'_succ, List.map_cons, stored, ih,
      stored_of_lt (Nat.lt_succ_self byteidx), Function.update_self]

theorem leads_storeData {k : Nat} {value : BitVec 8} {shown : Bool} {bytes : Nat → BitVec 8}
    (hk : k < n) :
    Leads env n (RwOp.storeData k value).perform ⟨shown, some ⟨n, bytes⟩⟩ (.ret ())
      ⟨shown, some ⟨n, Function.update bytes k value⟩⟩ :=
  Prog.Leads.perform hk (if_pos hk)

theorem leads_dataLoop {data : List CString} {byteidx : Nat} {shown : Bool}
    {bytes : Nat → BitVec 8} (hdrop : env.argv.drop argidx = data)
    (hle : byteidx + data.length ≤ n) :
    Leads env n (dataLoop data.length argidx byteidx) ⟨shown, some ⟨n, bytes⟩⟩ (.ret ())
      ⟨shown, some ⟨n, stored bytes byteidx (data.map dataByte)⟩⟩ := by
  induction data generalizing argidx byteidx bytes with
  | nil => exact .refl
  | cons a data ih =>
    obtain ⟨harg, hrest⟩ := arg_of_drop hdrop
    rw [List.length_cons] at hle
    rw [List.length_cons, dataLoop]
    refine (leads_readArg harg).seq ((leads_storeData (by omega)).seq ?_)
    exact ih hrest (by omega)

/-! ## Behind the options -/

theorem leads_allocateBuffer {size alignment : Nat} {r : Bool} (hsize : size ≠ 0)
    (hr : env.malloc size (env.alignment alignment) = r) :
    Leads env n (allocateBuffer size alignment) s (.ret r)
      { s with buffer := if r then some ⟨size, env.fresh⟩ else none } := by
  subst hr
  unfold allocateBuffer RwEnv.alignment
  rw [if_neg hsize]
  split
  · have hpage : Leads env n RwOp.getSystemInfo.perform s (.ret env.pageSize) s :=
      Prog.Leads.perform trivial rfl
    exact hpage.seq (Prog.Leads.perform trivial rfl)
  · exact Prog.Leads.perform trivial rfl

/-- The size is the number of the arguments that are left. -/
theorem size_eq {argc argidx rest : Nat} (hargc : argc < 0x80000000) (h : argc = argidx + rest) :
    BitVec.ofNat 32 argc - BitVec.ofNat 32 argidx = BitVec.ofNat 32 rest ∧
      (BitVec.ofNat 32 rest).toNat = rest := by
  have hrest : (BitVec.ofNat 32 rest).toNat = rest := by
    rw [BitVec.toNat_ofNat, Nat.mod_eq_of_lt (by omega)]
  refine ⟨BitVec.eq_of_toNat_eq ?_, hrest⟩
  rw [hrest, BitVec.toNat_sub, BitVec.toNat_ofNat, BitVec.toNat_ofNat]
  omega

theorem parseData_nil (argc : Nat) (o : Options) : parseData argc argc o = .ret (some o) :=
  if_neg fun h => h rfl

section Data

variable {data : List CString} (hne : data ≠ [])
  (hlength : env.argv.length = argidx + data.length)

include hne hlength

theorem leads_parseData_read (hread : o.direction = .c2h) :
    Leads env n (parseData env.argv.length argidx o) s (.ret none)
      { s with usageShown := true } := by
  have hleft : argidx ≠ env.argv.length := by
    have := List.length_pos_iff.mpr hne
    omega
  have hdirection : ¬ o.direction = .h2c := by
    rw [hread]
    nofun
  rw [parseData, if_pos hleft, if_neg hdirection]
  exact leads_usage.seq .refl

theorem leads_parseData_write {r : Bool} (hwrite : o.direction = .h2c)
    (hmalloc : env.malloc data.length (env.alignment o.alignment) = r) :
    Leads env n (parseData env.argv.length argidx o) s
      (dataLoop data.length argidx 0 >>= fun _ =>
        return some { o with size := BitVec.ofNat 32 data.length, data := r })
      { s with buffer := if r then some ⟨data.length, env.fresh⟩ else none } := by
  have hpos := List.length_pos_iff.mpr hne
  have hleft : argidx ≠ env.argv.length := by omega
  have hrest : env.argv.length - argidx = data.length := by omega
  obtain ⟨hsize, hnat⟩ := size_eq env.argv_lt hlength
  have hallocate : Leads env n
      (allocateBuffer (BitVec.ofNat 32 data.length).toNat o.alignment) s (.ret r)
      { s with buffer := if r then some ⟨data.length, env.fresh⟩ else none } := by
    rw [hnat]
    exact leads_allocateBuffer (Nat.ne_of_gt hpos) hmalloc
  rw [parseData, if_pos hleft, if_pos hwrite, hsize, hrest]
  exact hallocate.seq .refl

end Data

/-- The data loop of a line whose data begins at `argidx`. -/
theorem leads_dataLoop_start {data : List CString} {r : Options}
    (hdrop : env.argv.drop argidx = data) :
    Leads env data.length (dataLoop data.length argidx 0 >>= fun _ => return some r)
      { s with buffer := some ⟨data.length, env.fresh⟩ } (.ret (some r))
      { s with buffer := some ⟨data.length, stored env.fresh 0 (data.map dataByte)⟩ } :=
  (leads_dataLoop hdrop (Nat.le_of_eq (Nat.zero_add _))).seq .refl

/-- The first byte is stored wherever the pointer leads. -/
theorem dataLoop_leads_store {data : List CString} {r : Options} (hne : data ≠ [])
    (hdrop : env.argv.drop argidx = data) :
    ∃ value k, Leads env n (dataLoop data.length argidx 0 >>= fun _ => return some r) s
      (.call (.storeData 0 value) k) s := by
  cases data with
  | nil => exact absurd rfl hne
  | cons a data =>
    obtain ⟨harg, -⟩ := arg_of_drop hdrop
    have hnumber : Leads env n (argNumber 32 argidx) s (.ret (strtoul 32 a)) s :=
      leads_readArg harg
    exact ⟨_, _, (hnumber.seq .refl).bind _⟩

/-! ## The routine -/

/-- What the routine makes of a line. If there is no memory for the data, it stores the first byte
all the same. -/
def LineEnds (env : RwEnv) (p : RwProg (Option Options)) (line : CommandLine) : Prop :=
  if line.data = [] then Leads env 0 p .start (.ret (some line.options)) .start
  else if env.malloc line.data.length (env.alignment line.before.alignment) then
    Leads env line.data.length p .start (.ret (some line.options))
      ⟨false, some ⟨line.data.length, stored env.fresh 0 (line.data.map dataByte)⟩⟩
  else ∃ value k, Leads env line.data.length p .start (.call (.storeData 0 value) k) .start

/-- What the routine comes to, where the vector is scanned so. -/
def ParseEnds (env : RwEnv) (p : RwProg (Option Options)) : Scan CommandLine → Prop
  | .usage => Leads env 0 p .start (.ret none) ⟨true, none⟩
  | .truncated => ∃ k, Leads env 0 p .start (.call (.arg env.argv.length) k) .start
  | .line line => LineEnds env p line

theorem direction_foldl (items : List OptionItem) (o : Options) :
    (items.foldl OptionItem.apply o).direction = o.direction := by
  induction items generalizing o with
  | nil => rfl
  | cons item items ih =>
    rw [List.foldl_cons, ih]
    cases item <;> rfl

theorem ParseEnds.trans {p q : RwProg (Option Options)} {x : Scan CommandLine}
    (h : ∀ n, Leads env n p .start q .start) (hq : ParseEnds env q x) : ParseEnds env p x := by
  cases x with
  | usage => exact (h 0).trans hq
  | truncated =>
    obtain ⟨k, hk⟩ := hq
    exact ⟨k, (h 0).trans hk⟩
  | line line =>
    rw [ParseEnds, LineEnds] at hq ⊢
    split at hq
    · next hnil =>
      rw [if_pos hnil]
      exact (h 0).trans hq
    · next hne =>
      rw [if_neg hne]
      split at hq
      · next hmalloc =>
        rw [if_pos hmalloc]
        exact (h _).trans hq
      · next hmalloc =>
        obtain ⟨value, k, hk⟩ := hq
        rw [if_neg hmalloc]
        exact ⟨value, k, (h _).trans hk⟩

/-- The arguments behind the options. -/
theorem parseData_ends (line : CommandLine) (pre : List CString)
    (hargv : env.argv = pre ++ line.data) (hdata : line.data ≠ [] → line.direction = .h2c) :
    LineEnds env (parseData env.argv.length (env.argv.length - line.data.length) line.before)
      line := by
  have hlength : env.argv.length = pre.length + line.data.length := by
    rw [hargv, List.length_append]
  have hindex : env.argv.length - line.data.length = pre.length := by omega
  have hdrop : env.argv.drop pre.length = line.data := by rw [hargv, List.drop_left]
  have hdirection : line.before.direction = line.direction := direction_foldl ..
  rw [hindex, LineEnds, CommandLine.options]
  split
  · next hnil =>
    have hend : pre.length = env.argv.length := by
      rw [hlength, hnil]
      rfl
    rw [hend, parseData_nil]
    exact .refl
  · next hne =>
    have hwrite : line.before.direction = .h2c := hdirection.trans (hdata hne)
    split
    · next hmalloc =>
      exact (leads_parseData_write hne hlength hwrite hmalloc).trans (leads_dataLoop_start hdrop)
    · next hmalloc =>
      have hfailed := Bool.eq_false_iff.mpr hmalloc
      obtain ⟨value, k, hstore⟩ := dataLoop_leads_store hne hdrop
      exact ⟨value, k, (leads_parseData_write hne hlength hwrite hfailed).trans hstore⟩

theorem parseOptions_eq_call (argc bound : Nat) (device : CString) (direction : Direction) :
    ∃ k, parseOptions argc bound (some device) direction = .call (.arg 3) k := ⟨_, rfl⟩

/-- A vector with an address. -/
theorem parseOptions_ends {exeName device word address : CString} {direction : Direction}
    (hargv : env.argv = exeName :: device :: word :: address :: rest)
    (hword : word.chars = direction.word.chars) (hbound : env.argv.length ≤ bound) :
    ParseEnds env (parseOptions env.argv.length bound (some device) direction)
      (scanLine env.argv) := by
  have hlength : env.argv.length = rest.length + 4 := congrArg List.length hargv
  have haddress (n : Nat) :
      Leads env n (argNumber 64 3) .start (.ret (strtoul 64 address)) .start :=
    leads_readArg (congrArg (·[3]?) hargv)
  have hdrop : env.argv.drop 4 = rest := congrArg (List.drop 4) hargv
  have hscan := (congrArg scanLine hargv).trans (scanLine_address hword rest)
  have hloop (n : Nat) (o : Options) :
      LoopEnds env n (optionLoop env.argv.length bound 4 o) o .start (scan rest) := by
    rw [← hdrop]
    exact optionLoop_ends (by omega) (by omega)
  rw [hscan]
  cases hrest : scan rest with
  | usage =>
    rw [hrest] at hloop
    exact (haddress 0).seq ((hloop 0 _).seq .refl)
  | truncated =>
    rw [hrest] at hloop
    obtain ⟨k, hcall⟩ := hloop 0 _
    exact ⟨_, (haddress 0).seq (hcall.bind _)⟩
  | line x =>
    obtain ⟨items, data⟩ := x
    rw [hrest] at hloop
    obtain ⟨opts, rfl, -, -⟩ := spell_of_scan hrest
    rw [Scan.bind]
    split
    · next hread =>
      have hindex : env.argv.length = env.argv.length - data.length + data.length := by
        rw [List.length_append] at hlength
        omega
      refine (haddress 0).seq ((hloop 0 _).seq ?_)
      exact leads_parseData_read hread.1 hindex ((direction_foldl items _).trans hread.2)
    · next hline =>
      have hdata : data ≠ [] → direction = .h2c := by
        intro hne
        cases direction with
        | h2c => rfl
        | c2h => exact absurd ⟨hne, rfl⟩ hline
      apply ParseEnds.trans fun n => (haddress n).seq ((hloop n _).seq .refl)
      exact parseData_ends ⟨exeName, device, direction, address, items, data⟩
        (exeName :: device :: word :: address :: opts) hargv hdata

theorem scanLine_of_length_lt {args : List CString} (h : args.length < 3) :
    scanLine args = .usage := by
  unfold scanLine
  split
  · next exeName device word rest =>
    simp only [List.length_cons] at h
    omega
  · rfl

theorem parse_ends (hbound : env.argv.length ≤ bound) :
    ParseEnds env (parse env.argv.length bound) (scanLine env.argv) := by
  by_cases hshort : env.argv.length < 3
  · rw [scanLine_of_length_lt hshort, parse, if_pos hshort]
    exact leads_usage.seq .refl
  · obtain ⟨exeName, device, word, rest, hargv⟩ : ∃ exeName device word rest,
        env.argv = exeName :: device :: word :: rest := by
      match hargv : env.argv with
      | exeName :: device :: word :: rest => exact ⟨exeName, device, word, rest, rfl⟩
      | [] | [_] | [_, _] => simp [hargv] at hshort
    have hdevice : env.argv[1]? = some device := congrArg (·[1]?) hargv
    have hword : env.argv[2]? = some word := congrArg (·[2]?) hargv
    rw [parse, if_neg hshort]
    cases hdirection : directionOf word with
    | none =>
      have hscan : scanLine env.argv = .usage := by
        rw [hargv]
        simp only [scanLine, hdirection]
      rw [hscan]
      refine (leads_arg hdevice).seq ((leads_readArg hword).seq ?_)
      rw [hdirection]
      exact leads_usage.seq .refl
    | some direction =>
      have hwords := directionOf_eq_some_iff.mp hdirection
      apply ParseEnds.trans fun n => (leads_arg hdevice).seq ((leads_readArg hword).seq .refl)
      rw [hdirection]
      cases rest with
      | nil =>
        have hlength : env.argv.length = 3 := congrArg List.length hargv
        obtain ⟨k, hcall⟩ := parseOptions_eq_call env.argv.length bound device direction
        have hscan : scanLine env.argv = .truncated := by
          rw [hargv]
          exact scanLine_word hwords
        rw [hscan]
        refine ⟨k, ?_⟩
        rw [hlength] at hcall ⊢
        exact hcall.symm ▸ .refl
      | cons address rest => exact parseOptions_ends hargv hwords hbound

end Runs

/-! ## Termination -/

/-- No answer keeps the routine in a loop. -/
abbrev Ends {α : Type} (p : RwProg α) : Prop := p.All (· ≠ .looping)

theorem usage_all : Ends usage := ⟨nofun, fun _ => ⟨nofun, fun _ => trivial⟩⟩

theorem readArg_all {α : Type} [Inhabited α] (i : Nat) (f : CString → α) : Ends (readArg i f) := by
  refine ⟨nofun, fun a => ?_⟩
  cases a with
  | none => exact ⟨nofun, fun _ => trivial⟩
  | some a => exact trivial

theorem optionSwitch_all {next : (argidx : Nat) → Options → RwProg (Option (Nat × Options))}
    {argidx : Nat} (hnext : ∀ argidx' o, argidx < argidx' → Ends (next argidx' o)) (o : Options)
    (c : Char) : Ends (optionSwitch next argidx o c) := by
  have hone : argidx < argidx + 1 := Nat.lt_succ_self argidx
  have htwo : argidx < argidx + 2 := Nat.lt_add_of_pos_right Nat.two_pos
  unfold optionSwitch
  split
  · exact usage_all.bind fun _ => trivial
  · exact usage_all.bind fun _ => trivial
  · exact hnext _ _ hone
  · exact hnext _ _ hone
  · exact ⟨nofun, fun _ => hnext _ _ htwo⟩
  · exact (readArg_all ..).bind fun _ => hnext _ _ htwo
  · exact (readArg_all ..).bind fun _ => hnext _ _ htwo
  · exact ⟨nofun, fun _ => usage_all.bind fun _ => trivial⟩

/-- The bound counts the tests of the condition, and each round moves the index. -/
theorem optionLoop_all {argc bound argidx : Nat} (hbound : argc < argidx + bound)
    (hpos : 0 < bound) (o : Options) : Ends (optionLoop argc bound argidx o) := by
  induction bound generalizing argidx o with
  | zero => cases hpos
  | succ bound ih =>
    rw [optionLoop]
    split
    · next hlt =>
      refine (readArg_all ..).bind fun first => ?_
      split
      · refine (readArg_all ..).bind fun letter => ?_
        apply optionSwitch_all
        intro argidx' o' hidx
        exact ih (by omega) (by omega) o'
      · exact trivial
    · exact trivial

theorem dataLoop_all (rest argidx byteidx : Nat) : Ends (dataLoop rest argidx byteidx) := by
  induction rest generalizing argidx byteidx with
  | zero => exact trivial
  | succ rest ih => exact (readArg_all ..).bind fun _ => ⟨nofun, fun _ => ih ..⟩

theorem allocateBuffer_all (size alignment : Nat) : Ends (allocateBuffer size alignment) := by
  by_cases hpage : alignment = 0
  · rw [allocateBuffer, if_pos hpage]
    exact ⟨nofun, fun _ => ⟨nofun, fun _ => trivial⟩⟩
  · rw [allocateBuffer, if_neg hpage]
    exact ⟨nofun, fun _ => trivial⟩

theorem parseData_all (argc argidx : Nat) (o : Options) : Ends (parseData argc argidx o) := by
  unfold parseData
  split
  · split
    · exact (allocateBuffer_all _ _).bind fun _ => (dataLoop_all ..).bind fun _ => trivial
    · exact usage_all.bind fun _ => trivial
  · exact trivial

theorem parseOptions_all {argc bound : Nat} (hlong : 3 ≤ argc) (hbound : argc ≤ bound)
    (device : Option CString) (direction : Direction) :
    Ends (parseOptions argc bound device direction) := by
  refine (readArg_all ..).bind fun address => ?_
  refine (optionLoop_all (by omega) (by omega) _).bind fun parsed => ?_
  cases parsed with
  | none => exact trivial
  | some x => exact parseData_all ..

/-- Whatever the vector holds, the loops of the routine end. -/
theorem parse_all {argc bound : Nat} (hbound : argc ≤ bound) : Ends (parse argc bound) := by
  unfold parse
  split
  · exact usage_all.bind fun _ => trivial
  · next hlong =>
    refine ⟨nofun, fun device => (readArg_all ..).bind fun direction => ?_⟩
    cases direction with
    | none => exact usage_all.bind fun _ => trivial
    | some direction => exact parseOptions_all (Nat.le_of_not_lt hlong) hbound device direction

/-! ## The exact condition -/

section

variable {env : RwEnv} {n bound : Nat} {r : Option Options} {s : RwWorld} {line : CommandLine}

/-- A run that returns inside the vector and the buffer. -/
theorem ParseRight.of_leads
    (h : Leads env n (parse env.argv.length bound) .start (.ret r) s)
    (hbuffer : 0 < n → ∃ b, s.buffer = some b ∧ b.size = n) (hparsed : ParsedAs env.argv s r) :
    ParseRight env bound where
  args _ hi := h.all_trace _ hi
  ends hlooping := h.all_trace _ hlooping
  returns := by
    refine ⟨r, s, h.exec, hparsed, fun k value hstore => ?_⟩
    have hk : k < n := h.all_trace _ hstore
    obtain ⟨b, hb, rfl⟩ := hbuffer (Nat.zero_lt_of_lt hk)
    exact ⟨b, hb, hk⟩

/-- The line that a vector spells is unique. -/
theorem Spells.unique (h : Spells env.argv line) (line' : CommandLine)
    (h' : Spells env.argv line') : line' = line := by
  rw [← scanLine_eq_line_iff] at h h'
  rw [h] at h'
  cases h'
  rfl

theorem not_parseRight_of_args {k : Option CString → RwProg (Option Options)}
    (h : Leads env n (parse env.argv.length bound) .start (.call (.arg env.argv.length) k) s) :
    ¬ ParseRight env bound :=
  fun hright => Nat.lt_irrefl _ (hright.args _ h.mem_trace)

theorem not_parseRight_of_store {value : BitVec 8} {k : Unit → RwProg (Option Options)}
    (h : Leads env n (parse env.argv.length bound) .start (.call (.storeData 0 value) k) .start) :
    ¬ ParseRight env bound := by
  intro hright
  obtain ⟨r, s, hrun, -⟩ := hright.returns
  rw [RwEnv.run, h.exec] at hrun
  cases hrun

/-- A vector that spells a line. -/
theorem parseRight_iff_of_line (hbound : env.argv.length ≤ bound) (hline : Spells env.argv line) :
    ParseRight env bound ↔ (line.data ≠ [] → line.Allocates env) := by
  have hends : LineEnds env (parse env.argv.length bound) line := by
    have hends := parse_ends hbound
    rwa [scanLine_eq_line_iff.mpr hline] at hends
  have hparsed {s : RwWorld} (hshown : s.usageShown = false) (hfilled : line.Filled s.buffer) :
      ParsedAs env.argv s (some line.options) :=
    ⟨hshown, line, hline, hline.unique, rfl, hfilled⟩
  rw [LineEnds] at hends
  split at hends
  · next hnil =>
    have hfilled : line.Filled none := by
      rw [CommandLine.Filled, if_pos hnil]
      rfl
    exact iff_of_true (.of_leads hends nofun (hparsed rfl hfilled)) fun hne => absurd hnil hne
  · next hne =>
    split at hends
    · next hmalloc =>
      refine iff_of_true ?_ fun _ => hmalloc
      refine .of_leads hends (fun _ => ⟨_, rfl, rfl⟩) (hparsed rfl ?_)
      rw [CommandLine.Filled, if_neg hne]
      refine ⟨_, rfl, ?_⟩
      have hmap := map_stored env.fresh 0 (line.data.map dataByte)
      rwa [List.length_map, ← List.range_eq_range'] at hmap
    · next hmalloc =>
      obtain ⟨value, k, hstore⟩ := hends
      exact iff_of_false (not_parseRight_of_store hstore) fun h => hmalloc (h hne)

end

/-- **The command line.** `parse` is right on a vector if and only if that does not end behind the
direction or behind an option that takes a value, and there is memory for its data. -/
theorem parse_right_iff (env : RwEnv) (bound : Nat) (hbound : env.argv.length ≤ bound) :
    ParseRight env bound ↔
      ¬ Truncated env.argv ∧
        ∀ line, Spells env.argv line → line.data ≠ [] → line.Allocates env := by
  have hends := parse_ends hbound
  cases hscan : scanLine env.argv with
  | usage =>
    have hnone (line : CommandLine) : ¬ Spells env.argv line := by
      rw [← scanLine_eq_line_iff, hscan]
      nofun
    have hwhole : ¬ Truncated env.argv := by
      rw [← scanLine_eq_truncated_iff, hscan]
      nofun
    rw [hscan] at hends
    exact iff_of_true (.of_leads hends nofun ⟨rfl, fun ⟨line, hline⟩ => hnone line hline⟩)
      ⟨hwhole, fun line hline => absurd hline (hnone line)⟩
  | truncated =>
    rw [hscan] at hends
    obtain ⟨k, hcall⟩ := hends
    exact iff_of_false (not_parseRight_of_args hcall) fun h =>
      h.1 (scanLine_eq_truncated_iff.mp hscan)
  | line line =>
    have hline := scanLine_eq_line_iff.mp hscan
    have hwhole : ¬ Truncated env.argv := by
      rw [← scanLine_eq_truncated_iff, hscan]
      nofun
    rw [parseRight_iff_of_line hbound hline]
    constructor
    · intro h
      refine ⟨hwhole, fun line' hline' => ?_⟩
      rw [hline.unique line' hline']
      exact h
    · exact fun h => h.2 line hline

/-- A call on a machine that always has memory. -/
def RwEnv.ofArgs (exeName : String) (args : List String) (h : args.length + 1 < 0x80000000) :
    RwEnv where
  argv := (exeName :: args).map .ofLiteral
  argv_pos := by simp
  argv_lt := by simpa using h
  pageSize := 4096
  malloc := fun _ _ => true
  fresh := fun _ => 0

/-- Two bytes for the user BAR, behind an option. -/
def writeEnv : RwEnv :=
  .ofArgs "xdma_rw" ["user", "write", "0x10", "-v", "0x11", "34"] (by decide)

theorem parse_right_write : ParseRight writeEnv 7 := by
  refine (parse_right_iff writeEnv 7 (by decide)).mpr ⟨?_, fun _ _ _ => rfl⟩
  rw [← scanLine_eq_truncated_iff]
  nofun

/-- A read without an address: the third argument is the last one. -/
def readEnv : RwEnv := .ofArgs "xdma_rw" ["user", "read"] (by decide)

theorem parse_reads_behind_vector : ¬ ParseRight readEnv 3 := by
  intro h
  have hread : .arg 3 ∈ readEnv.trace 3 := by decide
  exact Nat.lt_irrefl 3 (h.args 3 hread)

end Rw

end Xadma
