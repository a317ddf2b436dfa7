import Sandboxie.Policy.Image

/-!
# Building the path lists (`process_util.c`)

`Process_GetPaths` hands each configured value of a path setting to `Process_AddPath`,
which strips the value's image matcher with `Process_MatchImageAndGetValue`, keeping the
match level in its local `Level`, and adds the rest with `Process_AddPath_2`. That expands
the value, copies it, for file, pipe, key and configuration settings without the duplicate
backslashes, appends a `*` unless the value has one, and compiles the copy at `Level` with
`Pattern_Create`. A drive wildcard `*:` or `?:` is added once for each drive letter.

* `Process_AddPath_adds`: `Process_AddPath` keeps the list and compiles every pattern it adds
  at the level the image matcher wrote, or, where it wrote none, at its uninitialised `Level`.
* `Process_AddPath_uninitialised_level`: `Process_MatchImageAndGetValue` writes no level for
  a value whose image matcher is empty (`,C:\x`, `!,C:\x`), and `Process_AddPath` compiles
  every pattern it adds at whatever its uninitialised `Level` held.
* `Process_AddPath_initialised_level`: for every other value, the list built does not depend
  on that `Level`, and every pattern added has a level of at most 3.
* `Process_AddPath_2_spec`: with `RemoveBackslashes`, the string compiled (or handed to the
  reparse translation) is the expanded value with each run of backslashes collapsed to
  one, followed by `*` when asked for and the value has none; it never holds two
  backslashes in a row.
-/

namespace Sandboxie

/-! ## Duplicate backslashes -/

/-- The copy loop of `Process_AddPath_2` with `RemoveBackslashes`: a `\` that another `\`
follows is skipped, every other character is copied. -/
def copyRemovingBackslashes : List Char → List Char
  | [] => []
  | c :: rest =>
    if c = '\\' ∧ rest.head? = some '\\' then copyRemovingBackslashes rest
    else c :: copyRemovingBackslashes rest

/-- Modelled from the spec (section 4.4), which strips duplicate path separators: each
maximal run of `\` replaced by a single one. -/
def collapseBackslashes : List Char → List Char
  | [] => []
  | c :: rest =>
    if c = '\\' then '\\' :: collapseBackslashes (rest.dropWhile (· = '\\'))
    else c :: collapseBackslashes rest
termination_by s => s.length
decreasing_by
  all_goals simp_wf
  · exact Nat.lt_succ_of_le (List.dropWhile_suffix _).length_le

/-- At a `\`, the copy loop skips the rest of the run and copies its last `\`. -/
theorem copyRemovingBackslashes_backslash :
    ∀ rest : List Char, copyRemovingBackslashes ('\\' :: rest) =
      '\\' :: copyRemovingBackslashes (rest.dropWhile (· = '\\'))
  | [] => rfl
  | c :: rest => by
    by_cases hc : c = '\\'
    · subst hc
      rw [copyRemovingBackslashes, if_pos ⟨rfl, rfl⟩, copyRemovingBackslashes_backslash rest]
      simp
    · simp [copyRemovingBackslashes, hc]

/-- The copy loop collapses every run of backslashes, wherever it stands. -/
theorem copyRemovingBackslashes_eq (s : List Char) :
    copyRemovingBackslashes s = collapseBackslashes s := by
  induction s using collapseBackslashes.induct with
  | case1 => rw [collapseBackslashes, copyRemovingBackslashes]
  | case2 rest ih =>
    rw [copyRemovingBackslashes_backslash, collapseBackslashes, if_pos rfl, ih]
  | case3 c rest hc ih =>
    rw [copyRemovingBackslashes, if_neg (fun h => hc h.1), collapseBackslashes, if_neg hc, ih]

/-- Two characters in a row are not both backslashes. -/
def NoDoubleBackslash (a b : Char) : Prop := ¬(a = '\\' ∧ b = '\\')

theorem head?_collapseBackslashes (s : List Char) :
    (collapseBackslashes s).head? = s.head? := by
  cases s with
  | nil => simp [collapseBackslashes]
  | cons c rest =>
    rw [collapseBackslashes]
    split_ifs with hc <;> simp [hc]

theorem chain_collapseBackslashes (s : List Char) :
    (collapseBackslashes s).Chain' NoDoubleBackslash := by
  induction s using collapseBackslashes.induct with
  | case1 => simp [collapseBackslashes]
  | case2 rest ih =>
    rw [collapseBackslashes, if_pos rfl]
    refine ih.cons' fun y hy => ?_
    -- what follows the run does not start with `\`
    rw [head?_collapseBackslashes] at hy
    have := List.head?_dropWhile_not (· = '\\') rest
    simp_all [NoDoubleBackslash]
  | case3 c rest hc ih =>
    rw [collapseBackslashes, if_neg hc]
    exact ih.cons' fun _ _ h => hc h.1

/-! ## `Process_AddPath_2` and `Process_AddPath` -/

/-- The process as `Process_AddPath` reads it: its box, its image name, and what
`File_TranslateReparsePoints` makes of a path, `none` when it finds nothing. -/
structure PathProc where
  box : BOX
  image_name : List Char
  File_TranslateReparsePoints : List Char → Option (List Char)

/-- The string `Process_AddPath_2` copies from the expansion: without duplicate backslashes
when asked, and with a `*` appended when asked and the expansion has none. -/
def addPathString (expand : List Char) (AddStar RemoveBackslashes : Bool) : List Char :=
  let tmp := if RemoveBackslashes then copyRemovingBackslashes expand else expand
  if AddStar && !expand.contains '*' then tmp ++ ['*'] else tmp

/-- `List_Insert_Before (list, NULL, pat)` when `AddFirst`, `List_Insert_After (list, NULL,
pat)` otherwise. -/
def insertPattern (AddFirst : Bool) (list : List PATTERN) (pat : PATTERN) : List PATTERN :=
  if AddFirst then pat :: list else list ++ [pat]

/-- `Process_AddPath_2 (proc, list, value, setting_name, AddFirst, AddStar,
RemoveBackslashes, CheckReparse, Reparsed, Level)`: whether it succeeds, the list, and what
it writes to `*Reparsed`, `none` when nothing. -/
def Process_AddPath_2 (proc : PathProc) (list : List PATTERN) (value : List Char)
    (AddFirst AddStar RemoveBackslashes CheckReparse : Bool) (Level : Nat) :
    Bool × List PATTERN × Option Bool :=
  match proc.box.Conf_Expand value with
  | none => (false, list, none)
  | some expand =>
    let tmp := addPathString expand AddStar RemoveBackslashes
    let (tmp, Reparsed) : List Char × Option Bool :=
      if CheckReparse then
        match proc.File_TranslateReparsePoints tmp with
        | some tmp2 => (tmp2, some (wcsicmp tmp tmp2 != .eq))
        | none => (tmp, some false)
      else (tmp, none)
    (true, insertPattern AddFirst list (Pattern_Create proc.box.patterns tmp Level), Reparsed)

/-- What `Process_AddPath` makes of the setting name. -/
structure AddPathOptions where
  RemoveBackslashes : Bool
  CheckReparse : Bool
  AddDrives : Bool

def Process_Normal : List Char := "Normal".toList
def Process_Open : List Char := "Open".toList
def Process_Read : List Char := "Read".toList
def Process_Write : List Char := "Write".toList
def Process_Closed : List Char := "Closed".toList

/-- The opening of `Process_AddPath`: after the `Normal`, `Closed`, `Write`, `Read` or `Open`
of the setting name, `Key` and `Conf` settings remove duplicate backslashes and `File` and
`Pipe` settings also check reparse points, both only with `AddStar`; `File` and `Pipe`
settings add drive letters. -/
def addPathOptions (setting_name : Option (List Char)) (AddStar : Bool) : AddPathOptions :=
  let none_ : AddPathOptions := ⟨false, false, false⟩
  match setting_name with
  | none => none_
  | some name =>
    let setting_name_ptr : Option (List Char) :=
      if wcsnicmpEq name Process_Normal 6 || wcsnicmpEq name Process_Closed 6 then
        some (name.drop 6)
      else if wcsnicmpEq name Process_Write 5 then some (name.drop 5)
      else if wcsnicmpEq name Process_Read 4 || wcsnicmpEq name Process_Open 4 then
        some (name.drop 4)
      else none
    match setting_name_ptr with
    | none => none_
    | some ptr =>
      if wcsnicmpEq ptr "Key".toList 3 || wcsnicmpEq ptr "Conf".toList 4 then
        ⟨AddStar, false, false⟩
      else if wcsnicmpEq ptr "File".toList 4 || wcsnicmpEq ptr "Pipe".toList 4 then
        ⟨AddStar, AddStar, true⟩
      else none_

/-- `Process_AddPath_2`, and again without the reparse check for the original path when it
found a reparse point. -/
def addPathAndOriginal (proc : PathProc) (o : AddPathOptions) (AddFirst AddStar : Bool)
    (Level : Nat) (list : List PATTERN) (value : List Char) : Bool × List PATTERN :=
  let (ok, list, Reparsed) :=
    Process_AddPath_2 proc list value AddFirst AddStar o.RemoveBackslashes o.CheckReparse Level
  if ok && o.CheckReparse && Reparsed == some true then
    let (ok, list, _) :=
      Process_AddPath_2 proc list value AddFirst AddStar o.RemoveBackslashes false Level
    (ok, list)
  else (ok, list)

/-- `Process_AddPath (proc, list, setting_name, AddFirst, value, AddStar)`: whether it
succeeds, and the list. `Level` is what its uninitialised local `Level` holds before
`Process_MatchImageAndGetValue` runs. -/
def Process_AddPath (proc : PathProc) (list : List PATTERN) (setting_name : Option (List Char))
    (AddFirst : Bool) (value : List Char) (AddStar : Bool) (Level : Nat) :
    Bool × List PATTERN :=
  let o := addPathOptions setting_name AddStar
  let r := Process_MatchImageAndGetValue proc.box value proc.image_name
  match r.1 with
  | none => (true, list)
  | some value =>
    let Level := r.2.getD Level
    let (value, AddStar) :=
      if o.RemoveBackslashes ∧ value.head? = some '|' then (value.tail, false)
      else (value, AddStar)
    let (ok, list) := addPathAndOriginal proc o AddFirst AddStar Level list value
    if ok ∧ o.AddDrives ∧ (value.head? = some '?' ∨ value.head? = some '*') ∧
        value.getD 1 '\x00' = ':' then
      (List.range 26).foldl (fun (acc : Bool × List PATTERN) k =>
          if acc.1 then
            addPathAndOriginal proc o AddFirst AddStar Level acc.2
              (Char.ofNat ('A'.toNat + k) :: value.tail)
          else acc)
        (true, list)
    else (ok, list)

/-! ## The string compiled -/

theorem chain_append_star {l : List Char} (h : l.Chain' NoDoubleBackslash) :
    (l ++ ['*']).Chain' NoDoubleBackslash :=
  List.chain'_append.2 ⟨h, List.chain'_singleton _, fun _ _ _ hy h => by simp [h.2] at hy⟩

/-- With `RemoveBackslashes`, the copy is the expansion with its runs of backslashes
collapsed, and a `*` when asked for and the expansion has none. -/
theorem addPathString_removeBackslashes (s : List Char) (AddStar : Bool) :
    addPathString s AddStar true =
      collapseBackslashes s ++ (if AddStar = true ∧ '*' ∉ s then ['*'] else []) := by
  unfold addPathString
  rw [if_pos rfl, copyRemovingBackslashes_eq]
  by_cases h : AddStar = true ∧ '*' ∉ s
  · rw [if_pos (by simpa using h), if_pos h]
  · rw [if_neg (by simpa using h), if_neg h, List.append_nil]

/-- Once the value expands, `Process_AddPath_2` succeeds and inserts the pattern compiled at
`Level` from the copy, or from its reparse translation when it checks one. -/
theorem Process_AddPath_2_of_expand (proc : PathProc) (list : List PATTERN)
    {value s : List Char} (AddFirst AddStar RemoveBackslashes CheckReparse : Bool) (Level : Nat)
    (hs : proc.box.Conf_Expand value = some s) :
    let tmp := addPathString s AddStar RemoveBackslashes
    (Process_AddPath_2 proc list value AddFirst AddStar RemoveBackslashes CheckReparse
        Level).1 = true ∧
      (Process_AddPath_2 proc list value AddFirst AddStar RemoveBackslashes CheckReparse
        Level).2.1 = insertPattern AddFirst list (Pattern_Create proc.box.patterns
          (if CheckReparse then (proc.File_TranslateReparsePoints tmp).getD tmp else tmp)
          Level) := by
  intro tmp
  unfold Process_AddPath_2
  rw [hs]
  cases CheckReparse
  · exact ⟨rfl, rfl⟩
  · dsimp only
    cases proc.File_TranslateReparsePoints tmp <;> exact ⟨rfl, rfl⟩

theorem Process_AddPath_2_spec (proc : PathProc) (list : List PATTERN) (value : List Char)
    (AddFirst AddStar CheckReparse : Bool) (Level : Nat) (s : List Char)
    (hs : proc.box.Conf_Expand value = some s) :
    let tmp := collapseBackslashes s ++ (if AddStar = true ∧ '*' ∉ s then ['*'] else [])
    addPathString s AddStar true = tmp ∧ tmp.Chain' NoDoubleBackslash ∧
      (Process_AddPath_2 proc list value AddFirst AddStar true CheckReparse Level).2.1 =
        insertPattern AddFirst list (Pattern_Create proc.box.patterns
          (if CheckReparse then (proc.File_TranslateReparsePoints tmp).getD tmp else tmp)
          Level) := by
  intro tmp
  have hstr : addPathString s AddStar true = tmp := addPathString_removeBackslashes s AddStar
  refine ⟨hstr, ?_, hstr ▸ (Process_AddPath_2_of_expand proc list AddFirst AddStar true
    CheckReparse Level hs).2⟩
  -- the collapsed copy has no double backslash, and a `*` keeps it so
  by_cases h : AddStar = true ∧ '*' ∉ s
  · simpa only [tmp, if_pos h] using chain_append_star (chain_collapseBackslashes s)
  · simpa only [tmp, if_neg h, List.append_nil] using chain_collapseBackslashes s

/-- A matcher where a source matches only its own text, over its whole length, with no
wildcards. -/
def literalPatterns : PatternLib :=
  ⟨fun source str => if str = source then some source.length else none, fun _ => 0⟩

/-- The process `a.exe`, whose box lists `a.exe,C:\x` for every setting, expands every value
to itself and matches patterns literally, and whose paths have no reparse points. -/
def samplePathProc : PathProc :=
  ⟨⟨[], fun _ _ => ["a.exe,C:\\x".toList], some, literalPatterns⟩, "a.exe".toList, fun _ => none⟩

theorem Process_AddPath_2_spec_sample :
    samplePathProc.box.Conf_Expand "C:\\\\x\\\\\\y".toList = some "C:\\\\x\\\\\\y".toList ∧
      collapseBackslashes "C:\\\\x\\\\\\y".toList ++
          (if true = true ∧ '*' ∉ "C:\\\\x\\\\\\y".toList then ['*'] else []) =
        "C:\\x\\y*".toList :=
  ⟨rfl, (Process_AddPath_2_spec samplePathProc [] _ false true false 0 _ rfl).1.symm.trans
    (by decide)⟩

/-! ## The level of every pattern added -/

/-- `list'` keeps every pattern of `list`, and compiled every pattern it adds at `Level`. -/
def AddsAtLevel (Level : Nat) (list list' : List PATTERN) : Prop :=
  list ⊆ list' ∧ ∀ q ∈ list', q ∈ list ∨ q.level = Level

theorem AddsAtLevel.refl (Level : Nat) (list : List PATTERN) : AddsAtLevel Level list list :=
  ⟨fun _ h => h, fun _ h => .inl h⟩

theorem AddsAtLevel.trans {Level : Nat} {a b c : List PATTERN} (h1 : AddsAtLevel Level a b)
    (h2 : AddsAtLevel Level b c) : AddsAtLevel Level a c :=
  ⟨h1.1.trans h2.1, fun q hq => (h2.2 q hq).elim (h1.2 q) .inr⟩

theorem mem_insertPattern {AddFirst : Bool} {list : List PATTERN} {pat q : PATTERN} :
    q ∈ insertPattern AddFirst list pat ↔ q = pat ∨ q ∈ list := by
  unfold insertPattern
  split <;> simp [or_comm]

theorem Process_AddPath_2_adds (proc : PathProc) (list : List PATTERN) (value : List Char)
    (AddFirst AddStar RemoveBackslashes CheckReparse : Bool) (Level : Nat) :
    AddsAtLevel Level list
      (Process_AddPath_2 proc list value AddFirst AddStar RemoveBackslashes CheckReparse
        Level).2.1 := by
  cases hs : proc.box.Conf_Expand value with
  | none => simp only [Process_AddPath_2, hs]; exact .refl _ _
  | some s =>
    rw [(Process_AddPath_2_of_expand proc list AddFirst AddStar RemoveBackslashes CheckReparse
      Level hs).2]
    exact ⟨fun _ h => mem_insertPattern.2 (.inr h),
      fun q hq => (mem_insertPattern.1 hq).symm.imp_right fun h => by rw [h]; rfl⟩

/-- After its first `Process_AddPath_2`, `addPathAndOriginal` only adds patterns at `Level`. -/
theorem addPathAndOriginal_extends (proc : PathProc) (o : AddPathOptions)
    (AddFirst AddStar : Bool) (Level : Nat) (list : List PATTERN) (value : List Char) :
    AddsAtLevel Level
      (Process_AddPath_2 proc list value AddFirst AddStar o.RemoveBackslashes o.CheckReparse
        Level).2.1
      (addPathAndOriginal proc o AddFirst AddStar Level list value).2 := by
  unfold addPathAndOriginal
  generalize Process_AddPath_2 proc list value AddFirst AddStar o.RemoveBackslashes
    o.CheckReparse Level = r
  obtain ⟨ok, l, Reparsed⟩ := r
  dsimp only
  split
  · have h2 := Process_AddPath_2_adds proc l value AddFirst AddStar o.RemoveBackslashes false Level
    generalize Process_AddPath_2 proc l value AddFirst AddStar o.RemoveBackslashes false
      Level = r at h2 ⊢
    exact h2
  · exact .refl _ _

theorem addPathAndOriginal_adds (proc : PathProc) (o : AddPathOptions) (AddFirst AddStar : Bool)
    (Level : Nat) (list : List PATTERN) (value : List Char) :
    AddsAtLevel Level list (addPathAndOriginal proc o AddFirst AddStar Level list value).2 :=
  (Process_AddPath_2_adds ..).trans (addPathAndOriginal_extends ..)

/-- The loop over the drive letters only adds patterns at `Level`. -/
theorem addDrives_adds (proc : PathProc) (o : AddPathOptions) (AddFirst AddStar : Bool)
    (Level : Nat) (list : List PATTERN) (value : List Char) (acc : Bool × List PATTERN)
    (h : AddsAtLevel Level list acc.2) :
    AddsAtLevel Level list ((List.range 26).foldl (fun (acc : Bool × List PATTERN) k =>
        if acc.1 then
          addPathAndOriginal proc o AddFirst AddStar Level acc.2
            (Char.ofNat ('A'.toNat + k) :: value.tail)
        else acc) acc).2 :=
  List.foldlRecOn (motive := fun acc => AddsAtLevel Level list acc.2) _ _ acc h
    fun acc hacc k _ => by
      dsimp only
      split
      · exact hacc.trans (addPathAndOriginal_adds ..)
      · exact hacc

/-- Once the image matcher hands back `v`, and the `|` check has left `v'`, `Process_AddPath`
keeps what `addPathAndOriginal` built from `v'`, and its drive loop adds patterns only at the
same level. -/
theorem Process_AddPath_extends (proc : PathProc) (list : List PATTERN)
    (setting_name : Option (List Char)) (AddFirst : Bool) {value v v' : List Char}
    {AddStar' : Bool} (AddStar : Bool) (Level : Nat)
    (hv : (Process_MatchImageAndGetValue proc.box value proc.image_name).1 = some v)
    (hp : (if (addPathOptions setting_name AddStar).RemoveBackslashes = true ∧
      v.head? = some '|' then (v.tail, false) else (v, AddStar)) = (v', AddStar')) :
    AddsAtLevel ((Process_MatchImageAndGetValue proc.box value proc.image_name).2.getD Level)
      (addPathAndOriginal proc (addPathOptions setting_name AddStar) AddFirst AddStar'
        ((Process_MatchImageAndGetValue proc.box value proc.image_name).2.getD Level) list v').2
      (Process_AddPath proc list setting_name AddFirst value AddStar Level).2 := by
  unfold Process_AddPath
  dsimp only
  rw [hv]
  dsimp only
  rw [hp]
  generalize addPathAndOriginal proc (addPathOptions setting_name AddStar) AddFirst AddStar'
    ((Process_MatchImageAndGetValue proc.box value proc.image_name).2.getD Level) list v' = r
  obtain ⟨ok, l⟩ := r
  dsimp only
  split
  · exact addDrives_adds _ _ _ _ _ _ _ (true, l) (.refl _ _)
  · exact .refl _ _

/-- `Process_AddPath` keeps the list and compiles every pattern it adds at the level
`Process_MatchImageAndGetValue` wrote, or, where it wrote none, at the uninitialised
`Level`. -/
theorem Process_AddPath_adds (proc : PathProc) (list : List PATTERN)
    (setting_name : Option (List Char)) (AddFirst : Bool) (value : List Char) (AddStar : Bool)
    (Level : Nat) :
    AddsAtLevel ((Process_MatchImageAndGetValue proc.box value proc.image_name).2.getD Level)
      list (Process_AddPath proc list setting_name AddFirst value AddStar Level).2 := by
  cases hv : (Process_MatchImageAndGetValue proc.box value proc.image_name).1 with
  | none => simp only [Process_AddPath, hv]; exact .refl _ _
  | some v =>
    rcases hp : (if (addPathOptions setting_name AddStar).RemoveBackslashes = true ∧
        v.head? = some '|' then (v.tail, false) else (v, AddStar)) with ⟨v', AddStar'⟩
    exact (addPathAndOriginal_adds ..).trans
      (Process_AddPath_extends proc list setting_name AddFirst AddStar Level hv hp)

/-- When the image matcher hands back a value that expands and does not start with `|`,
`Process_AddPath` adds at least one pattern. -/
theorem Process_AddPath_ne_nil (proc : PathProc) (list : List PATTERN)
    (setting_name : Option (List Char)) (AddFirst : Bool) {value v s : List Char}
    (AddStar : Bool) (Level : Nat)
    (hv : (Process_MatchImageAndGetValue proc.box value proc.image_name).1 = some v)
    (hbar : v.head? ≠ some '|') (hs : proc.box.Conf_Expand v = some s) :
    (Process_AddPath proc list setting_name AddFirst value AddStar Level).2 ≠ [] := by
  -- the first call inserts a pattern, and what follows keeps it
  have h1 := (addPathAndOriginal_extends proc (addPathOptions setting_name AddStar) AddFirst
    AddStar _ list v).trans
      (Process_AddPath_extends proc list setting_name AddFirst AddStar Level hv
        (if_neg fun h => hbar h.2))
  rw [(Process_AddPath_2_of_expand proc list AddFirst AddStar _ _ _ hs).2] at h1
  exact List.ne_nil_of_mem (h1.1 (mem_insertPattern.2 (.inl rfl)))

theorem Process_AddPath_uninitialised_level (proc : PathProc)
    (setting_name : Option (List Char)) (AddFirst AddStar : Bool) (Level : Nat) (s : List Char)
    (hs : proc.box.Conf_Expand "C:\\x".toList = some s) :
    ∀ value ∈ [",C:\\x".toList, "!,C:\\x".toList],
      Process_MatchImageAndGetValue proc.box value proc.image_name =
          (some "C:\\x".toList, none) ∧
        (Process_AddPath proc [] setting_name AddFirst value AddStar Level).2 ≠ [] ∧
        ∀ pat ∈ (Process_AddPath proc [] setting_name AddFirst value AddStar Level).2,
          pat.level = Level := by
  intro value hvalue
  have hr : Process_MatchImageAndGetValue proc.box value proc.image_name =
      (some "C:\\x".toList, none) := by
    simp only [List.mem_cons, List.mem_singleton, List.not_mem_nil, or_false] at hvalue
    rcases hvalue with rfl | rfl <;> rfl
  refine ⟨hr, Process_AddPath_ne_nil proc [] setting_name AddFirst AddStar Level
    (congrArg Prod.fst hr) (by decide) hs, fun pat hpat => ?_⟩
  have hadds := Process_AddPath_adds proc [] setting_name AddFirst value AddStar Level
  rw [hr] at hadds
  exact (hadds.2 pat hpat).resolve_left (List.not_mem_nil _)

/-- With a box that expands every value to itself, an `OpenFilePath` value `,C:\x` is
compiled at the uninitialised level, here 7. -/
theorem Process_AddPath_uninitialised_level_seven :
    samplePathProc.box.Conf_Expand "C:\\x".toList = some "C:\\x".toList ∧
      ∀ value ∈ [",C:\\x".toList, "!,C:\\x".toList],
        Process_MatchImageAndGetValue samplePathProc.box value samplePathProc.image_name =
            (some "C:\\x".toList, none) ∧
          (Process_AddPath samplePathProc [] (some "OpenFilePath".toList) false value true
            7).2 ≠ [] ∧
          ∀ pat ∈ (Process_AddPath samplePathProc [] (some "OpenFilePath".toList) false value
            true 7).2, pat.level = 7 :=
  ⟨rfl, Process_AddPath_uninitialised_level samplePathProc _ false true 7 _ rfl⟩

/-- A value whose image matcher is not empty comes back with a level written, if at all. -/
theorem Process_MatchImageAndGetValue_written (box : BOX) {value : List Char}
    (ImageName : List Char) (hne : ∀ rest, value ≠ ',' :: rest ∧ value ≠ '!' :: ',' :: rest)
    (hv : (Process_MatchImageAndGetValue box value ImageName).1.isSome) :
    ∃ l ≤ 3, (Process_MatchImageAndGetValue box value ImageName).2 = some l := by
  obtain ⟨hle, hnone⟩ := Process_MatchImageAndGetValue_level box value ImageName
  cases hl : (Process_MatchImageAndGetValue box value ImageName).2 with
  | none =>
    -- a value handed back with no level written has an empty image matcher
    obtain ⟨rest, h | h⟩ := (hnone hv).1 hl
    · exact absurd h (hne rest).1
    · exact absurd h (hne rest).2
  | some l => exact ⟨l, hle l hl, rfl⟩

theorem Process_AddPath_of_rejected (proc : PathProc) (list : List PATTERN)
    (setting_name : Option (List Char)) (AddFirst : Bool) {value : List Char} (AddStar : Bool)
    (Level : Nat) (hv : (Process_MatchImageAndGetValue proc.box value proc.image_name).1 = none) :
    Process_AddPath proc list setting_name AddFirst value AddStar Level = (true, list) := by
  simp [Process_AddPath, hv]

/-- With an image matcher that is not empty, every pattern `Process_AddPath` adds has a level
of at most 3. -/
theorem Process_AddPath_level_le (proc : PathProc) (list : List PATTERN)
    (setting_name : Option (List Char)) (AddFirst : Bool) (value : List Char) (AddStar : Bool)
    (Level : Nat) (hne : ∀ rest, value ≠ ',' :: rest ∧ value ≠ '!' :: ',' :: rest) :
    ∀ pat ∈ (Process_AddPath proc list setting_name AddFirst value AddStar Level).2,
      pat ∈ list ∨ pat.level ≤ 3 := by
  intro pat hpat
  cases hv : (Process_MatchImageAndGetValue proc.box value proc.image_name).1 with
  | none => rw [Process_AddPath_of_rejected _ _ _ _ _ _ hv] at hpat; exact .inl hpat
  | some w =>
    obtain ⟨l, hl, hw⟩ :=
      Process_MatchImageAndGetValue_written proc.box proc.image_name hne (by simp [hv])
    have hadds := (Process_AddPath_adds proc list setting_name AddFirst value AddStar Level).2
      pat hpat
    rw [hw] at hadds
    exact hadds.imp_right fun e => (e : pat.level = l) ▸ hl

/-- When the image matcher is not empty, what `Process_AddPath` builds does not depend on its
uninitialised `Level`, and every pattern it adds is at a level of at most 3. -/
theorem Process_AddPath_initialised_level (proc : PathProc) (list : List PATTERN)
    (setting_name : Option (List Char)) (AddFirst : Bool) (value : List Char) (AddStar : Bool)
    (Level Level' : Nat) (hne : ∀ rest, value ≠ ',' :: rest ∧ value ≠ '!' :: ',' :: rest) :
    Process_AddPath proc list setting_name AddFirst value AddStar Level =
        Process_AddPath proc list setting_name AddFirst value AddStar Level' ∧
      ∀ pat ∈ (Process_AddPath proc list setting_name AddFirst value AddStar Level).2,
        pat ∈ list ∨ pat.level ≤ 3 := by
  refine ⟨?_, Process_AddPath_level_le proc list setting_name AddFirst value AddStar Level hne⟩
  -- a value handed back comes with a level written, which replaces `Level`
  have hw := Process_MatchImageAndGetValue_written proc.box proc.image_name hne
  unfold Process_AddPath
  generalize Process_MatchImageAndGetValue proc.box value proc.image_name = r at hw ⊢
  rcases r with ⟨_ | v, l⟩
  · rfl
  · obtain ⟨l, -, rfl⟩ := hw rfl
    rfl

/-- `a.exe,C:\x` names the process, so it is compiled at level 0 whatever `Level` held, here
7. -/
theorem Process_AddPath_initialised_level_image :
    (∀ rest, "a.exe,C:\\x".toList ≠ ',' :: rest ∧ "a.exe,C:\\x".toList ≠ '!' :: ',' :: rest) ∧
      Process_AddPath samplePathProc [] (some "OpenFilePath".toList) false "a.exe,C:\\x".toList
          true 7 =
        Process_AddPath samplePathProc [] (some "OpenFilePath".toList) false "a.exe,C:\\x".toList
          true 0 ∧
      (Process_AddPath samplePathProc [] (some "OpenFilePath".toList) false "a.exe,C:\\x".toList
          true 7).2.map PATTERN.level = [0] :=
  have hne : ∀ rest, "a.exe,C:\\x".toList ≠ ',' :: rest ∧
      "a.exe,C:\\x".toList ≠ '!' :: ',' :: rest := fun _ => ⟨by simp, by simp⟩
  have hlevel : (Process_AddPath samplePathProc [] (some "OpenFilePath".toList) false
      "a.exe,C:\\x".toList true 7).2.map PATTERN.level = [0] := by
    have hs : splitAtComma "a.exe,C:\\x".toList = some ("a.exe".toList, "C:\\x".toList) := by
      decide
    rw [Process_AddPath, Process_MatchImageAndGetValue, hs]
    dsimp only
    generalize hm : Process_MatchImage samplePathProc.box _ _ _ 1 = m
    obtain rfl : m = true := by rw [← hm, Process_MatchImage]; decide
    decide
  ⟨hne, (Process_AddPath_initialised_level samplePathProc [] _ false _ true 7 0 hne).1, hlevel⟩

end Sandboxie
