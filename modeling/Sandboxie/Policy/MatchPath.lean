import Sandboxie.Policy.Pattern

/-!
# Matching a path against the rule lists (`process_util.c`)

`Process_MatchPath` copies the path, up to its first NUL, into a scratch buffer with two
spare NULs, lower-cases it, and scans the closed list and then the open list; a pattern
that does not match the path is tried again with a backslash written over the first spare
NUL, which is then put back. `Process_MatchPathEx` consults five lists in the order closed,
write, read, normal, open, each with `Pattern_MatchPathListEx` on one shared running best;
outside specificity mode the first three end the scan when they match.

* `scanPatterns_eq_find`: the scan with the scratch buffer finds the first pattern that
  matches the path or the path with a backslash, and leaves the buffer as it was.
* `Process_MatchPath_spec`: what `Process_MatchPath` reports, for every path.
* `Process_MatchPathEx_spec`: default flags when nothing beats the start rank; the first
  list that matches outside specificity mode; the list of the best match in it.
* `Process_CheckProcessName_spec`: the first `$:` entry of the open list that names the
  process or is `$:*`, and none when the process's name cannot be read.
-/

namespace Sandboxie

/-! ## `Process_MatchPath` -/

/-- A pattern matches the lowered path `p` as `Process_MatchPath` tries it: as it is, or,
when `p` does not end in a backslash, with one appended. -/
def matchesPath (pat : PATTERN) (p : List Char) : Bool :=
  Pattern_Match pat p || (p.getLast? != some '\\' && Pattern_Match pat (p ++ ['\\']))

/-- The scan of one list in `Process_MatchPath`: `path_lwr` is the scratch buffer and
`path_len` the length of the path in it. Returns the first pattern that matches, and the
buffer as the scan leaves it. -/
def scanPatterns (path_len : Nat) : List PATTERN → List Char → Option PATTERN × List Char
  | [], path_lwr => (none, path_lwr)
  | pat :: rest, path_lwr =>
    if Pattern_Match pat (path_lwr.take path_len) then (some pat, path_lwr)
    else if path_lwr.getD (path_len - 1) '\x00' != '\\' then
      let path_lwr := path_lwr.set path_len '\\'
      if Pattern_Match pat (path_lwr.take (path_len + 1)) then
        (some pat, path_lwr.set path_len '\x00')
      else scanPatterns path_len rest (path_lwr.set path_len '\x00')
    else scanPatterns path_len rest path_lwr

/-- The path `Process_MatchPath` and `Process_MatchPathEx` read: the first `path_len`
characters up to the first NUL (`wcslen` of the copy). -/
def readPath (path : List Char) (path_len : Nat) : List Char :=
  (path.take path_len).takeWhile (· != '\x00')

/-- `Process_MatchPath (pool, path, path_len, open_list, closed_list, &is_open, &is_closed)`:
the source of the pattern found, `is_open` and `is_closed`. -/
def Process_MatchPath (path : List Char) (path_len : Nat) (open_list closed_list : List PATTERN) :
    Option (List Char) × Bool × Bool :=
  let path_lwr := readPath path path_len
  let path_len := path_lwr.length
  if path_len = 0 then (none, false, false)
  else
    let path_lwr := wcsLower (path_lwr ++ ['\x00', '\x00'])
    match scanPatterns path_len closed_list path_lwr with
    | (some pat, _) => (some (Pattern_Source pat), false, true)
    | (none, path_lwr) =>
      match scanPatterns path_len open_list path_lwr with
      | (some pat, _) => (some (Pattern_Source pat), true, false)
      | (none, _) => (none, false, false)

section Buffer

variable {p : List Char} (hp : p ≠ [])

theorem buffer_take : (p ++ ['\x00', '\x00']).take p.length = p := by simp

theorem buffer_last : (p ++ ['\x00', '\x00']).getD (p.length - 1) '\x00' = p.getLast hp := by
  obtain ⟨q, c, rfl⟩ : ∃ q c, p = q ++ [c] :=
    ⟨p.dropLast, p.getLast hp, (List.dropLast_append_getLast hp).symm⟩
  have hidx : (q ++ [c]).length - 1 = q.length := by simp
  rw [List.getD_eq_getElem?_getD, hidx, List.append_assoc, List.getElem?_append_right le_rfl]
  simp

theorem buffer_set_backslash :
    (p ++ ['\x00', '\x00']).set p.length '\\' = p ++ ['\\', '\x00'] := by
  simp [List.set_append_right]

theorem buffer_restore : (p ++ ['\\', '\x00']).set p.length '\x00' = p ++ ['\x00', '\x00'] := by
  simp [List.set_append_right]

theorem buffer_take_backslash : (p ++ ['\\', '\x00']).take (p.length + 1) = p ++ ['\\'] := by
  simp [List.take_append_eq_append_take]

include hp in
theorem matchesPath_iff (pat : PATTERN) :
    matchesPath pat p = true ↔ Pattern_Match pat p = true ∨
      ((p.getLast hp != '\\') = true ∧ Pattern_Match pat (p ++ ['\\']) = true) := by
  have hlast : (p.getLast? != some '\\') = (p.getLast hp != '\\') := by
    rw [List.getLast?_eq_getLast p hp, Bool.eq_iff_iff]
    simp [bne_iff_ne]
  simp [matchesPath, hlast]

include hp in
/-- The scan of a list: the first pattern that matches, the buffer left as it was. -/
theorem scanPatterns_eq_find :
    ∀ pats : List PATTERN, scanPatterns p.length pats (p ++ ['\x00', '\x00']) =
      (pats.find? (matchesPath · p), p ++ ['\x00', '\x00'])
  | [] => rfl
  | pat :: rest => by
    have ih := scanPatterns_eq_find rest
    have hm := matchesPath_iff hp pat
    have hpos := @List.find?_cons_of_pos _ (matchesPath · p) pat rest
    have hneg := @List.find?_cons_of_neg _ (matchesPath · p) pat rest
    simp only [scanPatterns, buffer_take, buffer_last hp, buffer_set_backslash,
      buffer_take_backslash, buffer_restore]
    by_cases h1 : Pattern_Match pat p = true
    · rw [hpos (hm.mpr (.inl h1)), if_pos h1]
    by_cases h2 : (p.getLast hp != '\\') = true
    · by_cases h3 : Pattern_Match pat (p ++ ['\\']) = true
      · rw [hpos (hm.mpr (.inr ⟨h2, h3⟩)), if_neg h1, if_pos h2, if_pos h3]
      · rw [hneg (by tauto), if_neg h1, if_pos h2, if_neg h3, ih]
    · rw [hneg (by tauto), if_neg h1, if_neg h2, ih]

end Buffer

/-- `Process_MatchPath` on every path: nothing for a path that is empty up to its first NUL;
otherwise the first closed pattern that matches the lowered path or the path with a
backslash, else the first open one. -/
theorem Process_MatchPath_spec (path : List Char) (path_len : Nat)
    (open_list closed_list : List PATTERN) :
    let p := wcsLower (readPath path path_len)
    Process_MatchPath path path_len open_list closed_list =
      if p = [] then (none, false, false)
      else match closed_list.find? (matchesPath · p), open_list.find? (matchesPath · p) with
        | some pat, _ => (some pat.source, false, true)
        | none, some pat => (some pat.source, true, false)
        | none, none => (none, false, false) := by
  intro p
  by_cases h0 : readPath path path_len = []
  · simp [Process_MatchPath, p, h0]
  have hp : p ≠ [] := by simpa [p] using h0
  have hbuf : wcsLower (readPath path path_len ++ ['\x00', '\x00']) = p ++ ['\x00', '\x00'] := by
    simp [p]
  have hlen : (readPath path path_len).length = p.length := by simp [p]
  simp only [Process_MatchPath, hlen, List.length_eq_zero, hp, if_false, hbuf,
    scanPatterns_eq_find hp]
  cases closed_list.find? (matchesPath · p) with
  | some pat => rfl
  | none =>
    simp only [scanPatterns_eq_find hp]
    cases open_list.find? (matchesPath · p) <;> rfl

/-- The pattern that matches every path. -/
def matchAll : PATTERN := ⟨['*'], 0, 1, fun _ => some 0⟩

/-- A path that is empty up to its first NUL: a closed pattern matches it, and still
`Process_MatchPath` reports nothing. -/
theorem Process_MatchPath_empty_path :
    matchesPath matchAll (wcsLower (readPath ['\x00', 'a'] 2)) = true ∧
      Process_MatchPath ['\x00', 'a'] 2 [] [matchAll] = (none, false, false) := by
  decide

/-! ## `Process_MatchPathEx` -/

/-- The flags `Process_MatchPathEx` returns, one field per flag macro (the macros' values are
not in the sources, only their names); `{}` is 0. -/
structure MatchFlags where
  TRUE_PATH_OPEN : Bool := false
  TRUE_PATH_READ : Bool := false
  TRUE_PATH_CLOSED : Bool := false
  COPY_PATH_OPEN : Bool := false
  COPY_PATH_READ : Bool := false
  COPY_PATH_CLOSED : Bool := false
deriving DecidableEq, Repr

/-- `TRUE_PATH_CLOSED_FLAG | COPY_PATH_CLOSED_FLAG`. -/
def closedFlags : MatchFlags := { TRUE_PATH_CLOSED := true, COPY_PATH_CLOSED := true }

/-- `TRUE_PATH_CLOSED_FLAG | COPY_PATH_OPEN_FLAG`. -/
def writeFlags : MatchFlags := { TRUE_PATH_CLOSED := true, COPY_PATH_OPEN := true }

/-- `TRUE_PATH_READ_FLAG | COPY_PATH_READ_FLAG`. -/
def readFlags : MatchFlags := { TRUE_PATH_READ := true, COPY_PATH_READ := true }

/-- `TRUE_PATH_READ_FLAG | COPY_PATH_OPEN_FLAG`: normal mode. -/
def normalFlags : MatchFlags := { TRUE_PATH_READ := true, COPY_PATH_OPEN := true }

/-- `TRUE_PATH_OPEN_FLAG`. -/
def openFlags : MatchFlags := { TRUE_PATH_OPEN := true }

/-- What `Process_MatchPathEx` reads of the process. -/
structure PROCESS where
  file_block_network_files : Bool
  use_rule_specificity : Bool

/-- The running best before any list: `level = 3`, `match_len = 0`, and `wildc = -1` as a
`USHORT`. -/
def startRank : MatchRank := ⟨3, 0, 0xFFFF⟩

/-- The flags before any list is consulted: closed for a network path when network files
are blocked, normal mode otherwise. -/
def defaultFlags (proc : PROCESS) (path_code : Char) : MatchFlags :=
  if path_code = 'n' && proc.file_block_network_files then closedFlags else normalFlags

/-- One consultation of `Process_MatchPathEx`: a list, the flags it sets when it takes the
running best, and whether it then goes to `finish` outside specificity mode. -/
structure MatchStage where
  list : List PATTERN
  flags : MatchFlags
  finishes : Bool

/-- The five consultations in order: closed, write, read, normal, open. -/
def matchStages (normal_list open_list closed_list read_list write_list : List PATTERN) :
    List MatchStage :=
  [⟨closed_list, closedFlags, true⟩, ⟨write_list, writeFlags, true⟩,
    ⟨read_list, readFlags, true⟩, ⟨normal_list, normalFlags, false⟩,
    ⟨open_list, openFlags, false⟩]

/-- The consultations from the flags and running best so far. -/
def runStages (path_lwr : List Char) (use_rule_specificity : Bool) :
    List MatchStage → MatchFlags × MatchRank × Option (List Char) →
      MatchFlags × MatchRank × Option (List Char)
  | [], s => s
  | st :: rest, s =>
    let r := Pattern_MatchPathListEx path_lwr st.list s.2
    if r.1 then
      if st.finishes && !use_rule_specificity then (st.flags, r.2)
      else runStages path_lwr use_rule_specificity rest (st.flags, r.2)
    else runStages path_lwr use_rule_specificity rest (s.1, r.2)

/-- `Process_MatchPathEx (proc, path, path_len, path_code, normal_list, open_list,
closed_list, read_list, write_list, patsrc)`: the flags, and `*patsrc` as it leaves it. -/
def Process_MatchPathEx (proc : PROCESS) (path : List Char) (path_len : Nat) (path_code : Char)
    (normal_list open_list closed_list read_list write_list : List PATTERN)
    (patsrc : Option (List Char)) : MatchFlags × Option (List Char) :=
  let path_lwr := readPath path path_len
  if path_lwr.length = 0 then ({}, patsrc)
  else
    let r := runStages (wcsLower path_lwr) proc.use_rule_specificity
      (matchStages normal_list open_list closed_list read_list write_list)
      (defaultFlags proc path_code, startRank, patsrc)
    (r.1, r.2.2)

section Stages

variable (path : List Char) (spec : Bool)

/-- A list none of whose patterns beats the running best changes nothing. -/
theorem runStages_cons_unbeaten (st : MatchStage) (rest : List MatchStage)
    (s : MatchFlags × MatchRank × Option (List Char))
    (h : ∀ pat ∈ st.list, pat.beats path s.2.1 = false) :
    runStages path spec (st :: rest) s = runStages path spec rest s := by
  have htaken : (Pattern_MatchPathListEx path st.list s.2).1 = false := by
    rw [Pattern_MatchPathListEx_taken, List.any_eq_false]
    exact fun pat hpat => by simp [h pat hpat]
  rw [runStages, if_neg (by simp [htaken]),
    Pattern_MatchPathListEx_of_not_taken path st.list s.2 htaken]

/-- When no pattern of any list beats the running best, the flags stay as they were. -/
theorem runStages_unbeaten :
    ∀ (stages : List MatchStage) (s : MatchFlags × MatchRank × Option (List Char)),
      (∀ st ∈ stages, ∀ pat ∈ st.list, pat.beats path s.2.1 = false) →
        (runStages path spec stages s).1 = s.1
  | [], _, _ => rfl
  | st :: rest, s, h => by
    rw [runStages_cons_unbeaten path spec st rest s (h st (List.mem_cons_self _ _))]
    exact runStages_unbeaten rest s fun st' hst' => h st' (List.mem_cons_of_mem _ hst')

/-- Outside specificity mode, the first list whose patterns beat the running best decides,
when it goes to `finish`. -/
theorem runStages_first :
    ∀ (pre : List MatchStage) (st : MatchStage) (post : List MatchStage)
      (s : MatchFlags × MatchRank × Option (List Char)),
      (∀ st' ∈ pre, ∀ pat ∈ st'.list, pat.beats path s.2.1 = false) →
      st.list.any (·.beats path s.2.1) = true → st.finishes = true →
        (runStages path false (pre ++ st :: post) s).1 = st.flags
  | [], st, post, s, _, hst, hfin => by
    rw [List.nil_append, runStages, if_pos (by rw [Pattern_MatchPathListEx_taken]; exact hst),
      if_pos (by simp [hfin])]
  | st' :: pre, st, post, s, hpre, hst, hfin => by
    rw [List.cons_append,
      runStages_cons_unbeaten path false st' _ s (hpre st' (List.mem_cons_self _ _))]
    exact runStages_first pre st post s (fun st'' h => hpre st'' (List.mem_cons_of_mem _ h))
      hst hfin

/-- The running best a list leaves, when one of its patterns of rank `r` beats the best
before and none of its patterns beats `r`, is `r`. -/
theorem matchPathListEx_rank_eq {list : List PATTERN} {best : MatchRank × Option (List Char)}
    {pat : PATTERN} {r : MatchRank} (hpat : pat ∈ list) (hr : pat.rank? path = some r)
    (hbeat : r.better best.1 = true) (hmax : ∀ pat' ∈ list, pat'.beats path r = false) :
    (Pattern_MatchPathListEx path list best).2.1 = r := by
  have hun := Pattern_MatchPathListEx_unbeaten path list best pat hpat
  simp only [PATTERN.beats, hr] at hun
  rcases Pattern_MatchPathListEx_rank path list best with h | ⟨pat', hpat', hr'⟩
  · rw [h, hbeat] at hun; cases hun
  · have hnb := hmax pat' hpat'
    simp only [PATTERN.beats, hr'] at hnb
    rcases MatchRank.better_trichotomy r (Pattern_MatchPathListEx path list best).2.1
      with h | h | h
    · rw [h] at hun; cases hun
    · exact h.symm
    · rw [h] at hnb; cases hnb

/-- A list without a pattern of rank `r`, none better than `r`, leaves a running best that
`r` still beats. -/
theorem matchPathListEx_still_beaten {list : List PATTERN}
    {best : MatchRank × Option (List Char)} {r : MatchRank} (hbeat : r.better best.1 = true)
    (hmax : ∀ pat' ∈ list, pat'.beats path r = false)
    (hnone : ∀ pat' ∈ list, pat'.rank? path ≠ some r) :
    r.better (Pattern_MatchPathListEx path list best).2.1 = true := by
  rcases Pattern_MatchPathListEx_rank path list best with h | ⟨pat', hpat', hr'⟩
  · rwa [h]
  · have hnb := hmax pat' hpat'
    simp only [PATTERN.beats, hr'] at hnb
    rcases MatchRank.better_trichotomy r (Pattern_MatchPathListEx path list best).2.1
      with h | h | h
    · exact h
    · exact absurd (h ▸ hr') (hnone pat' hpat')
    · rw [h] at hnb; cases hnb

/-- In specificity mode, the list holding the first pattern of the best rank decides. -/
theorem runStages_best :
    ∀ (pre : List MatchStage) (st : MatchStage) (post : List MatchStage)
      (s : MatchFlags × MatchRank × Option (List Char)) (pat : PATTERN) (r : MatchRank),
      pat ∈ st.list → pat.rank? path = some r → r.better s.2.1 = true →
      (∀ st' ∈ pre ++ st :: post, ∀ pat' ∈ st'.list, pat'.beats path r = false) →
      (∀ st' ∈ pre, ∀ pat' ∈ st'.list, pat'.rank? path ≠ some r) →
        (runStages path true (pre ++ st :: post) s).1 = st.flags
  | [], st, post, s, pat, r, hpat, hr, hbeat, hmax, _ => by
    have hmax0 := hmax st (List.mem_cons_self _ _)
    have htaken : (Pattern_MatchPathListEx path st.list s.2).1 = true := by
      rw [Pattern_MatchPathListEx_taken, List.any_eq_true]
      exact ⟨pat, hpat, PATTERN.beats_iff.mpr ⟨r, hr, hbeat⟩⟩
    rw [List.nil_append, runStages, if_pos htaken, if_neg (by simp)]
    refine runStages_unbeaten path true post _ fun st' hst' pat' hpat' => ?_
    rw [matchPathListEx_rank_eq path hpat hr hbeat hmax0]
    exact hmax st' (List.mem_cons_of_mem _ hst') pat' hpat'
  | st0 :: pre, st, post, s, pat, r, hpat, hr, hbeat, hmax, hfirst => by
    have hbeat' := matchPathListEx_still_beaten path hbeat (hmax st0 (List.mem_cons_self _ _))
      (hfirst st0 (List.mem_cons_self _ _))
    have ih := fun fl => runStages_best pre st post (fl, (Pattern_MatchPathListEx path st0.list
      s.2).2) pat r hpat hr hbeat' (fun st' h => hmax st' (List.mem_cons_of_mem _ h))
      (fun st' h => hfirst st' (List.mem_cons_of_mem _ h))
    rw [List.cons_append, runStages]
    simp only [Bool.not_true, Bool.and_false, Bool.false_eq_true, if_false]
    split <;> exact ih _

end Stages

/-- `Process_MatchPathEx`: 0 on a path that is empty up to its first NUL; on any other path,
"matches" read as "matches with a rank better than the start rank", the default flags when
nothing matches; outside specificity mode, closed, then write, then read decide; in
specificity mode, the list holding the first pattern of the best rank decides. -/
theorem Process_MatchPathEx_spec (proc : PROCESS) (path : List Char) (path_len : Nat)
    (path_code : Char) (normal_list open_list closed_list read_list write_list : List PATTERN)
    (patsrc : Option (List Char)) :
    let p := wcsLower (readPath path path_len)
    let stages := matchStages normal_list open_list closed_list read_list write_list
    let flags := (Process_MatchPathEx proc path path_len path_code normal_list open_list
      closed_list read_list write_list patsrc).1
    (readPath path path_len = [] → flags = {}) ∧
    (readPath path path_len ≠ [] →
      ((∀ st ∈ stages, ∀ pat ∈ st.list, pat.beats p startRank = false) →
          flags = defaultFlags proc path_code) ∧
      (proc.use_rule_specificity = false →
        (closed_list.any (·.beats p startRank) = true → flags = closedFlags) ∧
        (closed_list.any (·.beats p startRank) = false →
          write_list.any (·.beats p startRank) = true → flags = writeFlags) ∧
        (closed_list.any (·.beats p startRank) = false →
          write_list.any (·.beats p startRank) = false →
          read_list.any (·.beats p startRank) = true → flags = readFlags)) ∧
      (proc.use_rule_specificity = true →
        ∀ pre st post (pat : PATTERN) (r : MatchRank), stages = pre ++ st :: post →
          pat ∈ st.list → pat.rank? p = some r → r.better startRank = true →
          (∀ st' ∈ stages, ∀ pat' ∈ st'.list, pat'.beats p r = false) →
          (∀ st' ∈ pre, ∀ pat' ∈ st'.list, pat'.rank? p ≠ some r) →
            flags = st.flags)) := by
  intro p stages flags
  refine ⟨fun hpath => by simp [flags, Process_MatchPathEx, hpath], fun hpath => ?_⟩
  have hflags : flags = (runStages p proc.use_rule_specificity stages
      (defaultFlags proc path_code, startRank, patsrc)).1 := by
    simp [flags, Process_MatchPathEx, hpath, p, stages]
  have hno : ∀ (l : List PATTERN), l.any (·.beats p startRank) = false →
      ∀ pat ∈ l, pat.beats p startRank = false := by
    intro l hl pat hpat
    simpa using List.any_eq_false.mp hl pat hpat
  refine ⟨fun h => hflags ▸ runStages_unbeaten p _ stages _ h, fun hspec => ?_,
    fun hspec pre st post pat r hst hpat hr hbeat hmax hfirst => ?_⟩
  · rw [hflags, hspec]
    refine ⟨fun hc => runStages_first p [] _ _ _ (by simp) hc rfl,
      fun hc hw => runStages_first p [⟨closed_list, closedFlags, true⟩] _ _ _ ?_ hw rfl,
      fun hc hw hr => runStages_first p [⟨closed_list, closedFlags, true⟩,
        ⟨write_list, writeFlags, true⟩] _ _ _ ?_ hr rfl⟩
    · simpa using hno _ hc
    · simpa using ⟨hno _ hc, hno _ hw⟩
  · rw [hflags, hspec, hst]
    exact runStages_best p pre st post _ pat r hpat hr hbeat (hst ▸ hmax) hfirst

/-- A process in normal mode with rule specificity on. -/
def specificProcess : PROCESS := ⟨false, true⟩

/-- In specificity mode a closed pattern that matches everything decides the path `a`, and the
empty path gets 0. -/
theorem Process_MatchPathEx_spec_a :
    (Process_MatchPathEx specificProcess [] 0 'f' [] [] [matchAll] [] [] none).1 = {} ∧
      (Process_MatchPathEx specificProcess ['a'] 1 'f' [] [] [matchAll] [] [] none).1 =
        closedFlags :=
  ⟨(Process_MatchPathEx_spec specificProcess [] 0 'f' [] [] [matchAll] [] [] none).1 rfl,
    (Process_MatchPathEx_spec specificProcess ['a'] 1 'f' [] [] [matchAll] [] [] none).2
      (by decide) |>.2.2 rfl [] _ _ matchAll ⟨0, 0, 1⟩ rfl (List.mem_singleton_self _) rfl rfl
      (by decide) (by simp)⟩

/-- A closed pattern of level 4: it matches and no other does, and still the default flags. -/
def levelFourClosed : PATTERN := ⟨['*'], 4, 1, fun _ => some 0⟩

/-- On a path empty up to its first NUL, `Process_MatchPathEx` returns 0, not the default
flags; and a closed pattern of level 4 that matches does not take the start rank. -/
theorem Process_MatchPathEx_not_default :
    (Process_MatchPathEx specificProcess [] 0 'f' [] [] [] [] [] none).1 = {} ∧
      defaultFlags specificProcess 'f' = normalFlags ∧ normalFlags ≠ {} ∧
      (levelFourClosed.rank? ['a']).isSome ∧
      (Process_MatchPathEx specificProcess ['a'] 1 'f' [] [] [levelFourClosed] [] [] none).1 =
        normalFlags := by
  decide

/-! ## `Process_CheckProcessName` -/

/-- `wcslen(src) >= 3 && src[0] == L'$' && src[1] == L':'`: a `$:` entry of the open list. -/
def isProcessNameEntry (src : List Char) : Bool :=
  decide (3 ≤ src.length) && src.take 2 == ['$', ':']

/-- The entry names the process `nptr` up to case, or is `$:*` (`src[2] == L'*'` followed
by the terminating NUL). -/
def namesProcess (nptr src : List Char) : Bool :=
  wcsicmp nptr (src.drop 2) == .eq || (src.getD 2 '\x00' == '*' && src.getD 3 '\x00' == '\x00')

/-- The scan of `Process_CheckProcessName` over the open list. `nptr` is the name
`Process_GetProcessName` reads at the first `$:` entry, `none` when it cannot, which ends the
scan. Returns the result and `*pSetting`. -/
def checkProcessNameLoop (nptr : Option (List Char)) : List PATTERN → Bool × Option (List Char)
  | [] => (false, none)
  | pat :: rest =>
    let src := Pattern_Source pat
    if isProcessNameEntry src then
      match nptr with
      | none => (false, none)
      | some n => if namesProcess n src then (true, some src) else checkProcessNameLoop nptr rest
    else checkProcessNameLoop nptr rest

/-- `Process_CheckProcessName (proc, open_paths, idProcess, pSetting)`. -/
def Process_CheckProcessName (open_paths : List PATTERN) (idProcess : Nat)
    (nptr : Option (List Char)) : Bool × Option (List Char) :=
  if idProcess = 0 then (false, none) else checkProcessNameLoop nptr open_paths

/-- The first `$:` entry among `srcs` that names the process `n`. -/
def findProcessEntry (n : List Char) (srcs : List (List Char)) : Option (List Char) :=
  srcs.find? fun src => isProcessNameEntry src && namesProcess n src

theorem checkProcessNameLoop_eq_find (nptr : Option (List Char)) :
    ∀ open_paths : List PATTERN,
      let e := nptr.bind fun n => findProcessEntry n (open_paths.map Pattern_Source)
      checkProcessNameLoop nptr open_paths = (e.isSome, e)
  | [] => by cases nptr <;> rfl
  | pat :: rest => by
    have ih := checkProcessNameLoop_eq_find nptr rest
    simp only [checkProcessNameLoop, findProcessEntry, List.map_cons, List.find?_cons] at ih ⊢
    cases hsrc : isProcessNameEntry (Pattern_Source pat) <;> cases nptr
    case false.none | false.some => simpa using ih
    case true.none => rfl
    case true.some n =>
      cases hn : namesProcess n (Pattern_Source pat)
      · simpa [hn] using ih
      · simp [hn]

/-- `Process_CheckProcessName` returns the first `$:` entry of the open list that names the
process up to case or is `$:*`, and succeeds exactly when there is one; it returns nothing
for the null process id, and nothing when the process's name cannot be read, not even for
`$:*`. -/
theorem Process_CheckProcessName_spec (open_paths : List PATTERN) (idProcess : Nat)
    (nptr : Option (List Char)) :
    let r := Process_CheckProcessName open_paths idProcess nptr
    r.1 = r.2.isSome ∧
      r.2 = if idProcess = 0 then none
        else nptr.bind fun n => findProcessEntry n (open_paths.map Pattern_Source) := by
  unfold Process_CheckProcessName
  split_ifs
  · exact ⟨rfl, rfl⟩
  · rw [checkProcessNameLoop_eq_find]
    exact ⟨rfl, rfl⟩

end Sandboxie
