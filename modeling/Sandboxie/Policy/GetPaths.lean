import Sandboxie.Policy.AddPath

/-!
# Building a rule list from the configuration (`process_util.c`)

`Process_GetPaths` reads the values of a path setting (`OpenFilePath`, `ClosedKeyPath`,
...) of a configuration section, index by index, and hands each to `Process_AddPath`, which
appends its patterns to the list. In a `Closed...` setting a value starting with `!` is
treated apart: it is skipped in `ClosedIpc...` settings for Sandboxie's own images, and for
images that come from the box, when `AlwaysCloseForBoxed` is on, only the text after its
first comma is used. The loop ends at the first value `Process_AddPath` fails on.

The patterns one value adds do not depend on the list they are appended to
(`Process_AddPath_attach`), so the list is a sequence of blocks, one a value.

* `Process_GetPaths_blocks`: `Process_GetPaths` appends the blocks the values add on their
  own, in configuration order, up to and including the first that fails, and succeeds
  exactly when none fails.
* `Process_GetPaths_expand_failure`: a value that is read and accepted by its image matcher
  but does not expand ends the build: `Process_GetPaths` fails with only the patterns of
  the values before it.
* `Process_GetPaths_levels`: when no value read has an empty image matcher, every pattern
  added has a level of at most 3.
-/

namespace Sandboxie

/-! ## What one call of `Process_AddPath` adds -/

/-- Where `Process_AddPath` puts what it adds: before the list with `AddFirst`, after it
otherwise. -/
def attachPatterns (AddFirst : Bool) (list added : List PATTERN) : List PATTERN :=
  if AddFirst then added ++ list else list ++ added

@[simp] theorem attachPatterns_nil (AddFirst : Bool) (added : List PATTERN) :
    attachPatterns AddFirst [] added = added := by
  cases AddFirst <;> simp [attachPatterns]

@[simp] theorem attachPatterns_nil_right (AddFirst : Bool) (list : List PATTERN) :
    attachPatterns AddFirst list [] = list := by
  cases AddFirst <;> simp [attachPatterns]

theorem attachPatterns_assoc (AddFirst : Bool) (list a b : List PATTERN) :
    attachPatterns AddFirst (attachPatterns AddFirst list a) b =
      attachPatterns AddFirst list (attachPatterns AddFirst a b) := by
  cases AddFirst <;> simp [attachPatterns]

theorem insertPattern_eq_attach (AddFirst : Bool) (list : List PATTERN) (pat : PATTERN) :
    insertPattern AddFirst list pat = attachPatterns AddFirst list [pat] := by
  cases AddFirst <;> rfl

/-- `Process_AddPath_2` adds the same pattern whatever the list holds. -/
theorem Process_AddPath_2_attach (proc : PathProc) (list : List PATTERN) (value : List Char)
    (AddFirst AddStar RemoveBackslashes CheckReparse : Bool) (Level : Nat) :
    Process_AddPath_2 proc list value AddFirst AddStar RemoveBackslashes CheckReparse Level =
      ((Process_AddPath_2 proc [] value AddFirst AddStar RemoveBackslashes CheckReparse Level).1,
        attachPatterns AddFirst list
          (Process_AddPath_2 proc [] value AddFirst AddStar RemoveBackslashes CheckReparse
            Level).2.1,
        (Process_AddPath_2 proc [] value AddFirst AddStar RemoveBackslashes CheckReparse
          Level).2.2) := by
  unfold Process_AddPath_2
  split
  · simp only [attachPatterns_nil_right]
  · cases CheckReparse
    · simp only [insertPattern_eq_attach, attachPatterns_nil, Bool.false_eq_true, if_false]
    · dsimp only
      split <;> simp only [insertPattern_eq_attach, attachPatterns_nil]

theorem addPathAndOriginal_attach (proc : PathProc) (o : AddPathOptions) (AddFirst AddStar : Bool)
    (Level : Nat) (list : List PATTERN) (value : List Char) :
    addPathAndOriginal proc o AddFirst AddStar Level list value =
      ((addPathAndOriginal proc o AddFirst AddStar Level [] value).1,
        attachPatterns AddFirst list (addPathAndOriginal proc o AddFirst AddStar Level [] value).2) := by
  unfold addPathAndOriginal
  rw [Process_AddPath_2_attach proc list]
  generalize Process_AddPath_2 proc [] value AddFirst AddStar o.RemoveBackslashes o.CheckReparse
    Level = r
  obtain ⟨ok, l, R⟩ := r
  dsimp only
  split
  · rw [Process_AddPath_2_attach proc (attachPatterns AddFirst list l),
      Process_AddPath_2_attach proc l, attachPatterns_assoc]
  · rfl

/-- One round of the drive-letter loop of `Process_AddPath`, as its body reads. -/
def driveStep (proc : PathProc) (o : AddPathOptions) (AddFirst AddStar : Bool) (Level : Nat)
    (value : List Char) (acc : Bool × List PATTERN) (k : Nat) : Bool × List PATTERN :=
  if acc.1 then
    addPathAndOriginal proc o AddFirst AddStar Level acc.2 (Char.ofNat ('A'.toNat + k) :: value.tail)
  else acc

/-- The loop over the drive letters of `Process_AddPath` adds the same patterns whatever the
list holds. -/
theorem addDrives_attach (proc : PathProc) (o : AddPathOptions) (AddFirst AddStar : Bool)
    (Level : Nat) (value : List Char) (list : List PATTERN) :
    ∀ (ks : List Nat) (ok : Bool) (l : List PATTERN),
      ks.foldl (driveStep proc o AddFirst AddStar Level value) (ok, attachPatterns AddFirst list l) =
        ((ks.foldl (driveStep proc o AddFirst AddStar Level value) (ok, l)).1,
          attachPatterns AddFirst list (ks.foldl (driveStep proc o AddFirst AddStar Level value)
            (ok, l)).2)
  | [], _, _ => rfl
  | k :: ks, ok, l => by
    cases ok
    · exact addDrives_attach proc o AddFirst AddStar Level value list ks false l
    · simp only [List.foldl_cons, driveStep, if_true]
      rw [addPathAndOriginal_attach proc o AddFirst AddStar Level (attachPatterns AddFirst list l),
        addPathAndOriginal_attach proc o AddFirst AddStar Level l, attachPatterns_assoc]
      exact addDrives_attach proc o AddFirst AddStar Level value list ks _ _

/-- `Process_AddPath` puts what it adds before or after the list, and what it adds does not
depend on the list. -/
theorem Process_AddPath_attach (proc : PathProc) (list : List PATTERN)
    (setting_name : Option (List Char)) (AddFirst : Bool) (value : List Char) (AddStar : Bool)
    (Level : Nat) :
    Process_AddPath proc list setting_name AddFirst value AddStar Level =
      ((Process_AddPath proc [] setting_name AddFirst value AddStar Level).1,
        attachPatterns AddFirst list
          (Process_AddPath proc [] setting_name AddFirst value AddStar Level).2) := by
  unfold Process_AddPath
  dsimp only
  split
  · simp
  · rcases (if (addPathOptions setting_name AddStar).RemoveBackslashes = true ∧
        _ = some '|' then _ else _ : List Char × Bool) with ⟨v, AddStar'⟩
    dsimp only
    rw [addPathAndOriginal_attach proc _ AddFirst AddStar' _ list]
    generalize addPathAndOriginal proc (addPathOptions setting_name AddStar) AddFirst AddStar' _ []
      v = r
    obtain ⟨ok, l⟩ := r
    dsimp only
    split
    · exact addDrives_attach _ _ _ _ _ _ list _ true l
    · rfl


/-! ## `Process_GetPaths` -/

/-- What `Process_GetPaths` and `Process_GetTemplatePaths` read of the process, beyond what
`Process_AddPath` reads. -/
structure GetPathsProc extends PathProc where
  image_sbie : Bool
  image_from_box : Bool
  always_close_for_boxed : Bool
  restrict_devices : Bool
  use_privacy_mode : Bool
  bAppCompartment : Bool

/-- `closed`: the setting name starts with `Closed`, up to case. -/
def isClosedSetting (setting_name : List Char) : Bool :=
  wcsnicmpEq setting_name Process_Closed 6

/-- `closed_ipc`: a `Closed` setting whose name goes on with `Ipc`, up to case. -/
def isClosedIpcSetting (setting_name : List Char) : Bool :=
  if isClosedSetting setting_name then wcsnicmpEq (setting_name.drop 6) "Ipc".toList 3 else false

/-- The value `Process_GetPaths` hands to `Process_AddPath`, `none` for its `continue`s: in a
closed setting a value starting with `!` is skipped for Sandboxie's images in an `Ipc`
setting, and cut after its first comma for images from the box when `always_close_for_boxed`
is set (skipped when it has no comma). -/
def closedValue (proc : GetPathsProc) (closed closed_ipc : Bool) (value : List Char) :
    Option (List Char) :=
  if closed ∧ value.head? = some '!' then
    if closed_ipc ∧ proc.image_sbie then none
    else if proc.image_from_box ∧ proc.always_close_for_boxed then
      (splitAtComma value).map Prod.snd
    else some value
  else some value

/-- The loop of `Process_GetPaths` over the values from configuration index `index` on.
`Level index` is what the uninitialised `Level` of the `Process_AddPath` call for the value
at `index` holds. -/
def getPathsLoop (proc : GetPathsProc) (setting_name : List Char) (AddStar closed closed_ipc : Bool)
    (Level : Nat → Nat) : Nat → List (List Char) → List PATTERN → Bool × List PATTERN
  | _, [], list => (true, list)
  | index, value :: values, list =>
    match closedValue proc closed closed_ipc value with
    | none => getPathsLoop proc setting_name AddStar closed closed_ipc Level (index + 1) values list
    | some value =>
      let (ok, list) := Process_AddPath proc.toPathProc list (some setting_name) false value
        AddStar (Level index)
      if ok then getPathsLoop proc setting_name AddStar closed closed_ipc Level (index + 1) values list
      else (false, list)

/-- `Process_GetPaths (proc, list, section_name, setting_name, AddStar)`: whether every value
was added, and the list. `Conf_Get (section_name, setting_name, index)` gives the values up
to the first NULL. -/
def Process_GetPaths (proc : GetPathsProc) (list : List PATTERN)
    (section_name setting_name : List Char) (AddStar : Bool) (Level : Nat → Nat) :
    Bool × List PATTERN :=
  getPathsLoop proc setting_name AddStar (isClosedSetting setting_name)
    (isClosedIpcSetting setting_name) Level 0 (proc.box.Conf_Get section_name setting_name) list

/-- `Process_GetTemplatePaths (proc, list, setting_name)`: the template sections, the
second to fourth only as the process asks. `Level section_name` is the uninitialised levels
of the `Process_GetPaths` call for that section. -/
def Process_GetTemplatePaths (proc : GetPathsProc) (list : List PATTERN)
    (setting_name : List Char) (Level : List Char → Nat → Nat) : Bool × List PATTERN :=
  let step (acc : Bool × List PATTERN) (sec : Bool × List Char) : Bool × List PATTERN :=
    if acc.1 && sec.1 then Process_GetPaths proc acc.2 sec.2 setting_name false (Level sec.2)
    else acc
  [(true, "TemplateDefaultPaths".toList), (proc.restrict_devices, "TemplateSModPaths".toList),
    (proc.use_privacy_mode, "TemplatePModPaths".toList),
    (proc.bAppCompartment, "TemplateAppCPaths".toList)].foldl step (true, list)

/-- `Process_GetConf (proc, setting)`. -/
def Process_GetConf (proc : PathProc) (setting : List Char) : Option (List Char) :=
  Process_GetConfEx proc.box proc.image_name setting

/-- `Process_GetConfEx_bool (box, image_name, setting, def)`: the chosen value's first
character, `y` or `Y` for TRUE, `n` or `N` for FALSE, `def` otherwise. -/
def Process_GetConfEx_bool (box : BOX) (image_name setting : List Char) (def_ : Bool) : Bool :=
  match Process_GetConfEx box image_name setting with
  | some value =>
    if value.head? = some 'y' ∨ value.head? = some 'Y' then true
    else if value.head? = some 'n' ∨ value.head? = some 'N' then false
    else def_
  | none => def_

/-- `Process_GetConf_bool (proc, setting, def)`. -/
def Process_GetConf_bool (proc : PathProc) (setting : List Char) (def_ : Bool) : Bool :=
  Process_GetConfEx_bool proc.box proc.image_name setting def_

/-! ## The list, block by block -/

/-- What the value at `index` adds on its own, `none` when the loop skips it. -/
def valueBlock (proc : GetPathsProc) (setting_name : List Char) (AddStar closed closed_ipc : Bool)
    (Level : Nat → Nat) (index : Nat) (value : List Char) : Option (Bool × List PATTERN) :=
  (closedValue proc closed closed_ipc value).map fun value =>
    Process_AddPath proc.toPathProc [] (some setting_name) false value AddStar (Level index)

/-- The blocks up to and including the first that fails, and whether none fails. -/
def upToFailure : List (Bool × List PATTERN) → Bool × List PATTERN
  | [] => (true, [])
  | (ok, added) :: rest =>
    if ok then ((upToFailure rest).1, added ++ (upToFailure rest).2) else (false, added)

theorem getPathsLoop_blocks (proc : GetPathsProc) (setting_name : List Char)
    (AddStar closed closed_ipc : Bool) (Level : Nat → Nat) :
    ∀ (values : List (List Char)) (index : Nat) (list : List PATTERN),
      getPathsLoop proc setting_name AddStar closed closed_ipc Level index values list =
        let r := upToFailure ((values.enumFrom index).filterMap fun (i, v) =>
          valueBlock proc setting_name AddStar closed closed_ipc Level i v)
        (r.1, list ++ r.2)
  | [], _, _ => by simp [getPathsLoop, upToFailure]
  | value :: values, index, list => by
    have ih := getPathsLoop_blocks proc setting_name AddStar closed closed_ipc Level values
      (index + 1)
    simp only [getPathsLoop, List.enumFrom_cons, List.filterMap_cons, valueBlock] at ih ⊢
    cases hc : closedValue proc closed closed_ipc value with
    | none => exact ih list
    | some v =>
      simp only [Option.map_some']
      rw [Process_AddPath_attach]
      generalize Process_AddPath proc.toPathProc [] (some setting_name) false v AddStar
        (Level index) = b
      obtain ⟨ok, added⟩ := b
      cases ok
      · simp [upToFailure, attachPatterns]
      · simp [upToFailure, attachPatterns, ih]

theorem Process_GetPaths_blocks (proc : GetPathsProc) (list : List PATTERN)
    (section_name setting_name : List Char) (AddStar : Bool) (Level : Nat → Nat) :
    Process_GetPaths proc list section_name setting_name AddStar Level =
      let r := upToFailure ((proc.box.Conf_Get section_name setting_name).enum.filterMap
        fun (i, v) => valueBlock proc setting_name AddStar (isClosedSetting setting_name)
          (isClosedIpcSetting setting_name) Level i v)
      (r.1, list ++ r.2) :=
  getPathsLoop_blocks _ _ _ _ _ _ _ _ _

/-! ## A value that does not expand -/

/-- A value its image matcher accepts whose path does not expand makes `Process_AddPath` fail
with the list as it was. -/
theorem Process_AddPath_expand_failure (proc : PathProc) (list : List PATTERN)
    (setting_name : Option (List Char)) (AddFirst : Bool) {value w : List Char} (AddStar : Bool)
    (Level : Nat) (hv : (Process_MatchImageAndGetValue proc.box value proc.image_name).1 = some w)
    (hbar : w.head? ≠ some '|') (hs : proc.box.Conf_Expand w = none) :
    Process_AddPath proc list setting_name AddFirst value AddStar Level = (false, list) := by
  have hfail : ∀ o L, addPathAndOriginal proc o AddFirst AddStar L list w = (false, list) := by
    intro o L
    simp [addPathAndOriginal, Process_AddPath_2, hs]
  simp [Process_AddPath, hv, hbar, hfail]

theorem getPathsLoop_failure (proc : GetPathsProc) (setting_name : List Char)
    (AddStar closed closed_ipc : Bool) (Level : Nat → Nat) :
    ∀ (values : List (List Char)) (index i : Nat) (list : List PATTERN) (value v : List Char),
      values[i]? = some value → closedValue proc closed closed_ipc value = some v →
      Process_AddPath proc.toPathProc [] (some setting_name) false v AddStar (Level (index + i)) =
        (false, []) →
      getPathsLoop proc setting_name AddStar closed closed_ipc Level index values list =
        (false, (getPathsLoop proc setting_name AddStar closed closed_ipc Level index
          (values.take i) list).2)
  | [], _, _, _, _, _, hi, _, _ => by simp at hi
  | value' :: values, index, 0, list, value, v, hi, hc, hfail => by
    obtain rfl : value' = value := by simpa using hi
    have h := Process_AddPath_attach proc.toPathProc list (some setting_name) false v AddStar
      (Level (index + 0))
    rw [hfail] at h
    simp only [Nat.add_zero] at h
    simp [getPathsLoop, hc, h, attachPatterns]
  | value' :: values, index, i + 1, list, value, v, hi, hc, hfail => by
    have ih := getPathsLoop_failure proc setting_name AddStar closed closed_ipc Level values
      (index + 1) i
    rw [show index + 1 + i = index + (i + 1) by omega] at ih
    simp only [getPathsLoop, List.take_succ_cons]
    cases closedValue proc closed closed_ipc value' with
    | none => exact ih list value v (by simpa using hi) hc hfail
    | some v' =>
      dsimp only
      generalize Process_AddPath proc.toPathProc list (some setting_name) false v' AddStar
        (Level index) = b
      obtain ⟨ok, l⟩ := b
      cases ok
      · rfl
      · exact ih l value v (by simpa using hi) hc hfail

theorem Process_GetPaths_expand_failure (proc : GetPathsProc) (list : List PATTERN)
    (section_name setting_name : List Char) (AddStar : Bool) (Level : Nat → Nat) (i : Nat)
    {value v w : List Char} (hi : (proc.box.Conf_Get section_name setting_name)[i]? = some value)
    (hread : closedValue proc (isClosedSetting setting_name) (isClosedIpcSetting setting_name)
      value = some v)
    (hv : (Process_MatchImageAndGetValue proc.box v proc.image_name).1 = some w)
    (hbar : w.head? ≠ some '|') (hs : proc.box.Conf_Expand w = none) :
    Process_GetPaths proc list section_name setting_name AddStar Level =
      (false, (getPathsLoop proc setting_name AddStar (isClosedSetting setting_name)
        (isClosedIpcSetting setting_name) Level 0
        ((proc.box.Conf_Get section_name setting_name).take i) list).2) :=
  getPathsLoop_failure _ _ _ _ _ _ _ 0 i list value v hi hread
    (Process_AddPath_expand_failure _ [] _ false AddStar _ hv hbar hs)

/-- A process whose box lists `bad` and then `C:\x` for every setting, and expands every
value but `bad`. -/
def badValueProc : GetPathsProc where
  box := ⟨[], fun _ _ => ["bad".toList, "C:\\x".toList],
    fun v => if v = "bad".toList then none else some v, ⟨fun _ _ => none, fun _ => 0⟩⟩
  image_name := "a.exe".toList
  File_TranslateReparsePoints := fun _ => none
  image_sbie := false
  image_from_box := false
  always_close_for_boxed := false
  restrict_devices := false
  use_privacy_mode := false
  bAppCompartment := false

/-- `bad` does not expand, so `OpenFilePath` fails and `C:\x` after it adds nothing. -/
theorem Process_GetPaths_expand_failure_bad :
    (badValueProc.box.Conf_Get [] "OpenFilePath".toList)[0]? = some "bad".toList ∧
      closedValue badValueProc (isClosedSetting "OpenFilePath".toList)
        (isClosedIpcSetting "OpenFilePath".toList) "bad".toList = some "bad".toList ∧
      (Process_MatchImageAndGetValue badValueProc.box "bad".toList
        badValueProc.image_name).1 = some "bad".toList ∧
      "bad".toList.head? ≠ some '|' ∧ badValueProc.box.Conf_Expand "bad".toList = none ∧
      Process_GetPaths badValueProc [] [] "OpenFilePath".toList true (fun _ => 0) = (false, []) :=
  have h1 : (badValueProc.box.Conf_Get [] "OpenFilePath".toList)[0]? = some "bad".toList := rfl
  have h2 : closedValue badValueProc (isClosedSetting "OpenFilePath".toList)
      (isClosedIpcSetting "OpenFilePath".toList) "bad".toList = some "bad".toList := by decide
  have h3 : (Process_MatchImageAndGetValue badValueProc.box "bad".toList
      badValueProc.image_name).1 = some "bad".toList := rfl
  have h4 : "bad".toList.head? ≠ some '|' := by decide
  have h5 : badValueProc.box.Conf_Expand "bad".toList = none := rfl
  ⟨h1, h2, h3, h4, h5,
    Process_GetPaths_expand_failure badValueProc [] [] _ true _ 0 h1 h2 h3 h4 h5⟩

/-! ## Levels -/

theorem mem_upToFailure {pat : PATTERN} :
    ∀ {blocks : List (Bool × List PATTERN)}, pat ∈ (upToFailure blocks).2 →
      ∃ b ∈ blocks, pat ∈ b.2
  | [], h => by simp [upToFailure] at h
  | (ok, added) :: rest, h => by
    unfold upToFailure at h
    split at h
    · rcases List.mem_append.mp h with h | h
      · exact ⟨_, List.mem_cons_self _ _, h⟩
      · obtain ⟨b, hb, hp⟩ := mem_upToFailure h
        exact ⟨b, List.mem_cons_of_mem _ hb, hp⟩
    · exact ⟨_, List.mem_cons_self _ _, h⟩

theorem Process_GetPaths_levels (proc : GetPathsProc) (list : List PATTERN)
    (section_name setting_name : List Char) (AddStar : Bool) (Level : Nat → Nat)
    (hne : ∀ value ∈ proc.box.Conf_Get section_name setting_name, ∀ v,
      closedValue proc (isClosedSetting setting_name) (isClosedIpcSetting setting_name) value =
        some v → ∀ rest, v ≠ ',' :: rest ∧ v ≠ '!' :: ',' :: rest) :
    ∀ pat ∈ (Process_GetPaths proc list section_name setting_name AddStar Level).2,
      pat ∈ list ∨ pat.level ≤ 3 := by
  intro pat hpat
  rw [Process_GetPaths, getPathsLoop_blocks] at hpat
  rcases List.mem_append.mp hpat with h | h
  · exact .inl h
  · -- the pattern is in the block of one value, which `Process_AddPath` built on `[]`
    obtain ⟨b, hb, hp⟩ := mem_upToFailure h
    obtain ⟨⟨i, value⟩, hiv, hvb⟩ := List.mem_filterMap.mp hb
    obtain ⟨v, hc, rfl⟩ := Option.map_eq_some'.mp hvb
    exact .inr ((Process_AddPath_level_le _ [] _ false v AddStar _
      (hne value (List.snd_mem_of_mem_enum hiv) v hc) pat hp).resolve_left (List.not_mem_nil _))

/-- The sample process as `Process_GetPaths` reads it. -/
def sampleGetPathsProc : GetPathsProc where
  toPathProc := samplePathProc
  image_sbie := false
  image_from_box := false
  always_close_for_boxed := false
  restrict_devices := false
  use_privacy_mode := false
  bAppCompartment := false

/-- `OpenFilePath=a.exe,C:\x` names the process, so under an uninitialised `Level` of 7 the
one pattern it adds is at level 0. -/
theorem Process_GetPaths_levels_image :
    (∀ value ∈ sampleGetPathsProc.box.Conf_Get [] "OpenFilePath".toList, ∀ v,
      closedValue sampleGetPathsProc (isClosedSetting "OpenFilePath".toList)
        (isClosedIpcSetting "OpenFilePath".toList) value = some v →
          ∀ rest, v ≠ ',' :: rest ∧ v ≠ '!' :: ',' :: rest) ∧
      (Process_GetPaths sampleGetPathsProc [] [] "OpenFilePath".toList true
        (fun _ => 7)).2.map PATTERN.level = [0] ∧
      ∀ pat ∈ (Process_GetPaths sampleGetPathsProc [] [] "OpenFilePath".toList true
        (fun _ => 7)).2, pat ∈ [] ∨ pat.level ≤ 3 :=
  have hcv : closedValue sampleGetPathsProc (isClosedSetting "OpenFilePath".toList)
      (isClosedIpcSetting "OpenFilePath".toList) "a.exe,C:\\x".toList =
        some "a.exe,C:\\x".toList := by decide
  have hne : ∀ value ∈ sampleGetPathsProc.box.Conf_Get [] "OpenFilePath".toList, ∀ v,
      closedValue sampleGetPathsProc (isClosedSetting "OpenFilePath".toList)
        (isClosedIpcSetting "OpenFilePath".toList) value = some v →
          ∀ rest, v ≠ ',' :: rest ∧ v ≠ '!' :: ',' :: rest := by
    intro value hv v hc rest
    rw [List.mem_singleton.mp hv, hcv] at hc
    cases hc
    simp
  have hlevel : (Process_GetPaths sampleGetPathsProc [] [] "OpenFilePath".toList true
      (fun _ => 7)).2.map PATTERN.level = [0] := by
    have hs : splitAtComma "a.exe,C:\\x".toList = some ("a.exe".toList, "C:\\x".toList) := by
      decide
    rw [Process_GetPaths, show sampleGetPathsProc.box.Conf_Get [] "OpenFilePath".toList =
      ["a.exe,C:\\x".toList] from rfl, getPathsLoop, hcv]
    dsimp only
    rw [Process_AddPath, Process_MatchImageAndGetValue, hs]
    dsimp only
    generalize hm : Process_MatchImage sampleGetPathsProc.box _ _ _ 1 = m
    obtain rfl : m = true := by rw [← hm, Process_MatchImage]; decide
    decide
  ⟨hne, hlevel, Process_GetPaths_levels sampleGetPathsProc [] [] _ true _ hne⟩

end Sandboxie
