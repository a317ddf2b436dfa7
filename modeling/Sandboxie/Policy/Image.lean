import Sandboxie.Policy.Pattern

/-!
# Matching the process image (`process_util.c`)

A setting may be restricted to some programs: `Process_MatchImage` matches an image name
against a pattern, or, for a pattern `<G>`, against the members of the process groups
named `<G>` (`ProcessGroup=<G>,a.exe,b.exe,<H>`). Groups may name groups; the depth counter
stops the recursion. `Process_MatchImageAndGetValue` strips an image matcher
`[!]image,` from a value and says how closely it matched, and `Process_GetConfEx` picks a
value among all configured ones by that level.

* `Process_MatchImageAndGetValue_level`: every level written is at most 3, and a value comes
  back with none written exactly when its image matcher is empty.
* `Process_MatchImage_group_iff`: a group matches exactly when a chain of at most five
  nested group references ends in a plain member whose pattern matches.
* `Process_GetConfEx_spec`: the value chosen has the lowest level among those accepted and
  is the last of that level.
* `Process_GetConfEx_last_of_lowest`: two accepted global values: the second one wins.
* `Process_IsSbieImage_spec`: an image is a Sandboxie image exactly when it sits directly in
  the home folder, spelled with the home folder's own case, and the start program exactly
  when its name is also `START_EXE` up to case.
-/

namespace Sandboxie

/-- What `process_util.c` reads of a box: its name, `Conf_Get (section, setting, index)` for
index 0, 1, ... up to the first NULL, `Conf_Expand (box->expand_args, ...)`, and the
pattern matcher. -/
structure BOX where
  name : List Char
  Conf_Get : List Char → List Char → List (List Char)
  Conf_Expand : List Char → Option (List Char)
  patterns : PatternLib

/-- The members of a group list after the group's name and its comma: the pieces between
commas that are not empty. -/
def groupMembers (value : List Char) : List (List Char) :=
  (value.splitOn ',').filter (!·.isEmpty)

/-- A pattern starts a group reference when its first character is `<`. -/
def isGroupRef (pat_str : List Char) : Bool := pat_str.head? = some '<'

/-- The measure of the mutual recursion: only a group reference recurses, and only while
the depth is below the bound. -/
def matchMeasure (pat_str : List Char) (depth : Nat) : Nat :=
  if isGroupRef pat_str then 2 * (7 - depth) + 3 else 0

mutual

/-- `Process_MatchImage (box, pat_str, pat_len, test_str, depth)`: expand the first
`pat_len` characters of the pattern (all of them when `pat_len` is 0); a group reference is
matched by `Process_MatchImageGroup` one level deeper, anything else by its compiled pattern
against the lower-cased image name. -/
def Process_MatchImage (box : BOX) (pat_str : List Char) (pat_len : Nat) (test_str : List Char)
    (depth : Nat) : Bool :=
  match box.Conf_Expand (if pat_len ≠ 0 then pat_str.take pat_len else pat_str) with
  | none => false
  | some expnd =>
    let pat := Pattern_Create box.patterns expnd 0
    if h : isGroupRef pat_str then
      Process_MatchImageGroup box (Pattern_Source pat) 0 test_str (depth + 1)
    else Pattern_Match pat (wcsLower test_str)
termination_by 2 * matchMeasure pat_str depth + 1
decreasing_by
  simp_wf
  simp only [matchMeasure, h, if_true]
  omega

/-- `Process_MatchImageGroup (box, group, group_len, test_str, depth)`: go through the
`ProcessGroup` settings whose name, the first `group_len` characters of `group` (all of them
when `group_len` is 0), is followed by a comma, and match each member: a plain one by
`Process_MatchImage`, a group reference, below depth 6, by recursion. -/
def Process_MatchImageGroup (box : BOX) (group : List Char) (group_len : Nat)
    (test_str : List Char) (depth : Nat) : Bool :=
  let group_len := if group_len = 0 then group.length else group_len
  (box.Conf_Get box.name "ProcessGroup".toList).any fun value =>
    if value.length ≤ group_len + 1 then false
    else if !wcsnicmpEq value group group_len then false
    else match value.drop group_len with
      | ',' :: value => (groupMembers value).any fun m =>
          if h : !isGroupRef m then Process_MatchImage box m m.length test_str (depth + 1)
          else if hd : depth < 6 then Process_MatchImageGroup box m m.length test_str (depth + 1)
          else false
      | _ => false
termination_by 2 * (2 * (7 - depth) + 2)
decreasing_by
  all_goals simp_wf
  · simp only [Bool.not_eq_true'] at h
    simp only [matchMeasure, h, Bool.false_eq_true, if_false]
    omega
  · omega

end

/-! ## Unfolding one level -/

/-- `m` is a member of the list `rest`: `rest` is its comma-free pieces joined by commas, and
`m` is one of them that is not empty. -/
def IsListMember (m rest : List Char) : Prop :=
  ∃ pieces : List (List Char), rest = [','].intercalate pieces ∧ (∀ l ∈ pieces, ',' ∉ l) ∧
    m ∈ pieces ∧ m ≠ []

/-- The members the loop of `Process_MatchImageGroup` visits are the list's members. -/
theorem mem_groupMembers_iff {m rest : List Char} :
    m ∈ groupMembers rest ↔ IsListMember m rest := by
  simp only [groupMembers, List.mem_filter, Bool.not_eq_true', List.isEmpty_eq_false]
  constructor
  · rintro ⟨hm, hne⟩
    exact ⟨_, (List.intercalate_splitOn _ _).symm,
      fun l hl h => by simpa using not_mem_of_mem_splitOnP hl ',' h, hm, hne⟩
  · rintro ⟨pieces, rfl, hpieces, hm, hne⟩
    rw [List.splitOn_intercalate _ _ hpieces (List.ne_nil_of_mem hm)]
    exact ⟨hm, hne⟩

/-- `m` is a member of a `ProcessGroup` setting whose name is `G`, up to case. -/
def IsGroupMember (box : BOX) (G m : List Char) : Prop :=
  ∃ value ∈ box.Conf_Get box.name "ProcessGroup".toList, ∃ rest,
    wcsLower (value.take G.length) = wcsLower G ∧ value.drop G.length = ',' :: rest ∧
      IsListMember m rest

/-- A plain member `m` matches: it expands to a pattern that matches the lower-cased
image name. -/
def PlainMatch (box : BOX) (m image : List Char) : Prop :=
  isGroupRef m = false ∧ ∃ expnd, box.Conf_Expand m = some expnd ∧
    Pattern_Match (Pattern_Create box.patterns expnd 0) (wcsLower image) = true

/-- A plain pattern of its own length is matched by its compiled expansion. -/
theorem Process_MatchImage_plain (box : BOX) (m image : List Char) (depth : Nat)
    (hm : isGroupRef m = false) :
    Process_MatchImage box m m.length image depth = true ↔ PlainMatch box m image := by
  have hpat : (if m.length ≠ 0 then m.take m.length else m) = m := by split_ifs <;> simp
  rw [Process_MatchImage, hpat]
  cases he : box.Conf_Expand m <;> simp [hm, PlainMatch, he]

/-- The test of one member: plain, or a group reference below depth 6. -/
theorem Process_MatchImageGroup_member_iff (box : BOX) (m image : List Char) (depth : Nat) :
    (if _h : !isGroupRef m then Process_MatchImage box m m.length image (depth + 1)
      else if _hd : depth < 6 then Process_MatchImageGroup box m m.length image (depth + 1)
      else false) = true ↔
      PlainMatch box m image ∨ (isGroupRef m = true ∧ depth < 6 ∧
        Process_MatchImageGroup box m m.length image (depth + 1) = true) := by
  cases hg : isGroupRef m
  · simp [Process_MatchImage_plain box m image _ hg]
  · by_cases hd : depth < 6 <;> simp [hd, PlainMatch, hg]

/-- One level of `Process_MatchImageGroup`: a member that matches, plainly or, below depth
6, as a group one level deeper. -/
theorem Process_MatchImageGroup_iff (box : BOX) (G image : List Char) (depth : Nat) :
    Process_MatchImageGroup box G G.length image depth = true ↔
      ∃ m, IsGroupMember box G m ∧ (PlainMatch box m image ∨
        (isGroupRef m = true ∧ depth < 6 ∧
          Process_MatchImageGroup box m m.length image (depth + 1) = true)) := by
  have hlen : (if G.length = 0 then G.length else G.length) = G.length := by split_ifs <;> rfl
  rw [Process_MatchImageGroup]
  simp only [hlen, List.any_eq_true]
  constructor
  · rintro ⟨value, hv, hmatch⟩
    by_cases hshort : value.length ≤ G.length + 1
    · simp [hshort] at hmatch
    by_cases hcmp : wcsnicmpEq value G G.length = true
    · simp only [hshort, hcmp, Bool.not_true, Bool.false_eq_true, if_false] at hmatch
      split at hmatch
      next rest hrest =>
        obtain ⟨m, hm, hmm⟩ := List.any_eq_true.mp hmatch
        exact ⟨m, ⟨value, hv, rest, by simpa [wcsnicmpEq] using hcmp, hrest,
          mem_groupMembers_iff.mp hm⟩,
          (Process_MatchImageGroup_member_iff box m image depth).mp hmm⟩
      next => cases hmatch
    · simp [hcmp] at hmatch
  · rintro ⟨m, ⟨value, hv, rest, hcmp, hrest, hm⟩, hmatch⟩
    rw [← mem_groupMembers_iff] at hm
    refine ⟨value, hv, ?_⟩
    have hlong : ¬ value.length ≤ G.length + 1 := by
      have hne : rest ≠ [] := by rintro rfl; simp [groupMembers] at hm
      have h1 := congrArg List.length hrest
      have h2 := List.length_pos_of_ne_nil hne
      simp only [List.length_drop, List.length_cons] at h1
      omega
    have hcmp' : wcsnicmpEq value G G.length = true := by simpa [wcsnicmpEq] using hcmp
    simp only [hlong, hcmp', Bool.not_true, Bool.false_eq_true, if_false, hrest]
    exact List.any_eq_true.mpr
      ⟨m, hm, (Process_MatchImageGroup_member_iff box m image depth).mpr hmatch⟩

/-- `group_len` 0 stands for the whole name. -/
theorem Process_MatchImageGroup_zero (box : BOX) (G image : List Char) (depth : Nat) :
    Process_MatchImageGroup box G 0 image depth =
      Process_MatchImageGroup box G G.length image depth := by
  rw [Process_MatchImageGroup, Process_MatchImageGroup]
  simp only [if_true]
  split_ifs <;> rfl

/-! ## Chains of groups -/

/-- A chain of at most `n` groups from `G`, each a `<`-member of a setting of the one before,
whose last group has a plain member that matches the image. -/
inductive GroupChain (box : BOX) (image : List Char) : Nat → List Char → Prop
  | plain {n : Nat} {G m : List Char} :
      IsGroupMember box G m → PlainMatch box m image → GroupChain box image (n + 1) G
  | nested {n : Nat} {G G' : List Char} :
      IsGroupMember box G G' → isGroupRef G' = true → GroupChain box image n G' →
        GroupChain box image (n + 1) G

/-- At depth `6 - k`, a group matches exactly when a chain of at most `k + 1` groups from it
does: the depth bound cuts the recursion after the group at depth 6. -/
theorem Process_MatchImageGroup_chain (box : BOX) (image : List Char) :
    ∀ (k : Nat) (G : List Char), k ≤ 6 →
      (Process_MatchImageGroup box G G.length image (6 - k) = true ↔
        GroupChain box image (k + 1) G)
  | 0, G, _ => by
    rw [Process_MatchImageGroup_iff]
    constructor
    · rintro ⟨m, hm, hp | ⟨-, hd, -⟩⟩
      · exact .plain hm hp
      · omega
    · rintro (⟨hm, hp⟩ | ⟨-, -, hc⟩)
      · exact ⟨_, hm, .inl hp⟩
      · cases hc
  | k + 1, G, hk => by
    have hdepth : 6 - (k + 1) + 1 = 6 - k := by omega
    have ih := Process_MatchImageGroup_chain box image k
    rw [Process_MatchImageGroup_iff]
    constructor
    · rintro ⟨m, hm, hp | ⟨hg, -, hmg⟩⟩
      · exact .plain hm hp
      · rw [hdepth] at hmg
        exact .nested hm hg ((ih m (by omega)).mp hmg)
    · intro h
      cases h with
      | plain hm hp => exact ⟨_, hm, .inl hp⟩
      | nested hm hg hc =>
        exact ⟨_, hm, .inr ⟨hg, by omega, by rw [hdepth]; exact (ih _ (by omega)).mpr hc⟩⟩

/-- A group pattern `<G>` at the top level: it expands, and a chain of at most five groups
from its expansion reaches a plain member that matches the lower-cased image name. -/
theorem Process_MatchImage_group_iff (box : BOX) (G image : List Char) :
    Process_MatchImage box ('<' :: G) 0 image 1 = true ↔
      ∃ expnd, box.Conf_Expand ('<' :: G) = some expnd ∧ GroupChain box image 5 expnd := by
  have href : isGroupRef ('<' :: G) = true := rfl
  rw [Process_MatchImage]
  simp only [ne_eq, not_true_eq_false, if_false, href, dite_true]
  cases he : box.Conf_Expand ('<' :: G) with
  | none => simp
  | some expnd =>
    simp only [Option.some.injEq, exists_eq_left', Pattern_Source, Pattern_Create,
      Process_MatchImageGroup_zero]
    exact Process_MatchImageGroup_chain box image 4 expnd (by omega)

/-! ## Values with an image matcher -/

/-- `wcschr (value, L',')`: the text before the first comma and the text after it. -/
def splitAtComma (value : List Char) : Option (List Char × List Char) :=
  match value.span (· != ',') with
  | (before, ',' :: after) => some (before, after)
  | _ => none

/-- `if (! *value) return NULL;` -/
def nonEmptyValue (value : List Char) : Option (List Char) :=
  if value = [] then none else some value

/-- `Process_MatchImageAndGetValue (box, value, ImageName, pLevel)`: the value after its
image matcher, `none` for NULL, and what it writes to `*pLevel`, `none` when it writes
nothing. An image matcher `[!]image,` must match (or, negated, not match) `ImageName`; the
level is 0 for an image, 1 for a negation, 2 for `*`, 3 for a value without matcher. -/
def Process_MatchImageAndGetValue (box : BOX) (value ImageName : List Char) :
    Option (List Char) × Option Nat :=
  match splitAtComma value with
  | some (image, tmp) =>
    let (inv, image) : Bool × List Char := match image with
      | '!' :: image => (true, image)
      | image => (false, image)
    if image.length ≠ 0 then
      let match_ := Process_MatchImage box (image ++ ',' :: tmp) image.length ImageName 1
      let match_ := if inv then !match_ else match_
      if !match_ then (none, none)
      else
        let level := if image.length = 1 ∧ image.head? = some '*' then 2 else if inv then 1 else 0
        (nonEmptyValue tmp, some level)
    else (nonEmptyValue tmp, none)
  | none => (nonEmptyValue value, some 3)

/-! ## The levels an image matcher writes -/

theorem splitAtComma_eq_some {value image tmp : List Char}
    (h : splitAtComma value = some (image, tmp)) : value = image ++ ',' :: tmp ∧ ',' ∉ image := by
  unfold splitAtComma at h
  rw [List.span_eq_take_drop] at h
  split at h
  next before after heq =>
    cases h
    obtain ⟨h1, h2⟩ := Prod.mk.inj heq
    refine ⟨by rw [← h1, ← h2, List.takeWhile_append_dropWhile], fun hm => ?_⟩
    have := List.mem_takeWhile_imp (h1 ▸ hm)
    simp at this
  · cases h

theorem splitAtComma_comma (rest : List Char) : splitAtComma (',' :: rest) = some ([], rest) := by
  simp [splitAtComma, List.span_eq_take_drop]

theorem splitAtComma_bang_comma (rest : List Char) :
    splitAtComma ('!' :: ',' :: rest) = some (['!'], rest) := by
  simp [splitAtComma, List.span_eq_take_drop]

/-- The image matcher before the first comma is empty, or a lone `!`. -/
theorem emptyMatcher_iff {image tmp : List Char} (hnc : ',' ∉ image) :
    (∃ rest, image ++ ',' :: tmp = ',' :: rest ∨ image ++ ',' :: tmp = '!' :: ',' :: rest) ↔
      image = [] ∨ image = ['!'] := by
  -- an empty image, a single character, or at least two
  rcases image with _ | ⟨c, _ | ⟨d, r⟩⟩ <;> simp_all [eq_comm (a := ',')]

/-- Every level `Process_MatchImageAndGetValue` writes is at most 3; when it returns a value,
it writes none exactly when the value's image matcher is empty: a comma first, or after a
single `!`. -/
theorem Process_MatchImageAndGetValue_level (box : BOX) (value ImageName : List Char) :
    (∀ l, (Process_MatchImageAndGetValue box value ImageName).2 = some l → l ≤ 3) ∧
      ((Process_MatchImageAndGetValue box value ImageName).1.isSome →
        ((Process_MatchImageAndGetValue box value ImageName).2 = none ↔
          ∃ rest, value = ',' :: rest ∨ value = '!' :: ',' :: rest)) := by
  unfold Process_MatchImageAndGetValue
  cases hs : splitAtComma value with
  | none =>
    -- no comma: level 3, and no comma-first value
    refine ⟨by simp, fun _ => ⟨nofun, ?_⟩⟩
    rintro ⟨rest, rfl | rfl⟩ <;> simp [splitAtComma_comma, splitAtComma_bang_comma] at hs
  | some p =>
    obtain ⟨image, tmp⟩ := p
    obtain ⟨rfl, hnc⟩ := splitAtComma_eq_some hs
    rw [emptyMatcher_iff hnc]
    -- the image is empty, a lone `!`, or a name, after an optional `!`, that is matched
    rcases image with _ | ⟨c, _ | ⟨d, r⟩⟩
    · simp
    · by_cases hc : c = '!'
      · subst hc; simp
      · dsimp only
        generalize Process_MatchImage box _ _ ImageName 1 = m
        cases m <;> simp [hc]
        split <;> omega
    · dsimp only
      generalize Process_MatchImage box _ _ ImageName 1 = m
      by_cases hc : c = '!'
      · subst hc
        cases m <;> simp
        split <;> omega
      · cases m <;> simp [hc]

/-- A level `Process_GetConfEx` reads is at most its initial `ULONG` `-1`. -/
theorem Process_MatchImageAndGetValue_level_le (box : BOX) (value ImageName : List Char) :
    (Process_MatchImageAndGetValue box value ImageName).2.getD 0xFFFFFFFF ≤ 0xFFFFFFFF := by
  cases h : (Process_MatchImageAndGetValue box value ImageName).2 with
  | none => exact le_rfl
  | some l =>
    exact ((Process_MatchImageAndGetValue_level box value ImageName).1 l h).trans (by decide)

/-! ## Choosing among configured values -/

/-- One value in `Process_GetConfEx`: an accepted value whose level is not above the best
so far takes its place. -/
def getConfStep (box : BOX) (image_name : List Char) (found : Option (List Char) × Nat)
    (value : List Char) : Option (List Char) × Nat :=
  let r := Process_MatchImageAndGetValue box value image_name
  let level := r.2.getD 0xFFFFFFFF
  match r.1 with
  | some value => if level > found.2 then found else (some value, level)
  | none => found

/-- `Process_GetConfEx (box, image_name, setting)`. -/
def Process_GetConfEx (box : BOX) (image_name setting : List Char) : Option (List Char) :=
  ((box.Conf_Get box.name setting).foldl (getConfStep box image_name) (none, 0xFFFFFFFF)).1

/-- The values `Process_GetConfEx` accepts, in configuration order, with the level it reads
for each. -/
def acceptedValues (box : BOX) (image_name setting : List Char) : List (List Char × Nat) :=
  (box.Conf_Get box.name setting).filterMap fun value =>
    let r := Process_MatchImageAndGetValue box value image_name
    r.1.map (·, r.2.getD 0xFFFFFFFF)

section KeepLowest

variable {α : Type}

/-- The running best of `Process_GetConfEx` on the accepted values alone. -/
def keepLowest (found : Option α × Nat) (p : α × Nat) : Option α × Nat :=
  if p.2 > found.2 then found else (some p.1, p.2)

/-- What the running best says of the values seen so far: none yet, or one of them whose
level no value before it is below and every value after it is above. -/
def LastLowest (L : List (α × Nat)) (B : Nat) (found : Option α × Nat) : Prop :=
  (found.1 = none ∧ L = [] ∧ found.2 = B) ∨
    ∃ v pre post, found.1 = some v ∧ L = pre ++ (v, found.2) :: post ∧
      (∀ p ∈ pre, found.2 ≤ p.2) ∧ ∀ p ∈ post, found.2 < p.2

theorem lastLowest_keepLowest {L : List (α × Nat)} {B : Nat} {found : Option α × Nat}
    (h : LastLowest L B found) (x : α × Nat) (hx : x.2 ≤ B) :
    LastLowest (L ++ [x]) B (keepLowest found x) := by
  unfold keepLowest
  right
  rcases h with ⟨-, rfl, hB⟩ | ⟨v, pre, post, hv, rfl, hpre, hpost⟩
  · rw [if_neg (by omega)]
    exact ⟨x.1, [], [], rfl, rfl, by simp, by simp⟩
  · split_ifs with hgt
    · refine ⟨v, pre, post ++ [x], hv, by simp, hpre, ?_⟩
      simp only [List.mem_append, List.mem_singleton]
      rintro p (hp | rfl)
      · exact hpost p hp
      · exact hgt
    · refine ⟨x.1, pre ++ (v, found.2) :: post, [], rfl, rfl, ?_, by simp⟩
      simp only [List.mem_append, List.mem_cons]
      rintro p (hp | rfl | hp)
      · have := hpre p hp; omega
      · omega
      · have := hpost p hp; omega

/-- Over values no higher than the start `B`, the running best ends as `LastLowest`. -/
theorem lastLowest_foldl (B : Nat) (L : List (α × Nat)) (hL : ∀ p ∈ L, p.2 ≤ B) :
    LastLowest L B (L.foldl keepLowest (none, B)) := by
  induction L using List.reverseRecOn with
  | nil => exact Or.inl ⟨rfl, rfl, rfl⟩
  | append_singleton L x ih =>
    rw [List.foldl_append, List.foldl_cons, List.foldl_nil]
    exact lastLowest_keepLowest (ih fun p hp => hL p (by simp [hp])) x (hL x (by simp))

end KeepLowest

/-- `Process_GetConfEx` runs `keepLowest` over the accepted values. -/
theorem Process_GetConfEx_eq_foldl (box : BOX) (image_name setting : List Char) :
    Process_GetConfEx box image_name setting =
      ((acceptedValues box image_name setting).foldl keepLowest (none, 0xFFFFFFFF)).1 := by
  unfold Process_GetConfEx acceptedValues
  congr 1
  generalize (none, 0xFFFFFFFF) = s
  induction box.Conf_Get box.name setting generalizing s with
  | nil => rfl
  | cons value values ih =>
    simp only [List.foldl_cons, List.filterMap_cons]
    cases hr : (Process_MatchImageAndGetValue box value image_name).1 with
    | none => simp only [getConfStep, hr, Option.map_none']; exact ih s
    | some v => simp only [getConfStep, hr, Option.map_some', List.foldl_cons]; exact ih _

/-- `Process_GetConfEx` answers NULL exactly when no value is accepted; otherwise an accepted
value whose level no value before it is below and every value after it is above: the
lowest level, and the last value of that level in configuration order. -/
theorem Process_GetConfEx_spec (box : BOX) (image_name setting : List Char) :
    (Process_GetConfEx box image_name setting = none ↔
        acceptedValues box image_name setting = []) ∧
      ∀ v, Process_GetConfEx box image_name setting = some v →
        ∃ pre level post, acceptedValues box image_name setting = pre ++ (v, level) :: post ∧
          (∀ p ∈ pre, level ≤ p.2) ∧ ∀ p ∈ post, level < p.2 := by
  have hB : ∀ p ∈ acceptedValues box image_name setting, p.2 ≤ 0xFFFFFFFF := by
    simp only [acceptedValues, List.mem_filterMap, Option.map_eq_some']
    rintro p ⟨value, -, v, -, rfl⟩
    exact Process_MatchImageAndGetValue_level_le box value image_name
  rw [Process_GetConfEx_eq_foldl]
  rcases lastLowest_foldl _ _ hB with ⟨hn, hnil, -⟩ | ⟨v, pre, post, hv, hL, hpre, hpost⟩
  · simp [hn, hnil]
  · refine ⟨⟨fun h => by simp [hv] at h, fun h => by simp [h] at hL⟩, fun w hw => ?_⟩
    rw [hv, Option.some.injEq] at hw
    subst hw
    exact ⟨pre, _, post, hL, hpre, hpost⟩

/-- A box whose setting `S` holds two global values, `a` then `b`. -/
def twoGlobalsBox : BOX :=
  ⟨[], fun _ _ => [['a'], ['b']], some, ⟨fun _ _ => none, fun _ => 0⟩⟩

/-- Both values are accepted at level 3, and `Process_GetConfEx` answers the second. -/
theorem Process_GetConfEx_last_of_lowest :
    acceptedValues twoGlobalsBox [] ['S'] = [(['a'], 3), (['b'], 3)] ∧
      Process_GetConfEx twoGlobalsBox [] ['S'] = some ['b'] := by
  decide

/-! ## Images of the home folder -/

/-- `Process_IsSbieImage (image_path, &image_sbie, &is_start_exe)`, given the driver's home
folder `Driver_HomePathNt` and the start program's name `START_EXE`: whether the folder of
the image, up to its last backslash, is the home folder (`wcsncmp`, so case counts), and
whether the image is then the start program (`_wcsicmp`). -/
def Process_IsSbieImage (Driver_HomePathNt START_EXE image_path : List Char) : Bool × Bool :=
  match wcsrchr image_path '\\' with
  | some len =>
    if len = Driver_HomePathNt.length ∧ image_path.take len = Driver_HomePathNt then
      (true, wcsicmp (image_path.drop (len + 1)) START_EXE = .eq)
    else (false, false)
  | none => (false, false)

/-- An image directly in the home folder. -/
theorem Process_IsSbieImage_home (Driver_HomePathNt START_EXE name : List Char)
    (hname : '\\' ∉ name) :
    Process_IsSbieImage Driver_HomePathNt START_EXE (Driver_HomePathNt ++ '\\' :: name) =
      (true, decide (wcsLower name = wcsLower START_EXE)) := by
  simp [Process_IsSbieImage, wcsrchr_append_cons hname, wcsicmp_eq_eq]

/-- Outside the home folder neither flag is set. -/
theorem Process_IsSbieImage_cases (Driver_HomePathNt START_EXE image_path : List Char) :
    Process_IsSbieImage Driver_HomePathNt START_EXE image_path = (false, false) ∨
      ∃ name, '\\' ∉ name ∧ image_path = Driver_HomePathNt ++ '\\' :: name := by
  unfold Process_IsSbieImage
  split
  next len hlen =>
    split_ifs with h
    · obtain ⟨pre, name, rfl, hname, rfl⟩ := wcsrchr_eq_some hlen
      rw [List.take_left] at h
      exact .inr ⟨name, hname, by rw [h.2]⟩
    · exact .inl rfl
  · exact .inl rfl

theorem Process_IsSbieImage_spec (Driver_HomePathNt START_EXE image_path : List Char) :
    ((Process_IsSbieImage Driver_HomePathNt START_EXE image_path).1 = true ↔
        ∃ name, '\\' ∉ name ∧ image_path = Driver_HomePathNt ++ '\\' :: name) ∧
      ((Process_IsSbieImage Driver_HomePathNt START_EXE image_path).2 = true ↔
        ∃ name, '\\' ∉ name ∧ image_path = Driver_HomePathNt ++ '\\' :: name ∧
          wcsLower name = wcsLower START_EXE) := by
  rcases Process_IsSbieImage_cases Driver_HomePathNt START_EXE image_path with h | ⟨name, hname, rfl⟩
  · have hout : ¬∃ name, '\\' ∉ name ∧ image_path = Driver_HomePathNt ++ '\\' :: name := by
      rintro ⟨name, hname, rfl⟩
      simp [Process_IsSbieImage_home _ _ _ hname] at h
    simp only [h, Bool.false_eq_true, false_iff]
    exact ⟨hout, fun ⟨name, hname, he, _⟩ => hout ⟨name, hname, he⟩⟩
  · simp [Process_IsSbieImage_home _ _ _ hname, @eq_comm _ name, hname, and_left_comm]

end Sandboxie
