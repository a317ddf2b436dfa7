import Sandboxie.WString

/-!
# The service list of a box (`scm.c`)

`Scm_GetAllServices` merges the MULTI_SZ list of services the server reports with the box's
`SandboxedServices` list: each round scans both lists for the smallest name under
`_wcsicmp` that is not a tombstone (a name whose first character is `*`), appends it unless
it repeats the name appended last, and overwrites its first character with `*`.

A name is a duplicate of the last one when its first character is the same and the rest is
equal under `_wcsicmp`; the first characters are compared exactly.

* `Scm_GetAllServices_isSome`: the loop ends, one round per live name.
* `Scm_GetAllServices_spec`: the list is sorted under `_wcsicmp`, holds only names of the
  two lists that are not tombstones, and every such name up to case.
* `Scm_GetAllServices_case_duplicate`: `Abc` from the server and `abc` from the box both
  end up in the list.
-/

namespace Sandboxie

/-- A name that is not a tombstone. -/
def isLive (w : List Char) : Bool := w.head? != some '*'

/-- `*small_ptr = L'*'`. -/
def tombstone (w : List Char) : List Char := '*' :: w.tail

@[simp] theorem isLive_tombstone (w : List Char) : isLive (tombstone w) = false := rfl

/-- One step of the scan for `small_ptr`: a live name below the smallest so far (the first of
equals stays) takes its place. -/
def smallStep (small : Option (Nat × List Char)) (work : Nat × List Char) :
    Option (Nat × List Char) :=
  if !isLive work.2 then small
  else match small with
    | none => some work
    | some s => if wcsicmp work.2 s.2 = .lt then some work else small

/-- The scan of the server's names followed by the box's names for the smallest live one,
with its position. -/
def findSmallest (names : List (List Char)) : Option (Nat × List Char) :=
  names.enum.foldl smallStep none

/-- The `while (1)` of `Scm_GetAllServices` on the names and `last_ptr` (the name appended
last, as it was before its tombstone), with at most `fuel` rounds. -/
def getAllLoop : Nat → List (List Char) → Option (List Char) → List (List Char) →
    Option (List (List Char))
  | 0, _, _, _ => none
  | fuel + 1, names, last, out =>
    match findSmallest names with
    | none => some out
    | some (i, small) =>
      let names := names.modify tombstone i
      match last with
      | some l =>
        if small.head? = l.head? ∧ wcsicmp small.tail l.tail = .eq then
          getAllLoop fuel names last out
        else getAllLoop fuel names (some small) (out ++ [small])
      | none => getAllLoop fuel names (some small) (out ++ [small])

/-- The live names. -/
def liveCount (names : List (List Char)) : Nat := names.countP isLive

/-- `Scm_GetAllServices`, given the server's reply `true_names` (empty when the call fails)
and `Scm_GetBoxedServices ()` as `copy_names`; one round more than there are live names. -/
def Scm_GetAllServices (true_names copy_names : List (List Char)) : Option (List (List Char)) :=
  getAllLoop (liveCount (true_names ++ copy_names) + 1) (true_names ++ copy_names) none []

/-! ## Termination -/

/-- One step of the scan keeps what it had or takes the live name it reads. -/
theorem smallStep_eq_some {s : Option (Nat × List Char)} {y w : Nat × List Char}
    (h : smallStep s y = some w) : (w = y ∧ isLive y.2 = true) ∨ s = some w := by
  rcases s with _ | s <;> by_cases hl : isLive y.2 = true <;> simp only [smallStep, hl] at h <;>
    split_ifs at h <;> simp_all

/-- The scan finds a live name of the list, or the one it started from. -/
theorem foldl_smallStep_mem :
    ∀ (L : List (Nat × List Char)) (small : Option (Nat × List Char)) (w : Nat × List Char),
      L.foldl smallStep small = some w → (w ∈ L ∧ isLive w.2 = true) ∨ small = some w
  | [], _, _, h => .inr h
  | work :: L, small, w, h => by
    rcases foldl_smallStep_mem L _ w h with ⟨hw, hl⟩ | hs
    · exact .inl ⟨List.mem_cons_of_mem _ hw, hl⟩
    · rcases smallStep_eq_some hs with ⟨rfl, hl⟩ | hs
      · exact .inl ⟨List.mem_cons_self _ _, hl⟩
      · exact .inr hs

/-- What the scan finds is a live name at its position. -/
theorem findSmallest_live {names : List (List Char)} {i : Nat} {small : List Char}
    (h : findSmallest names = some (i, small)) :
    ∃ hi : i < names.length, names[i] = small ∧ isLive small = true := by
  rcases foldl_smallStep_mem _ _ _ h with ⟨hmem, hl⟩ | hnone
  · obtain ⟨hi, he⟩ := List.mem_enum hmem
    exact ⟨hi, he.symm, hl⟩
  · cases hnone

/-- A tombstone over a live name leaves one live name fewer. -/
theorem liveCount_modify_tombstone :
    ∀ (names : List (List Char)) (i : Nat) (hi : i < names.length), isLive names[i] = true →
      liveCount (names.modify tombstone i) + 1 = liveCount names
  | [], _, hi, _ => absurd hi (Nat.not_lt_zero _)
  | w :: names, 0, _, hl => by
    simp only [List.getElem_cons_zero] at hl
    simp [liveCount, List.modify, List.modifyHead, List.countP_cons, hl]
  | w :: names, i + 1, hi, hl => by
    have ih := liveCount_modify_tombstone names i (by simpa using hi) (by simpa using hl)
    simp only [liveCount, List.modify_succ_cons, List.countP_cons] at ih ⊢
    omega

/-- The loop ends within one round more than there are live names. -/
theorem getAllLoop_isSome :
    ∀ (fuel : Nat) (names : List (List Char)) (last : Option (List Char))
      (out : List (List Char)), liveCount names < fuel →
        (getAllLoop fuel names last out).isSome
  | 0, _, _, _, h => absurd h (Nat.not_lt_zero _)
  | fuel + 1, names, last, out, h => by
    unfold getAllLoop
    split
    · rfl
    next i small hs =>
      obtain ⟨hi, hsmall, hl⟩ := findSmallest_live hs
      have hdec := liveCount_modify_tombstone names i hi (hsmall ▸ hl)
      have hfuel : liveCount (names.modify tombstone i) < fuel := by omega
      split
      · split_ifs
        · exact getAllLoop_isSome fuel _ _ _ hfuel
        · exact getAllLoop_isSome fuel _ _ _ hfuel
      · exact getAllLoop_isSome fuel _ _ _ hfuel

/-- `Scm_GetAllServices` returns, on every pair of lists. -/
theorem Scm_GetAllServices_isSome (true_names copy_names : List (List Char)) :
    (Scm_GetAllServices true_names copy_names).isSome :=
  getAllLoop_isSome _ _ _ _ (Nat.lt_succ_self _)

/-! ## A duplicate up to case -/

/-- The server reports `Abc` and the box lists `abc`: the names are equal under `_wcsicmp`,
but their first characters differ, so the duplicate check lets the second through. -/
theorem Scm_GetAllServices_case_duplicate :
    wcsicmp "Abc".toList "abc".toList = .eq ∧
      Scm_GetAllServices ["Abc".toList] ["abc".toList] = some ["Abc".toList, "abc".toList] := by
  decide

/-! ## What the list holds -/

theorem smallStep_le_work (s : Option (Nat × List Char)) {y : Nat × List Char}
    (hy : isLive y.2 = true) :
    ∃ x, smallStep s y = some x ∧ wcsLower x.2 ≤ wcsLower y.2 := by
  unfold smallStep
  rw [if_neg (by simp [hy])]
  cases s with
  | none => exact ⟨y, rfl, le_rfl⟩
  | some s =>
    by_cases hlt : wcsicmp y.2 s.2 = .lt
    · exact ⟨y, by simp [hlt], le_rfl⟩
    · refine ⟨s, by simp [hlt], ?_⟩
      simpa [wcsicmp_eq_lt] using hlt

theorem smallStep_le_self {s : Option (Nat × List Char)} {x0 : Nat × List Char}
    (hs : s = some x0) (y : Nat × List Char) :
    ∃ x, smallStep s y = some x ∧ wcsLower x.2 ≤ wcsLower x0.2 := by
  subst hs
  by_cases h1 : isLive y.2 = true
  · by_cases h2 : wcsicmp y.2 x0.2 = .lt
    · exact ⟨y, by simp [smallStep, h1, h2], le_of_lt (wcsicmp_eq_lt.mp h2)⟩
    · exact ⟨x0, by simp [smallStep, h1, h2], le_rfl⟩
  · exact ⟨x0, by simp [smallStep, h1], le_rfl⟩

/-- The scan ends on a name no live name of the list, and not the name it started from, is
below. -/
theorem foldl_smallStep_min :
    ∀ (L : List (Nat × List Char)) (s : Option (Nat × List Char)),
      (∀ y ∈ L, isLive y.2 = true →
        ∃ x, L.foldl smallStep s = some x ∧ wcsLower x.2 ≤ wcsLower y.2) ∧
      (∀ x0, s = some x0 → ∃ x, L.foldl smallStep s = some x ∧ wcsLower x.2 ≤ wcsLower x0.2)
  | [], _ => ⟨fun _ h => absurd h (List.not_mem_nil _), fun x0 h => ⟨x0, h, le_rfl⟩⟩
  | y0 :: L, s => by
    have ih := foldl_smallStep_min L (smallStep s y0)
    -- what the rest of the scan ends on is at most what this step chose
    have hchain : ∀ x0, smallStep s y0 = some x0 → ∃ x, (y0 :: L).foldl smallStep s = some x ∧
        wcsLower x.2 ≤ wcsLower x0.2 := ih.2
    refine ⟨fun y hy hl => ?_, fun x0 hx0 => ?_⟩
    · rcases List.mem_cons.mp hy with rfl | hy
      · obtain ⟨x1, h1, hle1⟩ := smallStep_le_work s hl
        obtain ⟨x, hx, hle⟩ := hchain x1 h1
        exact ⟨x, hx, le_trans hle hle1⟩
      · exact ih.1 y hy hl
    · obtain ⟨x1, h1, hle1⟩ := smallStep_le_self hx0 y0
      obtain ⟨x, hx, hle⟩ := hchain x1 h1
      exact ⟨x, hx, le_trans hle hle1⟩

/-- The scan finds something at or below every live name. -/
theorem findSmallest_le {names : List (List Char)} {w : List Char} (hw : w ∈ names)
    (hl : isLive w = true) : ∃ x, findSmallest names = some x ∧ wcsLower x.2 ≤ wcsLower w := by
  obtain ⟨j, hj⟩ := List.mem_iff_getElem?.mp hw
  exact (foldl_smallStep_min names.enum none).1 (j, w) (List.mem_enum_iff_getElem?.mpr hj) hl

/-- What the scan finds is below every live name. -/
theorem findSmallest_min {names : List (List Char)} {i : Nat} {small : List Char}
    (h : findSmallest names = some (i, small)) :
    ∀ w ∈ names, isLive w = true → wcsLower small ≤ wcsLower w := by
  intro w hw hl
  obtain ⟨x, hx, hle⟩ := findSmallest_le hw hl
  rw [h, Option.some.injEq] at hx
  subst hx
  exact hle

/-- When the scan finds nothing, every name is a tombstone. -/
theorem findSmallest_none {names : List (List Char)} (h : findSmallest names = none) :
    ∀ w ∈ names, isLive w = false := fun w hw => by
  rw [Bool.eq_false_iff]
  intro hl
  obtain ⟨x, hx, -⟩ := findSmallest_le hw hl
  simp [h] at hx

theorem getElem?_modify_tombstone (names : List (List Char)) (i k : Nat) :
    (names.modify tombstone i)[k]? = if i = k then names[k]?.map tombstone else names[k]? := by
  rw [List.getElem?_modify]
  split_ifs <;> cases names[k]? <;> rfl

/-- A live name after a tombstone is a live name before it, at the same place. -/
theorem getElem?_of_modify_tombstone {names : List (List Char)} {i k : Nat} {w : List Char}
    (h : (names.modify tombstone i)[k]? = some w) (hl : isLive w = true) :
    i ≠ k ∧ names[k]? = some w := by
  rw [getElem?_modify_tombstone] at h
  split_ifs at h with hik
  · obtain ⟨v, -, rfl⟩ := Option.map_eq_some'.mp h
    simp at hl
  · exact ⟨hik, h⟩

theorem mem_of_mem_modify_tombstone {names : List (List Char)} {i : Nat} {w : List Char}
    (h : w ∈ names.modify tombstone i) (hl : isLive w = true) : w ∈ names := by
  obtain ⟨k, hk⟩ := List.mem_iff_getElem?.mp h
  exact List.mem_iff_getElem?.mpr ⟨k, (getElem?_of_modify_tombstone hk hl).2⟩

/-- What the loop of `Scm_GetAllServices` keeps: the names are the input's with some
tombstoned; the output is sorted up to case, below every live name, made of live input
names, and holds `last`; and every live input name is still live or is in the output up to
case. -/
structure GetAllInv (orig names : List (List Char)) (last : Option (List Char))
    (out : List (List Char)) : Prop where
  entry : ∀ (k : Nat) w, names[k]? = some w → isLive w = true → orig[k]? = some w
  last_mem : ∀ l, last = some l → l ∈ out
  sorted : out.Pairwise fun a b => wcsLower a ≤ wcsLower b
  below : ∀ o ∈ out, ∀ w ∈ names, isLive w = true → wcsLower o ≤ wcsLower w
  sound : ∀ o ∈ out, o ∈ orig ∧ isLive o = true
  complete : ∀ (k : Nat) w, orig[k]? = some w → isLive w = true →
    names[k]? = some w ∨ ∃ o ∈ out, wcsLower o = wcsLower w

theorem GetAllInv.init (orig : List (List Char)) : GetAllInv orig orig none [] :=
  ⟨fun _ _ h _ => h, by simp, List.Pairwise.nil, by simp, by simp, fun _ _ h _ => .inl h⟩

section Round

variable {orig names : List (List Char)} {last : Option (List Char)} {out : List (List Char)}
  {i : Nat} {small : List Char}

/-- The completeness part of a round: the tombstoned name is in the output up to case. -/
theorem GetAllInv.round {out' : List (List Char)} (inv : GetAllInv orig names last out)
    (hs : findSmallest names = some (i, small))
    (hcomplete : ∃ o ∈ out', wcsLower o = wcsLower small)
    (hout : ∀ o ∈ out, o ∈ out') :
    ∀ (k : Nat) w, orig[k]? = some w → isLive w = true →
      (names.modify tombstone i)[k]? = some w ∨ ∃ o ∈ out', wcsLower o = wcsLower w := by
  obtain ⟨hi, hsmall, -⟩ := findSmallest_live hs
  intro k w hk hl
  rcases inv.complete k w hk hl with hn | ⟨o, ho, heq⟩
  · by_cases hik : i = k
    · subst hik
      right
      rw [List.getElem?_eq_getElem hi, hsmall, Option.some.injEq] at hn
      subst hn
      exact hcomplete
    · left
      rw [getElem?_modify_tombstone, if_neg hik, hn]
  · exact .inr ⟨o, hout o ho, heq⟩

/-- A round that appends `small` keeps the invariant. -/
theorem GetAllInv.emit (inv : GetAllInv orig names last out)
    (hs : findSmallest names = some (i, small)) :
    GetAllInv orig (names.modify tombstone i) (some small) (out ++ [small]) := by
  obtain ⟨hi, hsmall, hlive⟩ := findSmallest_live hs
  have hmem : small ∈ names := hsmall ▸ List.getElem_mem hi
  refine ⟨fun k w h hl => inv.entry k w (getElem?_of_modify_tombstone h hl).2 hl,
    by simp, ?_, ?_, ?_, inv.round hs ⟨small, by simp, rfl⟩ (by simp_all)⟩
  · exact List.pairwise_append.mpr ⟨inv.sorted, List.pairwise_singleton _ _,
      fun o ho _ h => (List.mem_singleton.mp h) ▸ inv.below o ho small hmem hlive⟩
  · intro o ho w hw hl
    have hw' := mem_of_mem_modify_tombstone hw hl
    rcases List.mem_append.mp ho with ho | ho
    · exact inv.below o ho w hw' hl
    · rw [List.mem_singleton.mp ho]; exact findSmallest_min hs w hw' hl
  · intro o ho
    rcases List.mem_append.mp ho with ho | ho
    · exact inv.sound o ho
    · rw [List.mem_singleton.mp ho]
      exact ⟨List.mem_iff_getElem?.mpr ⟨i, inv.entry i small (by simp [hi, hsmall]) hlive⟩,
        hlive⟩

/-- A round that drops `small` as a repeat of `last` keeps the invariant. -/
theorem GetAllInv.skip {l : List Char} (inv : GetAllInv orig names (some l) out)
    (hs : findSmallest names = some (i, small)) (hhead : small.head? = l.head?)
    (htail : wcsicmp small.tail l.tail = .eq) :
    GetAllInv orig (names.modify tombstone i) (some l) out := by
  have hl := inv.last_mem l rfl
  have heq : wcsLower l = wcsLower small := by
    rw [wcsicmp_eq_eq] at htail
    cases small <;> cases l <;> simp_all
  exact ⟨fun k w h hl => inv.entry k w (getElem?_of_modify_tombstone h hl).2 hl, inv.last_mem,
    inv.sorted, fun o ho w hw hl => inv.below o ho w (mem_of_mem_modify_tombstone hw hl) hl,
    inv.sound, inv.round hs ⟨l, hl, heq⟩ (fun _ h => h)⟩

end Round

/-- Whatever the loop returns from a state of the invariant is sorted up to case, made of
live input names, and holds every live input name up to case. -/
theorem getAllLoop_spec (orig : List (List Char)) :
    ∀ (fuel : Nat) (names : List (List Char)) (last : Option (List Char))
      (out res : List (List Char)), GetAllInv orig names last out →
      getAllLoop fuel names last out = some res →
        res.Pairwise (fun a b => wcsLower a ≤ wcsLower b) ∧
        (∀ o ∈ res, o ∈ orig ∧ isLive o = true) ∧
        ∀ w ∈ orig, isLive w = true → ∃ o ∈ res, wcsLower o = wcsLower w
  | 0, _, _, _, _, _, h => by cases h
  | fuel + 1, names, last, out, res, inv, h => by
    unfold getAllLoop at h
    split at h
    next hs =>
      cases h
      refine ⟨inv.sorted, inv.sound, fun w hw hl => ?_⟩
      obtain ⟨k, hk⟩ := List.mem_iff_getElem?.mp hw
      rcases inv.complete k w hk hl with hn | ho
      · exact absurd (findSmallest_none hs w (List.mem_iff_getElem?.mpr ⟨k, hn⟩)) (by simp [hl])
      · exact ho
    next i small hs =>
      split at h
      next l =>
        split_ifs at h with hdup
        · exact getAllLoop_spec orig fuel _ _ _ _ (inv.skip hs hdup.1 hdup.2) h
        · exact getAllLoop_spec orig fuel _ _ _ _ (inv.emit hs) h
      next => exact getAllLoop_spec orig fuel _ _ _ _ (inv.emit hs) h

/-- `Scm_GetAllServices` returns a list sorted under `_wcsicmp`, made of names of the two
lists that are not tombstones, and holding every such name up to case. -/
theorem Scm_GetAllServices_spec (true_names copy_names : List (List Char)) :
    ∃ out, Scm_GetAllServices true_names copy_names = some out ∧
      out.Pairwise (fun a b => wcsLower a ≤ wcsLower b) ∧
      (∀ o ∈ out, o ∈ true_names ++ copy_names ∧ isLive o = true) ∧
      ∀ w ∈ true_names ++ copy_names, isLive w = true → ∃ o ∈ out, wcsLower o = wcsLower w := by
  obtain ⟨out, hout⟩ := Option.isSome_iff_exists.mp
    (Scm_GetAllServices_isSome true_names copy_names)
  exact ⟨out, hout, getAllLoop_spec _ _ _ _ _ _ (GetAllInv.init _) hout⟩

end Sandboxie
