import Sandboxie.PathTree

/-!
# Deleted registry keys and values (`key_del.c`)

Each sandboxed process keeps the registry's deletion marks in its own path tree
`Key_PathRoot`, loaded from the box's `RegPaths.dat` and saved back to it, with the
file's (size, date) signature cached in `Key_PathsFileSize` and `Key_PathsFileDate`.
A key is a tree path `K`; a value `V` of `K` is the tree path `K\$V`.

This module is one process: the file functions as state transformers of the process's
globals and the file, and the lookups of `Key_IsDeletedEx_v2`. The processes that share
the file are `Sandboxie.KeyStore`.

* `Key_IsDeletedEx_v2_markDeleted`: marking value `V` of `K` leaves the answer for a subkey
  `K\S` or a value `K\$V'` alone unless `K\$V` is that path or one of its ancestors,
  segment by segment and up to case.
* `Key_IsDeletedEx_v2_collisions`: a subkey named `$V`, the subkey `$` against the default
  value, and a value name `V\x` are such paths.
* `Key_MarkDeletedEx_v2_twice`: marking the same key or value again changes neither the
  process nor the file.
* `Key_HasDeleted_v2_after_mark`: after a mark below `K`, `K` reports deleted children
  unless it or an ancestor is itself deleted or relocated.
* `Key_SetRelocation_spec`: a relocation is read back by `Key_GetRelocation` and deletes
  nothing.
-/

namespace Sandboxie

/-! ## The store and the globals of one process -/

/-- `RegPaths.dat` as the file system holds it: its lines and its modification date,
which moves forward with every write. -/
structure RegPathsFile where
  lines : List PathLine
  date : Nat
deriving DecidableEq, Repr

/-- `File_GetAttributes_internal (KEY_PATH_FILE_NAME, &size, &date, NULL)`; the line count
stands for the size. -/
def RegPathsFile.attributes (F : RegPathsFile) : Nat × Nat := (F.lines.length, F.date)

/-- The globals of `key_del.c` in one process. -/
structure KeyState where
  Key_PathRoot : PathTree
  Key_PathsFileSize : Nat
  Key_PathsFileDate : Nat
  Key_PathsVersion : Nat

/-- The cached signature of a process: `(Key_PathsFileSize, Key_PathsFileDate)`. -/
def KeyState.signature (st : KeyState) : Nat × Nat := (st.Key_PathsFileSize, st.Key_PathsFileDate)

/-- Store the file's current signature in the cache. -/
def KeyState.setSignature (st : KeyState) (F : RegPathsFile) : KeyState :=
  { st with Key_PathsFileSize := F.attributes.1, Key_PathsFileDate := F.attributes.2 }

@[simp] theorem KeyState.signature_setSignature (st : KeyState) (F : RegPathsFile) :
    (st.setSignature F).signature = F.attributes := rfl

@[simp] theorem KeyState.root_setSignature (st : KeyState) (F : RegPathsFile) :
    (st.setSignature F).Key_PathRoot = st.Key_PathRoot := rfl

/-! ## The functions of `key_del.c` -/

/-- `Key_LoadPathTree`: reload the tree from the file. -/
def Key_LoadPathTree (st : KeyState) (F : RegPathsFile) : KeyState :=
  { st with Key_PathRoot := File_LoadPathTree_internal F.lines,
            Key_PathsVersion := st.Key_PathsVersion + 1 }

/-- `Key_SavePathTree`: rewrite the whole file from this process's tree and cache the new
signature. -/
def Key_SavePathTree (st : KeyState) (F : RegPathsFile) : KeyState × RegPathsFile :=
  let F' : RegPathsFile := ⟨File_SavePathTree_internal st.Key_PathRoot, F.date + 1⟩
  ({ st.setSignature F' with Key_PathsVersion := st.Key_PathsVersion + 1 }, F')

/-- `Key_RefreshPathTree` up to its call of `Key_LoadPathTree`, `changed` being what
`File_TestBoxRootChange(1)` answers: when the box root changed and the file's signature, read
outside `KEY_VCM_MUTEX`, is not the cached one, cache it; `true` when the reload follows. -/
def Key_RefreshPathTree (changed : Bool) (st : KeyState) (F : RegPathsFile) : KeyState × Bool :=
  if changed && st.signature ≠ F.attributes then (st.setSignature F, true) else (st, false)

/-- The first half of `Key_RefreshPathTree` caches the file's signature and hands over to the
reload, or leaves the process as it was, which happens only without the change signal or
when the process already caches the file's signature. -/
theorem Key_RefreshPathTree_cases (changed : Bool) (st : KeyState) (F : RegPathsFile) :
    Key_RefreshPathTree changed st F = (st.setSignature F, true) ∨
      (Key_RefreshPathTree changed st F = (st, false) ∧
        (changed = true → st.signature = F.attributes)) := by
  unfold Key_RefreshPathTree
  split_ifs with h
  · exact .inl rfl
  · exact .inr ⟨rfl, fun hc => by simpa [hc] using h⟩

/-- `Key_InitDelete_v2`: `Key_LoadPathTree` of the file `Fload` under `KEY_VCM_MUTEX`, then,
once the mutex is released, the signature of the file `Fstat`, a later one when another
process wrote in between. -/
def Key_InitDelete_v2 (Fload Fstat : RegPathsFile) : KeyState :=
  (Key_LoadPathTree ⟨PathTree.empty, 0, 0, 0⟩ Fload).setSignature Fstat

/-- The tree path `Key_MarkDeletedEx_v2` builds: the key, or `TruePath\$ValueName`. -/
def Key_FullPath (TruePath : List Char) : Option (List Char) → List Char
  | none => TruePath
  | some ValueName => TruePath ++ '\\' :: '$' :: ValueName

/-- `Key_MarkDeletedEx_v2`: mark the key or value deleted in the tree and persist the mark,
by appending one line when nothing was cut off and the file still has the cached
signature, by `Key_SavePathTree` otherwise. -/
def Key_MarkDeletedEx_v2 (st : KeyState) (F : RegPathsFile) (TruePath : List Char)
    (ValueName : Option (List Char)) : KeyState × RegPathsFile :=
  let FullPath := Key_FullPath TruePath ValueName
  let (bSet, bTruncated, root) := File_MarkDeleted_internal st.Key_PathRoot FullPath
  let st := { st with Key_PathRoot := root }
  if bSet then
    if !bTruncated && st.signature = F.attributes then
      let F' : RegPathsFile := ⟨F.lines ++ [deletedLine FullPath], F.date + 1⟩
      ({ st.setSignature F' with Key_PathsVersion := st.Key_PathsVersion + 1 }, F')
    else Key_SavePathTree st F
  else (st, F)

/-- `Key_GetPathFlags`: the lookup in the process's tree. Its opening
`Key_RefreshPathTree()` is a step of its own in `Sandboxie.KeyStore`. -/
def Key_GetPathFlags (st : KeyState) (Path : List Char) : PathFlags × Option (List Char) :=
  File_GetPathFlags_internal st.Key_PathRoot Path true

/-- `Key_IsDeleted_v2`: the deleted bits of the lookup. -/
def Key_IsDeleted_v2 (st : KeyState) (TruePath : List Char) : PathFlags :=
  (Key_GetPathFlags st TruePath).1.deletedMask

/-- The tree path `Key_IsDeletedEx_v2` builds: `TruePath\$ValueName` for a value,
`TruePath\ValueName` for a subkey. -/
def Key_QueryPath (TruePath : List Char) (ValueName : Option (List Char)) (IsValue : Bool) :
    List Char :=
  match ValueName with
  | none => TruePath
  | some v => TruePath ++ (if IsValue then ['\\', '$'] else ['\\']) ++ v

/-- `Key_IsDeletedEx_v2`. -/
def Key_IsDeletedEx_v2 (st : KeyState) (TruePath : List Char) (ValueName : Option (List Char))
    (IsValue : Bool) : PathFlags :=
  Key_IsDeleted_v2 st (Key_QueryPath TruePath ValueName IsValue)

/-- `Key_HasDeleted_v2`: some key or value below is marked. -/
def Key_HasDeleted_v2 (st : KeyState) (TruePath : List Char) : Bool :=
  (Key_GetPathFlags st TruePath).1.childrenDeleted

/-- `Key_SetRelocation`: record the relocation in the tree and rewrite the whole file. -/
def Key_SetRelocation (st : KeyState) (F : RegPathsFile) (OldTruePath NewTruePath : List Char) :
    KeyState × RegPathsFile :=
  Key_SavePathTree
    { st with Key_PathRoot := File_SetRelocation_internal st.Key_PathRoot OldTruePath NewTruePath } F

/-- `Key_GetRelocation`: the relocation the lookup returns when `KEY_PATH_RELOCATED(Flags)`,
whose mask holds the ancestor bit too, so a path below a relocated one gets the relocation
with the rest of its path appended, though the comment says only the actual path does. -/
def Key_GetRelocation (st : KeyState) (TruePath : List Char) : Option (List Char) :=
  let (Flags, OldTruePath) := Key_GetPathFlags st TruePath
  if Flags.isPathRelocated then OldTruePath else none

/-- `Key_ResolveTruePath`: the relocation, from the path's entry or an ancestor's, and the
flags. -/
def Key_ResolveTruePath (st : KeyState) (TruePath : List Char) : Option (List Char) × PathFlags :=
  let (Flags, OldTruePath) := Key_GetPathFlags st TruePath
  (OldTruePath, Flags)

/-! ## What a mark does to the process's tree -/

/-- Whatever branch persists it, a mark changes the process's tree by
`File_MarkDeleted_internal`. -/
theorem Key_MarkDeletedEx_v2_root (st : KeyState) (F : RegPathsFile) (K : List Char)
    (V : Option (List Char)) :
    (Key_MarkDeletedEx_v2 st F K V).1.Key_PathRoot =
      (File_MarkDeleted_internal st.Key_PathRoot (Key_FullPath K V)).2.2 := by
  simp only [Key_MarkDeletedEx_v2, Key_SavePathTree]
  split_ifs <;> rfl

/-- A mark changes the deleted bits of a path only when it is at or above that path. -/
theorem Key_IsDeleted_v2_markDeleted (st : KeyState) (F : RegPathsFile) (K : List Char)
    (V : Option (List Char)) (Q : List Char) :
    Key_IsDeleted_v2 (Key_MarkDeletedEx_v2 st F K V).1 Q = Key_IsDeleted_v2 st Q ∨
      pathKey (Key_FullPath K V) <+: pathKey Q := by
  by_cases hP : pathKey (Key_FullPath K V) <+: pathKey Q
  · exact .inr hP
  · left
    simp only [Key_IsDeleted_v2, Key_GetPathFlags, Key_MarkDeletedEx_v2_root]
    exact deletedMask_markDeleted_of_not_ancestor hP true

/-- After a mark, a path reports deleted exactly when it did before or the marked key or
value is the path or one of its ancestors, segment by segment and up to case. -/
theorem Key_IsDeleted_v2_after_mark (st : KeyState) (F : RegPathsFile) (K : List Char)
    (V : Option (List Char)) (Q : List Char) :
    (Key_IsDeleted_v2 (Key_MarkDeletedEx_v2 st F K V).1 Q).isPathDeleted =
      ((Key_IsDeleted_v2 st Q).isPathDeleted || decide (pathKey (Key_FullPath K V) <+: pathKey Q)) := by
  simp only [Key_IsDeleted_v2, Key_GetPathFlags, PathFlags.isPathDeleted_deletedMask,
    isPathDeleted_getPathFlags,
    Key_MarkDeletedEx_v2_root, deletedAt_markDeleted]

/-- Marking the same key or value a second time changes nothing: the mark is found set, so
neither the process's globals nor the file are written. -/
theorem Key_MarkDeletedEx_v2_twice (st : KeyState) (F : RegPathsFile) (K : List Char)
    (V : Option (List Char)) :
    let r := Key_MarkDeletedEx_v2 st F K V
    Key_MarkDeletedEx_v2 r.1 r.2 K V = r := by
  have hroot := Key_MarkDeletedEx_v2_root st F K V
  dsimp only
  generalize Key_MarkDeletedEx_v2 st F K V = r at hroot ⊢
  obtain ⟨st1, F1⟩ := r
  dsimp only at hroot
  simp only [Key_MarkDeletedEx_v2, hroot, markDeleted_markDeleted]
  rw [← hroot]
  rfl

/-- After a key or value below `K` is marked, `Key_HasDeleted_v2` reports deleted children
of `K` exactly when the lookup of `K` before the mark found nothing final: no deleted or
relocated entry at `K` or above it. -/
theorem Key_HasDeleted_v2_after_mark (st : KeyState) (F : RegPathsFile) (C : List Char)
    (V : Option (List Char)) (K : List Char)
    (hK : pathKey K <+: pathKey (Key_FullPath C V))
    (hlt : (pathKey K).length < (pathKey (Key_FullPath C V)).length) :
    Key_HasDeleted_v2 (Key_MarkDeletedEx_v2 st F C V).1 K =
      !(let f := (Key_GetPathFlags st K).1
        f.deleted || f.relocation || f.pathDeleted || f.pathRelocated) := by
  have hP : ¬ pathKey (Key_FullPath C V) <+: pathKey K := fun h => by
    have := h.length_le; omega
  -- the marked entry lies strictly below `K`
  obtain ⟨n, hn, hk⟩ : ∃ n ∈ (File_MarkDeleted_internal st.Key_PathRoot
      (Key_FullPath C V)).2.2.nodes, n.key = pathKey (Key_FullPath C V) :=
    exists_key_setFlags true none
  have hd := (marks_setFlags_of_key hn hk).1 rfl
  have hbelow : ((File_MarkDeleted_internal st.Key_PathRoot (Key_FullPath C V)).2.2.nodes.any
      fun n => decide (pathKey K <+: n.key) && decide ((pathKey K).length < n.key.length) &&
        (n.deleted || n.relocation.isSome)) = true :=
    List.any_eq_true.mpr ⟨n, hn, by simp [hk, hK, hlt, hd]⟩
  rw [Key_HasDeleted_v2, Key_GetPathFlags, Key_MarkDeletedEx_v2_root, childrenDeleted_getPathFlags,
    onPath_markDeleted_of_not_ancestor hP, hbelow, Key_GetPathFlags, found_getPathFlags,
    Bool.true_and, Bool.and_true]

theorem Key_HasDeleted_v2_after_mark_sub :
    let K := "\\REGISTRY\\USER\\S".toList
    let C := "\\REGISTRY\\USER\\S\\A".toList
    pathKey K <+: pathKey (Key_FullPath C none) ∧
      (pathKey K).length < (pathKey (Key_FullPath C none)).length ∧
      Key_HasDeleted_v2
          (Key_MarkDeletedEx_v2 (Key_InitDelete_v2 ⟨[], 0⟩ ⟨[], 0⟩) ⟨[], 0⟩ C none).1 K =
        !(let f := (Key_GetPathFlags (Key_InitDelete_v2 ⟨[], 0⟩ ⟨[], 0⟩) K).1
          f.deleted || f.relocation || f.pathDeleted || f.pathRelocated) :=
  ⟨by decide, by decide, Key_HasDeleted_v2_after_mark _ _ _ _ _ (by decide) (by decide)⟩

/-- Marking value `V` of `K` deleted leaves what `Key_IsDeletedEx_v2` reports for a subkey
`K\S`, and for a value `V'` of `K`, as it was, unless the value's tree path `K\$V` is,
segment by segment and up to case, the queried path or one of its ancestors. -/
theorem Key_IsDeletedEx_v2_markDeleted (st : KeyState) (F : RegPathsFile)
    (K V S V' : List Char) :
    (Key_IsDeletedEx_v2 (Key_MarkDeletedEx_v2 st F K (some V)).1 K (some S) false =
        Key_IsDeletedEx_v2 st K (some S) false ∨
      pathKey (K ++ '\\' :: '$' :: V) <+: pathKey (K ++ '\\' :: S)) ∧
    (Key_IsDeletedEx_v2 (Key_MarkDeletedEx_v2 st F K (some V)).1 K (some V') true =
        Key_IsDeletedEx_v2 st K (some V') true ∨
      pathKey (K ++ '\\' :: '$' :: V) <+: pathKey (K ++ '\\' :: '$' :: V')) :=
  ⟨by simpa [Key_IsDeletedEx_v2, Key_QueryPath] using
      Key_IsDeleted_v2_markDeleted st F K (some V) (K ++ '\\' :: S),
    by simpa [Key_IsDeletedEx_v2, Key_QueryPath] using
      Key_IsDeleted_v2_markDeleted st F K (some V) (K ++ '\\' :: '$' :: V')⟩

/-- The `$` prefix does not keep values and subkeys apart: a subkey named `$v` is the value
`v`, the subkey `$` is the default value, and the value `v\x` lies below the value `v`. -/
theorem Key_IsDeletedEx_v2_collisions :
    let K := "\\REGISTRY\\USER\\S".toList
    let st := Key_InitDelete_v2 ⟨[], 0⟩ ⟨[], 0⟩
    Key_IsDeletedEx_v2 (Key_MarkDeletedEx_v2 st ⟨[], 0⟩ K (some ['v'])).1 K (some ['$', 'v']) false ≠
        Key_IsDeletedEx_v2 st K (some ['$', 'v']) false ∧
      Key_IsDeletedEx_v2 (Key_MarkDeletedEx_v2 st ⟨[], 0⟩ K (some [])).1 K (some ['$']) false ≠
        Key_IsDeletedEx_v2 st K (some ['$']) false ∧
      Key_IsDeletedEx_v2 (Key_MarkDeletedEx_v2 st ⟨[], 0⟩ K (some ['v'])).1 K
          (some ['v', '\\', 'x']) true ≠
        Key_IsDeletedEx_v2 st K (some ['v', '\\', 'x']) true := by
  decide

/-- `Key_GetRelocation` returns the relocation just recorded, and recording it changes no
path's deletion status. -/
theorem Key_SetRelocation_spec (st : KeyState) (F : RegPathsFile) (Old New : List Char) :
    Key_GetRelocation (Key_SetRelocation st F Old New).1 Old = some New ∧
      ∀ Q, (Key_IsDeleted_v2 (Key_SetRelocation st F Old New).1 Q).isPathDeleted =
        (Key_IsDeleted_v2 st Q).isPathDeleted := by
  refine ⟨?_, fun Q => ?_⟩
  · simp only [Key_GetRelocation, Key_GetPathFlags, Key_SetRelocation, Key_SavePathTree,
      KeyState.root_setSignature, PathFlags.isPathRelocated, relocation_getPathFlags_setRelocation,
      Bool.true_or, if_true]
    exact relocationOf_setRelocation New
  · simp only [Key_IsDeleted_v2, Key_GetPathFlags, PathFlags.isPathDeleted_deletedMask,
      isPathDeleted_getPathFlags,
      Key_SetRelocation, Key_SavePathTree, KeyState.root_setSignature, deletedAt_setRelocation]

/-! ## A mark by a process that is up to date -/

/-- The process's tree marks exactly the paths the tree loaded from the file marks. -/
def KeyState.Agrees (st : KeyState) (F : RegPathsFile) : Prop :=
  ∀ Q, st.Key_PathRoot.deletedAt Q = (File_LoadPathTree_internal F.lines).deletedAt Q

/-- A mark by a process that caches the file's signature and agrees with the file: whichever
branch it takes, the file afterwards marks the path and what it marked before, the process
still caches the file's signature and agrees with it, and the file is unchanged or one date
newer. -/
theorem Key_MarkDeletedEx_v2_upToDate {st : KeyState} {F : RegPathsFile} (K : List Char)
    (V : Option (List Char)) (hsig : st.signature = F.attributes) (hag : st.Agrees F) :
    let r := Key_MarkDeletedEx_v2 st F K V
    r.1.signature = r.2.attributes ∧ r.1.Agrees r.2 ∧
      (∀ Q, (File_LoadPathTree_internal r.2.lines).deletedAt Q =
        ((File_LoadPathTree_internal F.lines).deletedAt Q ||
          decide (pathKey (Key_FullPath K V) <+: pathKey Q))) ∧
      (r.2 = F ∨ r.2.date = F.date + 1) := by
  have hdel := fun Q => deletedAt_markDeleted (t := st.Key_PathRoot) (P := Key_FullPath K V) (Q := Q)
  have hunset := fun Q => deletedAt_of_markDeleted_unset (t := st.Key_PathRoot)
    (P := Key_FullPath K V) (Q := Q)
  simp only [Key_MarkDeletedEx_v2]
  generalize File_MarkDeleted_internal st.Key_PathRoot (Key_FullPath K V) = m at hdel hunset
  obtain ⟨bSet, bTruncated, root⟩ := m
  simp only at hdel hunset
  split_ifs with hset happend
  · -- one appended line
    refine ⟨rfl, fun Q => ?_, fun Q => ?_, .inr rfl⟩ <;>
      simp [hdel, hag Q, deletedAt_loadPathTree, deletedLine, List.any_append]
  · -- the whole file rewritten from the process's tree
    refine ⟨rfl, fun Q => ?_, fun Q => ?_, .inr rfl⟩ <;>
      simp [hdel, hag Q, deletedAt_load_save, Key_SavePathTree]
  · -- the path was deleted already: nothing to write
    have hkeep : ∀ Q, ((File_LoadPathTree_internal F.lines).deletedAt Q ||
        decide (pathKey (Key_FullPath K V) <+: pathKey Q)) =
        (File_LoadPathTree_internal F.lines).deletedAt Q := by
      intro Q
      by_cases hPQ : pathKey (Key_FullPath K V) <+: pathKey Q
      · rw [← hag Q, hunset Q (by simpa using hset) hPQ]; rfl
      · simp [hPQ]
    exact ⟨hsig, fun Q => by simp only [hdel, hag Q, hkeep], fun Q => (hkeep Q).symm, .inl rfl⟩

/-- A relocation by a process that agrees with the file: it rewrites the file from its tree,
so it caches the new signature and agrees with the new file, whose deleted paths are the
old file's. -/
theorem Key_SetRelocation_upToDate {st : KeyState} {F : RegPathsFile} (Old New : List Char)
    (hag : st.Agrees F) :
    let r := Key_SetRelocation st F Old New
    r.1.signature = r.2.attributes ∧ r.1.Agrees r.2 ∧
      (∀ Q, (File_LoadPathTree_internal r.2.lines).deletedAt Q =
        (File_LoadPathTree_internal F.lines).deletedAt Q) ∧
      r.2.date = F.date + 1 :=
  ⟨rfl, fun Q => by simp [Key_SetRelocation, Key_SavePathTree, deletedAt_load_save],
    fun Q => by simp [Key_SetRelocation, Key_SavePathTree, deletedAt_load_save, hag Q], rfl⟩

end Sandboxie
