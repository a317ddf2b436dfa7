import Sandboxie.Snapshot

/-!
# Resolving a path through the snapshot layers (`file_snapshots.c`)

`File_GetPathFlagsEx` asks the active box's tree about a true path, and, unless that
answer is final, walks the snapshots from the newest: in each it first probes whether the
copy path, rewritten into the snapshot's directory, exists, then asks the snapshot's tree.
A relocation one layer records rewrites the true and copy path the older layers see.

`snapshotWalk` and `resolveLayers` state this walk layer by layer; the faithful model
keeps the loop's locals (`TruePath`, `CopyPath`, `TmplRelocation`, `Relocation`,
`Flags`) and its `break` when a copy path lies outside the box.

* `File_GetPathFlagsEx_eq_walk`: for a copy path in the box, `File_GetPathFlagsEx` is the
  layer-by-layer walk, for every chain, every tree, every existence oracle and every stop
  snapshot.
* `File_GetPathFlagsEx_findSnapshotPath`: when no layer marks or relocates the path,
  `File_GetPathFlagsEx` finds the snapshot copy `File_FindSnapshotPath` finds.
* `File_GetPathFlagsEx_final`: once the walk up to a stop snapshot reports the path deleted
  or in a snapshot, walking further, to a later stop snapshot or to the end, changes
  nothing.
-/

namespace Sandboxie

/-! ## Snapshot paths -/

/-- Modelled from the spec (section 4.3): `File_FindBoxPrefix`, the length of the box root
a copy path starts with, `0` when it does not. -/
def File_FindBoxPrefix (env : FileEnv) (CopyPath : List Char) : Nat :=
  if wcsLower env.Dll_BoxFilePath <+: wcsLower CopyPath then env.Dll_BoxFilePath.length else 0

/-- `File_MakeSnapshotPath`: insert `snapshot-<ID>\` after the box root and its separator.
When the copy path is the box root itself, `wcsncpy` ends the copy at the root. -/
def File_MakeSnapshotPath (env : FileEnv) (Cur_Snapshot : FILE_SNAPSHOT) (CopyPath : List Char) :
    Option (List Char) :=
  let prefixLen := File_FindBoxPrefix env CopyPath
  if prefixLen = 0 then none
  else if CopyPath.length ≤ prefixLen then some CopyPath
  else some (CopyPath.take (prefixLen + 1) ++ File_Snapshot_Prefix ++ Cur_Snapshot.ID ++
    CopyPath.drop prefixLen)

/-- A copy path in the box always has a snapshot path. -/
theorem File_MakeSnapshotPath_isSome (env : FileEnv) (Cur : FILE_SNAPSHOT) {CopyPath : List Char}
    (h : wcsLower env.Dll_BoxFilePath <+: wcsLower CopyPath) :
    (File_MakeSnapshotPath env Cur CopyPath).isSome := by
  have hlen : env.Dll_BoxFilePath.length ≠ 0 := by
    simpa [List.length_eq_zero] using env.Dll_BoxFilePath_ne
  simp only [File_MakeSnapshotPath, File_FindBoxPrefix, if_pos h, hlen, if_false]
  split_ifs <;> rfl

/-- `File_FindSnapshotPath`: the first snapshot path of a copy path missing from the box
that exists, newest snapshot first. -/
def File_FindSnapshotPath (env : FileEnv) (chain : List FILE_SNAPSHOT) (CopyPath : List Char) :
    Option (List Char) :=
  if env.File_GetFileType CopyPath then none
  else go chain
where
  go : List FILE_SNAPSHOT → Option (List Char)
    | [] => none
    | Cur :: rest => match File_MakeSnapshotPath env Cur CopyPath with
      | none => none
      | some TmplName => if env.File_GetFileType TmplName then some TmplName else go rest

/-! ## `File_GetPathFlagsEx` -/

/-- The snapshots the loop `for (Cur = File_Snapshot; Cur != lastSnapshot; Cur = Parent)`
visits, `lastSnapshot` being the index of a snapshot of the chain or `NULL`. -/
def chainBefore (chain : List FILE_SNAPSHOT) : Option Nat → List FILE_SNAPSHOT
  | none => chain
  | some k => chain.take k

/-- The locals of `File_GetPathFlagsEx` that its snapshot loop updates. -/
structure PathFlagsLocals where
  TruePath : List Char
  CopyPath : Option (List Char)
  TmplRelocation : Option (List Char)
  Relocation : Option (List Char)
  Flags : PathFlags

/-- The part of a pass after the existence probe: with `File_Delete_v2`, the snapshot's
tree; `.inl` leaves the loop. -/
def snapshotTreePass (env : FileEnv) (Cur : FILE_SNAPSHOT) (l : PathFlagsLocals) :
    PathFlagsLocals ⊕ PathFlagsLocals :=
  if env.File_Delete_v2 then
    let (Flags, TmplRelocation) :=
      File_GetPathFlags_internal Cur.PathRoot (env.File_NormalizePath l.TruePath) true
    let l := { l with Flags, TmplRelocation, Relocation := TmplRelocation <|> l.Relocation }
    if Flags.isPathDeleted then .inl l else .inr l
  else .inr l

/-- One pass of the snapshot loop for `Cur_Snapshot`: follow the newer layer's relocation,
probe the snapshot's copy, then its tree. `.inl` leaves the loop (`goto complete` or
`break`), `.inr` goes on to the parent. -/
def snapshotPass (env : FileEnv) (Cur : FILE_SNAPSHOT) (l : PathFlagsLocals) :
    PathFlagsLocals ⊕ PathFlagsLocals :=
  let l := match l.TmplRelocation with
    | some r => { l with TruePath := r, CopyPath := l.CopyPath.map fun _ => env.File_GetName r }
    | none => l
  match l.CopyPath with
  | none => snapshotTreePass env Cur l
  | some CopyPath =>
    match File_MakeSnapshotPath env Cur CopyPath with
    | none => .inl l
    | some TmplName =>
      if env.File_GetFileType TmplName then
        .inl { l with Flags := { l.Flags with inSnapshot := true }, Relocation := some TmplName }
      else snapshotTreePass env Cur l

/-- The snapshot loop of `File_GetPathFlagsEx`. -/
def snapshotLoop (env : FileEnv) : List FILE_SNAPSHOT → PathFlagsLocals → PathFlagsLocals
  | [], l => l
  | Cur :: rest, l => match snapshotPass env Cur l with
    | .inl l => l
    | .inr l => snapshotLoop env rest l

/-- `File_GetPathFlagsEx (TruePath, CopyPath, pRelocation, lastSnapshot)` on the chain
`chain`: the flags, and `*pRelocation` afterwards, `R0` being its value before. -/
def File_GetPathFlagsEx (env : FileEnv) (chain : List FILE_SNAPSHOT) (TruePath : List Char)
    (CopyPath : Option (List Char)) (R0 : Option (List Char)) (lastSnapshot : Option Nat) :
    PathFlags × Option (List Char) :=
  let (Flags, Relocation) := if env.File_Delete_v2 then
      File_GetPathFlags_internal env.File_PathRoot (env.File_NormalizePath TruePath) true
    else ({}, none)
  if chain.isEmpty || Flags.isPathDeleted then (Flags, Relocation)
  else
    let l := snapshotLoop env (chainBefore chain lastSnapshot)
      ⟨TruePath, CopyPath, Relocation, Relocation, Flags⟩
    (l.Flags, l.Relocation <|> R0)

/-- `File_ResolveTruePath`: the relocation, and the flags. -/
def File_ResolveTruePath (env : FileEnv) (chain : List FILE_SNAPSHOT) (TruePath : List Char)
    (CopyPath : Option (List Char)) : Option (List Char) × PathFlags :=
  let r := File_GetPathFlagsEx env chain TruePath CopyPath none none
  (r.2, r.1)

/-- `File_IsDeletedEx`: the deleted bits, the walk stopping at `snapshot`. -/
def File_IsDeletedEx (env : FileEnv) (chain : List FILE_SNAPSHOT) (TruePath : List Char)
    (CopyPath : Option (List Char)) (snapshot : Option Nat) : PathFlags :=
  (File_GetPathFlagsEx env chain TruePath CopyPath none snapshot).1.deletedMask

/-! ## The walk, layer by layer -/

/-- What a layer's tree answers for a true path. -/
def layerLookup (env : FileEnv) (t : PathTree) (TruePath : List Char) :
    PathFlags × Option (List Char) :=
  File_GetPathFlags_internal t (env.File_NormalizePath TruePath) true

/-- The true and copy path a layer sees: those the newer layer saw, rewritten when that
layer recorded a relocation. -/
def seenAfter (env : FileEnv) (seen : List Char × List Char) : Option (List Char) →
    List Char × List Char
  | some r => (r, env.File_GetName r)
  | none => seen

/-- The walk over the snapshots, newest first. `seen` is what the newer layer saw,
`newer` what its tree answered, `latest` the newest relocation found. A snapshot whose
rewritten copy path exists ends the walk with the in-snapshot bit and that path; else a
snapshot whose tree marks the path deleted ends it with that tree's flags. -/
def snapshotWalk (env : FileEnv) : List FILE_SNAPSHOT → List Char × List Char →
    PathFlags × Option (List Char) → Option (List Char) → PathFlags × Option (List Char)
  | [], _, newer, latest => (newer.1, latest)
  | s :: older, seen, newer, latest =>
    let seen := seenAfter env seen newer.2
    let here := layerLookup env s.PathRoot seen.1
    let next := if here.1.isPathDeleted then (here.1, here.2 <|> latest)
      else snapshotWalk env older seen here (here.2 <|> latest)
    match File_MakeSnapshotPath env s seen.2 with
    | some t => if env.File_GetFileType t then ({ newer.1 with inSnapshot := true }, some t) else next
    | none => next

/-- The active layer, then, unless it marks the path deleted, the walk over the snapshots
before `lastSnapshot`; `*pRelocation` keeps `R0` when no layer relocates. -/
def resolveLayers (env : FileEnv) (chain : List FILE_SNAPSHOT) (TruePath CopyPath : List Char)
    (R0 : Option (List Char)) (lastSnapshot : Option Nat) : PathFlags × Option (List Char) :=
  let active := layerLookup env env.File_PathRoot TruePath
  if chain.isEmpty || active.1.isPathDeleted then active
  else
    let w := snapshotWalk env (chainBefore chain lastSnapshot) (TruePath, CopyPath) active active.2
    (w.1, w.2 <|> R0)

/-- The loop, started on the paths a layer saw and its tree's answer, is the walk. -/
theorem snapshotLoop_eq_walk (env : FileEnv) (hdel : env.File_Delete_v2 = true) :
    ∀ (snaps : List FILE_SNAPSHOT) (TruePath CopyPath : List Char)
      (newer : PathFlags × Option (List Char)) (latest : Option (List Char)),
      wcsLower env.Dll_BoxFilePath <+: wcsLower CopyPath →
      let l := snapshotLoop env snaps ⟨TruePath, some CopyPath, newer.2, latest, newer.1⟩
      (l.Flags, l.Relocation) = snapshotWalk env snaps (TruePath, CopyPath) newer latest
  | [], _, _, _, _, _ => rfl
  | s :: older, TruePath, CopyPath, newer, latest, hbox => by
    obtain ⟨f, r⟩ := newer
    -- the paths this snapshot sees, and that they lie in the box
    obtain ⟨tp, cp, hseen, hcp⟩ : ∃ tp cp, seenAfter env (TruePath, CopyPath) r = (tp, cp) ∧
        wcsLower env.Dll_BoxFilePath <+: wcsLower cp := by
      cases r with
      | none => exact ⟨_, _, rfl, hbox⟩
      | some r => exact ⟨_, _, rfl, env.copy_in_box r⟩
    obtain ⟨t, ht⟩ := Option.isSome_iff_exists.mp (File_MakeSnapshotPath_isSome env s hcp)
    have hpass : snapshotPass env s ⟨TruePath, some CopyPath, r, latest, f⟩ =
        if env.File_GetFileType t then
          .inl ⟨tp, some cp, r, some t, { f with inSnapshot := true }⟩
        else snapshotTreePass env s ⟨tp, some cp, r, latest, f⟩ := by
      cases r <;> obtain ⟨rfl, rfl⟩ := Prod.mk.inj hseen <;> simp [snapshotPass, ht]
    simp only [snapshotWalk, hseen, ht, snapshotLoop, hpass]
    by_cases hex : env.File_GetFileType t = true
    · simp only [hex, if_true]
    · simp only [hex, if_false, Bool.false_eq_true, snapshotTreePass, hdel, layerLookup]
      by_cases hd :
        (File_GetPathFlags_internal s.PathRoot (env.File_NormalizePath tp) true).1.isPathDeleted
      · simp only [hd, if_true]
      · simp only [hd, if_false, Bool.false_eq_true]
        exact snapshotLoop_eq_walk env hdel older tp cp _ _ hcp

/-- For a copy path in the box and with `File_Delete_v2`, `File_GetPathFlagsEx` is the
walk over the active layer and the snapshots before `lastSnapshot`. -/
theorem File_GetPathFlagsEx_eq_walk (env : FileEnv) (hdel : env.File_Delete_v2 = true)
    (chain : List FILE_SNAPSHOT) (TruePath CopyPath : List Char)
    (hbox : wcsLower env.Dll_BoxFilePath <+: wcsLower CopyPath)
    (R0 : Option (List Char)) (lastSnapshot : Option Nat) :
    File_GetPathFlagsEx env chain TruePath (some CopyPath) R0 lastSnapshot =
      resolveLayers env chain TruePath CopyPath R0 lastSnapshot := by
  simp only [File_GetPathFlagsEx, resolveLayers, hdel, if_true, layerLookup]
  split_ifs
  · rfl
  · have hloop := snapshotLoop_eq_walk env hdel (chainBefore chain lastSnapshot) TruePath CopyPath
      (File_GetPathFlags_internal env.File_PathRoot (env.File_NormalizePath TruePath) true)
      (File_GetPathFlags_internal env.File_PathRoot (env.File_NormalizePath TruePath) true).2 hbox
    simp only [layerLookup] at hloop
    rw [← hloop]

theorem File_GetPathFlagsEx_eq_walk_sample :
    sampleFileEnv.File_Delete_v2 = true ∧
      wcsLower sampleFileEnv.Dll_BoxFilePath <+: wcsLower "\\b\\x".toList ∧
      File_GetPathFlagsEx sampleFileEnv [makeSnapshot sampleFileEnv ['1']] "\\x".toList
          (some "\\b\\x".toList) none none =
        resolveLayers sampleFileEnv [makeSnapshot sampleFileEnv ['1']] "\\x".toList
          "\\b\\x".toList none none :=
  ⟨rfl, by decide, File_GetPathFlagsEx_eq_walk sampleFileEnv rfl _ _ _ (by decide) none none⟩

/-! ## Finding a copy in a snapshot -/

/-- Whether `File_MakeSnapshotPath` fails depends on the copy path alone, not on the
snapshot. -/
theorem File_MakeSnapshotPath_eq_none {env : FileEnv} {Cur : FILE_SNAPSHOT}
    {CopyPath : List Char} :
    File_MakeSnapshotPath env Cur CopyPath = none ↔ File_FindBoxPrefix env CopyPath = 0 := by
  simp only [File_MakeSnapshotPath]; split_ifs <;> simp_all

/-- The loop of `File_FindSnapshotPath` returns the first existing snapshot path of the
copy, newest first; its `break` cuts off nothing, since no snapshot has a path when one
has none. -/
theorem File_FindSnapshotPath_go (env : FileEnv) (CopyPath : List Char) :
    ∀ chain : List FILE_SNAPSHOT, File_FindSnapshotPath.go env CopyPath chain =
      (chain.filterMap fun s => File_MakeSnapshotPath env s CopyPath).find? env.File_GetFileType
  | [] => rfl
  | Cur :: rest => by
    rw [File_FindSnapshotPath.go, List.filterMap_cons]
    cases hc : File_MakeSnapshotPath env Cur CopyPath with
    | none =>
      have hnil : (rest.filterMap fun s => File_MakeSnapshotPath env s CopyPath) = [] :=
        List.filterMap_eq_nil_iff.mpr fun s _ =>
          File_MakeSnapshotPath_eq_none.mpr (File_MakeSnapshotPath_eq_none.mp hc)
      simp [hnil]
    | some T =>
      simp only [List.find?_cons]
      cases env.File_GetFileType T
      · exact File_FindSnapshotPath_go env CopyPath rest
      · rfl

theorem inSnapshot_getPathFlags (t : PathTree) (Path : List Char) (c : Bool) :
    (File_GetPathFlags_internal t Path c).1.inSnapshot = false := rfl

/-- With `File_Delete_v2`, none of the trees marks the true path deleted or relocates it. -/
def Unmarked (env : FileEnv) (trees : List PathTree) (TruePath : List Char) : Prop :=
  env.File_Delete_v2 = true → ∀ t ∈ trees,
    t.deletedAt (env.File_NormalizePath TruePath) = false ∧
      relocationOf t (env.File_NormalizePath TruePath) = none

instance (env : FileEnv) (trees : List PathTree) (TruePath : List Char) :
    Decidable (Unmarked env trees TruePath) :=
  inferInstanceAs (Decidable (env.File_Delete_v2 = true → ∀ t ∈ trees, _ ∧ _))

/-- On snapshots whose trees leave the path unmarked, the loop of `File_GetPathFlagsEx` only
probes: it stops at the first snapshot copy that exists, and reports it in a snapshot. -/
theorem snapshotLoop_probe (env : FileEnv) (TruePath CopyPath : List Char) :
    ∀ (snaps : List FILE_SNAPSHOT) (f : PathFlags),
      Unmarked env (snaps.map (·.PathRoot)) TruePath → f.inSnapshot = false →
      let l := snapshotLoop env snaps ⟨TruePath, some CopyPath, none, none, f⟩
      l.Relocation = (snaps.filterMap fun s => File_MakeSnapshotPath env s CopyPath).find?
        env.File_GetFileType ∧ l.Flags.inSnapshot = l.Relocation.isSome
  | [], f, _, hf => ⟨rfl, hf⟩
  | s :: rest, f, hclean, hf => by
    have hrest : Unmarked env (rest.map (·.PathRoot)) TruePath :=
      fun hd t ht => hclean hd t (List.mem_cons_of_mem _ ht)
    simp only [snapshotLoop, snapshotPass, List.filterMap_cons]
    cases hc : File_MakeSnapshotPath env s CopyPath with
    | none =>
      -- the copy lies outside the box: the loop breaks, and no snapshot has a path
      have hnil : (rest.filterMap fun s => File_MakeSnapshotPath env s CopyPath) = [] :=
        List.filterMap_eq_nil_iff.mpr fun s _ =>
          File_MakeSnapshotPath_eq_none.mpr (File_MakeSnapshotPath_eq_none.mp hc)
      simp [hnil, hf]
    | some T =>
      simp only [List.find?_cons]
      cases hT : env.File_GetFileType T
      · simp only [Bool.false_eq_true, if_false, snapshotTreePass]
        cases hd : env.File_Delete_v2
        · exact snapshotLoop_probe env TruePath CopyPath rest f hrest hf
        · -- the snapshot's tree neither stops the walk nor relocates
          obtain ⟨hdel, hrel⟩ := hclean hd s.PathRoot (List.mem_cons_self _ _)
          have hrel' : (File_GetPathFlags_internal s.PathRoot
              (env.File_NormalizePath TruePath) true).2 = none := hrel
          simp only [if_true, isPathDeleted_getPathFlags, hdel, Bool.false_eq_true, if_false,
            hrel', Option.none_orElse]
          exact snapshotLoop_probe env TruePath CopyPath rest _ hrest (inSnapshot_getPathFlags _ _ _)
      · simp

/-- When no layer's tree marks the true path deleted or relocates it and the copy is not in
the box, `File_GetPathFlagsEx` and `File_FindSnapshotPath` find the same snapshot copy:
the relocation `File_GetPathFlagsEx` returns is the path `File_FindSnapshotPath` returns,
and it reports the file in a snapshot exactly when that path exists. -/
theorem File_GetPathFlagsEx_findSnapshotPath (env : FileEnv) (chain : List FILE_SNAPSHOT)
    (TruePath CopyPath : List Char)
    (hclean : Unmarked env (env.File_PathRoot :: chain.map (·.PathRoot)) TruePath)
    (habsent : env.File_GetFileType CopyPath = false) :
    let r := File_GetPathFlagsEx env chain TruePath (some CopyPath) none none
    r.2 = File_FindSnapshotPath env chain CopyPath ∧
      r.1.inSnapshot = (File_FindSnapshotPath env chain CopyPath).isSome := by
  intro r
  have hfind : File_FindSnapshotPath env chain CopyPath =
      (chain.filterMap fun s => File_MakeSnapshotPath env s CopyPath).find?
        env.File_GetFileType := by
    rw [File_FindSnapshotPath, habsent, if_neg Bool.false_ne_true, File_FindSnapshotPath_go]
  -- the active layer answers: not deleted, no relocation, not in a snapshot
  obtain ⟨f, hr, hf, hdel⟩ : ∃ f, (if env.File_Delete_v2 then File_GetPathFlags_internal
      env.File_PathRoot (env.File_NormalizePath TruePath) true else ({}, none)) = (f, none) ∧
      f.inSnapshot = false ∧ f.isPathDeleted = false := by
    cases hd : env.File_Delete_v2
    · exact ⟨{}, rfl, rfl, rfl⟩
    · obtain ⟨h1, h2⟩ := hclean hd _ (List.mem_cons_self _ _)
      rw [if_pos rfl]
      exact ⟨_, Prod.ext rfl h2, inSnapshot_getPathFlags _ _ _,
        by rw [isPathDeleted_getPathFlags, h1]⟩
  have hloop := snapshotLoop_probe env TruePath CopyPath chain f
    (fun hd t ht => hclean hd t (List.mem_cons_of_mem _ ht)) hf
  simp only [r, File_GetPathFlagsEx, hr, hdel, Bool.or_false, hfind]
  cases chain with
  | nil => exact ⟨rfl, hf⟩
  | cons s rest =>
    simp only [List.isEmpty_cons, Bool.false_eq_true, if_false, chainBefore, Option.orElse_none]
    exact ⟨hloop.1, hloop.2.trans (congrArg Option.isSome hloop.1)⟩

/-- Two snapshots of the sample box, the newer first; only the older holds `\x`. -/
def sampleChain : List FILE_SNAPSHOT :=
  [makeSnapshot sampleFileEnv ['2'], makeSnapshot sampleFileEnv ['1']]

theorem File_GetPathFlagsEx_findSnapshotPath_sample :
    Unmarked sampleFileEnv (sampleFileEnv.File_PathRoot :: sampleChain.map (·.PathRoot))
        "\\x".toList ∧
      sampleFileEnv.File_GetFileType "\\b\\x".toList = false ∧
      (File_GetPathFlagsEx sampleFileEnv sampleChain "\\x".toList (some "\\b\\x".toList) none
          none).2 = File_FindSnapshotPath sampleFileEnv sampleChain "\\b\\x".toList ∧
      (File_GetPathFlagsEx sampleFileEnv sampleChain "\\x".toList (some "\\b\\x".toList) none
          none).1.inSnapshot =
        (File_FindSnapshotPath sampleFileEnv sampleChain "\\b\\x".toList).isSome :=
  have hclean : Unmarked sampleFileEnv (sampleFileEnv.File_PathRoot ::
      sampleChain.map (·.PathRoot)) "\\x".toList := by decide
  have habsent : sampleFileEnv.File_GetFileType "\\b\\x".toList = false := by decide
  ⟨hclean, habsent, File_GetPathFlagsEx_findSnapshotPath _ _ _ _ hclean habsent⟩

/-! ## Where the walk stops -/

/-- The snapshot loop of `File_GetPathFlagsEx` with its way out: `.inl` when a pass left the
loop, `.inr` when it ran out of snapshots. -/
def snapshotLoopExit (env : FileEnv) : List FILE_SNAPSHOT → PathFlagsLocals →
    PathFlagsLocals ⊕ PathFlagsLocals
  | [], l => .inr l
  | Cur :: rest, l => match snapshotPass env Cur l with
    | .inl l => .inl l
    | .inr l => snapshotLoopExit env rest l

/-- The loop over `a ++ b` runs over `b` only when it ran through `a`. -/
theorem snapshotLoop_append (env : FileEnv) (b : List FILE_SNAPSHOT) :
    ∀ (a : List FILE_SNAPSHOT) (l : PathFlagsLocals),
      snapshotLoop env (a ++ b) l = (snapshotLoopExit env a l).elim id (snapshotLoop env b)
  | [], _ => rfl
  | Cur :: rest, l => by
    simp only [List.cons_append, snapshotLoop, snapshotLoopExit]
    cases snapshotPass env Cur l with
    | inl l => rfl
    | inr l => exact snapshotLoop_append env b rest l

/-- Flags that do not end the walk: not deleted, not in a snapshot. -/
def PathFlags.Undecided (f : PathFlags) : Prop := f.isPathDeleted = false ∧ f.inSnapshot = false

/-- The tree pass goes on to the parent with the flags it had, or with its tree's flags when
they do not mark the path deleted. -/
theorem snapshotTreePass_inr {env : FileEnv} {Cur : FILE_SNAPSHOT} {m l' : PathFlagsLocals}
    (h : snapshotTreePass env Cur m = .inr l') : l'.Flags = m.Flags ∨ l'.Flags.Undecided := by
  unfold snapshotTreePass at h
  split at h
  · rcases hq : File_GetPathFlags_internal Cur.PathRoot (env.File_NormalizePath m.TruePath) true
      with ⟨F, T⟩
    have hF : F.inSnapshot = false :=
      (congrArg (fun q => q.1.inSnapshot) hq).symm.trans (inSnapshot_getPathFlags _ _ _)
    rw [hq] at h
    by_cases hd : F.isPathDeleted = true
    · simp only [hd, if_true] at h
      cases h
    · simp only [hd, if_false, Bool.false_eq_true] at h
      cases h
      exact .inr ⟨by simpa using hd, hF⟩
  · cases h
    exact .inl rfl

/-- A pass that goes on to the parent leaves the flags undecided. -/
theorem snapshotPass_inr {env : FileEnv} {Cur : FILE_SNAPSHOT} {l l' : PathFlagsLocals}
    (hl : l.Flags.Undecided) (h : snapshotPass env Cur l = .inr l') : l'.Flags.Undecided := by
  have htree : ∀ m : PathFlagsLocals, snapshotTreePass env Cur m = .inr l' →
      m.Flags = l.Flags → l'.Flags.Undecided := fun m ht hm =>
    (snapshotTreePass_inr ht).elim (fun e => e.trans hm ▸ hl) id
  -- following the newer layer's relocation changes the paths only; a probe that finds the
  -- copy, or a copy outside the box, leaves the loop
  cases hr : l.TmplRelocation <;> cases hc : l.CopyPath <;>
    simp only [snapshotPass, hr, hc, Option.map_some', Option.map_none'] at h
  case none.none | some.none => exact htree _ h rfl
  all_goals
    split at h
    · cases h
    · split_ifs at h
      exact htree _ h rfl

theorem snapshotLoopExit_inr {env : FileEnv} :
    ∀ {snaps : List FILE_SNAPSHOT} {l l' : PathFlagsLocals}, l.Flags.Undecided →
      snapshotLoopExit env snaps l = .inr l' → l'.Flags.Undecided
  | [], _, _, hl, h => by cases h; exact hl
  | Cur :: rest, l, l', hl, h => by
    unfold snapshotLoopExit at h
    split at h
    · cases h
    · exact snapshotLoopExit_inr (snapshotPass_inr hl ‹_›) h

/-- A walk that the first snapshots already decide gives the same answer over more. -/
theorem snapshotLoop_append_of_final (env : FileEnv) (b : List FILE_SNAPSHOT)
    {a : List FILE_SNAPSHOT} {l : PathFlagsLocals} (hl : l.Flags.Undecided)
    (hfinal : (snapshotLoop env a l).Flags.isPathDeleted ∨ (snapshotLoop env a l).Flags.inSnapshot) :
    snapshotLoop env (a ++ b) l = snapshotLoop env a l := by
  have ha := snapshotLoop_append env [] a l
  rw [List.append_nil] at ha
  rw [snapshotLoop_append, ha]
  rw [ha] at hfinal
  cases hx : snapshotLoopExit env a l with
  | inl l' => rfl
  | inr l' =>
    -- a walk that ran through `a` ends undecided
    have hu := snapshotLoopExit_inr hl hx
    rw [hx] at hfinal
    simp [snapshotLoop, hu.1, hu.2] at hfinal

theorem File_GetPathFlagsEx_final (env : FileEnv) (chain : List FILE_SNAPSHOT)
    (TruePath : List Char) (CopyPath R0 : Option (List Char)) (k : Nat)
    (lastSnapshot : Option Nat) (hk : ∀ k', lastSnapshot = some k' → k ≤ k')
    (hfinal : (File_GetPathFlagsEx env chain TruePath CopyPath R0 (some k)).1.isPathDeleted ∨
      (File_GetPathFlagsEx env chain TruePath CopyPath R0 (some k)).1.inSnapshot) :
    File_GetPathFlagsEx env chain TruePath CopyPath R0 lastSnapshot =
      File_GetPathFlagsEx env chain TruePath CopyPath R0 (some k) := by
  -- the snapshots before `lastSnapshot` are those before `some k`, then more
  obtain ⟨rest, hrest⟩ : ∃ rest, chainBefore chain lastSnapshot = chain.take k ++ rest := by
    cases lastSnapshot with
    | none => exact ⟨_, (List.take_append_drop k chain).symm⟩
    | some k' =>
      obtain ⟨d, rfl⟩ := Nat.exists_eq_add_of_le (hk k' rfl)
      exact ⟨_, List.take_add chain k d⟩
  unfold File_GetPathFlagsEx at hfinal ⊢
  generalize hinit : (if env.File_Delete_v2 = true then File_GetPathFlags_internal
    env.File_PathRoot (env.File_NormalizePath TruePath) true else ({}, none)) = init at hfinal ⊢
  obtain ⟨f, r⟩ := init
  -- the active layer's flags are not in a snapshot
  have hf : f.inSnapshot = false := by
    split_ifs at hinit
    · exact (congrArg (fun q => q.1.inSnapshot) hinit).symm.trans (inSnapshot_getPathFlags _ _ _)
    · cases hinit
      rfl
  dsimp only at hfinal ⊢
  split_ifs at hfinal ⊢ with hstop
  · rfl
  · rw [hrest]
    simp only [chainBefore] at hfinal ⊢
    rw [snapshotLoop_append_of_final env rest
      ⟨Bool.eq_false_iff.mpr fun h => hstop (by simp [h]), hf⟩ hfinal]

/-- Three snapshots of the sample box, the newest first; only the middle one holds `\x`. -/
def threeChain : List FILE_SNAPSHOT :=
  [makeSnapshot sampleFileEnv ['2'], makeSnapshot sampleFileEnv ['1'],
    makeSnapshot sampleFileEnv ['0']]

/-- The walk that stops before the oldest snapshot already finds `\x` in the middle one, so
the walk over the whole chain gives the same answer. -/
theorem File_GetPathFlagsEx_final_middle :
    (∀ k', (none : Option Nat) = some k' → 2 ≤ k') ∧
      ((File_GetPathFlagsEx sampleFileEnv threeChain "\\x".toList (some "\\b\\x".toList) none
          (some 2)).1.isPathDeleted ∨
        (File_GetPathFlagsEx sampleFileEnv threeChain "\\x".toList (some "\\b\\x".toList) none
          (some 2)).1.inSnapshot) ∧
      File_GetPathFlagsEx sampleFileEnv threeChain "\\x".toList (some "\\b\\x".toList) none none =
        File_GetPathFlagsEx sampleFileEnv threeChain "\\x".toList (some "\\b\\x".toList) none
          (some 2) :=
  have hk : ∀ k', (none : Option Nat) = some k' → 2 ≤ k' := fun _ h => nomatch h
  have hfinal : (File_GetPathFlagsEx sampleFileEnv threeChain "\\x".toList
      (some "\\b\\x".toList) none (some 2)).1.isPathDeleted ∨
      (File_GetPathFlagsEx sampleFileEnv threeChain "\\x".toList (some "\\b\\x".toList) none
        (some 2)).1.inSnapshot := by decide
  ⟨hk, hfinal, File_GetPathFlagsEx_final _ _ _ _ _ 2 none hk hfinal⟩

end Sandboxie
