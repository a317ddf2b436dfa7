import Sandboxie.PathTree

/-!
# The snapshot chain (`file_snapshots.c`)

A box with snapshots keeps, in `Snapshots.ini`, the id of its current snapshot and, for
each snapshot, the id of its parent. `File_InitSnapshots` follows these entries from the
current snapshot and builds the chain `File_Snapshot`, newest first, giving each snapshot
its scramble key and the path tree of its own `snapshot-<id>` directory.
`File_MakeSnapshotPath` rewrites a copy path into a snapshot's directory.

The loop of `File_InitSnapshots` stops only at a snapshot without a `Parent` entry, so it
is modelled with a bound on its passes: `none` is a run that has not stopped.

* `File_InitSnapshots_spec`: the loop stops exactly when the `Parent` entries from the
  current snapshot reach one without a parent, and then no id (not even up to case)
  appears twice in the chain.
* `File_InitSnapshots_cycle`: on a snapshot that is its own parent, or on `A -> B -> A`,
  no bound is enough.
-/

namespace Sandboxie

/-! ## The collaborators of the DLL side -/

/-- Globals and collaborators of the DLL that `file_snapshots.c` reads but does not
define: `file.c`, `file_del.c`, the checksum of `common/crc.c`, and the file system. -/
structure FileEnv where
  /-- `File_Delete_v2`: the path trees are in use. -/
  File_Delete_v2 : Bool
  /-- `File_PathRoot`: the active box's tree, as `File_RefreshPathTree` left it. -/
  File_PathRoot : PathTree
  /-- `Dll_BoxFilePath`: the box's root in the copy name space. -/
  Dll_BoxFilePath : List Char
  /-- `FILE_PATH_FILE_NAME` of `file_del.c`. -/
  FILE_PATH_FILE_NAME : List Char
  /-- `CRC32` of `common/crc.c`. -/
  CRC32 : List Char → UInt32
  /-- The lines of a path store on disk, as `File_LoadPathTree_internal` reads them. -/
  readPathFile : List Char → List PathLine
  /-- `File_NormalizePath`. -/
  File_NormalizePath : List Char → List Char
  /-- `File_GetName`: the copy path of a true path. -/
  File_GetName : List Char → List Char
  /-- `File_GetFileType` found the object (its status is neither `NAME_NOT_FOUND` nor
  `PATH_NOT_FOUND`). -/
  File_GetFileType : List Char → Bool
  /-- The box has a root. -/
  Dll_BoxFilePath_ne : Dll_BoxFilePath ≠ []
  /-- Modelled from the spec (glossary): a copy path lies in the box's storage. -/
  copy_in_box : ∀ p, wcsLower Dll_BoxFilePath <+: wcsLower (File_GetName p)

/-- A snapshot of the chain: `ID`, `ScramKey` and `PathRoot` of `FILE_SNAPSHOT`; its
`Parent` is the next element of the chain. -/
structure FILE_SNAPSHOT where
  ID : List Char
  ScramKey : UInt32
  PathRoot : PathTree

instance : Inhabited FILE_SNAPSHOT := ⟨⟨[], 0, default⟩⟩

/-- `File_Snapshot_Prefix`. -/
def File_Snapshot_Prefix : List Char := "snapshot-".toList

/-- `FILE_MAX_SNAPSHOT_ID`. -/
def FILE_MAX_SNAPSHOT_ID : Nat := 17

/-! ## `Snapshots.ini` and the chain -/

/-- Modelled from the spec (section 6): `Snapshots.ini`, a keyed text store of
(section, key, value) entries. -/
structure SnapshotsIni where
  entries : List (List Char × List Char × List Char)

/-- `GetPrivateProfileStringW (lpAppName, lpKeyName, lpDefault, buf, nSize, ini)`: the value
of the first entry whose section and key match up to case, or the default, cut to
`nSize - 1` characters. -/
def GetPrivateProfileStringW (ini : SnapshotsIni) (lpAppName lpKeyName lpDefault : List Char)
    (nSize : Nat) : List Char :=
  (((ini.entries.find? fun e =>
      wcsLower e.1 = wcsLower lpAppName ∧ wcsLower e.2.1 = wcsLower lpKeyName).map
    (·.2.2)).getD lpDefault).take (nSize - 1)

/-- The `Parent` entry of a snapshot, as the loop reads it. -/
def snapshotParent (ini : SnapshotsIni) (Snapshot : List Char) : List Char :=
  GetPrivateProfileStringW ini ("Snapshot_".toList ++ Snapshot) "Parent".toList [] 16

/-- The current snapshot's id. -/
def currentSnapshot (ini : SnapshotsIni) : List Char :=
  GetPrivateProfileStringW ini "Current".toList "Snapshot".toList [] FILE_MAX_SNAPSHOT_ID

/-- The snapshot `File_InitSnapshots` allocates for an id: its key and, with
`File_Delete_v2`, the tree of `snapshot-<id>\FILE_PATH_FILE_NAME`. -/
def makeSnapshot (env : FileEnv) (ID : List Char) : FILE_SNAPSHOT where
  ID := ID
  ScramKey := env.CRC32 ID
  PathRoot := if env.File_Delete_v2 then
      File_LoadPathTree_internal
        (env.readPathFile (File_Snapshot_Prefix ++ ID ++ '\\' :: env.FILE_PATH_FILE_NAME))
    else PathTree.empty

/-- The `for (;;)` loop of `File_InitSnapshots` from the snapshot with id `Snapshot`, with
at most `fuel` passes. -/
def initSnapshotsLoop (env : FileEnv) (ini : SnapshotsIni) :
    Nat → List Char → Option (List FILE_SNAPSHOT)
  | 0, _ => none
  | fuel + 1, Snapshot =>
    if snapshotParent ini Snapshot = [] then some [makeSnapshot env Snapshot]
    else (initSnapshotsLoop env ini fuel (snapshotParent ini Snapshot)).map
      (makeSnapshot env Snapshot :: ·)

/-- `File_InitSnapshots`: the chain `File_Snapshot`, newest first, with at most `fuel`
passes of its loop. -/
def File_InitSnapshots (env : FileEnv) (ini : SnapshotsIni) (fuel : Nat) :
    Option (List FILE_SNAPSHOT) :=
  if currentSnapshot ini = [] then some [] else initSnapshotsLoop env ini fuel (currentSnapshot ini)

/-- The id of the `k`-th snapshot the loop visits. -/
def snapshotIdAt (ini : SnapshotsIni) (k : Nat) : List Char :=
  (snapshotParent ini)^[k] (currentSnapshot ini)

/-! ## The loop -/

section Loop

variable {env : FileEnv} {ini : SnapshotsIni}

/-- The parent read for an id depends on the id only up to case. -/
theorem snapshotParent_congr {a b : List Char} (h : wcsLower a = wcsLower b) :
    snapshotParent ini a = snapshotParent ini b := by
  simp only [snapshotParent, GetPrivateProfileStringW, wcsLower_append, h]

/-- A pass that returns has built the snapshots of the ids up to the first without a
parent. -/
theorem initSnapshotsLoop_eq_some :
    ∀ {fuel : Nat} {s : List Char} {chain : List FILE_SNAPSHOT},
      initSnapshotsLoop env ini fuel s = some chain →
      ∃ n, chain = (List.range (n + 1)).map (fun k => makeSnapshot env ((snapshotParent ini)^[k] s)) ∧
        (snapshotParent ini)^[n + 1] s = [] ∧
        ∀ k, 1 ≤ k → k ≤ n → (snapshotParent ini)^[k] s ≠ []
  | 0, _, _, h => by simp [initSnapshotsLoop] at h
  | fuel + 1, s, chain, h => by
    unfold initSnapshotsLoop at h
    split_ifs at h with hp
    · cases h
      exact ⟨0, rfl, hp, fun k hk hk0 => by omega⟩
    · obtain ⟨rest, hrest, rfl⟩ := Option.map_eq_some'.mp h
      obtain ⟨n, rfl, hend, hne⟩ := initSnapshotsLoop_eq_some hrest
      refine ⟨n + 1, ?_, hend, fun k hk hkn => ?_⟩
      · simp only [List.range_succ_eq_map (n + 1), List.map_cons, List.map_map,
          Function.comp_def, Function.iterate_succ_apply, Function.iterate_zero_apply]
      · obtain ⟨k, rfl⟩ : ∃ j, k = j + 1 := ⟨k - 1, by omega⟩
        rcases Nat.eq_zero_or_pos k with rfl | hk0
        · exact hp
        · exact hne k hk0 (by omega)

/-- With a parent-less snapshot `n` steps after `s`, `n + 1` passes are enough. -/
theorem initSnapshotsLoop_isSome :
    ∀ {n : Nat} {s : List Char}, (snapshotParent ini)^[n + 1] s = [] →
      (initSnapshotsLoop env ini (n + 1) s).isSome
  | 0, s, h => by simp [initSnapshotsLoop, show snapshotParent ini s = [] from h]
  | n + 1, s, h => by
    unfold initSnapshotsLoop
    split_ifs
    · rfl
    · simpa using initSnapshotsLoop_isSome (n := n) (s := snapshotParent ini s) h

/-- Two ids equal up to case have the same ids after them. -/
theorem iterate_snapshotParent_congr {a b : List Char} (h : wcsLower a = wcsLower b) (m : Nat) :
    (snapshotParent ini)^[m + 1] a = (snapshotParent ini)^[m + 1] b := by
  rw [Function.iterate_succ_apply, Function.iterate_succ_apply, snapshotParent_congr h]

/-- Up to the first parent-less snapshot, no id repeats up to case: a repeat would repeat
every id after it, the empty one included, earlier. -/
theorem wcsLower_iterate_injOn {s : List Char} {n : Nat}
    (hend : (snapshotParent ini)^[n + 1] s = [])
    (hne : ∀ k, 1 ≤ k → k ≤ n → (snapshotParent ini)^[k] s ≠ []) {i j : Nat}
    (hij : i < j) (hj : j ≤ n) :
    wcsLower ((snapshotParent ini)^[i] s) ≠ wcsLower ((snapshotParent ini)^[j] s) := by
  intro h
  have hsame := @iterate_snapshotParent_congr ini _ _ h (n - j)
  rw [← Function.iterate_add_apply, ← Function.iterate_add_apply,
    show n - j + 1 + j = n + 1 by omega] at hsame
  exact hne (n - j + 1 + i) (by omega) (by omega) (hsame.trans hend)

end Loop

/-- `File_InitSnapshots` stops exactly when the `Parent` entries from the current snapshot
reach one without a parent; the chain it then builds has no id twice, not even up to
case. -/
theorem File_InitSnapshots_spec (env : FileEnv) (ini : SnapshotsIni) :
    ((∃ fuel chain, File_InitSnapshots env ini fuel = some chain) ↔
      ∃ n, snapshotIdAt ini n = []) ∧
    ∀ fuel chain, File_InitSnapshots env ini fuel = some chain →
      (chain.map fun s => wcsLower s.ID).Nodup := by
  refine ⟨⟨?_, ?_⟩, ?_⟩
  · rintro ⟨fuel, chain, h⟩
    unfold File_InitSnapshots at h
    split_ifs at h with hcur
    · exact ⟨0, hcur⟩
    · obtain ⟨n, -, hend, -⟩ := initSnapshotsLoop_eq_some h
      exact ⟨n + 1, hend⟩
  · rintro ⟨n, hn⟩
    unfold File_InitSnapshots
    split_ifs with hcur
    · exact ⟨0, [], rfl⟩
    · obtain ⟨n, rfl⟩ : ∃ m, n = m + 1 := ⟨n - 1, by cases n <;> simp_all [snapshotIdAt]⟩
      exact ⟨n + 1, Option.isSome_iff_exists.mp (initSnapshotsLoop_isSome hn)⟩
  · intro fuel chain h
    unfold File_InitSnapshots at h
    split_ifs at h with hcur
    · cases h; exact List.nodup_nil
    · obtain ⟨n, rfl, hend, hne⟩ := initSnapshotsLoop_eq_some h
      simp only [List.map_map, Function.comp_def, makeSnapshot]
      refine (List.nodup_range (n + 1)).map_on fun i hi j hj h => ?_
      simp only [List.mem_range] at hi hj
      by_contra hij
      rcases Nat.lt_or_gt_of_ne hij with hlt | hlt
      · exact wcsLower_iterate_injOn hend hne hlt (by omega) h
      · exact wcsLower_iterate_injOn hend hne hlt (by omega) h.symm

/-- A store whose snapshot `A` is its own parent, and one where `A` and `B` are each
other's parent. -/
def selfParentIni : SnapshotsIni :=
  ⟨[("Current".toList, "Snapshot".toList, ['A']), ("Snapshot_A".toList, "Parent".toList, ['A'])]⟩

def twoCycleIni : SnapshotsIni :=
  ⟨[("Current".toList, "Snapshot".toList, ['A']), ("Snapshot_A".toList, "Parent".toList, ['B']),
    ("Snapshot_B".toList, "Parent".toList, ['A'])]⟩

/-- A box rooted at `\b` whose copy paths are the true paths below its root. -/
def sampleFileEnv : FileEnv where
  File_Delete_v2 := true
  File_PathRoot := PathTree.empty
  Dll_BoxFilePath := ['\\', 'b']
  FILE_PATH_FILE_NAME := "FilePaths.dat".toList
  CRC32 := fun _ => 0
  readPathFile := fun _ => []
  File_NormalizePath := id
  File_GetName := fun p => ['\\', 'b'] ++ p
  File_GetFileType := fun p => p = "\\b\\snapshot-1\\x".toList
  Dll_BoxFilePath_ne := by simp
  copy_in_box := fun p => by rw [wcsLower_append]; exact List.prefix_append _ _

/-- A snapshot that is its own parent: the loop never leaves it. -/
theorem initSnapshotsLoop_selfParent (env : FileEnv) :
    ∀ fuel, initSnapshotsLoop env selfParentIni fuel ['A'] = none
  | 0 => rfl
  | fuel + 1 => by
    simp only [initSnapshotsLoop]
    rw [if_neg (by decide)]
    simp [show snapshotParent selfParentIni ['A'] = ['A'] by decide,
      initSnapshotsLoop_selfParent env fuel]

/-- Two snapshots that are each other's parent: the loop goes back and forth. -/
theorem initSnapshotsLoop_twoCycle (env : FileEnv) :
    ∀ fuel, initSnapshotsLoop env twoCycleIni fuel ['A'] = none ∧
      initSnapshotsLoop env twoCycleIni fuel ['B'] = none
  | 0 => ⟨rfl, rfl⟩
  | fuel + 1 => by
    have ih := initSnapshotsLoop_twoCycle env fuel
    simp only [initSnapshotsLoop]
    rw [if_neg (by decide), if_neg (by decide)]
    exact ⟨by simp [show snapshotParent twoCycleIni ['A'] = ['B'] by decide, ih.2],
      by simp [show snapshotParent twoCycleIni ['B'] = ['A'] by decide, ih.1]⟩

/-- On these stores `File_InitSnapshots` runs out of every bound. -/
theorem File_InitSnapshots_cyclic_none (env : FileEnv) (fuel : Nat) :
    File_InitSnapshots env selfParentIni fuel = none ∧
      File_InitSnapshots env twoCycleIni fuel = none := by
  refine ⟨?_, ?_⟩
  · rw [File_InitSnapshots, if_neg (by decide), show currentSnapshot selfParentIni = ['A'] by decide]
    exact initSnapshotsLoop_selfParent env fuel
  · rw [File_InitSnapshots, if_neg (by decide), show currentSnapshot twoCycleIni = ['A'] by decide]
    exact (initSnapshotsLoop_twoCycle env fuel).1

/-- On a snapshot that is its own parent, and on `A -> B -> A`, `File_InitSnapshots` never
returns, whatever the bound. -/
theorem File_InitSnapshots_cycle :
    (¬ ∃ fuel chain, File_InitSnapshots sampleFileEnv selfParentIni fuel = some chain) ∧
      ¬ ∃ fuel chain, File_InitSnapshots sampleFileEnv twoCycleIni fuel = some chain :=
  ⟨fun ⟨fuel, _, h⟩ => by simp [(File_InitSnapshots_cyclic_none sampleFileEnv fuel).1] at h,
    fun ⟨fuel, _, h⟩ => by simp [(File_InitSnapshots_cyclic_none sampleFileEnv fuel).2] at h⟩

end Sandboxie
