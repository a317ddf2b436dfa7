import Sandboxie.WString

/-!
# The tree of deleted and relocated paths

`key_del.c` and `file_snapshots.c` keep their deletion and relocation marks in a path
tree whose code, `file_del.c` (`File_GetPathFlags_internal`, `File_MarkDeleted_internal`,
`File_LoadPathTree_internal`, `File_SavePathTree_internal`), is not among the sources at
hand. This module models it from the spec (section 4.2): a tree of entries keyed by
case-insensitive path segments, each entry marked deleted and/or relocated, a path being
deleted when it or one of its ancestors is marked. A tree is kept as the list of its
marked entries, an entry's place in the tree being its list of segments; the persisted
store is a list of lines, one an entry.

* `isPathDeleted_getPathFlags`: the deleted bits of a lookup say that the path or one of
  its ancestors is marked (`PathTree.deletedAt`).
* `deletedAt_markDeleted`: marking `P` deletes exactly the paths at or below `P`.
* `deletedMask_markDeleted_of_not_ancestor`: it leaves the deleted bits of every path that is
  not at or below `P` as they were.
* `deletedAt_loadPathTree`, `deletedAt_load_save`: the line format loads back to the same
  deletion status.
-/

namespace Sandboxie

/-! ## Flags -/

/-- The `FILE_`/`KEY_` path flags of `file_del.c` and `key_del.c`, one field a bit. -/
structure PathFlags where
  /-- `*_DELETED_FLAG` (0x0001): the path's own entry is marked deleted. -/
  deleted : Bool := false
  /-- `*_RELOCATION_FLAG` (0x0002): the path's own entry is relocated. -/
  relocation : Bool := false
  /-- `FILE_INSNAPSHOT_FLAG` (0x0004): the data is found in a snapshot. -/
  inSnapshot : Bool := false
  /-- `*_PATH_DELETED_FLAG` (0x00010000): an ancestor is marked deleted. -/
  pathDeleted : Bool := false
  /-- `*_PATH_RELOCATED_FLAG` (0x00020000): an ancestor is relocated. -/
  pathRelocated : Bool := false
  /-- `*_CHILDREN_DELETED_FLAG` (0x00040000): some entry below is marked. -/
  childrenDeleted : Bool := false
deriving DecidableEq, Repr

/-- `FILE_PATH_DELETED(x)`, `KEY_PATH_DELETED(x)`: `(x & *_DELETED_MASK) != 0`. -/
def PathFlags.isPathDeleted (f : PathFlags) : Bool := f.deleted || f.pathDeleted

/-- `FILE_PATH_RELOCATED(x)`, `KEY_PATH_RELOCATED(x)`: `(x & *_RELOCATED_MASK) != 0`, the
path's own entry or an ancestor relocated. -/
def PathFlags.isPathRelocated (f : PathFlags) : Bool := f.relocation || f.pathRelocated

/-- `x & *_DELETED_MASK`. -/
def PathFlags.deletedMask (f : PathFlags) : PathFlags :=
  { deleted := f.deleted, pathDeleted := f.pathDeleted }

@[simp] theorem PathFlags.isPathDeleted_deletedMask (f : PathFlags) :
    f.deletedMask.isPathDeleted = f.isPathDeleted := rfl

/-! ## Paths -/

/-- The segments a tree walk visits: the path cut at every `\`, empty pieces skipped
(a leading `\` and a run `\\` give none). -/
def pathSegments (Path : List Char) : List (List Char) :=
  (Path.splitOn '\\').filter (!·.isEmpty)

/-- Segments are compared case-insensitively: the key of a path. -/
def pathKey (Path : List Char) : List (List Char) := (pathSegments Path).map wcsLower

/-- The path a tree entry is saved under: each segment after a `\`. -/
def joinPath (segs : List (List Char)) : List Char := segs.flatMap ('\\' :: ·)

/-- A segment as a tree entry names it: not empty and free of `\`. -/
def SegmentOk (s : List Char) : Prop := s ≠ [] ∧ '\\' ∉ s

theorem segmentOk_of_mem_pathSegments {Path s : List Char} (h : s ∈ pathSegments Path) :
    SegmentOk s := by
  obtain ⟨hs, hne⟩ := List.mem_filter.mp h
  refine ⟨by simpa using hne, fun hmem => ?_⟩
  simpa using not_mem_of_mem_splitOnP hs '\\' hmem

theorem not_beq_of_not_mem {s : List Char} (hs : '\\' ∉ s) : ∀ x ∈ s, ¬(x == '\\') = true :=
  fun _ hx h => hs (beq_iff_eq.mp h ▸ hx)

theorem splitOn_append_joinPath {s : List Char} (hs : '\\' ∉ s) :
    ∀ {segs : List (List Char)}, (∀ t ∈ segs, SegmentOk t) →
      (s ++ joinPath segs).splitOn '\\' = s :: segs
  | [], _ => by
    simpa [joinPath, List.splitOn] using List.splitOnP_eq_single (· == '\\') s (not_beq_of_not_mem hs)
  | t :: ts, hsegs => by
    have ht := hsegs t (List.mem_cons_self t ts)
    have rest := splitOn_append_joinPath ht.2 fun u hu => hsegs u (List.mem_cons_of_mem t hu)
    simp only [joinPath, List.flatMap_cons, List.cons_append, List.splitOn] at rest ⊢
    rw [List.splitOnP_first (· == '\\') s (not_beq_of_not_mem hs) '\\' (by simp), rest]

/-- Saving an entry under `joinPath` and walking it again gives back its segments. -/
theorem pathSegments_joinPath {segs : List (List Char)} (h : ∀ t ∈ segs, SegmentOk t) :
    pathSegments (joinPath segs) = segs := by
  have split := splitOn_append_joinPath (s := []) (by simp) h
  rw [List.nil_append] at split
  rw [pathSegments, split, List.filter_cons_of_neg (by simp), List.filter_eq_self]
  intro t ht
  simpa using (h t ht).1

/-! ## Entries and trees -/

/-- A marked entry of the tree: its segments from the root, its deleted mark and its
relocation target. -/
structure PathNode where
  path : List (List Char)
  deleted : Bool
  relocation : Option (List Char)
deriving DecidableEq, Repr

/-- The case-folded segments that identify an entry. -/
def PathNode.key (n : PathNode) : List (List Char) := n.path.map wcsLower

/-- A path tree, kept as the list of its marked entries; every entry's segments are
segments a walk produces. -/
structure PathTree where
  nodes : List PathNode
  wf : ∀ n ∈ nodes, ∀ s ∈ n.path, SegmentOk s

/-- The empty tree, which an unreadable store loads as. -/
def PathTree.empty : PathTree := ⟨[], by simp⟩

instance : Inhabited PathTree := ⟨PathTree.empty⟩

/-- `Path` or one of its ancestors is marked deleted. -/
def PathTree.deletedAt (t : PathTree) (Path : List Char) : Bool :=
  t.nodes.any fun n => n.deleted && decide (n.key <+: pathKey Path)

/-- The entries whose key is `Path` or one of its ancestors. -/
def PathTree.onPath (t : PathTree) (Path : List Char) : List PathNode :=
  t.nodes.filter fun n => decide (n.key <+: pathKey Path)

/-- Keep the entries that satisfy `p`. -/
def PathTree.keep (t : PathTree) (p : PathNode → Bool) : PathTree :=
  ⟨t.nodes.filter p, fun n hn => t.wf n (List.mem_of_mem_filter hn)⟩

/-- The marks `PathTree.setFlags` adds to an entry at key `k`. -/
def PathNode.addFlags (k : List (List Char)) (deleted : Bool) (relocation : Option (List Char))
    (n : PathNode) : PathNode :=
  if n.key = k then
    { n with deleted := n.deleted || deleted, relocation := relocation <|> n.relocation }
  else n

@[simp] theorem PathNode.path_addFlags {k d r} (n : PathNode) :
    (n.addFlags k d r).path = n.path := by
  unfold PathNode.addFlags; split_ifs <;> rfl

@[simp] theorem PathNode.key_addFlags {k d r} (n : PathNode) :
    (n.addFlags k d r).key = n.key := by
  simp only [PathNode.key, PathNode.path_addFlags]

@[simp] theorem PathNode.deleted_addFlags {k d r} (n : PathNode) :
    (n.addFlags k d r).deleted = (n.deleted || (decide (n.key = k) && d)) := by
  unfold PathNode.addFlags; split_ifs <;> simp_all

/-- Add marks at `Path`: to its entry when it has one, to a new entry otherwise. -/
def PathTree.setFlags (t : PathTree) (Path : List Char) (deleted : Bool)
    (relocation : Option (List Char)) : PathTree :=
  if t.nodes.any (·.key = pathKey Path) then
    ⟨t.nodes.map (PathNode.addFlags (pathKey Path) deleted relocation), by
      simp only [List.mem_map]
      rintro _ ⟨n, hn, rfl⟩
      simpa using t.wf n hn⟩
  else
    ⟨t.nodes ++ [⟨pathSegments Path, deleted, relocation⟩], by
      simp only [List.mem_append, List.mem_singleton]
      rintro n (hn | rfl)
      · exact t.wf n hn
      · exact fun s hs => segmentOk_of_mem_pathSegments hs⟩

/-! ## The operations of `file_del.c` -/

/-- Modelled from the spec: the relocation a lookup of `Path` returns, from the deepest
relocated entry at or above it, followed by the rest of `Path`. -/
def relocationOf (Root : PathTree) (Path : List Char) : Option (List Char) :=
  (List.range ((pathKey Path).length + 1)).reverse.findSome? fun d =>
    Root.nodes.findSome? fun n =>
      if n.key = (pathKey Path).take d then
        n.relocation.map (· ++ joinPath ((pathSegments Path).drop d))
      else none

/-- Modelled from the spec: `File_GetPathFlags_internal`. The path's own entry gives the
persisted bits, its ancestors the `PATH_` bits; with `CheckChildren` and nothing else
found, a marked entry below sets `CHILDREN_DELETED`. -/
def File_GetPathFlags_internal (Root : PathTree) (Path : List Char) (CheckChildren : Bool) :
    PathFlags × Option (List Char) :=
  let k := pathKey Path
  let self := Root.nodes.filter (·.key = k)
  let above := Root.nodes.filter fun n => decide (n.key <+: k) && n.key.length < k.length
  let f : PathFlags :=
    { deleted := self.any (·.deleted), relocation := self.any (·.relocation.isSome),
      pathDeleted := above.any (·.deleted), pathRelocated := above.any (·.relocation.isSome) }
  let found := f.deleted || f.relocation || f.pathDeleted || f.pathRelocated
  let below := Root.nodes.any fun n =>
    decide (k <+: n.key) && k.length < n.key.length && (n.deleted || n.relocation.isSome)
  ({ f with childrenDeleted := CheckChildren && !found && below }, relocationOf Root Path)

/-- Modelled from the spec: `File_MarkDeleted_internal`. It returns whether the entry's
mark was newly set and whether entries below it were cut off (`*pTruncated`); marking
drops the subtree below `Path`. -/
def File_MarkDeleted_internal (Root : PathTree) (Path : List Char) : Bool × Bool × PathTree :=
  let below (n : PathNode) : Bool :=
    decide (pathKey Path <+: n.key) && (pathKey Path).length < n.key.length
  (!Root.nodes.any (fun n => n.key = pathKey Path && n.deleted), Root.nodes.any below,
    (Root.keep (!below ·)).setFlags Path true none)

/-- Modelled from the spec (section 4.2): `File_SetRelocation_internal`, which records the
relocation target at the entry of `OldTruePath` and marks nothing deleted. -/
def File_SetRelocation_internal (Root : PathTree) (OldTruePath NewTruePath : List Char) :
    PathTree :=
  Root.setFlags OldTruePath false (some NewTruePath)

/-- One line of a persisted path store (`RegPaths.dat`, `FilePaths.dat`): the path, its
deleted flag and its relocation target. -/
structure PathLine where
  path : List Char
  deleted : Bool
  relocation : Option (List Char)
deriving DecidableEq, Repr

/-- Modelled from the spec: `File_LoadPathTree_internal`, which clears the tree and adds
the marks of each line in turn. -/
def File_LoadPathTree_internal (lines : List PathLine) : PathTree :=
  lines.foldl (fun t l => t.setFlags l.path l.deleted l.relocation) PathTree.empty

/-- Modelled from the spec: `File_SavePathTree_internal`, one line an entry. -/
def File_SavePathTree_internal (Root : PathTree) : List PathLine :=
  Root.nodes.map fun n => ⟨joinPath n.path, n.deleted, n.relocation⟩

/-- `File_AppendPathEntry_internal (h, Path, *_DELETED_FLAG, NULL)`: the line of one mark. -/
def deletedLine (Path : List Char) : PathLine := ⟨Path, true, none⟩

/-! ## Deletion status -/

section Deletion

variable {t : PathTree} {P Q : List Char}

/-- The deleted bits of a lookup are those of the path's own entry and its ancestors. -/
theorem isPathDeleted_getPathFlags (c : Bool) :
    (File_GetPathFlags_internal t Q c).1.isPathDeleted = t.deletedAt Q := by
  apply Bool.eq_iff_iff.mpr
  simp only [File_GetPathFlags_internal, PathFlags.isPathDeleted, PathTree.deletedAt,
    Bool.or_eq_true, List.any_filter, List.any_eq_true, Bool.and_eq_true, decide_eq_true_eq]
  constructor
  · rintro (⟨n, hn, hk, hd⟩ | ⟨n, hn, ⟨hp, -⟩, hd⟩)
    · exact ⟨n, hn, hd, hk ▸ List.prefix_refl _⟩
    · exact ⟨n, hn, hd, hp⟩
  · rintro ⟨n, hn, hd, hp⟩
    by_cases hk : n.key = pathKey Q
    · exact .inl ⟨n, hn, hk, hd⟩
    · exact .inr ⟨n, hn,
        ⟨hp, lt_of_le_of_ne hp.length_le fun hl => hk (hp.eq_of_length hl)⟩, hd⟩

theorem deletedAt_keep_le {p : PathNode → Bool} (h : (t.keep p).deletedAt Q = true) :
    t.deletedAt Q = true := by
  simp only [PathTree.deletedAt, PathTree.keep, List.any_filter, List.any_eq_true,
    Bool.and_eq_true] at h ⊢
  obtain ⟨n, hn, -, hd⟩ := h
  exact ⟨n, hn, hd⟩

@[simp] theorem deletedAt_setFlags (d : Bool) (r : Option (List Char)) :
    (t.setFlags P d r).deletedAt Q =
      (t.deletedAt Q || (d && decide (pathKey P <+: pathKey Q))) := by
  unfold PathTree.setFlags
  split_ifs with hex
  · obtain ⟨m, hm, hmk⟩ := List.any_eq_true.mp hex
    apply Bool.eq_iff_iff.mpr
    simp only [PathTree.deletedAt, List.any_map, Function.comp_def, PathNode.key_addFlags,
      PathNode.deleted_addFlags, Bool.or_eq_true, List.any_eq_true, Bool.and_eq_true,
      decide_eq_true_eq] at hmk ⊢
    constructor
    · rintro ⟨n, hn, hd | ⟨hk, hd⟩, hpre⟩
      · exact .inl ⟨n, hn, hd, hpre⟩
      · exact .inr ⟨hd, hk ▸ hpre⟩
    · rintro (⟨n, hn, hd, hpre⟩ | ⟨hd, hpre⟩)
      · exact ⟨n, hn, .inl hd, hpre⟩
      · exact ⟨m, hm, .inr ⟨hmk, hd⟩, hmk ▸ hpre⟩
  · simp [PathTree.deletedAt, List.any_append, PathNode.key, pathKey]

/-- After `setFlags`, every entry of the path carries the marks just set. -/
theorem marks_setFlags_of_key {d : Bool} {r : Option (List Char)} {n : PathNode}
    (hn : n ∈ (t.setFlags P d r).nodes) (hk : n.key = pathKey P) :
    (d = true → n.deleted = true) ∧ (r.isSome → n.relocation = r) := by
  unfold PathTree.setFlags at hn
  split_ifs at hn
  · obtain ⟨m, -, rfl⟩ := List.mem_map.mp hn
    rw [PathNode.key_addFlags] at hk
    refine ⟨fun hd => by simp [hk, hd], fun hr => ?_⟩
    obtain ⟨N, rfl⟩ := Option.isSome_iff_exists.mp hr
    simp [PathNode.addFlags, hk]
  · rcases List.mem_append.mp hn with hn | hn
    · have : t.nodes.any (·.key = pathKey P) = true := List.any_eq_true.mpr ⟨n, hn, by simpa⟩
      contradiction
    · rw [List.mem_singleton.mp hn]
      exact ⟨id, fun _ => rfl⟩

/-- After `setFlags`, the path has an entry. -/
theorem exists_key_setFlags (d : Bool) (r : Option (List Char)) :
    ∃ n ∈ (t.setFlags P d r).nodes, n.key = pathKey P := by
  unfold PathTree.setFlags
  split_ifs with hex
  · obtain ⟨n, hn, hk⟩ := List.any_eq_true.mp hex
    exact ⟨_, List.mem_map_of_mem _ hn, by simpa using hk⟩
  · exact ⟨_, List.mem_append_right _ (List.mem_singleton_self _), rfl⟩

/-- Marking `P` deleted deletes exactly the paths at or below `P`: the subtree it cuts off
was below `P` already. -/
theorem deletedAt_markDeleted :
    (File_MarkDeleted_internal t P).2.2.deletedAt Q =
      (t.deletedAt Q || decide (pathKey P <+: pathKey Q)) := by
  simp only [File_MarkDeleted_internal, deletedAt_setFlags, Bool.true_and]
  apply Bool.eq_iff_iff.mpr
  simp only [Bool.or_eq_true, decide_eq_true_eq]
  constructor
  · rintro (h | h)
    · exact .inl (deletedAt_keep_le h)
    · exact .inr h
  · rintro (h | h)
    · by_cases hP : pathKey P <+: pathKey Q
      · exact .inr hP
      · left
        simp only [PathTree.deletedAt, PathTree.keep, List.any_filter, List.any_eq_true,
          Bool.and_eq_true, decide_eq_true_eq, Bool.not_eq_true'] at h ⊢
        obtain ⟨n, hn, hd, hpre⟩ := h
        refine ⟨n, hn, ?_, hd, hpre⟩
        simp only [Bool.and_eq_false_iff, decide_eq_false_iff_not]
        exact .inl fun hPn => hP (hPn.trans hpre)
    · exact .inr h

/-- A mark that finds the path's own entry already deleted: the path and everything below it
were deleted already. -/
theorem deletedAt_of_markDeleted_unset (h : (File_MarkDeleted_internal t P).1 = false)
    (hPQ : pathKey P <+: pathKey Q) : t.deletedAt Q = true := by
  simp only [File_MarkDeleted_internal, Bool.not_eq_false', List.any_eq_true, Bool.and_eq_true,
    decide_eq_true_eq] at h
  obtain ⟨n, hn, hk, hd⟩ := h
  simp only [PathTree.deletedAt, List.any_eq_true, Bool.and_eq_true, decide_eq_true_eq]
  exact ⟨n, hn, hd, hk ▸ hPQ⟩

/-! ## Marking twice -/

theorem PathTree.eq_of_nodes {s u : PathTree} (h : s.nodes = u.nodes) : s = u := by
  cases s; cases u; cases h; rfl

/-- Marking leaves no entry strictly below the marked path. -/
theorem below_markDeleted {n : PathNode} (hn : n ∈ (File_MarkDeleted_internal t P).2.2.nodes) :
    (decide (pathKey P <+: n.key) && decide ((pathKey P).length < n.key.length)) = false := by
  simp only [File_MarkDeleted_internal, PathTree.setFlags, PathTree.keep] at hn
  split_ifs at hn
  · obtain ⟨m, hm, rfl⟩ := List.mem_map.mp hn
    simpa only [Bool.not_eq_true', PathNode.key_addFlags] using (List.mem_filter.mp hm).2
  · rcases List.mem_append.mp hn with hn | hn
    · simpa only [Bool.not_eq_true'] using (List.mem_filter.mp hn).2
    · rw [List.mem_singleton.mp hn]; simp [PathNode.key, pathKey]

/-- Marking a path a second time sets nothing, cuts nothing off and leaves the tree as it
was. -/
theorem markDeleted_markDeleted :
    File_MarkDeleted_internal (File_MarkDeleted_internal t P).2.2 P =
      (false, false, (File_MarkDeleted_internal t P).2.2) := by
  set t' := (File_MarkDeleted_internal t P).2.2
  have hdel : ∀ n ∈ t'.nodes, n.key = pathKey P → n.deleted = true :=
    fun n hn hk => (marks_setFlags_of_key hn hk).1 rfl
  obtain ⟨n, hn, hk⟩ : ∃ n ∈ t'.nodes, n.key = pathKey P := exists_key_setFlags true none
  -- nothing is below the path, and the path's entries are deleted already
  have hkeep : t'.keep (fun n => !(decide (pathKey P <+: n.key) &&
      decide ((pathKey P).length < n.key.length))) = t' :=
    PathTree.eq_of_nodes (List.filter_eq_self.mpr fun n hn => by simp [below_markDeleted hn])
  have hset : t'.setFlags P true none = t' := by
    unfold PathTree.setFlags
    rw [if_pos (List.any_eq_true.mpr ⟨n, hn, by simpa using hk⟩)]
    refine PathTree.eq_of_nodes ((List.map_congr_left fun m hm => ?_).trans (List.map_id _))
    unfold PathNode.addFlags
    split_ifs with hm'
    · have := hdel m hm hm'
      cases m; simp_all
    · rfl
  have hset' : (t'.nodes.any fun n => decide (n.key = pathKey P) && n.deleted) = true :=
    List.any_eq_true.mpr ⟨n, hn, by simp [hk, hdel n hn hk]⟩
  have htrunc : (t'.nodes.any fun n =>
      decide (pathKey P <+: n.key) && decide ((pathKey P).length < n.key.length)) = false :=
    List.any_eq_false.mpr fun m hm => by rw [below_markDeleted hm]; decide
  simp only [File_MarkDeleted_internal]
  rw [hkeep, hset, hset', htrunc]
  rfl

/-- The deleted bits of a lookup read only the entries at or above the path. -/
theorem deletedMask_getPathFlags (c : Bool) :
    (File_GetPathFlags_internal t Q c).1.deletedMask =
      { deleted := (t.onPath Q).any fun n => decide (n.key = pathKey Q) && n.deleted,
        pathDeleted := (t.onPath Q).any fun n =>
          decide (n.key.length < (pathKey Q).length) && n.deleted } := by
  simp only [File_GetPathFlags_internal, PathFlags.deletedMask, PathTree.onPath, List.any_filter]
  congr 2
  · funext n
    by_cases hk : n.key = pathKey Q
    · simp [hk]
    · simp [hk]
  · funext n
    simp only [Bool.and_assoc]

/-- The bits that make a lookup final, together: an entry at or above the path is deleted
or relocated. -/
theorem found_getPathFlags (c : Bool) :
    (let f := (File_GetPathFlags_internal t Q c).1
     f.deleted || f.relocation || f.pathDeleted || f.pathRelocated) =
      (t.onPath Q).any fun n => n.deleted || n.relocation.isSome := by
  apply Bool.eq_iff_iff.mpr
  simp only [File_GetPathFlags_internal, PathTree.onPath, List.any_filter, Bool.or_eq_true,
    List.any_eq_true, Bool.and_eq_true, decide_eq_true_eq]
  constructor
  · rintro (((⟨n, hn, hk, hd⟩ | ⟨n, hn, hk, hr⟩) | ⟨n, hn, ⟨hp, -⟩, hd⟩) |
      ⟨n, hn, ⟨hp, -⟩, hr⟩)
    · exact ⟨n, hn, hk ▸ List.prefix_refl _, .inl hd⟩
    · exact ⟨n, hn, hk ▸ List.prefix_refl _, .inr hr⟩
    · exact ⟨n, hn, hp, .inl hd⟩
    · exact ⟨n, hn, hp, .inr hr⟩
  · -- an entry at or above the path is the path's own or strictly above it
    rintro ⟨n, hn, hp, hd | hr⟩ <;> rcases hp.length_le.lt_or_eq with hlt | heq
    · exact .inl (.inr ⟨n, hn, ⟨hp, hlt⟩, hd⟩)
    · exact .inl (.inl (.inl ⟨n, hn, hp.eq_of_length heq, hd⟩))
    · exact .inr ⟨n, hn, ⟨hp, hlt⟩, hr⟩
    · exact .inl (.inl (.inr ⟨n, hn, hp.eq_of_length heq, hr⟩))

/-- `CHILDREN_DELETED` is set when children are asked for, nothing at or above the path
made the lookup final, and an entry strictly below the path is deleted or relocated. -/
theorem childrenDeleted_getPathFlags (c : Bool) :
    (File_GetPathFlags_internal t Q c).1.childrenDeleted =
      (c && !((t.onPath Q).any fun n => n.deleted || n.relocation.isSome) &&
        t.nodes.any fun n => decide (pathKey Q <+: n.key) &&
          decide ((pathKey Q).length < n.key.length) && (n.deleted || n.relocation.isSome)) := by
  rw [← found_getPathFlags c]
  rfl

theorem onPath_keep_of_not_below {p : PathNode → Bool}
    (hp : ∀ n ∈ t.nodes, n.key <+: pathKey Q → p n = true) :
    (t.keep p).onPath Q = t.onPath Q := by
  simp only [PathTree.onPath, PathTree.keep, List.filter_filter]
  apply List.filter_congr
  intro n hn
  by_cases hq : n.key <+: pathKey Q <;> simp [hq, hp n hn]

theorem onPath_setFlags_of_not_ancestor (hP : ¬ pathKey P <+: pathKey Q) (d : Bool)
    (r : Option (List Char)) : (t.setFlags P d r).onPath Q = t.onPath Q := by
  unfold PathTree.setFlags
  split_ifs
  · simp only [PathTree.onPath, List.filter_map, Function.comp_def, PathNode.key_addFlags]
    conv => rhs; rw [← List.map_id (List.filter _ t.nodes)]
    apply List.map_congr_left
    intro n hn
    have hpre : n.key <+: pathKey Q := by simpa using (List.mem_filter.mp hn).2
    have hk : n.key ≠ pathKey P := fun h => hP (h ▸ hpre)
    simp [PathNode.addFlags, hk]
  · simp only [PathTree.onPath, List.filter_append, List.filter_singleton, PathNode.key]
    have hP' : ¬ (pathSegments P).map wcsLower <+: pathKey Q := hP
    simp [hP']

/-- Marking `P` leaves the entries at and above any path not at or below `P` alone. -/
theorem onPath_markDeleted_of_not_ancestor (hP : ¬ pathKey P <+: pathKey Q) :
    (File_MarkDeleted_internal t P).2.2.onPath Q = t.onPath Q := by
  simp only [File_MarkDeleted_internal]
  rw [onPath_setFlags_of_not_ancestor hP, onPath_keep_of_not_below]
  intro n _ hq
  simp only [Bool.not_eq_true', Bool.and_eq_false_iff, decide_eq_false_iff_not]
  exact .inl fun hPn => hP (hPn.trans hq)

/-- A mark leaves the deleted bits of every path that is not at or below it as they were. -/
theorem deletedMask_markDeleted_of_not_ancestor (hP : ¬ pathKey P <+: pathKey Q) (c : Bool) :
    (File_GetPathFlags_internal (File_MarkDeleted_internal t P).2.2 Q c).1.deletedMask =
      (File_GetPathFlags_internal t Q c).1.deletedMask := by
  rw [deletedMask_getPathFlags, deletedMask_getPathFlags, onPath_markDeleted_of_not_ancestor hP]

/-! ## Relocations -/

/-- A search for the first entry of a key finds the relocation all its entries carry. -/
theorem findSome?_relocation {k : List (List Char)} {N x : List Char} :
    ∀ {L : List PathNode}, (∃ n ∈ L, n.key = k) → (∀ n ∈ L, n.key = k → n.relocation = some N) →
      L.findSome? (fun n => if n.key = k then n.relocation.map (· ++ x) else none) =
        some (N ++ x)
  | [], ⟨_, hn, _⟩, _ => absurd hn (List.not_mem_nil _)
  | n :: L, ⟨m, hm, hk⟩, hall => by
    rw [List.findSome?_cons]
    by_cases hn : n.key = k
    · simp [hn, hall n (List.mem_cons_self _ _) hn]
    · rw [if_neg hn]
      rcases List.mem_cons.mp hm with rfl | hm
      · exact absurd hk hn
      · exact findSome?_relocation ⟨m, hm, hk⟩ fun n' h => hall n' (List.mem_cons_of_mem _ h)

/-- A relocation set at a path is what a lookup of that path returns. -/
theorem relocationOf_setRelocation (N : List Char) :
    relocationOf (File_SetRelocation_internal t P N) P = some N := by
  have hlen : (pathSegments P).length = (pathKey P).length := by simp [pathKey]
  unfold relocationOf File_SetRelocation_internal
  rw [List.range_succ, List.reverse_append, List.reverse_singleton, List.singleton_append,
    List.findSome?_cons, List.take_length, ← hlen, List.drop_length]
  rw [findSome?_relocation (exists_key_setFlags false (some N))
    fun n hn hk => (marks_setFlags_of_key hn hk).2 rfl]
  simp [joinPath]

/-- Recording a relocation sets the path's own relocation bit. -/
theorem relocation_getPathFlags_setRelocation (N : List Char) (c : Bool) :
    (File_GetPathFlags_internal (File_SetRelocation_internal t P N) P c).1.relocation = true := by
  obtain ⟨n, hn, hk⟩ := exists_key_setFlags (t := t) (P := P) false (some N)
  simp only [File_GetPathFlags_internal, File_SetRelocation_internal, List.any_filter,
    List.any_eq_true, Bool.and_eq_true, decide_eq_true_eq]
  exact ⟨n, hn, hk, by simp [(marks_setFlags_of_key hn hk).2 rfl]⟩

/-- Recording a relocation deletes nothing. -/
@[simp] theorem deletedAt_setRelocation (N : List Char) :
    (File_SetRelocation_internal t P N).deletedAt Q = t.deletedAt Q := by
  simp [File_SetRelocation_internal]

/-! ## The persisted line format -/

theorem deletedAt_foldl_setFlags (lines : List PathLine) (t : PathTree) :
    (lines.foldl (fun t l => t.setFlags l.path l.deleted l.relocation) t).deletedAt Q =
      (t.deletedAt Q || lines.any fun l => l.deleted && decide (pathKey l.path <+: pathKey Q)) := by
  induction lines generalizing t with
  | nil => simp
  | cons l ls ih => simp only [List.foldl_cons, ih, deletedAt_setFlags, List.any_cons, Bool.or_assoc]

/-- A loaded store deletes exactly the paths at or below its deleted lines. -/
theorem deletedAt_loadPathTree (lines : List PathLine) :
    (File_LoadPathTree_internal lines).deletedAt Q =
      lines.any fun l => l.deleted && decide (pathKey l.path <+: pathKey Q) := by
  rw [File_LoadPathTree_internal, deletedAt_foldl_setFlags]
  simp [PathTree.deletedAt, PathTree.empty]

/-- Saving a tree and loading the store back gives the same deletion status. -/
theorem deletedAt_load_save (t : PathTree) :
    (File_LoadPathTree_internal (File_SavePathTree_internal t)).deletedAt Q = t.deletedAt Q := by
  rw [deletedAt_loadPathTree, File_SavePathTree_internal, PathTree.deletedAt]
  apply Bool.eq_iff_iff.mpr
  simp only [List.any_eq_true, List.mem_map, Bool.and_eq_true, decide_eq_true_eq]
  constructor
  · rintro ⟨_, ⟨n, hn, rfl⟩, hd, hp⟩
    exact ⟨n, hn, hd, by rwa [pathKey, pathSegments_joinPath (t.wf n hn)] at hp⟩
  · rintro ⟨n, hn, hd, hp⟩
    exact ⟨_, ⟨n, hn, rfl⟩, hd, by rwa [pathKey, pathSegments_joinPath (t.wf n hn)]⟩

end Deletion

end Sandboxie
