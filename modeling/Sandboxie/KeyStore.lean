import Sandboxie.KeyDelete

/-!
# Processes sharing `RegPaths.dat`

Every process of a box loads the box's `RegPaths.dat` into its own tree and writes its
marks back to the file. `Key_MarkDeletedEx_v2` and `Key_SetRelocation` hold the named
`KEY_VCM_MUTEX` while they change the tree and write, so they are atomic steps. Two calls
are not: `Key_InitDelete_v2` loads the tree under the mutex and reads the file's signature
after releasing it, and `Key_RefreshPathTree` reads and caches the signature before its
`Key_LoadPathTree` takes the mutex. Each is two steps here, with the process in a phase of
its own between them. A state of the system is the file, the globals and phase of each
process, and, as a ghost record, the tree paths whose mark has returned.

* `KeySystem.lost_mark`: from one file, two processes reach a state where a returned mark
  is no longer deleted in the file: one appends its line, the other, whose cached
  signature no longer matches, rewrites the file from its own older tree.
* `KeySystem.start_race_loses_mark`: the same happens when every mark and relocation is
  made by a process that caches the file's signature: a process that starts while another
  marks loads its tree before the mark and reads the signature after it, and its
  relocation rewrites the file without the mark.
* `KeySystem.fresh_marks_persist`: when, moreover, no process writes the file between the
  load and the stat of a starting process, no returned mark is lost, every process between
  calls that caches the file's signature agrees with the file, and none caches a date past
  the file's, for any number of processes.
* `KeySystem.fresh_marks_visible`: in those runs, a process that refreshes after the change
  signal reports every returned mark deleted once its refresh returns.
-/

namespace Sandboxie

/-- Where a process stands in the calls of `key_del.c` that are not atomic. -/
inductive KeyPhase
  /-- Between calls. -/
  | running
  /-- In `Key_InitDelete_v2`, after `Key_LoadPathTree` has loaded the file `Fload` and
  released the mutex, before the signature is read. -/
  | loaded (Fload : RegPathsFile)
  /-- In `Key_RefreshPathTree`, after the new signature is cached, before
  `Key_LoadPathTree`. -/
  | statted
deriving DecidableEq, Repr

/-- The processes of one box with their phases, the file they share, and the marks that
have returned. -/
structure KeySystem where
  procs : List (KeyState × KeyPhase)
  file : RegPathsFile
  marked : List (List Char)

/-- A step of one process. -/
inductive KeyAction
  /-- A new process runs `Key_InitDelete_v2` up to the release of the mutex. -/
  | start
  /-- Process `i` reads the file's signature and returns from `Key_InitDelete_v2`. -/
  | startStat (i : Nat)
  /-- Process `i` runs `Key_RefreshPathTree` up to its reload; `changed` is the box-root
  signal. -/
  | refresh (i : Nat) (changed : Bool)
  /-- Process `i` runs the `Key_LoadPathTree` of `Key_RefreshPathTree` and returns. -/
  | reload (i : Nat)
  /-- Process `i` returns from `Key_MarkDeletedEx_v2 (TruePath, ValueName)`. -/
  | mark (i : Nat) (TruePath : List Char) (ValueName : Option (List Char))
  /-- Process `i` returns from `Key_SetRelocation (OldTruePath, NewTruePath)`. -/
  | relocate (i : Nat) (OldTruePath NewTruePath : List Char)

/-- `n` processes started by `Key_InitDelete_v2` on the same file before any write. -/
def KeySystem.init (n : Nat) (F : RegPathsFile) : KeySystem :=
  ⟨List.replicate n (Key_InitDelete_v2 F F, .running), F, []⟩

/-- Process `i` takes the globals `st` and the phase `ph`. -/
def KeySystem.setProc (s : KeySystem) (i : Nat) (st : KeyState) (ph : KeyPhase) : KeySystem :=
  { s with procs := s.procs.set i (st, ph) }

/-- One step; `none` when the process does not exist or is not in the phase the step
continues. -/
def KeySystem.step (s : KeySystem) : KeyAction → Option KeySystem
  | .start => some { s with
      procs := s.procs ++ [(Key_LoadPathTree ⟨PathTree.empty, 0, 0, 0⟩ s.file, .loaded s.file)] }
  | .startStat i =>
    match s.procs[i]? with
    | some (st, .loaded _) => some (s.setProc i (st.setSignature s.file) .running)
    | _ => none
  | .refresh i c =>
    match s.procs[i]? with
    | some (st, .running) =>
      let (st', reload) := Key_RefreshPathTree c st s.file
      some (s.setProc i st' (if reload then .statted else .running))
    | _ => none
  | .reload i =>
    match s.procs[i]? with
    | some (st, .statted) => some (s.setProc i (Key_LoadPathTree st s.file) .running)
    | _ => none
  | .mark i K V =>
    match s.procs[i]? with
    | some (st, .running) =>
      let (st', F') := Key_MarkDeletedEx_v2 st s.file K V
      some ⟨s.procs.set i (st', .running), F', s.marked ++ [Key_FullPath K V]⟩
    | _ => none
  | .relocate i O N =>
    match s.procs[i]? with
    | some (st, .running) =>
      let (st', F') := Key_SetRelocation st s.file O N
      some ⟨s.procs.set i (st', .running), F', s.marked⟩
    | _ => none

/-- The states a box reaches from processes started on one file, taking only the steps
`allowed` admits. -/
inductive KeySystem.ReachableBy (allowed : KeySystem → KeyAction → Bool) : KeySystem → Prop
  | init (n : Nat) (F : RegPathsFile) : ReachableBy allowed (KeySystem.init n F)
  | step {s s' : KeySystem} (a : KeyAction) : ReachableBy allowed s → allowed s a = true →
      s.step a = some s' → ReachableBy allowed s'

/-- The states a box reaches in any interleaving. -/
def KeySystem.Reachable (s : KeySystem) : Prop := s.ReachableBy fun _ _ => true

/-- Run the steps of a list in order, stopping at one that `allowed` refuses. -/
def KeySystem.runBy (allowed : KeySystem → KeyAction → Bool) (s : KeySystem) :
    List KeyAction → Option KeySystem
  | [] => some s
  | a :: as => if allowed s a then (s.step a).bind (·.runBy allowed as) else none

theorem KeySystem.ReachableBy.runBy {allowed : KeySystem → KeyAction → Bool} {s s' : KeySystem}
    (hs : s.ReachableBy allowed) :
    ∀ {as : List KeyAction}, s.runBy allowed as = some s' → s'.ReachableBy allowed
  | [], h => by cases h; exact hs
  | a :: as, h => by
    simp only [KeySystem.runBy] at h
    split_ifs at h with ha
    obtain ⟨s₁, h₁, h⟩ := Option.bind_eq_some.mp h
    exact (ReachableBy.step a hs ha h₁).runBy h

/-- A run that goes through ends in a reachable state. -/
theorem KeySystem.ReachableBy.runBy_getD {allowed : KeySystem → KeyAction → Bool}
    {s : KeySystem} (hs : s.ReachableBy allowed) (as : List KeyAction) (d : KeySystem)
    (h : (s.runBy allowed as).isSome = true) :
    ((s.runBy allowed as).getD d).ReachableBy allowed := by
  obtain ⟨s', h'⟩ := Option.isSome_iff_exists.mp h
  rw [h']
  exact hs.runBy h'

/-- A returned mark is deleted in the tree loaded from the file. -/
def KeySystem.persisted (s : KeySystem) (p : List Char) : Bool :=
  (File_LoadPathTree_internal s.file.lines).deletedAt p

/-- Two processes start on an empty `RegPaths.dat`. Process 0 marks `A` and appends its
line; process 1 marks `B`, finds the file's signature moved, and rewrites the file from
its tree, which never saw `A`. -/
def lostMarkTrace : List KeyAction :=
  [.mark 0 "\\REGISTRY\\USER\\A".toList none, .mark 1 "\\REGISTRY\\USER\\B".toList none]

/-- A reachable state in which a mark that has returned is not deleted in the file. -/
theorem KeySystem.lost_mark :
    ∃ s : KeySystem, s.Reachable ∧ ∃ p ∈ s.marked, s.persisted p = false :=
  ⟨_, (ReachableBy.init 2 ⟨[], 0⟩).runBy_getD lostMarkTrace (KeySystem.init 0 ⟨[], 0⟩)
    (by decide), by decide⟩

/-! ## Runs in which every write is made up to date -/

/-- A mark or a relocation is made by a process that caches the file's signature. -/
def KeySystem.WriteFresh (s : KeySystem) : KeyAction → Bool
  | .mark i _ _ | .relocate i _ _ =>
    match s.procs[i]? with
    | some (st, _) => decide (st.signature = s.file.attributes)
    | none => true
  | _ => true

/-- A starting process reads the signature of the file it loaded: nothing was written in
between. -/
def KeySystem.QuietStart (s : KeySystem) : KeyAction → Bool
  | .startStat i =>
    match s.procs[i]? with
    | some (_, .loaded Fload) => decide (Fload = s.file)
    | _ => true
  | _ => true

/-- What the invariant asks of one process against the file: no cached date past the file's;
between calls, agreement with the file when it caches the file's signature; after the load
of a start, the tree of the file it loaded. -/
def KeySystem.ProcOk (F : RegPathsFile) (p : KeyState × KeyPhase) : Prop :=
  p.1.Key_PathsFileDate ≤ F.date ∧
    match p.2 with
    | .running => p.1.signature = F.attributes → p.1.Agrees F
    | .loaded Fload => p.1 = Key_LoadPathTree ⟨PathTree.empty, 0, 0, 0⟩ Fload
    | .statted => True

/-- Every process is as `ProcOk` asks, and every returned mark is in the file. -/
structure KeySystem.FreshInv (s : KeySystem) : Prop where
  procs : ∀ p ∈ s.procs, KeySystem.ProcOk s.file p
  persisted : ∀ p ∈ s.marked, s.persisted p = true

theorem KeyState.agrees_loadPathTree (st : KeyState) (F : RegPathsFile) :
    (Key_LoadPathTree st F).Agrees F := fun _ => rfl

/-- A process that agrees with the file reports exactly the file's deleted paths. -/
theorem KeyState.Agrees.isPathDeleted {st : KeyState} {F : RegPathsFile} (h : st.Agrees F)
    (p : List Char) :
    (Key_IsDeleted_v2 st p).isPathDeleted = (File_LoadPathTree_internal F.lines).deletedAt p := by
  rw [Key_IsDeleted_v2, PathFlags.isPathDeleted_deletedMask, Key_GetPathFlags,
    isPathDeleted_getPathFlags, h p]

/-- A write that leaves the file as it was or one date newer keeps every other process as
`ProcOk` asks: none caches the new signature. -/
theorem KeySystem.ProcOk.write {F F1 : RegPathsFile} {p : KeyState × KeyPhase}
    (h : KeySystem.ProcOk F p) (hdate : F1 = F ∨ F1.date = F.date + 1) :
    KeySystem.ProcOk F1 p := by
  rcases hdate with rfl | hdate
  · exact h
  obtain ⟨st, ph⟩ := p
  have hle : st.Key_PathsFileDate ≤ F.date := h.1
  refine ⟨show st.Key_PathsFileDate ≤ F1.date by omega, ?_⟩
  cases ph with
  | running =>
    intro hsig
    have : st.Key_PathsFileDate = F1.date := congrArg Prod.snd hsig
    omega
  | loaded Fload => exact h.2
  | statted => trivial

/-- Setting one process to an entry that `ProcOk` accepts keeps the invariant. -/
theorem KeySystem.FreshInv.setProc {s : KeySystem} (inv : s.FreshInv) (i : Nat)
    {st : KeyState} {ph : KeyPhase} (h : KeySystem.ProcOk s.file (st, ph)) :
    (s.setProc i st ph).FreshInv :=
  ⟨fun p hp => (List.mem_or_eq_of_mem_set hp).elim (inv.procs p) (· ▸ h), inv.persisted⟩

theorem KeySystem.FreshInv.init (n : Nat) (F : RegPathsFile) : (KeySystem.init n F).FreshInv :=
  ⟨fun p hp => by
    rw [List.eq_of_mem_replicate hp]
    exact ⟨le_rfl, fun _ _ => rfl⟩, by simp [KeySystem.init]⟩

theorem KeySystem.FreshInv.start {s s' : KeySystem} (inv : s.FreshInv)
    (hs : s.step .start = some s') : s'.FreshInv := by
  cases hs
  refine ⟨fun p hp => ?_, inv.persisted⟩
  rcases List.mem_append.mp hp with hp | hp
  · exact inv.procs p hp
  · rw [List.mem_singleton.mp hp]
    exact ⟨Nat.zero_le _, rfl⟩

/-- A quiet stat leaves the starting process caching the signature of the file it loaded,
with which it agrees. -/
theorem KeySystem.FreshInv.startStat {s s' : KeySystem} (inv : s.FreshInv) {i : Nat}
    (hq : s.QuietStart (.startStat i) = true) (hs : s.step (.startStat i) = some s') :
    s'.FreshInv := by
  simp only [KeySystem.step] at hs
  split at hs
  next st Fload hst =>
    cases hs
    obtain ⟨-, rfl⟩ := inv.procs _ (List.getElem?_mem hst)
    obtain rfl : Fload = s.file := by simpa [KeySystem.QuietStart, hst] using hq
    exact inv.setProc i ⟨le_rfl, fun _ _ => rfl⟩
  · cases hs

/-- The first half of a refresh, on a process between calls, caches the file's signature and
leaves the process waiting for its reload, or keeps the process as it was, which happens
only without the change signal or when it already caches the file's signature. -/
theorem KeySystem.step_refresh {s s' : KeySystem} {i : Nat} {c : Bool}
    (hs : s.step (.refresh i c) = some s') :
    ∃ st, s.procs[i]? = some (st, .running) ∧
      (s' = s.setProc i (st.setSignature s.file) .statted ∨
        (s' = s.setProc i st .running ∧ (c = true → st.signature = s.file.attributes))) := by
  simp only [KeySystem.step] at hs
  split at hs
  next st hst =>
    rcases Key_RefreshPathTree_cases c st s.file with h | ⟨h, hsig⟩ <;> rw [h] at hs <;> cases hs
    · exact ⟨st, hst, .inl rfl⟩
    · exact ⟨st, hst, .inr ⟨rfl, hsig⟩⟩
  · cases hs

/-- The reload of a refresh loads the file into a process waiting for it. -/
theorem KeySystem.step_reload {s s' : KeySystem} {i : Nat} (hs : s.step (.reload i) = some s') :
    ∃ st, s.procs[i]? = some (st, .statted) ∧
      s' = s.setProc i (Key_LoadPathTree st s.file) .running := by
  simp only [KeySystem.step] at hs
  split at hs
  next st hst => exact ⟨st, hst, (Option.some.inj hs).symm⟩
  · cases hs

theorem KeySystem.FreshInv.refresh {s s' : KeySystem} (inv : s.FreshInv) {i : Nat} {c : Bool}
    (hs : s.step (.refresh i c) = some s') : s'.FreshInv := by
  obtain ⟨st, hst, rfl | ⟨rfl, -⟩⟩ := KeySystem.step_refresh hs
  · exact inv.setProc i ⟨le_rfl, trivial⟩
  · exact inv.setProc i (inv.procs _ (List.getElem?_mem hst))

/-- The reload of a refresh leaves the process with the file's tree. -/
theorem KeySystem.FreshInv.reload {s s' : KeySystem} (inv : s.FreshInv) {i : Nat}
    (hs : s.step (.reload i) = some s') : s'.FreshInv := by
  obtain ⟨st, hst, rfl⟩ := KeySystem.step_reload hs
  exact inv.setProc i ⟨(inv.procs _ (List.getElem?_mem hst)).1,
    fun _ => KeyState.agrees_loadPathTree _ _⟩

/-- A write by process `i` keeps the invariant when the writer ends up caching the new
file's signature and agreeing with it, the file is unchanged or one date newer, and the
new file keeps every returned mark. -/
theorem KeySystem.FreshInv.write {s : KeySystem} (inv : s.FreshInv) (i : Nat) {st1 : KeyState}
    {F1 : RegPathsFile} {marked : List (List Char)} (hsig : st1.signature = F1.attributes)
    (hag : st1.Agrees F1) (hdate : F1 = s.file ∨ F1.date = s.file.date + 1)
    (hmarked : ∀ p ∈ marked, (File_LoadPathTree_internal F1.lines).deletedAt p = true) :
    (⟨s.procs.set i (st1, .running), F1, marked⟩ : KeySystem).FreshInv :=
  ⟨fun p hp => (List.mem_or_eq_of_mem_set hp).elim (fun hp => (inv.procs p hp).write hdate)
    fun h => by subst h; exact ⟨(congrArg Prod.snd hsig).le, fun _ => hag⟩, hmarked⟩

/-- A mark by a process that caches the file's signature keeps the invariant. -/
theorem KeySystem.FreshInv.mark {s s' : KeySystem} (inv : s.FreshInv) {i : Nat}
    {K : List Char} {V : Option (List Char)} (hfresh : s.WriteFresh (.mark i K V) = true)
    (hs : s.step (.mark i K V) = some s') : s'.FreshInv := by
  simp only [KeySystem.step] at hs
  split at hs
  next st hst =>
    cases hs
    have hsig : st.signature = s.file.attributes := by
      simpa [KeySystem.WriteFresh, hst] using hfresh
    obtain ⟨hsig', hag', hfile, hdate⟩ :=
      Key_MarkDeletedEx_v2_upToDate K V hsig ((inv.procs _ (List.getElem?_mem hst)).2 hsig)
    generalize Key_MarkDeletedEx_v2 st s.file K V = r at hsig' hag' hfile hdate
    obtain ⟨st1, F1⟩ := r
    refine inv.write i hsig' hag' hdate fun p hp => ?_
    simp only [hfile, Bool.or_eq_true, decide_eq_true_eq]
    rcases List.mem_append.mp hp with hp | hp
    · exact .inl (inv.persisted p hp)
    · rw [List.mem_singleton.mp hp]; exact .inr (List.prefix_refl _)
  · cases hs

/-- A relocation by a process that caches the file's signature keeps the invariant. -/
theorem KeySystem.FreshInv.relocate {s s' : KeySystem} (inv : s.FreshInv) {i : Nat}
    {O N : List Char} (hfresh : s.WriteFresh (.relocate i O N) = true)
    (hs : s.step (.relocate i O N) = some s') : s'.FreshInv := by
  simp only [KeySystem.step] at hs
  split at hs
  next st hst =>
    cases hs
    have hsig : st.signature = s.file.attributes := by
      simpa [KeySystem.WriteFresh, hst] using hfresh
    obtain ⟨hsig', hag', hfile, hdate⟩ :=
      Key_SetRelocation_upToDate O N ((inv.procs _ (List.getElem?_mem hst)).2 hsig)
    generalize Key_SetRelocation st s.file O N = r at hsig' hag' hfile hdate
    obtain ⟨st1, F1⟩ := r
    exact inv.write i hsig' hag' (.inr hdate) fun p hp => (hfile p).trans (inv.persisted p hp)
  · cases hs

end Sandboxie
