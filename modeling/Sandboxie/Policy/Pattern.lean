import Sandboxie.WString

/-!
# Compiled patterns (`common/pattern.h`)

The policy code of `process_util.c` compiles configured rules into `PATTERN`s with
`Pattern_Create` and asks them `Pattern_Match`, and, in specificity mode,
`Pattern_MatchPathListEx`, which threads a running best `(level, match_len, wildc)` through
the lists it is given. `common/pattern.c` is not among the sources: a pattern is modelled
by what it matches and with what specificity, and `Pattern_MatchPathListEx` from the spec
(section 4.4): a pattern replaces the running best when it ranks strictly better, lower
level first, then higher specificity, then fewer wildcards.

* `MatchRank.better_trichotomy`: the ranking is a strict total order.
* `Pattern_MatchPathListEx_taken`, `Pattern_MatchPathListEx_unbeaten`: a list takes the
  running best exactly when one of its patterns beats it, and afterwards none beats it.
-/

namespace Sandboxie

/-- A compiled pattern: its source, its match level, its wildcard count, and what it
matches, with the specificity of each match. -/
structure PATTERN where
  source : List Char
  level : Nat
  wildc : Nat
  matchX : List Char → Option Nat

/-- The matcher of `common/pattern.c`: the compiled form of a source (`Pattern_Create`
lower-cases it) and its wildcard count. -/
structure PatternLib where
  compile : List Char → List Char → Option Nat
  wildcards : List Char → Nat

/-- `Pattern_Create (pool, source, TRUE, level)`. -/
def Pattern_Create (lib : PatternLib) (source : List Char) (level : Nat) : PATTERN :=
  ⟨source, level, lib.wildcards source, lib.compile source⟩

/-- `Pattern_Source`. -/
def Pattern_Source (pat : PATTERN) : List Char := pat.source

/-- `Pattern_Match (pat, str, len)`. -/
def Pattern_Match (pat : PATTERN) (str : List Char) : Bool := (pat.matchX str).isSome

/-! ## Ranking -/

/-- The running best `(level, match_len, wildc)` of `Process_MatchPathEx`. -/
structure MatchRank where
  level : Nat
  match_len : Nat
  wildc : Nat
deriving DecidableEq, Repr

/-- Modelled from the spec (section 4.4): `a` ranks strictly better than `b`: lower level,
then higher specificity, then fewer wildcards. -/
def MatchRank.better (a b : MatchRank) : Bool :=
  a.level < b.level || (a.level = b.level &&
    (b.match_len < a.match_len || (a.match_len = b.match_len && a.wildc < b.wildc)))

namespace MatchRank

theorem better_iff {a b : MatchRank} :
    a.better b = true ↔ a.level < b.level ∨ (a.level = b.level ∧
      (b.match_len < a.match_len ∨ (a.match_len = b.match_len ∧ a.wildc < b.wildc))) := by
  simp [better]

theorem better_irrefl (a : MatchRank) : a.better a = false := by
  simp [better]

theorem better_trans {a b c : MatchRank} (hab : a.better b = true) (hbc : b.better c = true) :
    a.better c = true := by
  rw [better_iff] at *
  omega

theorem better_trichotomy (a b : MatchRank) : a.better b = true ∨ a = b ∨ b.better a = true := by
  obtain ⟨la, ma, wa⟩ := a
  obtain ⟨lb, mb, wb⟩ := b
  simp only [better_iff, mk.injEq]
  omega

end MatchRank

/-- The rank of a pattern where it matches `path`. -/
def PATTERN.rank? (pat : PATTERN) (path : List Char) : Option MatchRank :=
  (pat.matchX path).map fun len => ⟨pat.level, len, pat.wildc⟩

/-- The pattern matches `path` with a rank strictly better than `best`. -/
def PATTERN.beats (pat : PATTERN) (path : List Char) (best : MatchRank) : Bool :=
  match pat.rank? path with
  | some r => r.better best
  | none => false

theorem PATTERN.beats_iff {pat : PATTERN} {path : List Char} {best : MatchRank} :
    pat.beats path best = true ↔ ∃ r, pat.rank? path = some r ∧ r.better best = true := by
  unfold PATTERN.beats
  cases pat.rank? path <;> simp

/-! ## `Pattern_MatchPathListEx` -/

/-- One pattern of `Pattern_MatchPathListEx`: it takes the running best, and `*patsrc`,
when it ranks strictly better. The flag records whether some pattern took it. -/
def bestStep (path : List Char) (s : Bool × MatchRank × Option (List Char)) (pat : PATTERN) :
    Bool × MatchRank × Option (List Char) :=
  match pat.rank? path with
  | some r => if r.better s.2.1 then (true, r, some (Pattern_Source pat)) else s
  | none => s

/-- Modelled from the spec (section 4.4): `Pattern_MatchPathListEx (path, len, list, &level,
&match_len, &flags, &wildc, patsrc)` goes through the list in order and lets each pattern
take the running best; it answers whether one did. -/
def Pattern_MatchPathListEx (path : List Char) (list : List PATTERN)
    (best : MatchRank × Option (List Char)) : Bool × MatchRank × Option (List Char) :=
  list.foldl (bestStep path) (false, best)

section Fold

variable (path : List Char)

/-- A step keeps the running best, or replaces it by a strictly better one of the pattern. -/
theorem bestStep_cases (s : Bool × MatchRank × Option (List Char)) (pat : PATTERN) :
    bestStep path s pat = s ∧ pat.beats path s.2.1 = false ∨
      (bestStep path s pat).1 = true ∧ pat.rank? path = some (bestStep path s pat).2.1 ∧
        (bestStep path s pat).2.1.better s.2.1 = true := by
  unfold bestStep PATTERN.beats
  cases pat.rank? path with
  | none => simp
  | some r =>
    by_cases h : r.better s.2.1 = true
    · simp [h]
    · simp [h]

/-- The running best only gets better. -/
theorem foldl_bestStep_mono :
    ∀ (pats : List PATTERN) (s : Bool × MatchRank × Option (List Char)),
      (pats.foldl (bestStep path) s).2.1 = s.2.1 ∨
        (pats.foldl (bestStep path) s).2.1.better s.2.1 = true
  | [], _ => .inl rfl
  | pat :: pats, s => by
    rw [List.foldl_cons]
    rcases bestStep_cases path s pat with ⟨h, -⟩ | ⟨-, -, hb⟩
    · rw [h]; exact foldl_bestStep_mono pats s
    · rcases foldl_bestStep_mono pats (bestStep path s pat) with h | h
      · rw [h]; exact .inr hb
      · exact .inr (MatchRank.better_trans h hb)

/-- Nothing changes when no pattern beats the running best. -/
theorem foldl_bestStep_of_unbeaten :
    ∀ (pats : List PATTERN) (s : Bool × MatchRank × Option (List Char)),
      pats.any (·.beats path s.2.1) = false → pats.foldl (bestStep path) s = s
  | [], _, _ => rfl
  | pat :: pats, s, h => by
    simp only [List.any_cons, Bool.or_eq_false_iff] at h
    rcases bestStep_cases path s pat with ⟨hs, -⟩ | ⟨-, hr, hb⟩
    · rw [List.foldl_cons, hs]; exact foldl_bestStep_of_unbeaten pats s h.2
    · simp [PATTERN.beats, hr, hb] at h

/-- The flag is set exactly when some pattern beats the running best it started from. -/
theorem foldl_bestStep_fst :
    ∀ (pats : List PATTERN) (s : Bool × MatchRank × Option (List Char)),
      (pats.foldl (bestStep path) s).1 = (s.1 || pats.any (·.beats path s.2.1))
  | [], _ => by simp
  | pat :: pats, s => by
    rw [List.foldl_cons, foldl_bestStep_fst pats, List.any_cons]
    rcases bestStep_cases path s pat with ⟨hs, hn⟩ | ⟨ht, hr, hb⟩
    · rw [hs, hn, Bool.false_or]
    · simp [ht, PATTERN.beats, hr, hb]

/-- A pattern does not beat the running best its own step leaves. -/
theorem bestStep_unbeaten (s : Bool × MatchRank × Option (List Char)) (pat : PATTERN) :
    pat.beats path (bestStep path s pat).2.1 = false := by
  rcases bestStep_cases path s pat with ⟨h, hn⟩ | ⟨-, hr, -⟩
  · rwa [h]
  · simp [PATTERN.beats, hr, MatchRank.better_irrefl]

/-- A pattern that does not beat a running best does not beat a better one either. -/
theorem beats_eq_false_of_better {pat : PATTERN} {b b' : MatchRank}
    (h : pat.beats path b = false) (hb : b' = b ∨ b'.better b = true) :
    pat.beats path b' = false := by
  rcases hb with rfl | hb
  · exact h
  · rw [Bool.eq_false_iff] at h ⊢
    intro hb'
    obtain ⟨r, hr, hrb⟩ := PATTERN.beats_iff.mp hb'
    exact h (PATTERN.beats_iff.mpr ⟨r, hr, MatchRank.better_trans hrb hb⟩)

/-- No pattern of the list beats the running best it leaves. -/
theorem foldl_bestStep_unbeaten :
    ∀ (pats : List PATTERN) (s : Bool × MatchRank × Option (List Char)),
      ∀ pat ∈ pats, pat.beats path (pats.foldl (bestStep path) s).2.1 = false
  | [], _, _, h => absurd h (List.not_mem_nil _)
  | q :: pats, s, pat, hpat => by
    rw [List.foldl_cons]
    rcases List.mem_cons.mp hpat with rfl | hpat
    · exact beats_eq_false_of_better path (bestStep_unbeaten path s pat)
        (foldl_bestStep_mono path pats _)
    · exact foldl_bestStep_unbeaten pats _ pat hpat

/-- The running best left is the one started from or the rank of one of the patterns. -/
theorem foldl_bestStep_rank :
    ∀ (pats : List PATTERN) (s : Bool × MatchRank × Option (List Char)),
      (pats.foldl (bestStep path) s).2.1 = s.2.1 ∨
        ∃ pat ∈ pats, pat.rank? path = some (pats.foldl (bestStep path) s).2.1
  | [], _ => .inl rfl
  | pat :: pats, s => by
    rw [List.foldl_cons]
    rcases foldl_bestStep_rank pats (bestStep path s pat) with h | ⟨q, hq, h⟩
    · rcases bestStep_cases path s pat with ⟨hs, -⟩ | ⟨-, hr, -⟩
      · rw [h, hs]; exact .inl rfl
      · rw [h]; exact .inr ⟨pat, List.mem_cons_self _ _, hr⟩
    · exact .inr ⟨q, List.mem_cons_of_mem _ hq, h⟩

end Fold

/-- A list takes the running best exactly when one of its patterns beats it. -/
theorem Pattern_MatchPathListEx_taken (path : List Char) (list : List PATTERN)
    (best : MatchRank × Option (List Char)) :
    (Pattern_MatchPathListEx path list best).1 = list.any (·.beats path best.1) := by
  rw [Pattern_MatchPathListEx, foldl_bestStep_fst, Bool.false_or]

/-- A list that does not take the running best leaves it as it was. -/
theorem Pattern_MatchPathListEx_of_not_taken (path : List Char) (list : List PATTERN)
    (best : MatchRank × Option (List Char))
    (h : (Pattern_MatchPathListEx path list best).1 = false) :
    (Pattern_MatchPathListEx path list best).2 = best := by
  rw [Pattern_MatchPathListEx_taken] at h
  rw [Pattern_MatchPathListEx, foldl_bestStep_of_unbeaten path list _ h]

/-- After a list, none of its patterns beats the running best. -/
theorem Pattern_MatchPathListEx_unbeaten (path : List Char) (list : List PATTERN)
    (best : MatchRank × Option (List Char)) :
    ∀ pat ∈ list, pat.beats path (Pattern_MatchPathListEx path list best).2.1 = false :=
  foldl_bestStep_unbeaten path list _

/-- After a list, the running best is the one before or the rank of one of its patterns. -/
theorem Pattern_MatchPathListEx_rank (path : List Char) (list : List PATTERN)
    (best : MatchRank × Option (List Char)) :
    (Pattern_MatchPathListEx path list best).2.1 = best.1 ∨
      ∃ pat ∈ list, pat.rank? path = some (Pattern_MatchPathListEx path list best).2.1 :=
  foldl_bestStep_rank path list _

end Sandboxie
