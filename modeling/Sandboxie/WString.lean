import Mathlib

/-!
# Wide strings as the core code reads them

The core code keeps paths, names and configuration values in NUL-terminated `WCHAR`
buffers. A value of the model is the list of characters before the terminating NUL. The
helpers here are the C runtime routines the modelled functions call on such buffers:
`_wcslwr`, `_wcsicmp` and `_wcsnicmp`, which compare after lower-casing each character; and
the fact, shared by the readers of paths and of comma lists, that no piece of a split holds
its separator.
-/

namespace Sandboxie

/-- `_wcslwr`: lower-case every character. -/
def wcsLower (s : List Char) : List Char := s.map Char.toLower

/-- `_wcsicmp`: compare the lower-cased strings character by character. -/
def wcsicmp (a b : List Char) : Ordering :=
  if wcsLower a < wcsLower b then .lt else if wcsLower a = wcsLower b then .eq else .gt

/-- `_wcsnicmp (a, b, n) == 0`: the first `n` characters agree up to case. -/
def wcsnicmpEq (a b : List Char) (n : Nat) : Bool :=
  wcsLower (a.take n) = wcsLower (b.take n)

/-- `wcsrchr`: the position of the last `c` in `s`. -/
def wcsrchr : List Char → Char → Option Nat
  | [], _ => none
  | x :: xs, c => match wcsrchr xs c with
    | some i => some (i + 1)
    | none => if x = c then some 0 else none

@[simp] theorem wcsLower_nil : wcsLower [] = [] := rfl

@[simp] theorem wcsLower_cons (c : Char) (s : List Char) :
    wcsLower (c :: s) = c.toLower :: wcsLower s := rfl

@[simp] theorem wcsLower_append (s t : List Char) :
    wcsLower (s ++ t) = wcsLower s ++ wcsLower t := List.map_append _ _ _

@[simp] theorem length_wcsLower (s : List Char) : (wcsLower s).length = s.length :=
  List.length_map _ _

@[simp] theorem wcsLower_eq_nil {s : List Char} : wcsLower s = [] ↔ s = [] :=
  List.map_eq_nil_iff

theorem wcsrchr_eq_none {l : List Char} {c : Char} (h : c ∉ l) : wcsrchr l c = none := by
  induction l with
  | nil => rfl
  | cons x xs ih =>
    simp only [List.mem_cons, not_or] at h
    simp [wcsrchr, ih h.2, Ne.symm h.1]

/-- The last `c` is the one that no other `c` follows. -/
theorem wcsrchr_append_cons {l r : List Char} {c : Char} (h : c ∉ r) :
    wcsrchr (l ++ c :: r) c = some l.length := by
  induction l with
  | nil => simp [wcsrchr, wcsrchr_eq_none h]
  | cons x xs ih => simp [wcsrchr, ih]

theorem not_mem_of_wcsrchr_eq_none {c : Char} :
    ∀ {l : List Char}, wcsrchr l c = none → c ∉ l
  | [], _ => List.not_mem_nil _
  | x :: xs, h => by
    unfold wcsrchr at h
    split at h
    · cases h
    next hj =>
      split_ifs at h with hx
      simpa [Ne.symm hx] using not_mem_of_wcsrchr_eq_none hj

/-- `wcsrchr` finds a `c` that no other `c` follows. -/
theorem wcsrchr_eq_some {c : Char} :
    ∀ {l : List Char} {i : Nat}, wcsrchr l c = some i →
      ∃ pre r, l = pre ++ c :: r ∧ c ∉ r ∧ pre.length = i
  | [], _, h => by cases h
  | x :: xs, i, h => by
    unfold wcsrchr at h
    split at h
    next j hj =>
      obtain ⟨pre, r, rfl, hr, rfl⟩ := wcsrchr_eq_some hj
      cases h
      exact ⟨x :: pre, r, rfl, hr, rfl⟩
    next hj =>
      split_ifs at h with hx
      cases h
      exact ⟨[], xs, by rw [hx]; rfl, not_mem_of_wcsrchr_eq_none hj, rfl⟩

theorem wcsicmp_eq_lt {a b : List Char} : wcsicmp a b = .lt ↔ wcsLower a < wcsLower b := by
  unfold wcsicmp; split_ifs <;> simp_all

theorem wcsicmp_eq_eq {a b : List Char} : wcsicmp a b = .eq ↔ wcsLower a = wcsLower b := by
  unfold wcsicmp
  split_ifs with hlt
  · simpa using ne_of_lt hlt
  · simp_all
  · simp_all

/-- No piece of a split holds a character that was split on. -/
theorem not_mem_of_mem_splitOnP {p : Char → Bool} :
    ∀ {xs l : List Char}, l ∈ xs.splitOnP p → ∀ x ∈ l, p x = false
  | [], l, hl => by simp_all [List.splitOnP_nil]
  | y :: ys, l, hl => by
    rw [List.splitOnP_cons] at hl
    obtain ⟨a, rest, hsplit⟩ := List.exists_cons_of_ne_nil (List.splitOnP_ne_nil p ys)
    split_ifs at hl with hy
    · rcases List.mem_cons.mp hl with rfl | hl
      · simp
      · exact not_mem_of_mem_splitOnP hl
    · rw [hsplit, List.modifyHead_cons] at hl
      rcases List.mem_cons.mp hl with rfl | hl
      · intro x hx
        rcases List.mem_cons.mp hx with rfl | hx
        · simpa using hy
        · exact not_mem_of_mem_splitOnP (hsplit ▸ List.mem_cons_self a rest) x hx
      · exact not_mem_of_mem_splitOnP (hsplit ▸ List.mem_cons_of_mem a hl)

end Sandboxie
