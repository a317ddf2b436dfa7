import Sandboxie.ScmBuffers

/-!
# The rounds of `Scm_GetAllServices` on its buffers

`Sandboxie.Scm` runs the loop of `Scm_GetAllServices` on lists of names. The code runs it on
the two MULTI_SZ buffers themselves: the scan walks them with `work_ptr`, `small_ptr` and
`last_ptr` point into them, a tombstone is the write `*small_ptr = L'*'`, the duplicate check
reads the tail of the last name from the buffer and its first character from `last_ptr0`,
and each name goes into the output buffer with its NUL. A position in `copy_names` is
counted from the end of `true_names`.

Decoding the two buffers is the abstraction: each round on the buffers is a round of the
list loop, on the names the buffers hold.

* `multiSzWalk_encode`: the walk visits each name of a MULTI_SZ buffer at its offset.
* `Scm_GetAllServices_buf_eq`: on buffers whose walks end, the loop on the buffers writes
  the MULTI_SZ encoding of the list `Scm_GetAllServices` returns on their names.
-/

namespace Sandboxie

/-! ## The loop on the buffers -/

/-- The string at offset `off`, up to its NUL. -/
def wcsAt (buf : List Char) (off : Nat) : List Char :=
  (buf.drop off).takeWhile (· != '\x00')

/-- The walk `for (work_ptr = buf; *work_ptr; work_ptr += wcslen (work_ptr) + 1)` from offset
`off`, for at most `fuel` names: the offset and the string of each name it visits. -/
def multiSzWalk (buf : List Char) : Nat → Nat → List (Nat × List Char)
  | 0, _ => []
  | fuel + 1, off =>
    if buf.getD off '\x00' = '\x00' then []
    else (off, wcsAt buf off) :: multiSzWalk buf fuel (off + (wcsAt buf off).length + 1)

/-- The names the scan of `Scm_GetAllServices` visits: those of `true_names`, then those of
`copy_names`, each at its position. -/
def serviceEntries (true_names copy_names : List Char) : List (Nat × List Char) :=
  multiSzWalk true_names true_names.length 0 ++
    (multiSzWalk copy_names copy_names.length 0).map fun e => (true_names.length + e.1, e.2)

/-- `*small_ptr = L'*'` at position `p` of the two buffers. -/
def tombstoneAt (bufs : List Char × List Char) (p : Nat) : List Char × List Char :=
  if p < bufs.1.length then (bufs.1.set p '*', bufs.2)
  else (bufs.1, bufs.2.set (p - bufs.1.length) '*')

/-- The string at position `p` of the two buffers. -/
def wcsAtBoth (bufs : List Char × List Char) (p : Nat) : List Char :=
  if p < bufs.1.length then wcsAt bufs.1 p else wcsAt bufs.2 (p - bufs.1.length)

/-- The `while (1)` of `Scm_GetAllServices` on the buffers `true_names` and `copy_names`, with
at most `fuel` rounds: `last` is `last_ptr` with `last_ptr0`, and `out` what the output buffer
holds so far; the result ends with the final NUL. -/
def getAllBufLoop : Nat → List Char × List Char → Option (Nat × Char) → List Char →
    Option (List Char)
  | 0, _, _, _ => none
  | fuel + 1, bufs, last, out =>
    match (serviceEntries bufs.1 bufs.2).foldl smallStep none with
    | none => some (out ++ ['\x00'])
    | some (p, small) =>
      match last with
      | some (last_ptr, last_ptr0) =>
        if small.headD '\x00' = last_ptr0 ∧
            wcsicmp small.tail (wcsAtBoth bufs (last_ptr + 1)) = .eq then
          getAllBufLoop fuel (tombstoneAt bufs p) last out
        else
          getAllBufLoop fuel (tombstoneAt bufs p) (some (p, small.headD '\x00'))
            (out ++ small ++ ['\x00'])
      | none =>
        getAllBufLoop fuel (tombstoneAt bufs p) (some (p, small.headD '\x00'))
          (out ++ small ++ ['\x00'])

/-- `Scm_GetAllServices` on the server's buffer `true_names` and the box's `copy_names`: the
contents of `out_names` up to its final NUL. Every round tombstones a name, so the rounds
are fewer than the characters of the two buffers. -/
def Scm_GetAllServices_buf (true_names copy_names : List Char) : Option (List Char) :=
  getAllBufLoop (true_names.length + copy_names.length + 1) (true_names, copy_names) none []

/-! ## Names in a buffer -/

/-- Where the names of a MULTI_SZ buffer start, the first at `base`. -/
def nameStartsFrom (base : Nat) : List (List Char) → List Nat
  | [] => []
  | n :: names => base :: nameStartsFrom (base + n.length + 1) names

@[simp] theorem length_nameStartsFrom :
    ∀ (base : Nat) (names : List (List Char)), (nameStartsFrom base names).length = names.length
  | _, [] => rfl
  | _, _ :: names => by simp [nameStartsFrom, length_nameStartsFrom _ names]

theorem nameStartsFrom_add (a : Nat) :
    ∀ (b : Nat) (names : List (List Char)),
      nameStartsFrom (a + b) names = (nameStartsFrom b names).map (a + ·)
  | _, [] => rfl
  | b, n :: names => by
    rw [nameStartsFrom, nameStartsFrom, List.map_cons, ← nameStartsFrom_add a _ names]
    simp only [Nat.add_assoc]

theorem getD_append_length (pre rest : List Char) (d : Char) :
    (pre ++ rest).getD pre.length d = rest.getD 0 d := by
  simp [List.getElem?_append_right]

@[simp] theorem multiSzEncode_cons (n : List Char) (names : List (List Char)) :
    multiSzEncode (n :: names) = n ++ '\x00' :: multiSzEncode names := by
  simp [multiSzEncode]

theorem takeWhile_name {n : List Char} (h : '\x00' ∉ n) (rest : List Char) :
    (n ++ '\x00' :: rest).takeWhile (· != '\x00') = n := by
  rw [List.takeWhile_append_of_pos fun a ha => by simpa using ne_of_mem_of_not_mem ha h]
  simp

/-- The walk visits each name of a MULTI_SZ buffer at its offset. -/
theorem multiSzWalk_encode (g : List Char) :
    ∀ (pre : List Char) (names : List (List Char)) (fuel : Nat), (∀ n ∈ names, IsSzName n) →
      names.length ≤ fuel →
        multiSzWalk (pre ++ multiSzEncode names ++ g) fuel pre.length =
          (nameStartsFrom pre.length names).zip names
  | pre, [], fuel, _, _ => by
    cases fuel
    · rfl
    · rw [multiSzWalk, if_pos (by rw [List.append_assoc, getD_append_length]; rfl)]
      rfl
  | _, _ :: _, 0, _, hf => absurd hf (by simp)
  | pre, n :: names, fuel + 1, h, hf => by
    obtain ⟨hne, hnul⟩ := h n (List.mem_cons_self _ _)
    obtain ⟨c, t, rfl⟩ := List.exists_cons_of_ne_nil hne
    have hc : c ≠ '\x00' := fun e => hnul (e ▸ List.mem_cons_self _ _)
    have hfirst : (pre ++ multiSzEncode ((c :: t) :: names) ++ g).getD pre.length '\x00' ≠
        '\x00' := by
      rw [List.append_assoc, getD_append_length]
      simpa using hc
    have hat : wcsAt (pre ++ multiSzEncode ((c :: t) :: names) ++ g) pre.length = c :: t := by
      simp only [wcsAt, multiSzEncode_cons, List.append_assoc, List.drop_left]
      exact takeWhile_name hnul _
    have ih : multiSzWalk (pre ++ multiSzEncode ((c :: t) :: names) ++ g) fuel
        (pre.length + (c :: t).length + 1) =
          (nameStartsFrom (pre.length + (c :: t).length + 1) names).zip names := by
      simpa [Nat.add_assoc] using multiSzWalk_encode g (pre ++ (c :: t) ++ ['\x00']) names fuel
        (fun m hm => h m (List.mem_cons_of_mem _ hm)) (by simpa using hf)
    rw [multiSzWalk, if_neg hfirst, hat, ih]
    rfl

theorem encode_cons_assoc (pre n : List Char) (names : List (List Char)) (g : List Char) :
    pre ++ multiSzEncode (n :: names) ++ g = (pre ++ n ++ ['\x00']) ++ multiSzEncode names ++ g := by
  simp

theorem nameStartsFrom_getD_succ (base : Nat) (n : List Char) (names : List (List Char))
    (i : Nat) :
    (nameStartsFrom base (n :: names)).getD (i + 1) 0 =
      (nameStartsFrom (base + n.length + 1) names).getD i 0 := by
  simp [nameStartsFrom]

theorem nameStartsFrom_getD_zero (base : Nat) (n : List Char) (names : List (List Char)) :
    (nameStartsFrom base (n :: names)).getD 0 0 = base := rfl

/-- The second character of a name is still inside the buffer. -/
theorem nameStart_succ_lt :
    ∀ (pre : List Char) (names : List (List Char)) (i : Nat), (∀ n ∈ names, IsSzName n) →
      i < names.length →
        (nameStartsFrom pre.length names).getD i 0 + 1 < (pre ++ multiSzEncode names).length
  | _, [], _, _, hi => absurd hi (Nat.not_lt_zero _)
  | pre, n :: names, 0, h, _ => by
    have hn := (h n (List.mem_cons_self _ _)).1
    have : 0 < n.length := List.length_pos.mpr hn
    simp only [nameStartsFrom_getD_zero, multiSzEncode_cons, List.length_append, List.length_cons]
    omega
  | pre, n :: names, i + 1, h, hi => by
    have ih := nameStart_succ_lt (pre ++ n ++ ['\x00']) names i
      (fun m hm => h m (List.mem_cons_of_mem _ hm)) (by simpa using hi)
    rw [nameStartsFrom_getD_succ]
    simp only [List.length_append, List.length_singleton, multiSzEncode_cons,
      List.length_cons, List.length_nil, Nat.zero_add] at ih ⊢
    omega

/-- What `last_ptr + 1` reads: the name after its first character. -/
theorem wcsAt_nameStart_succ (g : List Char) :
    ∀ (pre : List Char) (names : List (List Char)) (i : Nat), (∀ n ∈ names, IsSzName n) →
      i < names.length →
        wcsAt (pre ++ multiSzEncode names ++ g) ((nameStartsFrom pre.length names).getD i 0 + 1) =
          (names.getD i []).tail
  | _, [], _, _, hi => absurd hi (Nat.not_lt_zero _)
  | pre, n :: names, 0, h, _ => by
    obtain ⟨hne, hnul⟩ := h n (List.mem_cons_self _ _)
    obtain ⟨c, t, rfl⟩ := List.exists_cons_of_ne_nil hne
    have ht : '\x00' ∉ t := fun e => hnul (List.mem_cons_of_mem _ e)
    have hdrop : (pre ++ multiSzEncode ((c :: t) :: names) ++ g).drop (pre.length + 1) =
        t ++ '\x00' :: (multiSzEncode names ++ g) := by
      simp [List.drop_append_eq_append_drop]
    simp only [wcsAt, nameStartsFrom_getD_zero, hdrop, takeWhile_name ht]
    rfl
  | pre, n :: names, i + 1, h, hi => by
    rw [encode_cons_assoc, nameStartsFrom_getD_succ]
    simpa using wcsAt_nameStart_succ g (pre ++ n ++ ['\x00']) names i
      (fun m hm => h m (List.mem_cons_of_mem _ hm)) (by simpa using hi)

/-- `*small_ptr = L'*'` tombstones the name in the buffer. -/
theorem set_nameStart (g : List Char) :
    ∀ (pre : List Char) (names : List (List Char)) (i : Nat), (∀ n ∈ names, IsSzName n) →
      i < names.length →
        (pre ++ multiSzEncode names ++ g).set ((nameStartsFrom pre.length names).getD i 0) '*' =
          pre ++ multiSzEncode (names.modify tombstone i) ++ g
  | _, [], _, _, hi => absurd hi (Nat.not_lt_zero _)
  | pre, n :: names, 0, h, _ => by
    obtain ⟨c, t, rfl⟩ := List.exists_cons_of_ne_nil (h n (List.mem_cons_self _ _)).1
    rw [nameStartsFrom_getD_zero]
    simp [List.modify, List.modifyHead, tombstone, List.set_append_right]
  | pre, n :: names, i + 1, h, hi => by
    rw [encode_cons_assoc, nameStartsFrom_getD_succ]
    simpa using set_nameStart g (pre ++ n ++ ['\x00']) names i
      (fun m hm => h m (List.mem_cons_of_mem _ hm)) (by simpa using hi)

/-- A tombstone keeps the length of a name, so every name starts where it did. -/
theorem nameStartsFrom_modify_tombstone :
    ∀ (base : Nat) (names : List (List Char)) (i : Nat), (∀ n ∈ names, IsSzName n) →
      nameStartsFrom base (names.modify tombstone i) = nameStartsFrom base names
  | _, [], i, _ => by cases i <;> rfl
  | base, n :: names, 0, h => by
    obtain ⟨c, t, rfl⟩ := List.exists_cons_of_ne_nil (h n (List.mem_cons_self _ _)).1
    rfl
  | base, n :: names, i + 1, h => by
    rw [List.modify_succ_cons, nameStartsFrom, nameStartsFrom,
      nameStartsFrom_modify_tombstone _ names i fun m hm => h m (List.mem_cons_of_mem _ hm)]

theorem isSzName_tombstone {n : List Char} (h : IsSzName n) : IsSzName (tombstone n) :=
  ⟨List.cons_ne_nil _ _, by
    simpa [tombstone] using fun e => h.2 (List.mem_of_mem_tail e)⟩

theorem length_le_multiSzEncode :
    ∀ names : List (List Char), names.length ≤ (multiSzEncode names).length
  | [] => Nat.zero_le _
  | n :: names => by
    have := length_le_multiSzEncode names
    simp only [multiSzEncode_cons, List.length_append, List.length_cons]
    omega

theorem nameStartsFrom_getD_add (a : Nat) :
    ∀ (b : Nat) (names : List (List Char)) (j : Nat), j < names.length →
      (nameStartsFrom (a + b) names).getD j 0 = a + (nameStartsFrom b names).getD j 0
  | _, [], _, hj => absurd hj (Nat.not_lt_zero _)
  | _, _ :: _, 0, _ => rfl
  | b, n :: names, j + 1, hj => by
    rw [nameStartsFrom_getD_succ, nameStartsFrom_getD_succ,
      show a + b + n.length + 1 = a + (b + n.length + 1) by omega]
    exact nameStartsFrom_getD_add a _ names j (by simpa using hj)

/-! ## One round -/

/-- The buffers hold `names`: the first `k` in `true_names`, the others in `copy_names`, each
list followed by whatever its buffer holds after it. -/
structure HoldsNames (bufs : List Char × List Char) (k : Nat) (names : List (List Char)) :
    Prop where
  wf : ∀ n ∈ names, IsSzName n
  le : k ≤ names.length
  true_names : ∃ g, bufs.1 = multiSzEncode (names.take k) ++ g
  copy_names : ∃ g, bufs.2 = multiSzEncode (names.drop k) ++ g

/-- The position of each name in the two buffers. -/
def namePositions (bufs : List Char × List Char) (k : Nat) (names : List (List Char)) :
    List Nat :=
  nameStartsFrom 0 (names.take k) ++ nameStartsFrom bufs.1.length (names.drop k)

section Round

variable {bufs : List Char × List Char} {k : Nat} {names : List (List Char)}

theorem length_le_of_eq_encode {buf g : List Char} {names : List (List Char)}
    (h : buf = multiSzEncode names ++ g) : names.length ≤ buf.length := by
  rw [h, List.length_append]
  exact (length_le_multiSzEncode _).trans (Nat.le_add_right _ _)

theorem HoldsNames.wf_take (h : HoldsNames bufs k names) : ∀ n ∈ names.take k, IsSzName n :=
  fun n hn => h.wf n (List.mem_of_mem_take hn)

theorem HoldsNames.wf_drop (h : HoldsNames bufs k names) : ∀ n ∈ names.drop k, IsSzName n :=
  fun n hn => h.wf n (List.mem_of_mem_drop hn)

theorem HoldsNames.length_namePositions (h : HoldsNames bufs k names) :
    (namePositions bufs k names).length = names.length := by
  simp [namePositions, Nat.min_eq_left h.le, Nat.add_sub_cancel' h.le]

/-- The scan visits the names at their positions. -/
theorem HoldsNames.serviceEntries_eq (h : HoldsNames bufs k names) :
    serviceEntries bufs.1 bufs.2 = (namePositions bufs k names).zip names := by
  obtain ⟨gT, hT⟩ := h.true_names
  obtain ⟨gC, hC⟩ := h.copy_names
  have hwT := multiSzWalk_encode gT [] (names.take k) bufs.1.length h.wf_take
    (length_le_of_eq_encode hT)
  have hwC := multiSzWalk_encode gC [] (names.drop k) bufs.2.length h.wf_drop
    (length_le_of_eq_encode hC)
  rw [List.nil_append, List.length_nil, ← hT] at hwT
  rw [List.nil_append, List.length_nil, ← hC] at hwC
  rw [serviceEntries, hwT, hwC, namePositions, ← Nat.add_zero bufs.1.length, nameStartsFrom_add,
    Nat.add_zero]
  conv_rhs => rw [← List.take_append_drop k names]
  rw [List.zip_append (by simp), List.zip_map_left]
  simp only [List.take_append_drop]
  rfl

/-- The scan on the buffers finds the name the scan on the list finds, at its position. -/
theorem foldl_smallStep_zip (S : List Nat) (hS : S.length = names.length) :
    (S.zip names).foldl smallStep none =
      (findSmallest names).map fun e => (S.getD e.1 0, e.2) := by
  let g : Nat × List Char → Nat × List Char := Prod.map (S.getD · 0) id
  have hzip : S.zip names = names.enum.map g := by
    have hS' : (List.range names.length).map (S.getD · 0) = S :=
      List.ext_getElem (by simp [hS]) fun i h₁ h₂ => by simp [List.getElem?_eq_getElem h₂]
    rw [List.enum_eq_zip_range, ← List.zip_map_left, hS']
  have hstep : ∀ s w, smallStep (s.map g) (g w) = (smallStep s w).map g := by
    intro s w
    rcases s with _ | s <;> by_cases hl : isLive w.2 = true <;> simp [smallStep, hl, g, Prod.map]
    split_ifs <;> rfl
  have hfold : ∀ (L : List (Nat × List Char)) s,
      (L.map g).foldl smallStep (s.map g) = (L.foldl smallStep s).map g := by
    intro L
    induction L with
    | nil => intro s; rfl
    | cons w L ih => intro s; simp only [List.map_cons, List.foldl_cons, hstep, ih]
  rw [hzip, findSmallest]
  exact hfold _ none

/-- Every name of the list after a tombstone is still a name of the buffer. -/
theorem isSzName_of_mem_modify (hwf : ∀ n ∈ names, IsSzName n) (i : Nat) :
    ∀ w ∈ names.modify tombstone i, IsSzName w := by
  intro w hw
  obtain ⟨j, hj⟩ := List.mem_iff_getElem?.mp hw
  rw [List.getElem?_modify] at hj
  cases hn : names[j]? with
  | none => simp [hn] at hj
  | some n =>
    have hsz := hwf n (List.getElem?_mem hn)
    rw [hn] at hj
    split_ifs at hj
    · cases hj
      exact isSzName_tombstone hsz
    · cases hj
      exact hsz

theorem HoldsNames.getD_namePositions (h : HoldsNames bufs k names) {i : Nat}
    (hi : i < names.length) :
    (namePositions bufs k names).getD i 0 =
      if i < k then (nameStartsFrom 0 (names.take k)).getD i 0
      else bufs.1.length + (nameStartsFrom 0 (names.drop k)).getD (i - k) 0 := by
  have hk : (nameStartsFrom 0 (names.take k)).length = k := by simp [h.le]
  unfold namePositions
  split_ifs with hik
  · exact List.getD_append _ _ _ _ (by rw [hk]; exact hik)
  · rw [List.getD_append_right _ _ _ _ (by omega), hk, ← Nat.add_zero bufs.1.length,
      nameStartsFrom_getD_add _ _ _ _ (by simp; omega), Nat.add_zero]

/-- A tombstone on the buffers is a tombstone on the list, and leaves every name where it
was. -/
theorem HoldsNames.after_tombstone (h : HoldsNames bufs k names) {i : Nat} (hi : i < names.length) :
    HoldsNames (tombstoneAt bufs ((namePositions bufs k names).getD i 0)) k
        (names.modify tombstone i) ∧
      namePositions (tombstoneAt bufs ((namePositions bufs k names).getD i 0)) k
        (names.modify tombstone i) = namePositions bufs k names := by
  obtain ⟨gT, hT⟩ := h.true_names
  obtain ⟨gC, hC⟩ := h.copy_names
  have hwfT := h.wf_take
  have hwfD := h.wf_drop
  have hwf' := isSzName_of_mem_modify h.wf i
  have hle : k ≤ (names.modify tombstone i).length := by simpa using h.le
  rw [h.getD_namePositions hi]
  by_cases hik : i < k
  · -- a name of the server's buffer
    have hlt := nameStart_succ_lt [] (names.take k) i hwfT (by simp [hik, hi])
    have hset := set_nameStart gT [] (names.take k) i hwfT (by simp [hik, hi])
    simp only [List.nil_append, List.length_nil] at hlt hset
    have hp : (nameStartsFrom 0 (names.take k)).getD i 0 < bufs.1.length := by
      rw [hT, List.length_append]
      omega
    rw [if_pos hik, tombstoneAt, if_pos hp]
    refine ⟨⟨hwf', hle, ⟨gT, ?_⟩, ⟨gC, ?_⟩⟩, ?_⟩
    · rw [hT, hset, List.take_modify]
    · rw [hC, List.drop_modify_of_lt _ _ _ _ hik]
    · simp only [namePositions, List.length_set, List.take_modify, List.drop_modify_of_lt _ _ _ _ hik,
        nameStartsFrom_modify_tombstone _ _ _ hwfT]
  · -- a name of the box's buffer
    have hik' : i - k < (names.drop k).length := by simp; omega
    have hset := set_nameStart gC [] (names.drop k) (i - k) hwfD hik'
    simp only [List.nil_append, List.length_nil] at hset
    rw [if_neg hik, tombstoneAt, if_neg (by omega), Nat.add_sub_cancel_left]
    have htake : (names.modify tombstone i).take k = names.take k := by
      rw [List.take_modify, List.modify_eq_self (by simp; omega)]
    refine ⟨⟨hwf', hle, ⟨gT, by rw [htake, hT]⟩, ⟨gC, ?_⟩⟩, ?_⟩
    · rw [hC, hset, List.drop_modify_of_ge _ _ _ _ (by omega)]
    · simp only [namePositions, htake, List.drop_modify_of_ge _ _ _ _ (Nat.le_of_not_lt hik),
        nameStartsFrom_modify_tombstone _ _ _ hwfD]

/-- What `last_ptr + 1` reads from the buffers: the tail of the name at `last_ptr`. -/
theorem HoldsNames.wcsAtBoth_succ (h : HoldsNames bufs k names) {i : Nat}
    (hi : i < names.length) :
    wcsAtBoth bufs ((namePositions bufs k names).getD i 0 + 1) = (names.getD i []).tail := by
  obtain ⟨gT, hT⟩ := h.true_names
  obtain ⟨gC, hC⟩ := h.copy_names
  have hwfT := h.wf_take
  have hwfD := h.wf_drop
  rw [h.getD_namePositions hi]
  by_cases hik : i < k
  · have hlt := nameStart_succ_lt [] (names.take k) i hwfT (by simp [hik, hi])
    have hat := wcsAt_nameStart_succ gT [] (names.take k) i hwfT (by simp [hik, hi])
    simp only [List.nil_append, List.length_nil] at hlt hat
    have hp : (nameStartsFrom 0 (names.take k)).getD i 0 + 1 < bufs.1.length := by
      rw [hT, List.length_append]
      omega
    rw [if_pos hik, wcsAtBoth, if_pos hp, hT, hat]
    simp [List.getElem?_take_of_lt hik]
  · have hik' : i - k < (names.drop k).length := by simp; omega
    have hat := wcsAt_nameStart_succ gC [] (names.drop k) (i - k) hwfD hik'
    simp only [List.nil_append, List.length_nil] at hat
    rw [if_neg hik, wcsAtBoth, if_neg (by omega), Nat.add_assoc, Nat.add_sub_cancel_left, hC, hat]
    simp [List.getElem?_drop, Nat.add_sub_cancel' (Nat.le_of_not_lt hik)]

end Round

/-! ## The whole loop -/

/-- `last_ptr` and `last_ptr0` against the name `last` of the list loop: `last_ptr` is the
position of a name whose tail is the tail of `last`, and `last_ptr0` the first character of
`last`. -/
def LastAt (pos : List Nat) (names : List (List Char)) :
    Option (Nat × Char) → Option (List Char) → Prop
  | none, none => True
  | some (last_ptr, last_ptr0), some l =>
    ∃ i < names.length, pos.getD i 0 = last_ptr ∧ (names.getD i []).tail = l.tail ∧
      l.head? = some last_ptr0
  | _, _ => False

/-- A tombstone leaves the tail of every name as it was. -/
theorem tail_getD_modify_tombstone (names : List (List Char)) (i j : Nat) :
    ((names.modify tombstone j).getD i []).tail = (names.getD i []).tail := by
  simp only [List.getD_eq_getElem?_getD, List.getElem?_modify]
  cases names[i]? with
  | none => rfl
  | some n => by_cases hj : j = i <;> simp [hj, tombstone]

theorem LastAt.modify {pos : List Nat} {names : List (List Char)} {lastB : Option (Nat × Char)}
    {last : Option (List Char)} (h : LastAt pos names lastB last) (j : Nat) :
    LastAt pos (names.modify tombstone j) lastB last := by
  rcases lastB with _ | ⟨last_ptr, last_ptr0⟩ <;> rcases last with _ | l
  · trivial
  · exact h.elim
  · exact h.elim
  · obtain ⟨i, hi, hp, ht, hc⟩ := h
    exact ⟨i, by simpa using hi, hp, by rw [tail_getD_modify_tombstone, ht], hc⟩

/-- Each round on the buffers is the round of the list loop on the names they hold, and the
output buffer holds the names appended so far, each with its NUL. -/
theorem getAllBufLoop_eq (k : Nat) :
    ∀ (fuel : Nat) (bufs : List Char × List Char) (names : List (List Char))
      (lastB : Option (Nat × Char)) (last : Option (List Char)) (out : List (List Char)),
      HoldsNames bufs k names → LastAt (namePositions bufs k names) names lastB last →
        getAllBufLoop fuel bufs lastB (out.flatMap (· ++ ['\x00'])) =
          (getAllLoop fuel names last out).map multiSzEncode
  | 0, _, _, _, _, _, _, _ => rfl
  | fuel + 1, bufs, names, lastB, last, out, h, hl => by
    have hscan := foldl_smallStep_zip (namePositions bufs k names) h.length_namePositions
    rw [← h.serviceEntries_eq] at hscan
    unfold getAllBufLoop getAllLoop
    rw [hscan]
    cases hs : findSmallest names with
    | none => rfl
    | some e =>
      obtain ⟨i, small⟩ := e
      obtain ⟨hi, hsmall, -⟩ := findSmallest_live hs
      obtain ⟨h', hpos⟩ := h.after_tombstone hi
      have hsz : IsSzName small := hsmall ▸ h.wf _ (List.getElem_mem hi)
      obtain ⟨s0, st, rfl⟩ := List.exists_cons_of_ne_nil hsz.1
      have hemit : getAllBufLoop fuel (tombstoneAt bufs ((namePositions bufs k names).getD i 0))
          (some ((namePositions bufs k names).getD i 0, s0))
          (out.flatMap (· ++ ['\x00']) ++ s0 :: st ++ ['\x00']) =
            (getAllLoop fuel (names.modify tombstone i) (some (s0 :: st))
              (out ++ [s0 :: st])).map multiSzEncode := by
        rw [show out.flatMap (· ++ ['\x00']) ++ s0 :: st ++ ['\x00'] =
          (out ++ [s0 :: st]).flatMap (· ++ ['\x00']) by simp]
        refine getAllBufLoop_eq k fuel _ _ _ _ _ h' ?_
        rw [hpos]
        exact ⟨i, by simpa using hi, rfl, by
          rw [tail_getD_modify_tombstone, List.getD_eq_getElem _ _ hi, hsmall], rfl⟩
      simp only [Option.map_some', List.headD_cons]
      rcases lastB with _ | ⟨last_ptr, last_ptr0⟩ <;> rcases last with _ | l
      · exact hemit
      · exact hl.elim
      · exact hl.elim
      · obtain ⟨j, hj, hp, ht, hc⟩ := hl
        -- the check on the buffers reads the same name as the check on the list
        dsimp only
        have hdup : (s0 = last_ptr0 ∧
            wcsicmp (s0 :: st).tail (wcsAtBoth bufs (last_ptr + 1)) = .eq) ↔
              ((s0 :: st).head? = l.head? ∧ wcsicmp (s0 :: st).tail l.tail = .eq) := by
          rw [← hp, h.wcsAtBoth_succ hj, ht, hc]
          simp
        by_cases hd : (s0 :: st).head? = l.head? ∧ wcsicmp (s0 :: st).tail l.tail = .eq
        · rw [if_pos (hdup.mpr hd), if_pos hd]
          refine getAllBufLoop_eq k fuel _ _ _ _ _ h' ?_
          rw [hpos]
          exact LastAt.modify (show LastAt (namePositions bufs k names) names
            (some (last_ptr, last_ptr0)) (some l) from ⟨j, hj, hp, ht, hc⟩) i
        · rw [if_neg (mt hdup.mp hd), if_neg hd]
          exact hemit

/-- More rounds than the loop needs change nothing. -/
theorem getAllLoop_mono :
    ∀ (fuel fuel' : Nat) (names : List (List Char)) (last : Option (List Char))
      (out res : List (List Char)), getAllLoop fuel names last out = some res → fuel ≤ fuel' →
        getAllLoop fuel' names last out = some res
  | 0, _, _, _, _, _, h, _ => by cases h
  | _ + 1, 0, _, _, _, _, _, hf => absurd hf (by simp)
  | fuel + 1, fuel' + 1, names, last, out, res, h, hf => by
    have ih := fun names last out => getAllLoop_mono fuel fuel' names last out res
    unfold getAllLoop at h ⊢
    split at h
    · exact h
    · split at h
      · split_ifs at h ⊢
        · exact ih _ _ _ h (by omega)
        · exact ih _ _ _ h (by omega)
      · exact ih _ _ _ h (by omega)

theorem Scm_GetAllServices_buf_eq (true_names copy_names : List Char)
    {T C : List (List Char)} (hT : multiSzNames true_names = some T)
    (hC : multiSzNames copy_names = some C) :
    Scm_GetAllServices_buf true_names copy_names = (Scm_GetAllServices T C).map multiSzEncode := by
  obtain ⟨hwT, gT, hgT⟩ := multiSzNames_wellFormed hT
  obtain ⟨hwC, gC, hgC⟩ := multiSzNames_wellFormed hC
  have h : HoldsNames (true_names, copy_names) T.length (T ++ C) :=
    ⟨fun n hn => (List.mem_append.mp hn).elim (hwT n) (hwC n), by simp,
      ⟨gT, by simpa using hgT⟩, ⟨gC, by simpa using hgC⟩⟩
  -- the buffers are long enough for one round a name, and one more
  have hF : liveCount (T ++ C) + 1 ≤ true_names.length + copy_names.length + 1 := by
    have h1 := length_le_of_eq_encode hgT
    have h2 := length_le_of_eq_encode hgC
    have h3 : liveCount (T ++ C) ≤ (T ++ C).length := List.countP_le_length _
    rw [List.length_append] at h3
    omega
  obtain ⟨out, hout⟩ := Option.isSome_iff_exists.mp (Scm_GetAllServices_isSome T C)
  rw [hout]
  exact (getAllBufLoop_eq T.length _ _ _ none none [] h trivial).trans
    (by rw [getAllLoop_mono _ _ _ _ _ _ hout hF])

/-- The server reports `b` and `a`, and the box's registry value lists `a`. -/
theorem Scm_GetAllServices_buf_eq_ba :
    multiSzNames (multiSzEncode [['b'], ['a']]) = some [['b'], ['a']] ∧
      multiSzNames (Scm_GetBoxedServices (some (multiSzEncode [['a']]))) = some [['a']] ∧
      Scm_GetAllServices_buf (multiSzEncode [['b'], ['a']])
          (Scm_GetBoxedServices (some (multiSzEncode [['a']]))) =
        (Scm_GetAllServices [['b'], ['a']] [['a']]).map multiSzEncode :=
  have h1 : multiSzNames (multiSzEncode [['b'], ['a']]) = some [['b'], ['a']] := by decide
  have h2 : multiSzNames (Scm_GetBoxedServices (some (multiSzEncode [['a']]))) = some [['a']] := by
    decide
  ⟨h1, h2, Scm_GetAllServices_buf_eq _ _ h1 h2⟩

end Sandboxie
