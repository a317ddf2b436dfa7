import Sandboxie.WString

/-!
# Scrambled short names (`file_snapshots.c`)

A file in a snapshot is shown under a short (8.3) name whose last base character and three
suffix characters are scrambled with the snapshot's key. `File_Scramble_Char` shifts a
character within the 85 printable characters that are legal in a file name, and back;
`File_ScrambleShortName` pads the name to a `.` and three suffix characters and scrambles
them, `File_UnScrambleShortName` finds the last `.`, unscrambles and strips the padding.

* `File_Scramble_Char_inverse`: on a 7-bit character, unscrambling undoes scrambling for
  every key byte.
* `File_UnScrambleShortName_roundtrip`: a legal 7-bit short name comes back from scrambling
  whenever the last `.` of the scrambled name is still its own dot.
* `File_ScrambleShortName_budget`: a scrambled name keeps to 12 characters.
* `File_UnScrambleShortName_fails`: the round trip of a name fails in two ways, a suffix
  character that scrambles to the `.` that `File_UnScrambleShortName` then finds, and a
  character above 0x7F whose high bits the `& 0x7F` drops.
-/

namespace Sandboxie

/-! ## One character -/

/-- `reserved_ch` of `File_Scramble_Char`, in ascending order: the characters it leaves
alone and never produces. -/
def reserved_ch : List Nat := ['"', '*', '/', ':', '<', '>', '?', '\\', '|'].map Char.toNat

/-- `max_ch = 0x7E - reserved_count - 0x20`: the size of the scrambled alphabet. -/
def max_ch : Int := 0x7E - 9 - 0x20

/-- `File_Scramble_Char`'s first loop: the rank of `u` among the characters from 0x20 that
are not reserved. -/
def compactChar (u : Nat) : Nat :=
  reserved_ch.reverse.foldl (fun u r => if u > r then u - 1 else u) u - 0x20

/-- `File_Scramble_Char`'s last loop: the character of rank `v`. -/
def expandChar (v : Nat) : Nat :=
  reserved_ch.foldl (fun u r => if u ≥ r then u + 1 else u) (v + 0x20)

/-- `File_Scramble_Char`'s wrap-around of a shifted rank into the alphabet. -/
def wrapRank (u : Int) : Int :=
  if u ≥ max_ch then u - max_ch else if u < 0 then u + max_ch else u

/-- The characters `File_Scramble_Char` changes, read through `& 0x7F`. -/
def scrambles (u : Nat) : Bool := 0x20 ≤ u && u < 0x7E && u ∉ reserved_ch

/-- `File_Scramble_Char (wValue, Key, scram)`: shift the character by the key byte, forward
when `scram`, backward otherwise, within the alphabet. -/
def File_Scramble_Char (wValue : Char) (Key : Int) (scram : Bool) : Char :=
  let uValue := wValue.toNat &&& 0x7F
  if !scrambles uValue then wValue
  else
    -- `Key &= 0x7f` on the sign-extended byte, then `while (Key >= max_ch) Key -= max_ch`
    let Key := Key % 128 % max_ch
    let Key := if scram then Key else -Key
    Char.ofNat (expandChar (wrapRank (compactChar uValue + Key)).toNat)

/-- `expandChar` enumerates the alphabet in 7 bits. -/
theorem expandChar_spec :
    ∀ v < 85, expandChar v < 128 ∧ scrambles (expandChar v) = true ∧
      compactChar (expandChar v) = v := by
  decide

/-- `compactChar` ranks the alphabet, and `expandChar` undoes it. -/
theorem compactChar_spec :
    ∀ u < 128, scrambles u = true → compactChar u < 85 ∧ expandChar (compactChar u) = u := by
  decide

theorem toNat_ofNat_of_lt {n : Nat} (h : n < 128) : (Char.ofNat n).toNat = n := by
  have hv : n.isValidChar := Or.inl (by omega)
  simp only [Char.ofNat, hv, dite_true, Char.ofNatAux, Char.toNat]
  rfl

theorem key_bounds (Key : Int) : 0 ≤ Key % 128 % max_ch ∧ Key % 128 % max_ch < 85 := by
  unfold max_ch; omega

theorem wrapRank_bounds {u : Int} (h0 : -85 < u) (h1 : u < 170) :
    0 ≤ wrapRank u ∧ wrapRank u < 85 := by
  unfold wrapRank max_ch; split_ifs <;> omega

theorem and_0x7F_of_lt {n : Nat} (h : n < 128) : n &&& 0x7F = n := by
  rw [show (0x7F : Nat) = 2 ^ 7 - 1 from rfl, Nat.and_pow_two_sub_one_eq_mod]; omega

/-- On a 7-bit character of the alphabet, `File_Scramble_Char` moves its rank by the key
byte, forward or backward, around the alphabet. -/
theorem File_Scramble_Char_of_scrambles {c : Char} (hc : c.toNat < 128)
    (hs : scrambles c.toNat = true) (Key : Int) (scram : Bool) :
    File_Scramble_Char c Key scram = Char.ofNat (expandChar (wrapRank (compactChar c.toNat +
      if scram then Key % 128 % max_ch else -(Key % 128 % max_ch))).toNat) := by
  simp only [File_Scramble_Char, and_0x7F_of_lt hc, hs, Bool.not_true, Bool.false_eq_true, if_false]

/-- A 7-bit character outside the alphabet is left alone. -/
theorem File_Scramble_Char_of_not_scrambles {c : Char} (hc : c.toNat < 128)
    (hs : scrambles c.toNat = false) (Key : Int) (scram : Bool) :
    File_Scramble_Char c Key scram = c := by
  simp only [File_Scramble_Char, and_0x7F_of_lt hc, hs, Bool.not_false, if_true]

/-- Unscrambling with the same key undoes scrambling, on every 7-bit character and for
every key byte. -/
theorem File_Scramble_Char_inverse {c : Char} (hc : c.toNat < 128) (Key : Int) :
    File_Scramble_Char (File_Scramble_Char c Key true) Key false = c := by
  cases hs : scrambles c.toNat
  · rw [File_Scramble_Char_of_not_scrambles hc hs, File_Scramble_Char_of_not_scrambles hc hs]
  obtain ⟨ha, hexp⟩ := compactChar_spec _ hc hs
  obtain ⟨hk0, hk1⟩ := key_bounds Key
  rw [File_Scramble_Char_of_scrambles hc hs, if_pos rfl]
  generalize hb : wrapRank (compactChar c.toNat + Key % 128 % max_ch) = b
  obtain ⟨hb0, hb1⟩ : 0 ≤ b ∧ b < 85 := hb ▸ wrapRank_bounds (by omega) (by omega)
  obtain ⟨he, hes, hce⟩ := expandChar_spec b.toNat (by omega)
  have hc1 : (Char.ofNat (expandChar b.toNat)).toNat = expandChar b.toNat := toNat_ofNat_of_lt he
  have hback : wrapRank ((b.toNat : Int) + -(Key % 128 % max_ch)) = compactChar c.toNat := by
    unfold wrapRank max_ch at hb ⊢
    split_ifs at hb ⊢ <;> omega
  have he' : (Char.ofNat (expandChar b.toNat)).toNat < 128 := by rw [hc1]; exact he
  have hes' : scrambles (Char.ofNat (expandChar b.toNat)).toNat = true := by rw [hc1]; exact hes
  rw [File_Scramble_Char_of_scrambles he' hes', hc1, hce, if_neg Bool.false_ne_true, hback,
    Int.toNat_ofNat, hexp, Char.ofNat_toNat]

/-! ## Short names -/

/-- `((char*)&ScramKey)[i]`: byte `i` of the key, little-endian, as a signed `char`. -/
def keyChar (ScramKey : UInt32) (i : Nat) : Int :=
  let b := ScramKey.toNat / 256 ^ i % 256
  if b < 128 then b else b - 256

/-- Scramble (`scram`) or unscramble the character before the dot at `dot_pos` and the three
after it, with key bytes 0 to 3. A position past the end of the name reads as its
terminating NUL, which `File_Scramble_Char` leaves alone. -/
def scrambleAround (name : List Char) (dot_pos : Nat) (ScramKey : UInt32) (scram : Bool) :
    List Char :=
  let name := if dot_pos > 0 then
      name.set (dot_pos - 1) (File_Scramble_Char (name.getD (dot_pos - 1) '\x00') (keyChar ScramKey 0) scram)
    else name
  [1, 2, 3].foldl (fun name i =>
    name.set (dot_pos + i) (File_Scramble_Char (name.getD (dot_pos + i) '\x00') (keyChar ScramKey i) scram))
    name

/-- `File_ScrambleShortName`: append a `.` when there is none, pad with spaces to three
characters after the last `.`, and scramble around it. The name comes back unchanged when
it would pass 12 characters. -/
def File_ScrambleShortName (ShortName : List Char) (ScramKey : UInt32) : List Char :=
  let (name, dot_pos) := match wcsrchr ShortName '.' with
    | none => (ShortName ++ ['.'], ShortName.length)
    | some d => (ShortName, d)
  if wcsrchr ShortName '.' = none ∧ ShortName.length ≥ 12 then ShortName
  -- the padding loop's `if (ShortNameLength >= 12) return;`
  else if name.length < dot_pos + 4 ∧ dot_pos + 4 > 12 then ShortName
  else scrambleAround (name ++ List.replicate (dot_pos + 4 - name.length) ' ') dot_pos ScramKey true

/-- `File_UnScrambleShortName`: unscramble around the last `.`, then strip trailing spaces
and one trailing `.`. -/
def File_UnScrambleShortName (ShortName : List Char) (ScramKey : UInt32) : List Char :=
  match wcsrchr ShortName '.' with
  | none => ShortName
  | some dot_pos =>
    let name := scrambleAround ShortName dot_pos ScramKey false
    let name := (name.reverse.dropWhile (· = ' ')).reverse
    if name.getLast? = some '.' then name.dropLast else name

/-- Positions are counted from the dot, so a prefix before the base's last character is
left alone. -/
theorem scrambleAround_append (pre r : List Char) (ScramKey : UInt32) (scram : Bool) :
    scrambleAround (pre ++ r) (pre.length + 1) ScramKey scram =
      pre ++ scrambleAround r 1 ScramKey scram := by
  simp (disch := omega) only [scrambleAround, List.set_append_right, List.getD_append_right,
    List.foldl_cons, List.foldl_nil, gt_iff_lt, Nat.zero_lt_succ, if_true, Nat.add_sub_cancel,
    Nat.add_assoc, Nat.add_sub_cancel_left, Nat.sub_self]

/-- Unscrambling around a dot undoes scrambling around it, on a padded 7-bit name. -/
theorem scrambleAround_inverse {base pad : List Char} (hbase : base ≠ [])
    (hpad : pad.length = 3) (h7 : ∀ c ∈ base ++ pad, c.toNat < 128) (ScramKey : UInt32) :
    scrambleAround (scrambleAround (base ++ '.' :: pad) base.length ScramKey true) base.length
      ScramKey false = base ++ '.' :: pad := by
  obtain ⟨b0, c, rfl⟩ := (List.eq_nil_or_concat base).resolve_left hbase
  obtain ⟨x, y, z, rfl⟩ : ∃ x y z, pad = [x, y, z] := match pad, hpad with
    | [x, y, z], _ => ⟨x, y, z, rfl⟩
  have h7' : ∀ d ∈ [c, x, y, z], d.toNat < 128 := fun d hd => h7 d (by simp_all)
  simp only [List.mem_cons, List.mem_singleton, forall_eq_or_imp, forall_eq] at h7'
  rw [List.concat_eq_append, List.length_append, List.length_singleton, List.append_assoc,
    List.singleton_append, scrambleAround_append, scrambleAround_append]
  simp [scrambleAround, File_Scramble_Char_inverse, h7']

theorem length_scrambleAround (name : List Char) (dot_pos : Nat) (ScramKey : UInt32)
    (scram : Bool) : (scrambleAround name dot_pos ScramKey scram).length = name.length := by
  unfold scrambleAround
  split_ifs <;> simp

/-- `File_ScrambleShortName` keeps to the 12-character budget: a name of at most 12
characters comes back with at most 12, a longer one no longer than it was. -/
theorem File_ScrambleShortName_budget (ShortName : List Char) (ScramKey : UInt32) :
    (File_ScrambleShortName ShortName ScramKey).length ≤ max ShortName.length 12 := by
  unfold File_ScrambleShortName
  cases wcsrchr ShortName '.' <;> dsimp only <;> split_ifs <;>
    simp only [length_scrambleAround, List.length_append, List.length_replicate,
      List.length_singleton] at * <;> omega

/-- A short name of a base and an extension, joined by a `.` when the extension is not
empty. -/
def joinShortName (base ext : List Char) : List Char :=
  if ext = [] then base else base ++ '.' :: ext

/-- On a short name, `File_ScrambleShortName` pads the extension to three characters and
scrambles around the dot after the base. -/
theorem File_ScrambleShortName_join {base ext : List Char} (hbase : base.length ≤ 8)
    (hext : ext.length ≤ 3) (hdots : '.' ∉ base ++ ext) (ScramKey : UInt32) :
    File_ScrambleShortName (joinShortName base ext) ScramKey =
      scrambleAround (base ++ '.' :: (ext ++ List.replicate (3 - ext.length) ' ')) base.length
        ScramKey true := by
  rw [List.mem_append, not_or] at hdots
  unfold joinShortName File_ScrambleShortName
  by_cases he : ext = []
  · subst he
    simp [wcsrchr_eq_none hdots.1]
    rw [if_neg (by omega), if_neg (by omega)]
  · have hpad : base.length + 4 - (base ++ '.' :: ext).length = 3 - ext.length := by
      simp only [List.length_append, List.length_cons]; omega
    simp only [he, if_false, wcsrchr_append_cons hdots.2, hpad]
    rw [if_neg (by simp), if_neg (by simp; omega), List.append_assoc, List.cons_append]

/-- `File_UnScrambleShortName`'s last steps strip the padding and the `.` of an empty
extension. -/
theorem strip_padding (base : List Char) {ext : List Char} (hext : ∀ c ∈ ext, c ≠ '.' ∧ c ≠ ' ')
    (m : Nat) :
    (let name := ((base ++ '.' :: (ext ++ List.replicate m ' ')).reverse.dropWhile (· = ' ')).reverse
     if name.getLast? = some '.' then name.dropLast else name) = joinShortName base ext := by
  rcases List.eq_nil_or_concat ext with rfl | ⟨e0, d, rfl⟩
  · simp [joinShortName, List.dropWhile_append]
  · obtain ⟨hd, hs⟩ := hext d (by simp)
    simp [joinShortName, List.dropWhile_append, hd, hs]
    rw [← List.cons_append, List.getLast?_concat, Option.some_inj]
    exact fun h => absurd h hd

/-- A short name of at most eight base and three extension characters, all 7-bit, with no
`.` in either and no space in the extension, comes back from scrambling with any key as long
as the last `.` of the scrambled name is still its own dot. -/
theorem File_UnScrambleShortName_roundtrip (base ext : List Char) (ScramKey : UInt32)
    (hbase : base ≠ [] ∧ base.length ≤ 8) (hext : ext.length ≤ 3)
    (hbase7 : ∀ c ∈ base, c ≠ '.' ∧ c.toNat < 128)
    (hext7 : ∀ c ∈ ext, c ≠ '.' ∧ c ≠ ' ' ∧ c.toNat < 128)
    (hdot : wcsrchr (File_ScrambleShortName (joinShortName base ext) ScramKey) '.' =
      some base.length) :
    File_UnScrambleShortName (File_ScrambleShortName (joinShortName base ext) ScramKey)
      ScramKey = joinShortName base ext := by
  have hdots : '.' ∉ base ++ ext := by
    simp only [List.mem_append, not_or]
    exact ⟨fun h => (hbase7 _ h).1 rfl, fun h => (hext7 _ h).1 rfl⟩
  have h7 : ∀ c ∈ base ++ (ext ++ List.replicate (3 - ext.length) ' '), c.toNat < 128 := by
    simp only [List.mem_append, List.mem_replicate]
    rintro c (hc | hc | ⟨-, rfl⟩)
    exacts [(hbase7 c hc).2, (hext7 c hc).2.2, by decide]
  unfold File_UnScrambleShortName
  rw [hdot]
  dsimp only
  rw [File_ScrambleShortName_join hbase.2 hext hdots,
    scrambleAround_inverse hbase.1 (by simp; omega) h7,
    strip_padding base (fun c hc => ⟨(hext7 c hc).1, (hext7 c hc).2.1⟩)]

theorem File_UnScrambleShortName_roundtrip_FILE :
    ("FILE~1".toList ≠ [] ∧ "FILE~1".toList.length ≤ 8) ∧ "TXT".toList.length ≤ 3 ∧
      (∀ c ∈ "FILE~1".toList, c ≠ '.' ∧ c.toNat < 128) ∧
      (∀ c ∈ "TXT".toList, c ≠ '.' ∧ c ≠ ' ' ∧ c.toNat < 128) ∧
      wcsrchr (File_ScrambleShortName (joinShortName "FILE~1".toList "TXT".toList) 0x12345678)
        '.' = some "FILE~1".toList.length ∧
      File_UnScrambleShortName
          (File_ScrambleShortName (joinShortName "FILE~1".toList "TXT".toList) 0x12345678)
          0x12345678 = joinShortName "FILE~1".toList "TXT".toList :=
  ⟨by decide, by decide, by decide, by decide, by decide,
    File_UnScrambleShortName_roundtrip _ _ _ (by decide) (by decide) (by decide) (by decide)
      (by decide)⟩

/-- Two legal short names that do not come back: with key byte 1 equal to 70, the suffix
`B` of `A.B` scrambles to `.`, which `File_UnScrambleShortName` then takes for the dot;
and `É` (0xC9) scrambles as `I`, its high bit dropped by `& 0x7F`, under every key. -/
theorem File_UnScrambleShortName_fails :
    File_ScrambleShortName "A.B".toList 0x4600 = "A..  ".toList ∧
      File_UnScrambleShortName (File_ScrambleShortName "A.B".toList 0x4600) 0x4600 =
        "A..2".toList ∧
      File_UnScrambleShortName (File_ScrambleShortName ['\xC9'] 0) 0 = ['I'] := by
  decide

end Sandboxie
