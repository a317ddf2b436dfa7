import Sandboxie.Scm

/-!
# The MULTI_SZ buffers of `scm.c`

The service lists of `scm.c` are MULTI_SZ buffers: each name followed by a NUL, and a NUL
where a name would start to end the list. `Scm_GetAllServices` and `Scm_IsBoxedService`
walk them with `for (p = names; *p; p += wcslen (p) + 1)`. `Scm_GetBoxedServices` reads
the registry value `SandboxedServices` into a 512-byte buffer and copies its data into one
eight zero bytes longer, or returns an empty list when the value does not fit; and `Scm_GetAllServices` writes its result into a buffer that grows by 1000 characters
whenever the next name would not fit.

`Sandboxie.Scm` works on the lists of names; this module is the buffer level under it.

* `multiSzNames_eq_some_iff`: the walk ends exactly on the buffers that start with the
  MULTI_SZ encoding of names that are not empty and hold no NUL, and reads those names.
* `Scm_GetBoxedServices_walk`: whatever the registry holds, the walk over the buffer
  `Scm_GetBoxedServices` returns stays inside it, and a well-formed value reads back as
  its names when it fits the 512-byte buffer, as no names otherwise.
* `Scm_GetAllServices_buffer`: when every name is shorter than 1000 characters, every write
  into the output buffer lands inside it, and the buffer reads back as the list of names.
-/

namespace Sandboxie

/-! ## Walking a MULTI_SZ buffer -/

/-- The walk `for (p = names; *p; p += wcslen (p) + 1)` from a position of the buffer, `cur`
the characters of the current name read so far, last first: the names it visits, `none`
when it reads past the end of the buffer. -/
def multiSzGo : List Char → List Char → Option (List (List Char))
  | [], _ => none
  | c :: rest, cur =>
    if c = '\x00' then
      if cur = [] then some [] else (multiSzGo rest []).map (cur.reverse :: ·)
    else multiSzGo rest (c :: cur)

/-- The names of a MULTI_SZ buffer, `none` when the walk reads past its end. -/
def multiSzNames (buf : List Char) : Option (List (List Char)) := multiSzGo buf []

/-- The MULTI_SZ buffer of a list of names. -/
def multiSzEncode (names : List (List Char)) : List Char :=
  names.flatMap (· ++ ['\x00']) ++ ['\x00']

/-- A name of the buffer: not empty, and without NUL. -/
def IsSzName (n : List Char) : Prop := n ≠ [] ∧ '\x00' ∉ n

instance : DecidablePred IsSzName := fun n => inferInstanceAs (Decidable (n ≠ [] ∧ _))

/-- Reading a name up to its NUL. -/
theorem multiSzGo_name (rest : List Char) :
    ∀ (n cur : List Char), '\x00' ∉ n →
      multiSzGo (n ++ '\x00' :: rest) cur =
        if cur.reverse ++ n = [] then some []
        else (multiSzGo rest []).map ((cur.reverse ++ n) :: ·)
  | [], cur, _ => by simp [multiSzGo]
  | c :: n, cur, hn => by
    have hc : c ≠ '\x00' := fun h => hn (h ▸ List.mem_cons_self _ _)
    rw [List.cons_append, multiSzGo, if_neg hc,
      multiSzGo_name rest n (c :: cur) fun h => hn (List.mem_cons_of_mem _ h)]
    simp

theorem multiSzNames_encode (g : List Char) :
    ∀ names : List (List Char), (∀ n ∈ names, IsSzName n) →
      multiSzNames (multiSzEncode names ++ g) = some names
  | [], _ => by simp [multiSzNames, multiSzEncode, multiSzGo]
  | n :: names, h => by
    have hn := h n (List.mem_cons_self _ _)
    have ih := multiSzNames_encode g names fun m hm => h m (List.mem_cons_of_mem _ hm)
    simp only [multiSzNames, multiSzEncode, List.flatMap_cons, List.append_assoc,
      List.singleton_append, List.cons_append, List.nil_append] at ih ⊢
    rw [multiSzGo_name _ n [] hn.2]
    simp [hn.1, ih]

/-- What the walk accepts is well formed: the names it reads are not empty and hold no NUL,
and the buffer starts with their MULTI_SZ encoding. -/
theorem multiSzGo_wellFormed :
    ∀ (buf cur : List Char) {names : List (List Char)}, '\x00' ∉ cur →
      multiSzGo buf cur = some names →
        (∀ n ∈ names, IsSzName n) ∧ ∃ g, cur.reverse ++ buf = multiSzEncode names ++ g
  | [], _, _, _, h => by cases h
  | c :: rest, cur, names, hcur, h => by
    unfold multiSzGo at h
    split_ifs at h with hc hnil
    · -- the NUL that ends the list
      cases h
      subst hnil
      exact ⟨by simp, rest, by simp [multiSzEncode, hc]⟩
    · -- the NUL that ends a name
      obtain ⟨names', hr, rfl⟩ := Option.map_eq_some'.mp h
      obtain ⟨hw, g, hg⟩ := multiSzGo_wellFormed rest [] (List.not_mem_nil _) hr
      refine ⟨fun n hn => ?_, g, ?_⟩
      · rcases List.mem_cons.mp hn with rfl | hn
        · exact ⟨by simpa using hnil, by simpa using hcur⟩
        · exact hw n hn
      · simp only [List.reverse_nil, List.nil_append] at hg
        simp [multiSzEncode, hc, hg]
    · obtain ⟨hw, g, hg⟩ := multiSzGo_wellFormed rest (c :: cur) (by simp [Ne.symm hc, hcur]) h
      exact ⟨hw, g, by simpa using hg⟩

theorem multiSzNames_wellFormed {buf : List Char} {names : List (List Char)}
    (h : multiSzNames buf = some names) :
    (∀ n ∈ names, IsSzName n) ∧ ∃ g, buf = multiSzEncode names ++ g := by
  simpa using multiSzGo_wellFormed buf [] (List.not_mem_nil _) h

theorem multiSzNames_eq_some_iff (buf : List Char) (names : List (List Char)) :
    multiSzNames buf = some names ↔
      (∀ n ∈ names, IsSzName n) ∧ ∃ g, buf = multiSzEncode names ++ g :=
  ⟨multiSzNames_wellFormed, fun ⟨hw, g, hg⟩ => hg ▸ multiSzNames_encode g names hw⟩

/-- Two NULs after any data end the walk inside the buffer. -/
theorem multiSzGo_isSome_pad (pad : List Char) :
    ∀ (data cur : List Char), (multiSzGo (data ++ '\x00' :: '\x00' :: pad) cur).isSome
  | [], cur => by
    by_cases h : cur = [] <;> simp [multiSzGo, h]
  | c :: data, cur => by
    rw [List.cons_append, multiSzGo]
    split_ifs
    · rfl
    · simpa using multiSzGo_isSome_pad pad data []
    · exact multiSzGo_isSome_pad pad data (c :: cur)

/-! ## `Scm_GetBoxedServices` and `Scm_IsBoxedService` -/

/-- `FIELD_OFFSET (KEY_VALUE_PARTIAL_INFORMATION, Data)`: `TitleIndex`, `Type` and
`DataLength` come first. -/
def KeyValuePartialInformation_Data : Nat := 12

/-- `sizeof(u)`: the union of a `KEY_VALUE_PARTIAL_INFORMATION` and 256 `WCHAR`s. -/
def Scm_GetBoxedServices_u : Nat := 512

/-- `NtQueryValueKey (..., &u.info, sizeof(u), &len)` succeeds only when the header and the
data, two bytes a character, fit `u`; otherwise it fails with a buffer overflow. -/
def boxedServicesFit (data : List Char) : Bool :=
  KeyValuePartialInformation_Data + 2 * data.length ≤ Scm_GetBoxedServices_u

/-- `Scm_GetBoxedServices ()`, given the data of the `SandboxedServices` value of the
`SbieSvc` key as characters, `none` when it cannot be read or is not a REG_MULTI_SZ: the data
and the eight zero bytes after it, or two NULs when there is no data or it does not fit. -/
def Scm_GetBoxedServices (SandboxedServices : Option (List Char)) : List Char :=
  match SandboxedServices with
  | some data =>
    if !boxedServicesFit data || data = [] then ['\x00', '\x00']
    else data ++ List.replicate 4 '\x00'
  | none => ['\x00', '\x00']

/-- The walk over the buffer of `Scm_GetBoxedServices` ends inside it. -/
theorem multiSzNames_getBoxedServices_isSome (SandboxedServices : Option (List Char)) :
    (multiSzNames (Scm_GetBoxedServices SandboxedServices)).isSome := by
  unfold Scm_GetBoxedServices
  split
  · split_ifs
    · rfl
    · exact multiSzGo_isSome_pad ['\x00', '\x00'] _ []
  · rfl

/-- A well-formed `SandboxedServices` value reads back as its names when it fits, as none
when it does not. -/
theorem multiSzNames_getBoxedServices_encode (names : List (List Char))
    (hnames : ∀ n ∈ names, IsSzName n) :
    multiSzNames (Scm_GetBoxedServices (some (multiSzEncode names))) =
      some (if boxedServicesFit (multiSzEncode names) then names else []) := by
  have hne : multiSzEncode names ≠ [] := by simp [multiSzEncode]
  cases hfit : boxedServicesFit (multiSzEncode names)
  · simp [Scm_GetBoxedServices, hfit, multiSzNames, multiSzGo]
  · simpa [Scm_GetBoxedServices, hfit, hne] using multiSzNames_encode _ names hnames

theorem Scm_GetBoxedServices_walk (SandboxedServices : Option (List Char)) :
    (multiSzNames (Scm_GetBoxedServices SandboxedServices)).isSome ∧
      ∀ names : List (List Char), (∀ n ∈ names, IsSzName n) →
        SandboxedServices = some (multiSzEncode names) →
          multiSzNames (Scm_GetBoxedServices SandboxedServices) =
            some (if boxedServicesFit (multiSzEncode names) then names else []) :=
  ⟨multiSzNames_getBoxedServices_isSome _, fun names hnames hv =>
    hv ▸ multiSzNames_getBoxedServices_encode names hnames⟩

/-- `SandboxedServices` of `Scm_GetBoxedServices` whose data is the list `a`, `b`, which fits;
and a list of one name of 250 characters, whose 504 bytes with the terminators do not. -/
theorem Scm_GetBoxedServices_walk_ab :
    (∀ n ∈ [['a'], ['b']], IsSzName n) ∧
      some (multiSzEncode [['a'], ['b']]) = some (multiSzEncode [['a'], ['b']]) ∧
      multiSzNames (Scm_GetBoxedServices (some (multiSzEncode [['a'], ['b']]))) =
        some [['a'], ['b']] ∧
      (∀ n ∈ [List.replicate 250 'a'], IsSzName n) ∧
      multiSzNames (Scm_GetBoxedServices (some (multiSzEncode [List.replicate 250 'a']))) =
        some [] :=
  have h : ∀ n ∈ [['a'], ['b']], IsSzName n := by decide
  have hlong : ∀ n ∈ [List.replicate 250 'a'], IsSzName n := by
    simp only [List.mem_singleton, forall_eq, IsSzName, ne_eq, List.replicate_eq_nil_iff,
      List.mem_replicate]
    decide
  have hfit : boxedServicesFit (multiSzEncode [List.replicate 250 'a']) = false := by
    simp only [boxedServicesFit, multiSzEncode, List.flatMap_cons, List.flatMap_nil,
      List.append_nil, List.length_append, List.length_replicate, List.length_singleton,
      KeyValuePartialInformation_Data, Scm_GetBoxedServices_u]
    decide
  ⟨h, rfl, (Scm_GetBoxedServices_walk _).2 _ h rfl, hlong,
    by rw [(Scm_GetBoxedServices_walk _).2 _ hlong rfl, hfit]; rfl⟩

def Scm_MsiServer : List Char := "MSIServer".toList
def Scm_CryptSvc : List Char := "cryptsvc".toList
def _bits : List Char := "bits".toList
def _wuauserv : List Char := "wuauserv".toList
def _TrustedInstaller : List Char := "TrustedInstaller".toList

/-- `Scm_IsBoxedService (ServiceName)`, given the `SandboxedServices` value as for
`Scm_GetBoxedServices` and whether `SbieDll_CheckStringInList (ServiceName, NULL,
L"SandboxService")` holds: a name of the box's list up to case, a `SandboxService` entry, or
one of five services that always run in the box. The walk over the list stops at the first
match; on the buffers of `Scm_GetBoxedServices` it never reads past the end, so `getD` never
applies. -/
def Scm_IsBoxedService (SandboxedServices : Option (List Char)) (inSandboxService : Bool)
    (ServiceName : List Char) : Bool :=
  let names := Scm_GetBoxedServices SandboxedServices
  let found := ((multiSzNames names).getD []).any fun name => wcsicmp name ServiceName = .eq
  let found := found || inSandboxService
  found || [Scm_MsiServer, _TrustedInstaller, _bits, _wuauserv, Scm_CryptSvc].any
    fun s => wcsicmp ServiceName s = .eq

theorem Scm_IsBoxedService_iff (names : List (List Char)) (hnames : ∀ n ∈ names, IsSzName n)
    (inSandboxService : Bool) (ServiceName : List Char) :
    Scm_IsBoxedService (some (multiSzEncode names)) inSandboxService ServiceName = true ↔
      (boxedServicesFit (multiSzEncode names) = true ∧
          ∃ n ∈ names, wcsLower n = wcsLower ServiceName) ∨ inSandboxService = true ∨
        ∃ s ∈ [Scm_MsiServer, _TrustedInstaller, _bits, _wuauserv, Scm_CryptSvc],
          wcsLower ServiceName = wcsLower s := by
  rw [Scm_IsBoxedService, multiSzNames_getBoxedServices_encode names hnames]
  cases boxedServicesFit (multiSzEncode names) <;> simp [wcsicmp_eq_eq, or_assoc]

/-- The box lists `Spooler`, which fits; `spooler` is boxed. -/
theorem Scm_IsBoxedService_iff_spooler :
    (∀ n ∈ ["Spooler".toList], IsSzName n) ∧
      (Scm_IsBoxedService (some (multiSzEncode ["Spooler".toList])) false "spooler".toList = true ↔
        (boxedServicesFit (multiSzEncode ["Spooler".toList]) = true ∧
            ∃ n ∈ ["Spooler".toList], wcsLower n = wcsLower "spooler".toList) ∨ false = true ∨
          ∃ s ∈ [Scm_MsiServer, _TrustedInstaller, _bits, _wuauserv, Scm_CryptSvc],
            wcsLower "spooler".toList = wcsLower s) :=
  have h : ∀ n ∈ ["Spooler".toList], IsSzName n := by decide
  ⟨h, Scm_IsBoxedService_iff _ h _ _⟩

/-! ## The output buffer of `Scm_GetAllServices` -/

/-- `out_max_len` and `out_cur_len` of `Scm_GetAllServices` after it appends `small_ptr`: the
buffer grows by 1000 characters when the name and its NUL would reach `out_max_len`. -/
def outGrow (st : Nat × Nat) (small : List Char) : Nat × Nat :=
  let (out_max_len, out_cur_len) := st
  let out_max_len :=
    if small.length + 1 + out_cur_len ≥ out_max_len then out_max_len + 1000 else out_max_len
  (out_max_len, out_cur_len + small.length + 1)

/-- Every write of the output loop from `st` on lands below `out_max_len`: each `wcscpy` of
a name and its NUL at `out_cur_len`, and the final `out_names[out_cur_len] = 0`. -/
def OutFits : Nat × Nat → List (List Char) → Prop
  | st, [] => st.2 < st.1
  | st, small :: rest => st.2 + small.length + 1 ≤ (outGrow st small).1 ∧
      OutFits (outGrow st small) rest

/-- With names shorter than 1000 characters the buffer always has room. -/
theorem outFits_of_short :
    ∀ (out : List (List Char)) (st : Nat × Nat), st.2 < st.1 →
      (∀ n ∈ out, n.length < 1000) → OutFits st out
  | [], _, h, _ => h
  | small :: rest, (out_max_len, out_cur_len), h, hshort => by
    have hs := hshort small (List.mem_cons_self _ _)
    have hgrow : out_cur_len + small.length + 1 < (outGrow (out_max_len, out_cur_len) small).1 := by
      simp only [outGrow]
      split_ifs <;> simp only at h ⊢ <;> omega
    exact ⟨hgrow.le, outFits_of_short rest _ hgrow fun n hn => hshort n (List.mem_cons_of_mem _ hn)⟩

theorem Scm_GetAllServices_buffer (true_names copy_names : List (List Char))
    (hnames : ∀ n ∈ true_names ++ copy_names, IsSzName n ∧ n.length < 1000) :
    ∃ out, Scm_GetAllServices true_names copy_names = some out ∧ OutFits (1000, 0) out ∧
      multiSzNames (multiSzEncode out) = some out := by
  obtain ⟨out, hout⟩ := Option.isSome_iff_exists.mp
    (Scm_GetAllServices_isSome true_names copy_names)
  -- the names written are names of the two lists
  have hsound := (getAllLoop_spec _ _ _ _ _ _ (GetAllInv.init _) hout).2.1
  refine ⟨out, hout, outFits_of_short out _ (by decide) fun n hn =>
    (hnames n (hsound n hn).1).2, ?_⟩
  simpa using multiSzNames_encode [] out fun n hn => (hnames n (hsound n hn).1).1

/-- The server reports `a` and the box lists `b`. -/
theorem Scm_GetAllServices_buffer_ab :
    (∀ n ∈ [['a']] ++ [['b']], IsSzName n ∧ n.length < 1000) ∧
      ∃ out, Scm_GetAllServices [['a']] [['b']] = some out ∧ OutFits (1000, 0) out ∧
        multiSzNames (multiSzEncode out) = some out :=
  have h : ∀ n ∈ [['a']] ++ [['b']], IsSzName n ∧ n.length < 1000 := by decide
  ⟨h, Scm_GetAllServices_buffer _ _ h⟩

end Sandboxie
