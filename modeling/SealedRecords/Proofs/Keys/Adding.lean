import SealedRecords.Proofs.Keys.Loading

/-!
# A key file more

A key file that is put into a directory takes the place of the file of its name.
If its name, its size and its key are acceptable, nothing is left that loading
could refuse but the number of files:

> `ofDirectory_withKeyFile_iff`: the directory loads exactly if the name was one
> of its keys or there was room for another, and to the store with the key
> inserted.
-/

namespace SealedRecords.KeyStore

variable {s s' : KeyStore} {config : KeyStoreConfig} {dir name : String} {content key : Bytes}
  {entries : List DirEntry} {e : DirEntry}

/-- The name of the file for a key. -/
def keyFileName (name : String) : Bytes := Utf8.encode (name ++ ".key")

/-- The entries of a directory with a key file put into it. -/
def withKeyFile (entries : List DirEntry) (name : String) (content : Bytes) : List DirEntry :=
  entries.filter (fun e => e.name != keyFileName name) ++ [⟨keyFileName name, .file content⟩]

theorem names_keyFileName (h : name ≠ "") (kind : EntryKind) :
    DirEntry.Names ⟨keyFileName name, kind⟩ name :=
  ⟨h, Utf8.lossy_encode _⟩

theorem keyFileName_injective {name' : String} (h : keyFileName name = keyFileName name') :
    name = name' := by
  have hfile := Utf8.encode_injective h
  rw [← String.toList_inj, String.toList_append, String.toList_append] at hfile
  exact String.toList_inj.mp (List.append_cancel_right hfile)

/-- Among the names of key files that of a key stands for the key. -/
theorem name_eq_keyFileName_iff (hname : IsKeyName name) {stem : String} (hstem : e.Names stem) :
    e.name = keyFileName name ↔ stem = name := by
  constructor
  · intro h
    have hfile := hstem.2
    rw [h, keyFileName, Utf8.lossy_encode] at hfile
    exact (keyFileName_injective (congrArg Utf8.encode hfile)).symm
  · rintro rfl
    exact eq_encode_of_names hstem hname

theorem names_withKeyFile_nodup (hnames : (entries.map DirEntry.name).Nodup) (name : String)
    (content : Bytes) : ((withKeyFile entries name content).map DirEntry.name).Nodup := by
  unfold withKeyFile
  rw [List.map_append, List.nodup_append]
  refine ⟨(List.filter_sublist.map DirEntry.name).nodup hnames, by simp, ?_⟩
  intro n hn n' hn'
  obtain ⟨e, he, rfl⟩ := List.mem_map.mp hn
  obtain rfl : n' = keyFileName name := List.mem_singleton.mp hn'
  simpa using (List.mem_filter.mp he).2

/-- Without the file of a key the key files are those of the other keys. -/
theorem keyFiles_filter (hname : IsKeyName name) (entries : List DirEntry) :
    keyFiles (entries.filter fun e => e.name != keyFileName name)
      = (keyFiles entries).filter fun f => f.1 != name := by
  induction entries with
  | nil => rfl
  | cons e entries ih =>
    rcases keyFile_or_skipped e with ⟨stem, old, hstem, hkind⟩ | hskip
    · rw [keyFiles_file hstem hkind]
      by_cases hput : e.name = keyFileName name
      · have hsame : stem = name := (name_eq_keyFileName_iff hname hstem).mp hput
        rw [List.filter_cons_of_neg (by simp [hput]), List.filter_cons_of_neg (by simp [hsame]), ih]
      · have hother : stem ≠ name := fun h => hput ((name_eq_keyFileName_iff hname hstem).mpr h)
        rw [List.filter_cons_of_pos (by simp [hput]), keyFiles_file hstem hkind, ih,
          List.filter_cons_of_pos (by simp [hother])]
    · rw [keyFiles_skip hskip, ← ih]
      by_cases hput : e.name = keyFileName name
      · rw [List.filter_cons_of_neg (by simp [hput])]
      · rw [List.filter_cons_of_pos (by simp [hput]), keyFiles_skip hskip]

theorem keyFiles_withKeyFile (hname : IsKeyName name) (entries : List DirEntry) (content : Bytes) :
    keyFiles (withKeyFile entries name content)
      = (keyFiles entries).filter (fun f => f.1 != name) ++ [(name, content)] := by
  have hnew : keyFiles [⟨keyFileName name, .file content⟩] = [(name, content)] :=
    keyFiles_file (names_keyFileName hname.1 _) rfl
  have happend : ∀ as bs, keyFiles (as ++ bs) = keyFiles as ++ keyFiles bs := fun as bs =>
    List.filterMap_append
  unfold withKeyFile
  rw [happend, hnew, keyFiles_filter hname]

/-- Another file fits in exactly if it takes the place of one or there is room. -/
theorem length_filter_lt_iff {files : List (String × Bytes)} {n : Nat} (hfew : files.length ≤ n) :
    (files.filter fun f => f.1 != name).length < n ↔
      name ∈ files.map Prod.fst ∨ files.length < n := by
  by_cases hmem : name ∈ files.map Prod.fst
  · obtain ⟨f, hf, hname⟩ := List.mem_map.mp hmem
    have hless : (files.filter fun f => f.1 != name).length < files.length := by
      rw [List.length_filter_lt_length_iff_exists]
      exact ⟨f, hf, by simp [hname]⟩
    have hn := Nat.lt_of_lt_of_le hless hfew
    exact iff_of_true hn (Or.inl hmem)
  · have hall : (files.filter fun f => f.1 != name) = files := by
      rw [List.filter_eq_self]
      intro f hf
      rw [bne_iff_ne]
      rintro rfl
      exact hmem (List.mem_map_of_mem hf)
    rw [hall, or_iff_right hmem]

theorem loadable_withKeyFile_iff (hload : Loadable config entries)
    (hfile : AcceptableFile config name content) :
    Loadable config (withKeyFile entries name content) ↔
      name ∈ (keyFiles entries).map Prod.fst ∨ (keyFiles entries).length < config.maxKeys := by
  have hfiles := keyFiles_withKeyFile hfile.name entries content
  rw [← length_filter_lt_iff hload.few]
  constructor
  · intro h
    have hfew := h.few
    rw [hfiles, List.length_append, List.length_singleton] at hfew
    omega
  · intro hroom
    refine ⟨?_, ?_, ?_⟩
    · intro e he stem hstem
      rcases List.mem_append.mp he with he | he
      · exact hload.kinds e (List.mem_filter.mp he).1 stem hstem
      · obtain rfl := List.mem_singleton.mp he
        exact Or.inr ⟨content, rfl⟩
    · rw [hfiles, List.length_append, List.length_singleton]
      omega
    · intro f hf
      rw [hfiles] at hf
      rcases List.mem_append.mp hf with hf | hf
      · exact hload.files f (List.mem_filter.mp hf).1
      · obtain rfl := List.mem_singleton.mp hf
        exact hfile

/-- What is seen under a name in a directory with a key file more. -/
theorem exists_file_withKeyFile_iff (hname : IsKeyName name) (hkey : HoldsKey content key)
    {n : String} {v : Bytes} :
    (∃ e ∈ withKeyFile entries name content, e.Names n ∧
        ∃ content, e.kind = .file content ∧ HoldsKey content v) ↔
      if name = n then v = key
      else ∃ e ∈ entries, e.Names n ∧ ∃ content, e.kind = .file content ∧ HoldsKey content v := by
  constructor
  · rintro ⟨e, he, hstem, content', hkind, hv⟩
    have hput := name_eq_keyFileName_iff hname hstem
    rcases List.mem_append.mp he with he | he
    · obtain ⟨hmem, hother⟩ := List.mem_filter.mp he
      have hne : name ≠ n := by
        rintro rfl
        simp [hput.mpr rfl] at hother
      rw [if_neg hne]
      exact ⟨e, hmem, hstem, content', hkind, hv⟩
    · obtain rfl := List.mem_singleton.mp he
      obtain rfl : n = name := hput.mp rfl
      obtain rfl : content = content' := EntryKind.file.inj hkind
      rw [if_pos rfl]
      exact Option.some.inj
        ((keyIn?_eq_some_iff.mpr hv).symm.trans (keyIn?_eq_some_iff.mpr hkey))
  · split
    · next heq =>
      subst heq
      rintro rfl
      exact ⟨_, List.mem_append_right _ (List.mem_singleton.mpr rfl),
        names_keyFileName hname.1 _, content, rfl, hkey⟩
    · next hne =>
      rintro ⟨e, he, hstem, content', hkind, hv⟩
      have hother : e.name ≠ keyFileName name := by
        intro h
        exact hne ((name_eq_keyFileName_iff hname hstem).mp h).symm
      exact ⟨e, List.mem_append_left _ (List.mem_filter.mpr ⟨he, by simpa using hother⟩), hstem,
        content', hkind, hv⟩

/-- **A directory with a key file more.** Where a directory loads and an acceptable key file is put
into it, it loads exactly if the name was that of a key or there was room for another, and then to
the store with the key inserted. -/
theorem ofDirectory_withKeyFile_iff (hnames : (entries.map DirEntry.name).Nodup)
    (hload : (ofDirectory config dir (.ok entries)).1 = .ok s) (hname : IsKeyName name)
    (hsize : content.length ≤ config.maxFileSize) (hkey : HoldsKey content key)
    (haccepts : config.Accepts key) :
    (ofDirectory config dir (.ok (withKeyFile entries name content))).1 = .ok s' ↔
      (s.contains name = true ∨ s.size < config.maxKeys) ∧ s.insert name key = .ok s' := by
  have hfile : AcceptableFile config name content := ⟨hsize, hname, key, hkey, haccepts⟩
  obtain ⟨hloadable, hs⟩ := ofDirectory_eq_ok_iff.mp hload
  have hconfig : s.config = config := by rw [hs]
  have hinsert : s.insert name key = .ok { s with keys := NameMap.put name key s.keys } :=
    insert_eq_ok_iff.mpr ⟨hname, hconfig ▸ haccepts, rfl⟩
  rw [contains_of_ofDirectory hnames hload, size_of_ofDirectory hnames hload,
    ← loadable_withKeyFile_iff hloadable hfile]
  -- both stores are settled by what they answer
  have hstore : ∀ {s₁},
      (ofDirectory config dir (.ok (withKeyFile entries name content))).1 = .ok s₁ →
        s.insert name key = .ok s₁ := by
    intro s₁ h₁
    have hnames₁ := names_withKeyFile_nodup hnames name content
    have hsound := (sound_of_ofDirectory hnames hload).of_insert hinsert
    rw [hinsert]
    refine congrArg _ (hsound.ext (sound_of_ofDirectory hnames₁ h₁) ?_ fun n =>
      Option.ext fun v => ?_)
    · rw [(ofDirectory_eq_ok_iff.mp h₁).2]
      exact hconfig
    · rw [get?_of_insert hinsert, get?_of_ofDirectory hnames₁ h₁,
        exists_file_withKeyFile_iff hname hkey]
      split
      · rw [Option.some.injEq, eq_comm]
      · exact get?_of_ofDirectory hnames hload
  constructor
  · intro h
    exact ⟨(ofDirectory_eq_ok_iff.mp h).1, hstore h⟩
  · rintro ⟨hloadable', hins⟩
    have h : (ofDirectory config dir (.ok (withKeyFile entries name content))).1 = .ok _ :=
      ofDirectory_eq_ok_iff.mpr ⟨hloadable', rfl⟩
    rwa [Except.ok.inj ((hstore h).symm.trans hins)] at h

end SealedRecords.KeyStore
