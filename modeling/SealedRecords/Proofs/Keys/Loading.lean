import SealedRecords.Keys.Directory
import SealedRecords.Proofs.Keys.Acceptance

/-!
# What a key directory loads to

`KeyStore.loadEntries` goes through a listing once, skips, counts, refuses and
inserts as it goes, and stops at the first failure. None of this shows in the
result: a directory loads exactly if it is `Loadable`, which says nothing about
the order of the entries, and then each key file has given one key.

> `loadEntries_eq_ok_iff`: when the rest of a listing loads, and to what.

> `ofDirectory_exact`: the same for a whole directory, whose names are distinct.

Two files can have the same lenient name, but then it holds U+FFFD and is no
name of a key; `eq_encode_of_names` is where this enters.
-/

namespace SealedRecords

/-- The entry has the name of a key file: its name, read leniently, is a stem and the ending. -/
def DirEntry.Names (e : DirEntry) (stem : String) : Prop :=
  stem ≠ "" ∧ Utf8.lossy e.name = stem ++ ".key"

namespace KeyStore

variable {s s' : KeyStore} {config : KeyStoreConfig} {dir name stem : String} {count : Nat}
  {content key : Bytes} {e : DirEntry} {es entries : List DirEntry}

theorem keyName?_eq_some_iff {file : String} :
    keyName? file = some stem ↔ stem ≠ "" ∧ file = stem ++ ".key" := by
  have hlen : keyFileEnding.length = 4 := rfl
  constructor
  · intro h
    simp only [keyName?, hlen] at h
    split at h
    · next hc =>
      simp only [Bool.and_eq_true, decide_eq_true_eq, beq_iff_eq] at hc
      rw [Option.some.injEq] at h
      have htake : stem.toList = file.toList.take (file.toList.length - 4) := by
        rw [← h, String.toList_ofList]
      refine ⟨?_, ?_⟩
      · rintro rfl
        have := congrArg List.length htake
        rw [List.length_take] at this
        have h0 : ("" : String).toList.length = 0 := rfl
        omega
      · rw [← String.toList_inj, String.toList_append, htake]
        show file.toList = _ ++ keyFileEnding
        rw [← hc.2, List.take_append_drop]
    · cases h
  · rintro ⟨hne, rfl⟩
    have hpos : 0 < stem.toList.length := by
      rw [List.length_pos_iff]
      exact fun h => hne (String.toList_inj.mp h)
    have hfile : (stem ++ ".key").toList = stem.toList ++ keyFileEnding := String.toList_append
    simp only [keyName?, hfile, List.length_append, hlen, Nat.add_sub_cancel, List.drop_left,
      List.take_left, String.ofList_toList]
    simp
    omega

theorem names_iff : e.Names stem ↔ keyName? (Utf8.lossy e.name) = some stem :=
  keyName?_eq_some_iff.symm

theorem keyName?_of_not_names (h : ∀ stem, ¬ e.Names stem) :
    keyName? (Utf8.lossy e.name) = none := by
  cases hk : keyName? (Utf8.lossy e.name) with
  | none => rfl
  | some stem => exact absurd (names_iff.mpr hk) (h stem)

/-! ## Key files -/

/-- The stems and the contents of the regular files among the entries that have the names of key
files. -/
def keyFiles (entries : List DirEntry) : List (String × Bytes) :=
  entries.filterMap fun e =>
    match keyName? (Utf8.lossy e.name), e.kind with
    | some stem, .file content => some (stem, content)
    | _, _ => none

theorem mem_keyFiles_iff {f : String × Bytes} :
    f ∈ keyFiles entries ↔ ∃ e ∈ entries, e.Names f.1 ∧ e.kind = .file f.2 := by
  simp only [keyFiles, List.mem_filterMap, names_iff]
  refine exists_congr fun e => and_congr_right fun _ => ?_
  obtain ⟨stem, content⟩ := f
  cases keyName? (Utf8.lossy e.name) with
  | none => simp
  | some n =>
    cases e.kind <;> simp

/-- The content of a file is a text that spells the key. -/
def HoldsKey (content key : Bytes) : Prop :=
  ∃ text, content = Utf8.encode text ∧ Hex.Written key text

/-- A key file can be accepted: it is not too large, its stem names a key, and it holds one. -/
structure AcceptableFile (config : KeyStoreConfig) (name : String) (content : Bytes) : Prop where
  size : content.length ≤ config.maxFileSize
  name : IsKeyName name
  key : ∃ key, HoldsKey content key ∧ config.Accepts key

/-- A directory can be loaded: what has the name of a key file is a regular file or no file at all,
in particular no symbolic link; there are not too many key files; each can be accepted. -/
structure Loadable (config : KeyStoreConfig) (entries : List DirEntry) : Prop where
  kinds : ∀ e ∈ entries, ∀ stem, e.Names stem → e.kind = .other ∨ ∃ content, e.kind = .file content
  few : (keyFiles entries).length ≤ config.maxKeys
  files : ∀ f ∈ keyFiles entries, AcceptableFile config f.1 f.2

/-- The key that the content of a file spells. -/
def keyIn? (content : Bytes) : Option Bytes :=
  (Utf8.decode content).toOption.bind fun text => (Hex.decodeTrimmed text).toOption

theorem keyIn?_eq_some_iff : keyIn? content = some key ↔ HoldsKey content key := by
  have htoOption : ∀ {ε β : Type} {x : Except ε β} {v : β}, x.toOption = some v ↔ x = .ok v := by
    intro ε β x v
    cases x <;> simp [Except.toOption]
  simp only [keyIn?, HoldsKey, Option.bind_eq_some_iff, htoOption, Utf8.decode_eq_ok_iff,
    Hex.decodeTrimmed_eq_ok_iff]

/-- The keys of key files, under the stems. -/
def keysIn (files : List (String × Bytes)) : List (String × Bytes) :=
  files.filterMap fun f => (keyIn? f.2).map fun key => (f.1, key)

theorem mem_keysIn_iff {files : List (String × Bytes)} {p : String × Bytes} :
    p ∈ keysIn files ↔ ∃ content, (p.1, content) ∈ files ∧ HoldsKey content p.2 := by
  obtain ⟨name, key⟩ := p
  simp only [keysIn, List.mem_filterMap, Option.map_eq_some_iff, keyIn?_eq_some_iff]
  constructor
  · rintro ⟨⟨name', content⟩, hmem, key', hkey, heq⟩
    obtain ⟨rfl, rfl⟩ := Prod.mk.inj heq
    exact ⟨content, hmem, hkey⟩
  · rintro ⟨content, hmem, hkey⟩
    exact ⟨(name, content), hmem, key, hkey, rfl⟩

/-- Puts keys into a map, one after the other. -/
def putAll (keys : List (String × Bytes)) (m : List (String × Bytes)) : List (String × Bytes) :=
  keys.foldl (fun m p => NameMap.put p.1 p.2 m) m

theorem keysIn_cons {f : String × Bytes} {files : List (String × Bytes)}
    (h : HoldsKey f.2 key) : keysIn (f :: files) = (f.1, key) :: keysIn files := by
  rw [keysIn, List.filterMap_cons_some]
  · rfl
  · rw [keyIn?_eq_some_iff.mpr h, Option.map_some]

/-! ## One file -/

theorem loadFile_eq_ok_iff {file : String} : s.loadFile dir file name content = .ok s' ↔
    AcceptableFile s.config name content ∧
      ∃ key, HoldsKey content key ∧ s' = { s with keys := NameMap.put name key s.keys } := by
  constructor
  · intro h
    rw [loadFile] at h
    split at h
    · cases h
    · next hsize =>
      split at h
      · cases h
      · next text htext =>
        obtain ⟨key, hkey, hinsert⟩ := insertHex_eq_ok_iff.mp h
        obtain ⟨hname, haccepts, hs'⟩ := insert_eq_ok_iff.mp hinsert
        have hholds : HoldsKey content key := ⟨text, Utf8.decode_eq_ok_iff.mp htext, hkey⟩
        exact ⟨⟨Nat.le_of_not_lt hsize, hname, key, hholds, haccepts⟩, key, hholds, hs'⟩
  · rintro ⟨⟨hsize, hname, key₀, ⟨text₀, htext₀, hkey₀⟩, haccepts⟩, key, ⟨text, htext, hkey⟩, rfl⟩
    -- a content spells at most one key
    obtain rfl : text₀ = text := Utf8.encode_injective (htext₀.symm.trans htext)
    obtain rfl : key₀ = key := hkey₀.unique hkey
    rw [loadFile, if_neg (Nat.not_lt.mpr hsize), Utf8.decode_eq_ok_iff.mpr htext]
    exact insertHex_eq_ok_iff.mpr ⟨key₀, hkey, insert_eq_ok_iff.mpr ⟨hname, haccepts, rfl⟩⟩

/-! ## One entry -/

/-- An entry that has not the name of a key file, or is no file, is skipped. -/
theorem loadEntries_skip (h : (∀ stem, ¬ e.Names stem) ∨ e.kind = .other) :
    loadEntries s dir count (e :: es) = loadEntries s dir count es := by
  rcases h with h | h
  · rw [loadEntries, keyName?_of_not_names h]
  · cases hk : keyName? (Utf8.lossy e.name) <;> simp only [loadEntries, h, hk]

theorem keyFiles_skip (h : (∀ stem, ¬ e.Names stem) ∨ ∀ content, e.kind ≠ .file content) :
    keyFiles (e :: es) = keyFiles es := by
  rw [keyFiles, List.filterMap_cons_none]
  · rfl
  · split
    · next stem content hk hkind =>
      exact h.elim (fun h => absurd (names_iff.mpr hk) (h stem)) fun h => absurd hkind (h content)
    · rfl

/-- What has the name of a key file and is neither a file nor skipped is refused. -/
theorem loadEntries_refuse (hstem : e.Names stem) (hother : e.kind ≠ .other)
    (hfile : ∀ content, e.kind ≠ .file content) :
    (loadEntries s dir count (e :: es)).1 ≠ .ok s' := by
  have hk := names_iff.mp hstem
  cases hkind : e.kind with
  | other => exact absurd hkind hother
  | file content => exact absurd hkind (hfile content)
  | «symlink» => simp [loadEntries, hk, hkind]
  | unreachable cause => simp [loadEntries, hk, hkind]
  | closedFile cause =>
    simp only [loadEntries, hk, hkind]
    split <;> simp

/-- A key file is counted before it is looked into, and what follows goes on with its key. -/
theorem loadEntries_file (hstem : e.Names stem) (hfile : e.kind = .file content) :
    (loadEntries s dir count (e :: es)).1 = .ok s' ↔
      count + 1 ≤ s.config.maxKeys ∧ AcceptableFile s.config stem content ∧
        ∃ key, HoldsKey content key ∧
          (loadEntries { s with keys := NameMap.put stem key s.keys } dir (count + 1) es).1
            = .ok s' := by
  have hk := names_iff.mp hstem
  simp only [loadEntries, hk, hfile]
  split
  · next hmax =>
    simp only [reduceCtorEq, false_iff, not_and]
    omega
  · next hmax =>
    have hmax : count + 1 ≤ s.config.maxKeys := by omega
    cases hload : s.loadFile dir (Utf8.lossy e.name) stem content with
    | error err =>
      simp only [reduceCtorEq, false_iff, not_and]
      rintro - haccept ⟨key, hkey, -⟩
      rw [loadFile_eq_ok_iff.mpr ⟨haccept, key, hkey, rfl⟩] at hload
      cases hload
    | ok s₁ =>
      obtain ⟨haccept, key, hkey, rfl⟩ := loadFile_eq_ok_iff.mp hload
      simp only [hmax, haccept, true_and]
      constructor
      · intro h
        exact ⟨key, hkey, h⟩
      · rintro ⟨key', hkey', h⟩
        rwa [show key = key' from Option.some.inj
          ((keyIn?_eq_some_iff.mpr hkey).symm.trans (keyIn?_eq_some_iff.mpr hkey'))]

theorem keyFiles_file (hstem : e.Names stem) (hfile : e.kind = .file content) :
    keyFiles (e :: es) = (stem, content) :: keyFiles es := by
  simp only [keyFiles, List.filterMap_cons, names_iff.mp hstem, hfile]

theorem keyFile_or_skipped (e : DirEntry) :
    (∃ stem content, e.Names stem ∧ e.kind = .file content) ∨
      (∀ stem, ¬ e.Names stem) ∨ ∀ content, e.kind ≠ .file content := by
  by_cases hstem : ∃ stem, e.Names stem
  · obtain ⟨stem, hstem⟩ := hstem
    by_cases hkind : ∃ content, e.kind = .file content
    · obtain ⟨content, hkind⟩ := hkind
      exact Or.inl ⟨stem, content, hstem, hkind⟩
    · exact Or.inr (Or.inr fun content h => hkind ⟨content, h⟩)
  · exact Or.inr (Or.inl fun stem h => hstem ⟨stem, h⟩)

/-! ## All entries -/

/-- The rest of a listing loads exactly if nothing in it has to be refused, there are not too many
key files with those seen before, and each can be accepted; the store then has their keys. -/
theorem loadEntries_eq_ok_iff (hcount : count ≤ s.config.maxKeys) :
    (loadEntries s dir count es).1 = .ok s' ↔
      (∀ e ∈ es, ∀ stem, e.Names stem → e.kind = .other ∨ ∃ content, e.kind = .file content) ∧
      count + (keyFiles es).length ≤ s.config.maxKeys ∧
      (∀ f ∈ keyFiles es, AcceptableFile s.config f.1 f.2) ∧
      s' = { s with keys := putAll (keysIn (keyFiles es)) s.keys } := by
  induction es generalizing s count with
  | nil =>
    simp only [loadEntries, keyFiles, List.filterMap_nil, List.length_nil, Nat.add_zero, hcount]
    simp [keysIn, putAll, eq_comm]
  | cons e es ih =>
    by_cases hskip : (∀ stem, ¬ e.Names stem) ∨ e.kind = .other
    · have hnofile : (∀ stem, ¬ e.Names stem) ∨ ∀ content, e.kind ≠ .file content :=
        hskip.imp_right fun h => by simp [h]
      have he : ∀ stem, e.Names stem → e.kind = .other ∨ ∃ content, e.kind = .file content := by
        intro stem hstem
        exact Or.inl (hskip.resolve_left fun h => h stem hstem)
      rw [loadEntries_skip hskip, keyFiles_skip hnofile, ih hcount, List.forall_mem_cons,
        and_iff_right he]
    · simp only [not_or, Classical.not_forall, Classical.not_not] at hskip
      obtain ⟨⟨stem, hstem⟩, hother⟩ := hskip
      by_cases hfile : ∃ content, e.kind = .file content
      · obtain ⟨content, hfile⟩ := hfile
        rw [loadEntries_file hstem hfile, keyFiles_file hstem hfile]
        simp only [List.forall_mem_cons, List.length_cons]
        constructor
        · rintro ⟨hmax, haccept, key, hkey, h⟩
          obtain ⟨hkinds, hfew, haccepts, rfl⟩ := (ih (by exact hmax)).mp h
          refine ⟨⟨fun _ _ => Or.inr ⟨content, hfile⟩, hkinds⟩, ?_, ⟨haccept, haccepts⟩, ?_⟩
          · show count + ((keyFiles es).length + 1) ≤ s.config.maxKeys
            change count + 1 + (keyFiles es).length ≤ s.config.maxKeys at hfew
            omega
          · rw [keysIn_cons (f := (stem, content)) hkey]
            rfl
        · rintro ⟨⟨-, hkinds⟩, hfew, ⟨haccept, haccepts⟩, rfl⟩
          have hmax : count + 1 ≤ s.config.maxKeys := by omega
          obtain ⟨key, hkey, -⟩ := haccept.key
          refine ⟨hmax, haccept, key, hkey, (ih (by exact hmax)).mpr ⟨hkinds, ?_, haccepts, ?_⟩⟩
          · show count + 1 + (keyFiles es).length ≤ s.config.maxKeys
            omega
          · rw [keysIn_cons (f := (stem, content)) hkey]
            rfl
      · have hrefuse : (loadEntries s dir count (e :: es)).1 ≠ .ok s' :=
          loadEntries_refuse hstem hother fun content h => hfile ⟨content, h⟩
        simp only [hrefuse, false_iff, List.forall_mem_cons]
        rintro ⟨⟨he, -⟩, -⟩
        exact (he stem hstem).elim hother hfile

/-! ## The directory as a whole -/

theorem get?_putAll {keys m : List (String × Bytes)} (hnodup : (keys.map Prod.fst).Nodup)
    (n : String) (v : Bytes) : NameMap.get? (putAll keys m) n = some v ↔
      (n, v) ∈ keys ∨ (n ∉ keys.map Prod.fst ∧ NameMap.get? m n = some v) := by
  induction keys generalizing m with
  | nil => simp [putAll]
  | cons p keys ih =>
    obtain ⟨name, key⟩ := p
    rw [List.map_cons, List.nodup_cons] at hnodup
    obtain ⟨hname, hnodup⟩ := hnodup
    show NameMap.get? (putAll keys (NameMap.put name key m)) n = some v ↔ _
    rw [ih hnodup, NameMap.get?_put]
    by_cases heq : name = n
    · subst heq
      have hv : (name, v) ∉ keys := fun h => hname (List.mem_map.mpr ⟨_, h, rfl⟩)
      simp [hname, hv, eq_comm]
    · have hne : n ≠ name := Ne.symm heq
      simp [heq, hne]

theorem ascending_putAll {m : List (String × Bytes)} (h : NameMap.Ascending m)
    (keys : List (String × Bytes)) : NameMap.Ascending (putAll keys m) := by
  induction keys generalizing m with
  | nil => exact h
  | cons p keys ih => exact ih (h.put p.1 p.2)

/-- A file name whose stem names a key is the stem and the ending, byte by byte. -/
theorem eq_encode_of_names (hstem : e.Names stem) (hname : IsKeyName stem) :
    e.name = Utf8.encode (stem ++ ".key") := by
  rw [← hstem.2, Utf8.encode_lossy]
  intro hmem
  rw [hstem.2, String.toList_append, List.mem_append] at hmem
  -- the replacement character is not ASCII
  have hascii : Utf8.replacement.toNat < 128 := by
    rcases hmem with hmem | hmem
    · exact hname.ascii _ hmem
    · revert hmem
      decide
  revert hascii
  decide

theorem names_keyFiles_nodup (hnames : (entries.map DirEntry.name).Nodup)
    (hfiles : ∀ f ∈ keyFiles entries, IsKeyName f.1) :
    ((keyFiles entries).map Prod.fst).Nodup := by
  induction entries with
  | nil => exact List.nodup_nil
  | cons e es ih =>
    rw [List.map_cons, List.nodup_cons] at hnames
    have hes : ∀ f ∈ keyFiles es, f ∈ keyFiles (e :: es) := by
      intro f hf
      rw [mem_keyFiles_iff] at hf ⊢
      obtain ⟨e', he', h⟩ := hf
      exact ⟨e', List.mem_cons_of_mem _ he', h⟩
    have ih := ih hnames.2 fun f hf => hfiles f (hes f hf)
    rcases keyFile_or_skipped e with ⟨stem, content, hstem, hkind⟩ | hskip
    · have hcons : keyFiles (e :: es) = (stem, content) :: keyFiles es := keyFiles_file hstem hkind
      have hname : IsKeyName stem := hfiles (stem, content) (hcons ▸ List.mem_cons_self)
      rw [hcons, List.map_cons, List.nodup_cons]
      refine ⟨fun hmem => hnames.1 ?_, ih⟩
      obtain ⟨f, hf, rfl⟩ := List.mem_map.mp hmem
      obtain ⟨e', he', hstem', -⟩ := mem_keyFiles_iff.mp hf
      rw [eq_encode_of_names hstem hname, ← eq_encode_of_names hstem' hname]
      exact List.mem_map_of_mem he'
    · rwa [keyFiles_skip hskip]

theorem names_keysIn {files : List (String × Bytes)}
    (hfiles : ∀ f ∈ files, ∃ key, HoldsKey f.2 key) :
    (keysIn files).map Prod.fst = files.map Prod.fst := by
  induction files with
  | nil => rfl
  | cons f files ih =>
    rw [List.forall_mem_cons] at hfiles
    obtain ⟨key, hkey⟩ := hfiles.1
    rw [keysIn_cons hkey, List.map_cons, List.map_cons, ih hfiles.2]

/-- A directory loads exactly if it is loadable, and then to the keys of its key files. -/
theorem ofDirectory_eq_ok_iff :
    (ofDirectory config dir (.ok entries)).1 = .ok s ↔ Loadable config entries ∧
      s = { config := config, keys := putAll (keysIn (keyFiles entries)) [] } := by
  rw [ofDirectory, loadEntries_eq_ok_iff (Nat.zero_le _), Nat.zero_add]
  constructor
  · rintro ⟨hkinds, hfew, hfiles, hs⟩
    exact ⟨⟨hkinds, hfew, hfiles⟩, hs⟩
  · rintro ⟨⟨hkinds, hfew, hfiles⟩, hs⟩
    exact ⟨hkinds, hfew, hfiles, hs⟩

theorem mem_of_get?_putAll {keys m : List (String × Bytes)} {n : String} {v : Bytes}
    (h : NameMap.get? (putAll keys m) n = some v) :
    (n, v) ∈ keys ∨ NameMap.get? m n = some v := by
  induction keys generalizing m with
  | nil => exact Or.inr h
  | cons p keys ih =>
    rcases ih (m := NameMap.put p.1 p.2 m) h with hmem | hget
    · exact Or.inl (List.mem_cons_of_mem _ hmem)
    · rw [NameMap.get?_put] at hget
      split at hget
      · next heq =>
        obtain rfl : p.2 = v := Option.some.inj hget
        exact Or.inl (heq ▸ List.mem_cons_self)
      · exact Or.inr hget

/-- Every key in the store was in a file of its name, also if names should occur twice. -/
theorem file_of_ofDirectory (h : (ofDirectory config dir (.ok entries)).1 = .ok s)
    (hget : s.get? name = some key) :
    ∃ e ∈ entries, e.Names name ∧ ∃ content, e.kind = .file content ∧ HoldsKey content key := by
  obtain ⟨-, rfl⟩ := ofDirectory_eq_ok_iff.mp h
  have hmem : (name, key) ∈ keysIn (keyFiles entries) :=
    (mem_of_get?_putAll hget).resolve_right fun h => by cases h
  obtain ⟨content, hfile, hkey⟩ := mem_keysIn_iff.mp hmem
  obtain ⟨e, he, hstem, hkind⟩ := mem_keyFiles_iff.mp hfile
  exact ⟨e, he, hstem, content, hkind, hkey⟩

theorem accepted_of_ofDirectory (h : (ofDirectory config dir (.ok entries)).1 = .ok s)
    (hget : s.get? name = some key) : IsKeyName name ∧ config.Accepts key := by
  obtain ⟨e, he, hstem, content, hkind, hkey⟩ := file_of_ofDirectory h hget
  have hload := (ofDirectory_eq_ok_iff.mp h).1
  have hfile := hload.files (name, content) (mem_keyFiles_iff.mpr ⟨e, he, hstem, hkind⟩)
  obtain ⟨key', hkey', haccepts⟩ := hfile.key
  have hsame := (keyIn?_eq_some_iff.mpr hkey).symm.trans (keyIn?_eq_some_iff.mpr hkey')
  obtain rfl : key = key' := Option.some.inj hsame
  exact ⟨hfile.name, haccepts⟩

theorem Loadable.perm {entries' : List DirEntry} (h : Loadable config entries)
    (hperm : entries'.Perm entries) : Loadable config entries' := by
  have hfiles : (keyFiles entries').Perm (keyFiles entries) := hperm.filterMap _
  refine ⟨fun e he => h.kinds e (hperm.mem_iff.mp he), ?_, fun f hf => ?_⟩
  · rw [hfiles.length_eq]
    exact h.few
  · exact h.files f (hfiles.mem_iff.mp hf)

section

variable (hnames : (entries.map DirEntry.name).Nodup)

include hnames

/-- What a directory with distinct names holds under a name is the key in the file of that stem. -/
theorem get?_of_ofDirectory (h : (ofDirectory config dir (.ok entries)).1 = .ok s) :
    s.get? name = some key ↔
      ∃ e ∈ entries, e.Names name ∧ ∃ content, e.kind = .file content ∧ HoldsKey content key := by
  obtain ⟨hload, rfl⟩ := ofDirectory_eq_ok_iff.mp h
  have hfiles : ∀ f ∈ keyFiles entries, ∃ key, HoldsKey f.2 key := fun f hf =>
    (hload.files f hf).key.imp fun _ h => h.1
  have hnodup : ((keysIn (keyFiles entries)).map Prod.fst).Nodup := by
    rw [names_keysIn hfiles]
    exact names_keyFiles_nodup hnames fun f hf => (hload.files f hf).name
  show NameMap.get? (putAll (keysIn (keyFiles entries)) []) name = some key ↔ _
  rw [get?_putAll hnodup, mem_keysIn_iff]
  have hnil : NameMap.get? ([] : List (String × Bytes)) name = none := rfl
  simp only [hnil, reduceCtorEq, and_false, or_false, mem_keyFiles_iff]
  constructor
  · rintro ⟨content, ⟨e, he, hstem, hkind⟩, hkey⟩
    exact ⟨e, he, hstem, content, hkind, hkey⟩
  · rintro ⟨e, he, hstem, content, hkind, hkey⟩
    exact ⟨content, ⟨e, he, hstem, hkind⟩, hkey⟩

theorem sound_of_ofDirectory (h : (ofDirectory config dir (.ok entries)).1 = .ok s) : Sound s := by
  have hget : ∀ {name key}, s.get? name = some key ↔
      ∃ e ∈ entries, e.Names name ∧ ∃ content, e.kind = .file content ∧ HoldsKey content key :=
    get?_of_ofDirectory hnames h
  obtain ⟨hload, rfl⟩ := ofDirectory_eq_ok_iff.mp h
  refine ⟨ascending_putAll List.Pairwise.nil _, fun {n v} hv => ?_, fun {n v} hv => ?_⟩
  · obtain ⟨e, he, hstem, content, hkind, -⟩ := hget.mp hv
    exact (hload.files (n, content) (mem_keyFiles_iff.mpr ⟨e, he, hstem, hkind⟩)).name
  · obtain ⟨e, he, hstem, content, hkind, hkey⟩ := hget.mp hv
    obtain ⟨v', hkey', haccepts⟩ :=
      (hload.files (n, content) (mem_keyFiles_iff.mpr ⟨e, he, hstem, hkind⟩)).key
    rwa [show v = v' from Option.some.inj
      ((keyIn?_eq_some_iff.mpr hkey).symm.trans (keyIn?_eq_some_iff.mpr hkey'))]

/-- The names in the store are the stems of the key files, each once. -/
theorem names_of_ofDirectory (h : (ofDirectory config dir (.ok entries)).1 = .ok s) :
    s.names.Perm ((keyFiles entries).map Prod.fst) := by
  have hsound := sound_of_ofDirectory hnames h
  have hget : ∀ {name key}, s.get? name = some key ↔
      ∃ e ∈ entries, e.Names name ∧ ∃ content, e.kind = .file content ∧ HoldsKey content key :=
    get?_of_ofDirectory hnames h
  have hload := (ofDirectory_eq_ok_iff.mp h).1
  have hnodup := names_keyFiles_nodup hnames fun f hf => (hload.files f hf).name
  show (s.keys.map Prod.fst).Perm _
  rw [List.perm_ext_iff_of_nodup hsound.ascending.nodup_names hnodup]
  intro n
  rw [NameMap.mem_names_iff, Option.isSome_iff_exists, List.mem_map]
  constructor
  · rintro ⟨v, hv⟩
    obtain ⟨e, he, hstem, content, hkind, -⟩ := hget.mp hv
    exact ⟨(n, content), mem_keyFiles_iff.mpr ⟨e, he, hstem, hkind⟩, rfl⟩
  · rintro ⟨f, hf, rfl⟩
    obtain ⟨v, hkey, -⟩ := (hload.files f hf).key
    obtain ⟨e, he, hstem, hkind⟩ := mem_keyFiles_iff.mp hf
    exact ⟨v, hget.mpr ⟨e, he, hstem, f.2, hkind, hkey⟩⟩

theorem contains_of_ofDirectory (h : (ofDirectory config dir (.ok entries)).1 = .ok s) :
    s.contains name = true ↔ name ∈ (keyFiles entries).map Prod.fst := by
  rw [← (names_of_ofDirectory hnames h).mem_iff]
  exact NameMap.mem_names_iff.symm

theorem size_of_ofDirectory (h : (ofDirectory config dir (.ok entries)).1 = .ok s) :
    s.size = (keyFiles entries).length := by
  have hlength := (names_of_ofDirectory hnames h).length_eq
  rw [List.length_map] at hlength
  rw [← hlength]
  exact (List.length_map ..).symm

/-- The store of a directory does not depend on the order in which the entries are listed. -/
theorem ofDirectory_of_perm {entries' : List DirEntry} (hperm : entries'.Perm entries)
    (h : (ofDirectory config dir (.ok entries)).1 = .ok s) :
    (ofDirectory config dir (.ok entries')).1 = .ok s := by
  have hload := (ofDirectory_eq_ok_iff.mp h).1
  have hs' : (ofDirectory config dir (.ok entries')).1 = .ok _ :=
    ofDirectory_eq_ok_iff.mpr ⟨hload.perm hperm, rfl⟩
  have hnames' : (entries'.map DirEntry.name).Nodup := (hperm.map _).nodup_iff.mpr hnames
  have hsound := sound_of_ofDirectory hnames h
  have hsound' := sound_of_ofDirectory hnames' hs'
  refine hs'.trans (congrArg _ (hsound'.ext hsound ?_ fun n => Option.ext fun v => ?_))
  · rw [(ofDirectory_eq_ok_iff.mp h).2]
  · rw [← Option.mem_def, ← Option.mem_def, Option.mem_def, Option.mem_def,
      get?_of_ofDirectory hnames' hs', get?_of_ofDirectory hnames h]
    simp only [hperm.mem_iff]

end

/-- **Loading a directory is exact and does not depend on the order.** A directory whose entries
have distinct names loads exactly if it is loadable. The store then has the configuration that was
asked for and one key for each key file, which the file holds, under its stem, and nothing else.
Every order in which the entries can be listed gives the same store, or none. -/
theorem ofDirectory_exact (config : KeyStoreConfig) (dir : String) {entries : List DirEntry}
    (hnames : (entries.map DirEntry.name).Nodup) :
    ((∃ s, (ofDirectory config dir (.ok entries)).1 = .ok s) ↔ Loadable config entries) ∧
    (∀ s, (ofDirectory config dir (.ok entries)).1 = .ok s →
      s.config = config ∧ s.names.Perm ((keyFiles entries).map Prod.fst) ∧
      ∀ name key, s.get? name = some key ↔ ∃ e ∈ entries, e.Names name ∧
        ∃ content, e.kind = .file content ∧ HoldsKey content key) ∧
    ∀ entries', entries'.Perm entries → ∀ s,
      (ofDirectory config dir (.ok entries')).1 = .ok s ↔
        (ofDirectory config dir (.ok entries)).1 = .ok s := by
  refine ⟨⟨fun ⟨s, h⟩ => (ofDirectory_eq_ok_iff.mp h).1,
    fun h => ⟨_, ofDirectory_eq_ok_iff.mpr ⟨h, rfl⟩⟩⟩, fun s h => ⟨?_, ?_, ?_⟩, ?_⟩
  · rw [(ofDirectory_eq_ok_iff.mp h).2]
  · exact names_of_ofDirectory hnames h
  · intro name key
    exact get?_of_ofDirectory hnames h
  · intro entries' hperm s
    have hnames' : (entries'.map DirEntry.name).Nodup := (hperm.map _).nodup_iff.mpr hnames
    exact ⟨ofDirectory_of_perm hnames' hperm.symm, ofDirectory_of_perm hnames hperm⟩

/-- A key file in upper case with a line feed behind it, a directory with the name of a key file and
a file that is none: the directory loads to one key in both orders. -/
theorem ofDirectory_exact_oneKey :
    let config : KeyStoreConfig := { keyLength := some 2, maxKeys := 1 }
    let a : DirEntry := ⟨[0x61, 0x2E, 0x6B, 0x65, 0x79], .file [0x30, 0x41, 0x46, 0x46, 0x0A]⟩
    let b : DirEntry := ⟨[0x62, 0x2E, 0x6B, 0x65, 0x79], .other⟩
    let readme : DirEntry := ⟨[0x52], .file [0xFF]⟩
    (ofDirectory config "keys" (.ok [a, b, readme])).1
        = .ok { config := config, keys := [("a", [0x0A, 0xFF])] } ∧
      (ofDirectory config "keys" (.ok [readme, b, a])).1
        = .ok { config := config, keys := [("a", [0x0A, 0xFF])] } := by
  intro config a b readme
  have hnames : ([a, b, readme].map DirEntry.name).Nodup := by decide
  have hload : (ofDirectory config "keys" (.ok [a, b, readme])).1
      = .ok { config := config, keys := [("a", [0x0A, 0xFF])] } := by cbv
  exact ⟨hload,
    ((ofDirectory_exact config "keys" hnames).2.2 [readme, b, a] (by decide) _).mpr hload⟩

end KeyStore

end SealedRecords
