import SealedRecords.Proofs.Command.MakingKeys

/-!
# New keys in key directories

Making a key writes one file, and loading a directory reads all of them. What was
loaded from the directory before is there once it is made, `loads_made`, and the
file of the key is one more in it, `loads_written_iff`.

What the loader checks and the command does not is how many keys there are, so a
directory can be full and take a new key all the same, `keygen_fills_keyTree`. And a
directory that is not there can be another one once it is made, if its path leads back
up behind something that is missing, `keygen_strayTree`. A third way out is none of
the tree's: on a system where two names can share a file, writing the key under one of
them changes it under the other, `keygen_sharedTree`.
-/

namespace SealedRecords.Command

open SealedRecords

variable {host : Host (StateM FileTree)} {t t' made : FileTree} {input : Bytes} {options : Options}
  {name dir : String} {force : Bool} {key : Bytes} {start : Activity} {s s' : KeyStore}
  {p q : Place}

/-! ## What is loaded afterwards -/

/-- In a key directory that loads there is no link in the way of a key file. -/
theorem not_symlink_of_loads {entries : List DirEntry} {p : Place}
    (hload : KeyStore.Loadable {} entries) (hentries : entries = t.entriesAt p (Utf8.encode dir))
    (hname : KeyStore.IsKeyName name) (target : Bytes) :
    t.get? (p ++ [KeyStore.keyFileName name]) ≠ some (.symlink target) := by
  intro hlink
  have hmem := FileTree.mem_nodes_of_get? hlink
    (List.append_ne_nil_of_right_ne_nil _ (List.cons_ne_nil _ _))
  have hentry : ⟨KeyStore.keyFileName name, FileTree.seenAs (Utf8.encode dir)
      (KeyStore.keyFileName name) (.symlink target)⟩ ∈ entries := by
    rw [hentries]
    exact FileTree.mem_entriesAt_iff.mpr ⟨_, hmem, rfl⟩
  have hkind := hload.kinds _ hentry name (KeyStore.names_keyFileName hname.1 _)
  unfold FileTree.seenAs at hkind
  split at hkind
  · rcases hkind with h | ⟨content, h⟩ <;> cases h
  · rcases hkind with h | ⟨content, h⟩ <;> cases h

/-- The file of a new key is written into a key directory that loads: it loads again exactly if the
key is replaced or there is room for it. -/
theorem loads_written_iff (hmade : made.WellFormed) (hdir : options.keyDirectory = some dir)
    (hne : dir ≠ "") (hload : options.Loads made s) (hname : KeyStore.IsKeyName name)
    (hlength : key.length = Gcm.keySize) {fresh : Bool} {mode : Nat}
    (hwrite : FileTree.Filled made (Utf8.encode (keyFilePath dir name)) fresh mode
      (keyFileContent key) q t') :
    options.Loads t' s' ↔
      (s.contains name = true ∨ s.size < 1024) ∧ s.insert name key = .ok s' := by
  unfold Options.Loads at hload ⊢
  simp only [hdir] at hload ⊢
  cases hlist : made.listDirectory (Utf8.encode dir) with
  | error e =>
    rw [hlist] at hload
    cases hload
  | ok entries =>
    rw [hlist] at hload
    obtain ⟨p, hat, hentries⟩ := FileTree.listDirectory_eq_ok_iff_directoryAt.mp hlist
    have hloadable := (KeyStore.ofDirectory_eq_ok_iff.mp hload).1
    have hnames : (entries.map DirEntry.name).Nodup := by
      rw [hentries]
      exact FileTree.names_entriesAt_nodup hmade.distinct _ _
    have hlink := not_symlink_of_loads hloadable hentries hname
    rw [encode_keyFilePath hne] at hwrite
    obtain ⟨hshort, hplain, mode, rfl⟩ :=
      hwrite.put_entry hat (isFileName_keyFileName hname) hlink
    have hlist' := FileTree.listDirectory_of_put hat hlink hplain hshort mode (keyFileContent key)
    rw [← hentries] at hlist'
    rw [hlist']
    have hsize : (keyFileContent key).length ≤ 4096 := by
      rw [length_keyFileContent, hlength]
      decide
    exact KeyStore.ofDirectory_withKeyFile_iff hnames hload hname hsize
      (holdsKey_keyFileContent key) hlength

theorem config_of_loads (h : options.Loads t s) : s.config = {} := by
  unfold Options.Loads at h
  split at h
  · rw [h]
  · cases hlist : t.listDirectory _ with
    | error e =>
      rw [hlist] at h
      cases h
    | ok entries =>
      rw [hlist] at h
      rw [(KeyStore.ofDirectory_eq_ok_iff.mp h).2]

/-- What a key directory holds before a key is made: the keys that it loads to, or none if it is
not there yet. In the second case the ups of its path must resolve, as otherwise the path could get
to a directory that is there. -/
def Options.Holds (options : Options) (t : FileTree) (s : KeyStore) : Prop :=
  options.Loads t s ∨ s = {} ∧ ∃ dir, options.keyDirectory = some dir ∧
    t.isDirectory (Utf8.encode dir) = false ∧ FileTree.UpsResolve t (Utf8.encode dir)

/-- Once the directory is made, it loads to what it held. -/
theorem loads_made (hhost : host.OnTree) (ht : t.WellFormed)
    (hdir : options.keyDirectory = some dir) (hne : dir ≠ "") (hholds : options.Holds t s)
    (hmade : host.makeDirectories (dir.length + 1) dir t = (.ok (), made)) :
    options.Loads made s := by
  rcases hholds with hload | ⟨rfl, dir', hdir', hnone, hup⟩
  · have hkeys := hload
    unfold Options.Loads at hkeys
    simp only [hdir] at hkeys
    cases hlist : t.listDirectory (Utf8.encode dir) with
    | error e =>
      rw [hlist] at hkeys
      cases hkeys
    | ok entries =>
      obtain ⟨p, hat, -⟩ := FileTree.listDirectory_eq_ok_iff_directoryAt.mp hlist
      -- what loads is there, and what is there is not made again
      have hsame := FileTree.makeDirectories_of_reaches hhost ht hat.reaches (dir.length + 1)
      rw [hmade] at hsame
      obtain rfl : made = t := hsame
      exact hload
  · obtain rfl : dir = dir' := Option.some.inj (hdir.symm.trans hdir')
    have hlist := FileTree.listDirectory_of_makeDirectories hhost ht hne hup hnone hmade
    unfold Options.Loads
    simp only [hdir, hlist]
    rfl

/-- What a key directory loads to after a command that made a key. -/
theorem loads_keygen_iff (hhost : host.OnTree) (hne : options.keyDirectory ≠ some "")
    (ht : t.WellFormed) (hholds : options.Holds t s)
    (hexit : (outcome host ⟨options, .keygen name force⟩ start t).1.exitCode = 0) :
    options.Loads (outcome host ⟨options, .keygen name force⟩ start t).2 s' ↔
      (s.contains name = true ∨ s.size < 1024) ∧
        s.insert name (start.tape.window start.tape.drawn Gcm.keySize) = .ok s' := by
  obtain ⟨dir, made, q, hdir, hname, hmade, hfilled⟩ := written_of_keygen hhost hexit
  have hdirne : dir ≠ "" := by
    rintro rfl
    exact hne hdir
  have hloads := loads_made hhost ht hdir hdirne hholds hmade
  exact loads_written_iff (ht.makeDirectories hhost hmade) hdir hdirne hloads hname
    (RandomTape.length_window _ _ _) hfilled

theorem config_of_holds (h : options.Holds t s) : s.config = {} := by
  rcases h with hload | ⟨rfl, -⟩
  · exact config_of_loads hload
  · rfl

/-! ## A full directory -/

/-- A tree with a directory that holds one key under many names. -/
def keyTree (names : List String) (key : Bytes) : FileTree where
  nodes := ([Utf8.encode "keys"], .directory) :: names.map fun name =>
    ([Utf8.encode "keys", KeyStore.keyFileName name], .file (keyFileContent key) keyFileMode)

section

variable {names : List String}

theorem directoryAt_keyTree (names : List String) (key : Bytes) :
    FileTree.DirectoryAt (keyTree names key) (Utf8.encode "keys") [Utf8.encode "keys"] := by
  have hnode : (keyTree names key).get? [Utf8.encode "keys"] = some .directory := by
    rw [FileTree.get?_of_ne_nil (List.cons_ne_nil _ _)]
    unfold keyTree
    rw [List.find?_cons_of_pos (by simp), Option.map_some]
  have hsteps :
      FileTree.steps (FileTree.components (Utf8.encode "keys")) = [Utf8.encode "keys"] := by
    decide
  have hentry : FileTree.IsEntry (Utf8.encode "keys") := ⟨by decide, by decide, by decide⟩
  refine ⟨by decide, by decide, ⟨FileTree.maxLinks, ?_⟩, hnode⟩
  rw [hsteps]
  exact .down hentry hnode .here

theorem wellFormed_keyTree (hnames : names.Nodup) (key : Bytes) :
    (keyTree names key).WellFormed := by
  refine ⟨?_, ?_, rfl⟩
  · unfold keyTree
    rw [List.map_cons, List.map_map, List.nodup_cons]
    constructor
    · rw [List.mem_map]
      rintro ⟨name, -, h⟩
      cases h
    · refine List.pairwise_map.mpr (hnames.imp fun hne h => hne ?_)
      obtain ⟨-, h⟩ := List.cons.inj h
      exact KeyStore.keyFileName_injective (List.cons.inj h).1
  · intro e he
    rcases List.mem_cons.mp he with rfl | he
    · rfl
    · obtain ⟨name, -, rfl⟩ := List.mem_map.mp he
      exact (directoryAt_keyTree names key).directory

theorem vacant_keyTree (hname : name ∉ names) (key : Bytes) :
    (keyTree names key).get? [Utf8.encode "keys", KeyStore.keyFileName name] = none := by
  rw [Option.eq_none_iff_forall_ne_some]
  intro node hnode
  rcases List.mem_cons.mp (FileTree.mem_nodes_of_get? hnode (List.cons_ne_nil _ _)) with h | h
  · cases h
  · obtain ⟨name', hmem, h⟩ := List.mem_map.mp h
    have hplace := (List.cons.inj (Prod.mk.inj h).1).2
    exact hname (KeyStore.keyFileName_injective (List.cons.inj hplace).1 ▸ hmem)

theorem entriesAt_keyTree (key : Bytes) (hshort : ∀ name ∈ names,
      (FileTree.entryPath (Utf8.encode "keys") (KeyStore.keyFileName name)).length
        < FileTree.pathLimit) :
    (keyTree names key).entriesAt [Utf8.encode "keys"] (Utf8.encode "keys")
      = names.map fun name => ⟨KeyStore.keyFileName name, .file (keyFileContent key)⟩ := by
  have hroot : FileTree.entryOf [Utf8.encode "keys"] (Utf8.encode "keys")
      ([Utf8.encode "keys"], .directory) = none := by
    rw [Option.eq_none_iff_forall_not_mem]
    intro e he
    have hplace := (FileTree.entryOf_eq_some_iff.mp he).1
    cases hplace
  rw [FileTree.entriesAt_eq]
  unfold keyTree
  rw [List.filterMap_cons_none hroot]
  induction names with
  | nil => rfl
  | cons name names ih =>
    rw [List.forall_mem_cons] at hshort
    have hentry : FileTree.entryOf [Utf8.encode "keys"] (Utf8.encode "keys")
        ([Utf8.encode "keys", KeyStore.keyFileName name], .file (keyFileContent key) keyFileMode)
        = some ⟨KeyStore.keyFileName name, .file (keyFileContent key)⟩ := by
      refine FileTree.entryOf_eq_some_iff.mpr ⟨rfl, ?_⟩
      unfold FileTree.seenAs
      rw [if_neg (Nat.not_le.mpr hshort.1)]
      rfl
    rw [List.map_cons, List.filterMap_cons_some hentry, List.map_cons, ih hshort.2]

theorem keyFiles_map (hnames : ∀ name ∈ names, KeyStore.IsKeyName name) (content : Bytes) :
    KeyStore.keyFiles (names.map fun name => ⟨KeyStore.keyFileName name, .file content⟩)
      = names.map fun name => (name, content) := by
  induction names with
  | nil => rfl
  | cons name names ih =>
    rw [List.forall_mem_cons] at hnames
    rw [List.map_cons, List.map_cons, ← ih hnames.2]
    exact KeyStore.keyFiles_file (KeyStore.names_keyFileName hnames.1.1 _) rfl

theorem loadable_map (hlength : key.length = Gcm.keySize)
    (hnames : ∀ name ∈ names, KeyStore.IsKeyName name) (hfew : names.length ≤ 1024) :
    KeyStore.Loadable {} (names.map fun name =>
      ⟨KeyStore.keyFileName name, .file (keyFileContent key)⟩) := by
  have hfiles := keyFiles_map hnames (keyFileContent key)
  refine ⟨?_, ?_, ?_⟩
  · intro e he stem hstem
    obtain ⟨name, -, rfl⟩ := List.mem_map.mp he
    exact Or.inr ⟨_, rfl⟩
  · rw [hfiles, List.length_map]
    exact hfew
  · intro f hf
    rw [hfiles] at hf
    obtain ⟨name, hname, rfl⟩ := List.mem_map.mp hf
    refine ⟨?_, hnames name hname, key, holdsKey_keyFileContent key, hlength⟩
    rw [length_keyFileContent, hlength]
    decide

theorem loads_keyTree (hdir : options.keyDirectory = some "keys")
    (hlength : key.length = Gcm.keySize) (hdistinct : names.Nodup)
    (hnames : ∀ name ∈ names, KeyStore.IsKeyName name)
    (hfew : names.length ≤ 1024) (hshort : ∀ name ∈ names,
      (FileTree.entryPath (Utf8.encode "keys") (KeyStore.keyFileName name)).length
        < FileTree.pathLimit) :
    ∃ s, options.Loads (keyTree names key) s ∧ s.size = names.length ∧
      (∀ name, s.contains name = true ↔ name ∈ names) ∧
      ∀ name ∈ names, s.get? name = some key := by
  have hlist := FileTree.listDirectory_eq_ok_iff_directoryAt.mpr
    ⟨_, directoryAt_keyTree names key, rfl⟩
  rw [entriesAt_keyTree key hshort] at hlist
  have hfiles := keyFiles_map hnames (keyFileContent key)
  have hdistinct := FileTree.names_entriesAt_nodup (wellFormed_keyTree hdistinct key).distinct
    [Utf8.encode "keys"] (Utf8.encode "keys")
  rw [entriesAt_keyTree key hshort] at hdistinct
  obtain ⟨s, hok⟩ : ∃ s, (KeyStore.ofDirectory {} "keys" (.ok (names.map fun name =>
      ⟨KeyStore.keyFileName name, .file (keyFileContent key)⟩))).1 = .ok s :=
    ⟨_, KeyStore.ofDirectory_eq_ok_iff.mpr ⟨loadable_map hlength hnames hfew, rfl⟩⟩
  refine ⟨s, ?_, ?_, fun name => ?_, fun name hname => ?_⟩
  · unfold Options.Loads
    simp only [hdir, hlist]
    exact hok
  · rw [KeyStore.size_of_ofDirectory hdistinct hok, hfiles, List.length_map]
  · rw [KeyStore.contains_of_ofDirectory hdistinct hok, hfiles, List.map_map]
    simp
  · exact (KeyStore.get?_of_ofDirectory hdistinct hok).mpr ⟨_, List.mem_map_of_mem hname,
      KeyStore.names_keyFileName (hnames name hname).1 _, _, rfl, holdsKey_keyFileContent key⟩

/-- As many names as a key directory may hold keys: the first numbers in hexadecimal. -/
def manyNames : List String := (List.range 1024).map fun i => Hex.encode (Bytes.toWord i)

theorem nodup_manyNames : manyNames.Nodup := by
  refine List.pairwise_map.mpr (List.pairwise_lt_range.imp_of_mem ?_)
  intro i j hi hj hlt h
  have hword := Hex.encode_injective h
  have hi := Bytes.ofWord_toWord (Nat.lt_trans (List.mem_range.mp hi) (by decide))
  have hj := Bytes.ofWord_toWord (Nat.lt_trans (List.mem_range.mp hj) (by decide))
  rw [hword, hj] at hi
  omega

theorem isKeyName_of_mem_manyNames (h : name ∈ manyNames) : KeyStore.IsKeyName name := by
  obtain ⟨i, -, rfl⟩ := List.mem_map.mp h
  exact KeyStore.isKeyName_encode (List.cons_ne_nil _ _)

theorem length_keyFileName_of_mem_manyNames (h : name ∈ manyNames) :
    (KeyStore.keyFileName name).length = 12 := by
  obtain ⟨i, -, rfl⟩ := List.mem_map.mp h
  unfold KeyStore.keyFileName
  rw [Utf8.encode_append, List.length_append, Hex.length_encode_bytes]
  rfl

theorem length_entryPath_keys (file : Bytes) :
    (FileTree.entryPath (Utf8.encode "keys") file).length = file.length + 5 := by
  have hplain : ¬ ((Utf8.encode "keys").getLast? == some FileTree.separator) = true := by decide
  have hkeys : (Utf8.encode "keys").length = 4 := by decide
  unfold FileTree.entryPath
  rw [if_neg hplain, List.length_append, List.length_append, hkeys, List.length_singleton]
  omega

/-- In a full directory a key under a new name is made, and with it there are too many. -/
theorem keygen_fills_keyTree (hdir : options.keyDirectory = some "keys")
    (hlength : key.length = Gcm.keySize) (hdistinct : names.Nodup)
    (hnames : ∀ name ∈ names, KeyStore.IsKeyName name) (hfull : names.length = 1024)
    (hsmall : ∀ name ∈ names, (KeyStore.keyFileName name).length ≤ FileTree.maxName)
    (hnew : name ∉ names) (hname : KeyStore.IsKeyName name)
    (hshort : (KeyStore.keyFileName name).length ≤ FileTree.maxName) (force : Bool)
    (start : Activity) (input : Bytes) :
    (∃ s, options.Loads (keyTree names key) s) ∧
    (outcome (FileTree.host input) ⟨options, .keygen name force⟩ start
      (keyTree names key)).1.exitCode = 0 ∧
    ∀ s, ¬ options.Loads (outcome (FileTree.host input) ⟨options, .keygen name force⟩ start
      (keyTree names key)).2 s := by
  have hpath : ∀ file : Bytes, file.length ≤ FileTree.maxName →
      (FileTree.entryPath (Utf8.encode "keys") file).length < FileTree.pathLimit := by
    intro file hfile
    rw [length_entryPath_keys]
    exact Nat.lt_of_le_of_lt (Nat.add_le_add_right hfile 5) (by decide)
  obtain ⟨s, hload, hsize, hcontains, -⟩ := loads_keyTree hdir hlength hdistinct hnames
    (Nat.le_of_eq hfull) (fun n hn => hpath _ (hsmall n hn))
  have hat := directoryAt_keyTree names key
  have hmake := FileTree.makeDirectories_of_directoryAt hat ("keys".length + 1) input
  have hsuccess := (keygen_of_vacant hdir hmake hat hname (vacant_keyTree hnew key)
    (hpath _ hshort) hshort force start).exitCode
  refine ⟨⟨s, hload⟩, hsuccess, fun s' h => ?_⟩
  have hne : options.keyDirectory ≠ some "" := by
    rw [hdir]
    decide
  have hroom := ((loads_keygen_iff (FileTree.onTree_host input) hne
    (wellFormed_keyTree hdistinct key) (Or.inl hload) hsuccess).mp h).1
  rcases hroom with hold | hroom
  · exact hnew ((hcontains name).mp hold)
  · omega

end

/-! ## A path that leads back up -/

/-- A tree with nothing but an empty key file in the working directory. -/
def strayTree : FileTree where
  nodes := [([KeyStore.keyFileName "k"], .file [] keyFileMode)]

/-- The same with a directory. -/
def strayTreeMade : FileTree := strayTree.put [Utf8.encode "missing"] .directory

theorem directoryAt_strayTreeMade :
    FileTree.DirectoryAt strayTreeMade (Utf8.encode "missing/..") [] :=
  FileTree.directoryAt_iff.mpr ⟨by cbv, rfl⟩

theorem makeDirectories_strayTree :
    (FileTree.host []).makeDirectories 11 "missing/.." strayTree = (.ok (), strayTreeMade) := by
  have hnone : strayTree.makeDirectory (Utf8.encode "missing/..") = .error .notFound := by cbv
  have hmissing : strayTree.makeDirectory (Utf8.encode "missing") = .ok strayTreeMade := by cbv
  have habove : Host.parent? "missing/.." = some "missing" := by decide
  have hon := FileTree.makeDirectories_of_ok (by decide) hmissing 9 []
  exact FileTree.makeDirectories_of_above hnone habove hon directoryAt_strayTreeMade

/-- Where `missing/..` is not there, a key is made in the working directory, and the path leads to
the stray file next to it. -/
theorem keygen_strayTree (hdir : options.keyDirectory = some "missing/..") :
    (outcome (FileTree.host []) ⟨options, .keygen "new" false⟩ { tape := .counting 0 }
      strayTree).1.exitCode = 0 ∧
    ∀ s, ¬ options.Loads (outcome (FileTree.host []) ⟨options, .keygen "new" false⟩
      { tape := .counting 0 } strayTree).2 s := by
  have hname : KeyStore.IsKeyName "new" := KeyStore.isName_iff.mp (by decide)
  have hmade := keygen_of_vacant hdir makeDirectories_strayTree directoryAt_strayTreeMade hname
    (by cbv) (by decide) (by decide) false { tape := .counting 0 }
  refine ⟨hmade.exitCode, fun s hload => ?_⟩
  rw [hmade.system] at hload
  -- the empty file was in nobody's way as long as the path led nowhere
  unfold Options.Loads at hload
  simp only [hdir] at hload
  have hbad : (KeyStore.ofDirectory {} "missing/.." ((strayTreeMade.put
      ([] ++ [KeyStore.keyFileName "new"]) (.file (keyFileContent ((RandomTape.counting 0).window
        (RandomTape.counting 0).drawn Gcm.keySize)) keyFileMode)).listDirectory
          (Utf8.encode "missing/.."))).1 = .error (.invalidKeyLength "k" 32 0) := by
    cbv
  rw [hbad] at hload
  cases hload

/-! ## Two names of one file -/

/-- What was done to the file at the place `r` is done to both of `p` and `q` if it is one of
them. -/
def share (p q r : Place) (t : FileTree) : FileTree :=
  match t.get? r with
  | some node => if r = p then t.put q node else if r = q then t.put p node else t
  | none => t

/-- A tree as a host on which two places are two names of one file. -/
def sharingHost (p q : Place) : Host (StateM FileTree) :=
  { FileTree.host [] with
    openFile := fun path fresh mode t =>
      match t.openFile (Utf8.encode path) fresh mode with
      | .ok (r, t) => (.ok r, share p q r t)
      | .error e => (.error e, t)
    write := fun r content t => (.ok (), share p q r (t.append r content)) }

/-- The place of the file of a key in the directory `keys`. -/
def keyPlace (name : String) : Place := [Utf8.encode "keys", KeyStore.keyFileName name]

/-- A new key for `a` is one for `b`, too, if their files are one. -/
theorem keygen_sharedTree (hdir : options.keyDirectory = some "keys") (key : Bytes)
    (start : Activity) :
    Succeeds (outcome (sharingHost (keyPlace "a") (keyPlace "b")) ⟨options, .keygen "a" true⟩ start
      (keyTree ["a", "b"] key)) (fun _ => True)
      (keyTree ["a", "b"] (start.tape.window start.tape.drawn Gcm.keySize)) := by
  have hname : KeyStore.IsKeyName "a" := KeyStore.isName_iff.mp (by decide)
  have hmake := FileTree.makeDirectories_of_directoryAt (directoryAt_keyTree ["a", "b"] key)
    ("keys".length + 1) []
  rw [← Host.makeDirectories_congr (FileTree.host []) (sharingHost (keyPlace "a") (keyPlace "b"))
    rfl rfl] at hmake
  -- the two files are emptied together and written together
  have hopen : (sharingHost (keyPlace "a") (keyPlace "b")).openFile (keyFilePath "keys" "a") false
      keyFileMode (keyTree ["a", "b"] key) = (.ok (keyPlace "a"),
        ((keyTree [] []).put (keyPlace "a") (.file [] keyFileMode)).put (keyPlace "b")
          (.file [] keyFileMode)) := by
    unfold keyTree
    generalize keyFileContent key = content
    cbv
  have hwrite : ∀ new, (sharingHost (keyPlace "a") (keyPlace "b")).write (keyPlace "a")
      (keyFileContent new) (((keyTree [] []).put (keyPlace "a") (.file [] keyFileMode)).put
        (keyPlace "b") (.file [] keyFileMode)) = (.ok (), keyTree ["a", "b"] new) := by
    intro new
    unfold keyTree
    generalize keyFileContent new = content
    cbv
  obtain ⟨_, account, hrun, output, rfl⟩ :=
    exec_keygen_of_opened start hdir hname true hmake hopen (hwrite _)
  exact succeeds_of_exec hrun rfl trivial

/-! ## Keeping and losing a directory -/

/-- **A new key leaves its directory in order, as long as there is room.** Take any command line
for making a key, any host that is a tree of files, whatever it refuses, and a tree in which the key
directory loads, or is not there yet and the ups of its path resolve. If the command ends with exit
code 0, the directory loads afterwards exactly if the name was one of its keys or there were fewer
than 1024 of them. What it loads to then has the 32 bytes that were drawn under the name, and
everything else as before. -/
theorem keygen_keeps_directory {words : List String} {environment : String → Option String}
    (hread : readCommandLine words environment = .ok ⟨options, .keygen name force⟩)
    (hhost : host.OnTree) (ht : t.WellFormed) (hholds : options.Holds t s) (start : Activity)
    (hexit : (outcome host ⟨options, .keygen name force⟩ start t).1.exitCode = 0) :
    let t' := (outcome host ⟨options, .keygen name force⟩ start t).2
    let key := start.tape.window start.tape.drawn 32
    key.length = 32 ∧
    ((∃ s', options.Loads t' s') ↔ s.contains name = true ∨ s.size < 1024) ∧
    ∀ s', options.Loads t' s' →
      ∀ n, s'.get? n = if name = n then some key else s.get? n := by
  intro t' key
  have hlength : key.length = 32 := RandomTape.length_window _ _ _
  obtain ⟨-, -, -, -, hname, -, -⟩ := written_of_keygen hhost hexit
  -- all that is promised is read off what the directory loads to
  have hiff : ∀ {s'}, options.Loads t' s' ↔
      (s.contains name = true ∨ s.size < 1024) ∧ s.insert name key = .ok s' :=
    loads_keygen_iff hhost (keyDirectory_ne_empty hread) ht hholds hexit
  refine ⟨hlength, ⟨?_, ?_⟩, ?_⟩
  · rintro ⟨s', h⟩
    exact (hiff.mp h).1
  · intro hroom
    have haccepts : s.config.Accepts key := by
      rw [config_of_holds hholds]
      exact hlength
    exact ⟨_, hiff.mpr ⟨hroom, KeyStore.insert_eq_ok_iff.mpr ⟨hname, haccepts, rfl⟩⟩⟩
  · intro s' h
    exact KeyStore.get?_of_insert (hiff.mp h).2

/-- The first key of a directory that is missing, and the second of one that is there. -/
theorem keygen_keeps_directory_twoKeys :
    let options : Options := { keyDirectory := some "keys" }
    let tape : RandomTape := .counting 0
    let first := outcome (FileTree.host []) ⟨options, .keygen "a" false⟩ { tape } {}
    let second := outcome (FileTree.host []) ⟨options, .keygen "b" false⟩ { tape }
      (keyTree ["a"] (List.replicate 32 0xAA))
    (first.1.exitCode = 0 ∧ ∃ s, options.Loads first.2 s ∧
      s.get? "a" = some (tape.window 0 32) ∧ s.get? "b" = none) ∧
    second.1.exitCode = 0 ∧ ∃ s, options.Loads second.2 s ∧
      s.get? "a" = some (List.replicate 32 0xAA) ∧ s.get? "b" = some (tape.window 0 32) := by
  intro options tape first second
  have hread : ∀ name, name = "a" ∨ name = "b" →
      readCommandLine ["--key-dir", "keys", "keygen", name] (fun _ => none)
        = .ok ⟨options, .keygen name false⟩ := by
    rintro name (rfl | rfl)
    · cbv
    · cbv
  have ha : KeyStore.IsKeyName "a" := KeyStore.isName_iff.mp (by decide)
  have hb : KeyStore.IsKeyName "b" := KeyStore.isName_iff.mp (by decide)
  constructor
  · have hhost : (FileTree.host []).makeDirectories 5 "keys" {}
        = (.ok (), keyTree [] []) := by
      cbv
    have hexit : first.1.exitCode = 0 :=
      (keygen_of_vacant rfl hhost (directoryAt_keyTree [] []) ha
        (vacant_keyTree List.not_mem_nil []) (by decide) (by decide) false _).exitCode
    have hholds : options.Holds {} {} := by
      refine Or.inr ⟨rfl, "keys", rfl, by cbv, ?_⟩
      exact FileTree.upsResolve_of_not_mem _ (by decide)
    have hempty : FileTree.WellFormed {} :=
      ⟨List.nodup_nil, fun _ h => absurd h List.not_mem_nil, rfl⟩
    obtain ⟨-, hroom, hkeys⟩ := keygen_keeps_directory (hread "a" (Or.inl rfl))
      (FileTree.onTree_host []) hempty hholds _ hexit
    obtain ⟨s', hs'⟩ := hroom.mpr (Or.inr (by decide))
    refine ⟨hexit, s', hs', ?_, ?_⟩
    · rw [hkeys s' hs', if_pos rfl]
      rfl
    · rw [hkeys s' hs', if_neg (by decide)]
      rfl
  · have hdir : options.keyDirectory = some "keys" := rfl
    have hlength : (List.replicate 32 (0xAA : UInt8)).length = Gcm.keySize := List.length_replicate
    have hdistinct : ["a"].Nodup := by decide
    obtain ⟨s, hload, hsize, -, hkey⟩ := loads_keyTree hdir hlength hdistinct
      (List.forall_mem_singleton.mpr ha) (by decide) (List.forall_mem_singleton.mpr (by decide))
    have hat := directoryAt_keyTree ["a"] (List.replicate 32 0xAA)
    have hhost := FileTree.makeDirectories_of_directoryAt hat ("keys".length + 1) []
    have hexit : second.1.exitCode = 0 :=
      (keygen_of_vacant rfl hhost hat hb (vacant_keyTree (by decide) _) (by decide) (by decide)
        false _).exitCode
    obtain ⟨-, hroom, hkeys⟩ := keygen_keeps_directory (hread "b" (Or.inr rfl))
      (FileTree.onTree_host []) (wellFormed_keyTree (by decide) _) (Or.inl hload) _ hexit
    have hfew : s.size < 1024 := by
      rw [hsize]
      decide
    obtain ⟨s', hs'⟩ := hroom.mpr (Or.inr hfew)
    refine ⟨hexit, s', hs', ?_, ?_⟩
    · rw [hkeys s' hs', if_neg (by decide), hkey "a" (List.mem_singleton_self _)]
    · rw [hkeys s' hs', if_pos rfl]
      rfl

/-- **Three ways to break a key directory.** The directory `keys` loads and holds as many keys as it
may; making another is a success, and the directory does not load any more. The directory
`missing/..` is not there; making a key there is a success, too, but now the path leads to the
working directory, which has a key file that is empty, and does not load. And where the files of `a`
and `b` are one file, a new key for `a` is a success, and another key is loaded for `b`. -/
theorem keygen_loses_directory :
    (let t := keyTree manyNames (List.replicate 32 0)
     let options : Options := { keyDirectory := some "keys" }
     let result := outcome (FileTree.host []) ⟨options, .keygen "new" false⟩
       { tape := .counting 0 } t
     (∃ s, options.Loads t s) ∧ result.1.exitCode = 0 ∧ ∀ s, ¬ options.Loads result.2 s) ∧
    (let options : Options := { keyDirectory := some "missing/.." }
     let result := outcome (FileTree.host []) ⟨options, .keygen "new" false⟩
       { tape := .counting 0 } strayTree
     strayTree.listDirectory (Utf8.encode "missing/..") = .error .notFound ∧
       result.1.exitCode = 0 ∧ ∀ s, ¬ options.Loads result.2 s) ∧
    (let t := keyTree ["a", "b"] (List.replicate 32 0xAA)
     let options : Options := { keyDirectory := some "keys" }
     let result := outcome (sharingHost (keyPlace "a") (keyPlace "b")) ⟨options, .keygen "a" true⟩
       { tape := .counting 0 } t
     result.1.exitCode = 0 ∧ ∃ s s', options.Loads t s ∧ options.Loads result.2 s' ∧
       s'.get? "b" ≠ s.get? "b") := by
  refine ⟨?_, ?_, ?_⟩
  · have hcount : manyNames.length = 1024 := by
      unfold manyNames
      rw [List.length_map, List.length_range]
    have hsmall : ∀ name ∈ manyNames, (KeyStore.keyFileName name).length ≤ FileTree.maxName := by
      intro name hname
      rw [length_keyFileName_of_mem_manyNames hname]
      decide
    have hnew : "new" ∉ manyNames := by
      intro hmem
      have h := length_keyFileName_of_mem_manyNames hmem
      revert h
      decide
    have hname : KeyStore.IsKeyName "new" := KeyStore.isName_iff.mp (by decide)
    exact keygen_fills_keyTree rfl List.length_replicate nodup_manyNames
      (fun _ => isKeyName_of_mem_manyNames) hcount hsmall hnew hname (by decide) false _ []
  · exact ⟨by cbv, keygen_strayTree rfl⟩
  · intro t options result
    have hdir : options.keyDirectory = some "keys" := rfl
    have hmade := keygen_sharedTree hdir (List.replicate 32 0xAA) { tape := .counting 0 }
    have hnames : ∀ name ∈ ["a", "b"], KeyStore.IsKeyName name :=
      fun name hname => KeyStore.isName_iff.mp (by revert name; decide)
    have hshort : ∀ name ∈ ["a", "b"],
        (FileTree.entryPath (Utf8.encode "keys") (KeyStore.keyFileName name)).length
          < FileTree.pathLimit := by
      decide
    have hloads : ∀ key : Bytes, key.length = Gcm.keySize →
        ∃ s, options.Loads (keyTree ["a", "b"] key) s ∧ s.get? "b" = some key := by
      intro key hlength
      obtain ⟨s, hload, -, -, hkeys⟩ :=
        loads_keyTree hdir hlength (by decide) hnames (by decide) hshort
      exact ⟨s, hload, hkeys "b" (by decide)⟩
    obtain ⟨s, hload, hold⟩ := hloads (List.replicate 32 0xAA) List.length_replicate
    obtain ⟨s', hload', hnew⟩ :=
      hloads ((RandomTape.counting 0).window 0 32) (RandomTape.length_window _ _ _)
    refine ⟨hmade.exitCode, s, s', hload, ?_, ?_⟩
    · have hsystem : result.2 = _ := hmade.system
      rw [hsystem]
      exact hload'
    · rw [hold, hnew]
      decide

end SealedRecords.Command
