import SealedRecords.Proofs.Command.Arguments
import SealedRecords.Proofs.Command.Steps
import SealedRecords.Proofs.Files.Growth
import SealedRecords.Proofs.Keys.Adding

/-!
# Making a key

A command that makes a key draws it, checks the name, makes the directory, opens the
file and writes to it. It can stop at each of these steps, and nothing is taken back
then: `Keygen.Ends` tells the four ways to end apart and what each of them leaves in
the tree.

> `exec_runKeygen_ends`: on every host that is a tree of files there are no others.

What the file holds in the end is a key in the form in which a key directory has it,
`holdsKey_keyFileContent`, under a name that a file can have whatever the key is
called, `isFileName_keyFileName`.
-/

namespace SealedRecords.Command

open SealedRecords

/-! ## What is written -/

theorem encode_keyFilePath {dir : String} (hne : dir ≠ "") (name : String) :
    Utf8.encode (keyFilePath dir name)
      = FileTree.entryPath (Utf8.encode dir) (KeyStore.keyFileName name) :=
  FileTree.encode_pathBelow hne _

theorem holdsKey_keyFileContent (key : Bytes) : KeyStore.HoldsKey (keyFileContent key) key :=
  ⟨_, rfl, Hex.written_line key⟩

theorem length_keyFileContent (key : Bytes) : (keyFileContent key).length = 2 * key.length + 1 := by
  unfold keyFileContent line
  rw [Utf8.encode_append, List.length_append, Hex.length_encode_bytes]
  rfl

/-- A key can be named so that its file can stand in a directory. -/
theorem isFileName_keyFileName {name : String} (h : KeyStore.IsKeyName name) :
    FileTree.IsFileName (KeyStore.keyFileName name) := by
  have hending : KeyStore.keyFileName name = Utf8.encode name ++ [0x2E, 0x6B, 0x65, 0x79] :=
    Utf8.encode_append name ".key"
  have hlength : 4 ≤ (KeyStore.keyFileName name).length := by
    rw [hending, List.length_append]
    exact Nat.le_add_left _ _
  have hshort : ∀ b : Bytes, b.length < 4 → KeyStore.keyFileName name ≠ b := by
    rintro b hb rfl
    omega
  refine ⟨?_, hshort _ (by decide), ?_⟩
  · rw [← Bool.not_eq_false, FileTree.not_leadsOn_iff, List.isEmpty_iff, not_or]
    exact ⟨hshort [] (by decide), hshort _ (by decide)⟩
  · unfold KeyStore.keyFileName
    rw [FileTree.separator_mem_encode_iff, String.toList_append, List.mem_append]
    rintro (hslash | hslash)
    · have hchar := h.2 _ hslash
      revert hchar
      decide
    · revert hslash
      decide

/-! ## How it ends -/

/-- How a command that makes a key can end, and the tree that it leaves then. -/
inductive Keygen.Ends (host : Host (StateM FileTree)) (keyDirectory : Option String)
    (name : String) (force : Bool) (key : Bytes) (t : FileTree) :
    Except Failure Bytes → FileTree → Prop
  /-- There is no key directory, or the name is refused. -/
  | refused (e : Failure) (unnamed : keyDirectory = none ∨ ¬ KeyStore.IsKeyName name) :
    Ends host keyDirectory name force key t (.error e) t
  /-- The directory could not be made, or the file not be opened. -/
  | stopped (e : Failure) (dir : String) (answer : Except OsError Unit) (made : FileTree)
    (directory : keyDirectory = some dir) (named : KeyStore.IsKeyName name)
    (making : host.makeDirectories (dir.length + 1) dir t = (answer, made)) :
    Ends host keyDirectory name force key t (.error e) made
  /-- The file was opened, and a beginning of the key was written. -/
  | interrupted (cause : OsError) (dir : String) (made t' : FileTree) (q : Place) (n : Nat)
    (directory : keyDirectory = some dir) (named : KeyStore.IsKeyName name)
    (making : host.makeDirectories (dir.length + 1) dir t = (.ok (), made))
    (file : FileTree.Filled made (Utf8.encode (keyFilePath dir name)) (!force) keyFileMode
      ((keyFileContent key).take n) q t') :
    Ends host keyDirectory name force key t (.error (.writeFailed (keyFilePath dir name) cause)) t'
  /-- The key was written. -/
  | written (output : Bytes) (dir : String) (made t' : FileTree) (q : Place)
    (directory : keyDirectory = some dir) (named : KeyStore.IsKeyName name)
    (making : host.makeDirectories (dir.length + 1) dir t = (.ok (), made))
    (file : FileTree.Filled made (Utf8.encode (keyFilePath dir name)) (!force) keyFileMode
      (keyFileContent key) q t') :
    Ends host keyDirectory name force key t (.ok output) t'

section

variable {host : Host (StateM FileTree)} {options : Options} {name dir : String} {force : Bool}
  {t made : FileTree} {start : Activity} {input : Bytes} {p : Place}

theorem exec_draw {σ : Type} (a : Activity) (w : σ) :
    (Work.account (Act.drawing (RandomTape.draw Gcm.keySize)) :
      Work (StateM σ) Bytes).exec a w = ((.ok (a.tape.window a.tape.drawn Gcm.keySize),
        { a with tape := { a.tape with drawn := a.tape.drawn + Gcm.keySize } }), w) := rfl

theorem insert_drawn (hname : KeyStore.IsKeyName name) (tape : RandomTape) (n : Nat) :
    KeyStore.insert {} name (tape.window n Gcm.keySize)
      = .ok { keys := [(name, tape.window n Gcm.keySize)] } :=
  KeyStore.insert_eq_ok_iff.mpr ⟨hname, RandomTape.length_window _ _ _, rfl⟩

/-- On any host whatsoever: once the directory is made and the file is open, what the write answers
decides. -/
theorem exec_keygen_of_opened {σ : Type} {host : Host (StateM σ)} {w made opened w' : σ}
    {file : host.Handle} {answer : Except OsError Unit} (start : Activity)
    (hdir : options.keyDirectory = some dir) (hname : KeyStore.IsKeyName name) (force : Bool)
    (hmake : host.makeDirectories (dir.length + 1) dir w = (.ok (), made))
    (hopen : host.openFile (keyFilePath dir name) (!force) keyFileMode made = (.ok file, opened))
    (hwrite : host.write file (keyFileContent (start.tape.window start.tape.drawn Gcm.keySize))
      opened = (answer, w')) :
    ∃ result account,
      (run host ⟨options, .keygen name force⟩).exec start w = ((result, account), w') ∧
      match answer with
      | .ok () => ∃ output, result = .ok output
      | .error cause => result = .error (.writeFailed (keyFilePath dir name) cause) := by
  unfold run runKeygen
  simp only [hdir]
  rw [Work.exec_bind_of_ok (exec_draw start w), insert_drawn hname]
  simp only
  rw [Work.exec_bind_of_ok (Work.exec_attempt_of_ok _ hmake _),
    Work.exec_bind_of_ok (Work.exec_attempt_of_ok _ hopen _)]
  cases answer with
  | error cause =>
    rw [Work.exec_bind_of_error (Work.exec_attempt_of_error _ hwrite _)]
    exact ⟨_, _, rfl, rfl⟩
  | ok done =>
    rw [Work.exec_bind_of_ok (Work.exec_attempt_of_ok _ hwrite _)]
    exact ⟨_, _, rfl, _, rfl⟩

/-- **What a command that makes a key can come to**, on every host that is a tree of files. -/
theorem exec_runKeygen_ends (hhost : host.OnTree) (options : Options) (name : String)
    (force : Bool) (a : Activity) (t : FileTree) :
    Keygen.Ends host options.keyDirectory name force (a.tape.window a.tape.drawn Gcm.keySize) t
      ((runKeygen host options name force).exec a t).1.1
      ((runKeygen host options name force).exec a t).2 := by
  unfold runKeygen
  cases hdir : options.keyDirectory with
  | none => exact .refused _ (Or.inl rfl)
  | some dir =>
    simp only
    -- the key is drawn before anything is checked, so the tape moves on even if the name is refused
    rw [Work.exec_bind_of_ok (exec_draw a t)]
    generalize hkey : a.tape.window a.tape.drawn Gcm.keySize = key
    cases hinsert : KeyStore.insert {} name key with
    | error e =>
      refine .refused _ (Or.inr fun hname => ?_)
      have hinserted := insert_drawn hname a.tape a.tape.drawn
      rw [hkey, hinsert] at hinserted
      cases hinserted
    | ok store =>
      have hname : KeyStore.IsKeyName name := (KeyStore.insert_eq_ok_iff.mp hinsert).1
      simp only
      rcases hmake : host.makeDirectories (dir.length + 1) dir t with ⟨⟨cause⟩ | ⟨⟨⟩⟩, made⟩
      · rw [Work.exec_bind_of_error (Work.exec_attempt_of_error _ hmake _)]
        exact .stopped _ dir _ made rfl hname hmake
      · rw [Work.exec_bind_of_ok (Work.exec_attempt_of_ok _ hmake _)]
        rcases hhost.openFile (keyFilePath dir name) (!force) keyFileMode made with
          ⟨cause, hopen⟩ | ⟨file, q, opened, htree, hopen, hwrites⟩
        · rw [Work.exec_bind_of_error (Work.exec_attempt_of_error _ hopen _)]
          exact .stopped _ dir _ made rfl hname hmake
        · -- from here on the file is there, whatever becomes of the write
          have hfilled := FileTree.openFile_eq_ok_iff.mp htree
          rw [Work.exec_bind_of_ok (Work.exec_attempt_of_ok _ hopen _)]
          rcases hwrites (keyFileContent key) opened with
            hwrite | ⟨cause, hwrite | ⟨n, hwrite⟩⟩
          · rw [Work.exec_bind_of_ok (Work.exec_attempt_of_ok _ hwrite _)]
            exact .written _ dir made _ q rfl hname hmake (hfilled.append _)
          · rw [Work.exec_bind_of_error (Work.exec_attempt_of_error _ hwrite _)]
            exact .interrupted cause dir made _ q 0 rfl hname hmake hfilled
          · rw [Work.exec_bind_of_error (Work.exec_attempt_of_error _ hwrite _)]
            exact .interrupted cause dir made _ q n rfl hname hmake (hfilled.append _)

/-- What a caller finds changed is what the command changed: printing changes nothing. -/
theorem outcome_snd (hhost : host.OnTree) (call : Invocation) (start : Activity) (t : FileTree) :
    (outcome host call start t).2 = ((run host call).exec start t).2 := by
  rw [outcome_eq]
  rcases (run host call).exec start t with ⟨⟨e | output, account⟩, t'⟩
  · rfl
  · exact hhost.print output t'

/-- A command that made a key has written it. -/
theorem written_of_keygen (hhost : host.OnTree)
    (hexit : (outcome host ⟨options, .keygen name force⟩ start t).1.exitCode = 0) :
    ∃ dir made q, options.keyDirectory = some dir ∧ KeyStore.IsKeyName name ∧
      host.makeDirectories (dir.length + 1) dir t = (.ok (), made) ∧
      FileTree.Filled made (Utf8.encode (keyFilePath dir name)) (!force) keyFileMode
        (keyFileContent (start.tape.window start.tape.drawn Gcm.keySize)) q
        (outcome host ⟨options, .keygen name force⟩ start t).2 := by
  have hends := exec_runKeygen_ends hhost options name force start t
  obtain ⟨output, account, t', hrun, -⟩ := exec_of_exitCode_eq_zero hexit
  rw [outcome_snd hhost, hrun]
  have hkeygen : (runKeygen host options name force).exec start t = ((.ok output, account), t') :=
    hrun
  rw [hkeygen] at hends
  cases hends with
  | written _ dir made _ q directory named making file =>
    exact ⟨dir, made, q, directory, named, making, file⟩

/-- Once there is a directory for it, a key is made on a tree, if nothing is in its place and its
file name and path are not too long. -/
theorem keygen_of_vacant (hdir : options.keyDirectory = some dir)
    (hmake : (FileTree.host input).makeDirectories (dir.length + 1) dir t = (.ok (), made))
    (hat : FileTree.DirectoryAt made (Utf8.encode dir) p) (hname : KeyStore.IsKeyName name)
    (hvacant : made.get? (p ++ [KeyStore.keyFileName name]) = none)
    (hpath : (FileTree.entryPath (Utf8.encode dir) (KeyStore.keyFileName name)).length
      < FileTree.pathLimit)
    (hshort : (KeyStore.keyFileName name).length ≤ FileTree.maxName) (force : Bool)
    (start : Activity) :
    Succeeds (outcome (FileTree.host input) ⟨options, .keygen name force⟩ start t)
      (fun _ => True) (made.put (p ++ [KeyStore.keyFileName name])
        (.file (keyFileContent (start.tape.window start.tape.drawn Gcm.keySize)) keyFileMode)) := by
  have hne : p ++ [KeyStore.keyFileName name] ≠ [] :=
    List.append_ne_nil_of_right_ne_nil _ (List.cons_ne_nil _ _)
  have hopen := FileTree.openFile_of_vacant hat (isFileName_keyFileName hname) hvacant hpath hshort
    (!force) keyFileMode
  rw [← encode_keyFilePath hat.path_ne_empty] at hopen
  obtain ⟨_, account, hrun, output, rfl⟩ := exec_keygen_of_opened start hdir hname force hmake
    (FileTree.host_openFile_of_ok hopen input) rfl
  rw [FileTree.append_put hne, List.nil_append] at hrun
  exact succeeds_of_exec hrun rfl trivial

end

end SealedRecords.Command
