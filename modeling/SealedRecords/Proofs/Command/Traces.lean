import SealedRecords.Proofs.Command.Keygen

/-!
# The traces of a command

Four of the five commands only read, `reads_run`, so they leave no trace on any host
that is a tree of files. A command that makes a key has four ways to end,
`Keygen.Ends`: it stops at the name and leaves the tree as it is, it stops later and
has made directories at most, its file is open and the write fails, or its file is
written. In none of them it changes more than it has to, `Keygen.Ends.changes`.

> `failures_leave_no_trace`: a command that fails prints nothing and leaves every
> file as it is and where it is, but for the key that it was about to write.

The exceptions are there, `failures_leave_traces`. A disk without room costs an old
key its content, a standard output that is closed comes after the key is made, and a
symbolic link takes the key out of its directory.
-/

namespace SealedRecords.Command

open SealedRecords

/-! ## Computations that only read -/

namespace Work

section

variable {σ : Type} {x : Work (StateM σ) α} {f : α → Work (StateM σ) β}

/-- A computation leaves the system as it is, whatever it ends with. -/
def Reads (x : Work (StateM σ) α) : Prop := ∀ a w, (x.exec a w).2 = w

theorem reads_pure (r : α) : (pure r : Work (StateM σ) α).Reads := fun _ _ => rfl

theorem reads_throw (e : Failure) : (throw e : Work (StateM σ) α).Reads := fun _ _ => rfl

theorem reads_account (y : Act α) : (account y : Work (StateM σ) α).Reads := fun _ _ => rfl

theorem Reads.bind (hx : x.Reads) (hf : ∀ r, (f r).Reads) : (x >>= f).Reads := by
  intro a w
  have hsame := hx a w
  rw [exec_bind]
  generalize x.exec a w = ended at hsame ⊢
  obtain ⟨⟨e | r, a'⟩, w'⟩ := ended
  · exact hsame
  · obtain rfl : w' = w := hsame
    exact hf r a' w'

theorem reads_ask {y : StateM σ α} (hy : ∀ w, (y w).2 = w) : (ask y).Reads := fun _ w => hy w

theorem reads_attempt {y : StateM σ (Except OsError α)} (hy : ∀ w, (y w).2 = w)
    (failure : OsError → Failure) : (attempt y failure).Reads := by
  refine (reads_ask hy).bind fun answer => ?_
  cases answer with
  | error e => exact reads_throw _
  | ok r => exact reads_pure r

end

end Work

open Work

section

variable {host : Host (StateM FileTree)} (hhost : host.OnTree)

include hhost

theorem reads_readBytes (path : Option String) : (readBytes host path).Reads := by
  cases path with
  | none => exact reads_attempt hhost.readInput _
  | some path => exact reads_attempt (hhost.fileContent path) _

theorem reads_readPayload (source : Source) : (readPayload host source).Reads := by
  cases source with
  | given text => exact reads_pure _
  | file path => exact reads_readBytes hhost _
  | input => exact reads_readBytes hhost _

theorem reads_readEnvelope (source : Source) : (readEnvelope host source).Reads := by
  cases source with
  | given text =>
    unfold readEnvelope
    cases hdecode : Hex.decodeTrimmed text with
    | ok b =>
      simp only [hdecode]
      exact reads_pure _
    | error e =>
      simp only [hdecode]
      exact reads_throw _
  | file path => exact reads_readBytes hhost _
  | input => exact reads_readBytes hhost _

theorem reads_loadKeys (options : Options) : (loadKeys host options).Reads := by
  unfold loadKeys
  cases options.keyDirectory with
  | none =>
    simp only
    exact (reads_account _).bind fun _ => reads_pure _
  | some dir =>
    simp only
    refine (reads_ask (hhost.listDirectory dir)).bind fun listing => ?_
    generalize KeyStore.ofDirectory {} dir listing = loaded
    obtain ⟨result, events⟩ := loaded
    refine (reads_account _).bind fun _ => ?_
    cases result with
    | error e => exact reads_throw _
    | ok store => exact (reads_account _).bind fun _ => reads_pure _

theorem reads_runSeal (options : Options) (keyName : Option String) (source : Source) :
    (runSeal host options keyName source).Reads := by
  refine (reads_readPayload hhost source).bind fun payload => ?_
  cases keyName with
  | none => exact (reads_account _).bind fun _ => reads_pure _
  | some name =>
    refine (reads_loadKeys hhost options).bind fun store => ?_
    refine (reads_account _).bind fun sealed => ?_
    split
    · exact reads_throw _
    · exact reads_throw _
    · exact (reads_account _).bind fun _ => reads_pure _

theorem reads_runUnseal (options : Options) (source : Source) :
    (runUnseal host options source).Reads := by
  refine (reads_readEnvelope hhost source).bind fun data => ?_
  refine (reads_loadKeys hhost options).bind fun store => ?_
  refine (reads_account _).bind fun opened => ?_
  split
  · exact reads_throw _
  · split
    · exact reads_pure _
    · exact reads_throw _

theorem reads_runInspect (options : Options) (source : Source) :
    (runInspect host options source).Reads := by
  refine (reads_readEnvelope hhost source).bind fun data => ?_
  split
  · exact reads_throw _
  · exact (reads_account _).bind fun _ => reads_pure _

/-- Every command but the one that makes a key only reads. -/
theorem reads_run (call : Invocation) (hverb : ∀ name force, call.verb ≠ .keygen name force) :
    (run host call).Reads := by
  unfold run
  cases hcall : call.verb with
  | «seal» keyName source => exact reads_runSeal hhost _ _ _
  | «unseal» source => exact reads_runUnseal hhost _ _
  | inspect source => exact reads_runInspect hhost _ _
  | keygen name force => exact absurd hcall (hverb name force)
  | version extended => exact reads_pure _

end

/-! ## What a new key leaves -/

/-- There are the same files at the same places, with the same content. -/
def SameFiles (t t' : FileTree) : Prop :=
  ∀ p content mode, t'.get? p = some (.file content mode) ↔ t.get? p = some (.file content mode)

/-- The file of a key is at a place: its path leads there. The place is the entry of the file's name
in the key directory, unless the file may be replaced and a symbolic link stands there. -/
structure KeyFileAt (t : FileTree) (dir name : String) (force : Bool) (q : Place) : Prop where
  leads : t.resolve .existing (Utf8.encode (keyFilePath dir name)) = .ok q
  entry : ∃ p, FileTree.DirectoryAt t (Utf8.encode dir) p ∧
    (q = p ++ [KeyStore.keyFileName name] ∨
      force = true ∧ ∃ target, t.get? (p ++ [KeyStore.keyFileName name]) = some (.symlink target))

/-- A place is new: a directory was made there on the way to a path. -/
def NewDirectory (t t' : FileTree) (path : String) (p : Place) : Prop :=
  t.get? p = none ∧ t'.get? p = some .directory ∧ FileTree.OnTheWay t' (Utf8.encode path) p

/-- A key was not written to its end: its file is there and has a beginning of it. All other files
are as they were. -/
structure BrokenOff (t t' : FileTree) (dir name : String) (force : Bool) (key : Bytes)
    (q : Place) : Prop where
  place : KeyFileAt t' dir name force q
  content : ∃ n mode, t'.get? q = some (.file ((keyFileContent key).take n) mode)
  elsewhere : ∀ p content mode, p ≠ q →
    (t'.get? p = some (.file content mode) ↔ t.get? p = some (.file content mode))

section

variable {host : Host (StateM FileTree)} {keyDirectory : Option String} {name dir : String}
  {force : Bool} {key content : Bytes} {t t' made : FileTree} {q : Place}
  {result : Except Failure Bytes}

/-- The file of a key was opened in a directory that was made for it: besides directories on the
way there, one place is another one. -/
theorem grown_and_written (hhost : host.OnTree) (hne : dir ≠ "") (hname : KeyStore.IsKeyName name)
    (making : host.makeDirectories (dir.length + 1) dir t = (.ok (), made))
    (file : FileTree.Filled made (Utf8.encode (keyFilePath dir name)) (!force) keyFileMode content
      q t') :
    FileTree.Grown (Utf8.encode dir) t made ∧
      FileTree.Written made t' (Utf8.encode dir) (KeyStore.keyFileName name) (!force) content
        q := by
  have hgrown := FileTree.grown_makeDirectories hhost (dir.length + 1) dir t
  rw [making] at hgrown
  obtain ⟨p, hat⟩ := FileTree.isDirectory_iff.mp
    (FileTree.isDirectory_of_makeDirectories hhost hne making)
  rw [encode_keyFilePath hne] at file
  exact ⟨hgrown, file.written hat (isFileName_keyFileName hname)⟩

theorem keyFileAt_of_written (hne : dir ≠ "")
    (h : FileTree.Written t t' (Utf8.encode dir) (KeyStore.keyFileName name) (!force) content q) :
    KeyFileAt t' dir name force q := by
  obtain ⟨p, hdir, hentry⟩ := h.entry
  refine ⟨?_, p, hdir, ?_⟩
  · rw [encode_keyFilePath hne]
    exact h.leads
  · rwa [Bool.not_eq_false'] at hentry

/-- Besides the file, only what was made for the directory is new. -/
theorem changes_of_written (hne : dir ≠ "") (hgrown : FileTree.Grown (Utf8.encode dir) t made)
    (h : FileTree.Written made t' (Utf8.encode dir) (KeyStore.keyFileName name) (!force) content q)
    {p : Place} (hp : t'.get? p ≠ t.get? p) :
    NewDirectory t t' dir p ∨ KeyFileAt t' dir name force p := by
  by_cases hq : p = q
  · subst hq
    exact Or.inr (keyFileAt_of_written hne h)
  · rw [h.elsewhere p hq] at hp
    obtain ⟨hnone, hmade, hway⟩ := hgrown.changed hp
    exact Or.inl ⟨hnone, h.kept p _ hmade nofun, hway.mono h.workingDirectory h.kept⟩

namespace Keygen.Ends

/-- Besides what was made for the directory, the file of the key is all that can have changed. -/
theorem grown_cases (h : Ends host keyDirectory name force key t result t') (hhost : host.OnTree)
    (hne : keyDirectory ≠ some "") :
    t' = t ∨ ∃ dir, keyDirectory = some dir ∧ dir ≠ "" ∧
      (FileTree.Grown (Utf8.encode dir) t t' ∨
        ∃ made content q, FileTree.Grown (Utf8.encode dir) t made ∧
          FileTree.Written made t' (Utf8.encode dir) (KeyStore.keyFileName name) (!force) content
            q) := by
  have hdir : ∀ {dir}, keyDirectory = some dir → dir ≠ "" := by
    rintro dir directory rfl
    exact hne directory
  cases h with
  | refused _ unnamed => exact Or.inl rfl
  | stopped _ dir answer _ directory named making =>
    have hgrown := FileTree.grown_makeDirectories hhost (dir.length + 1) dir t
    rw [making] at hgrown
    exact Or.inr ⟨dir, directory, hdir directory, Or.inl hgrown⟩
  | interrupted _ dir made _ q n directory named making file =>
    exact Or.inr ⟨dir, directory, hdir directory, Or.inr
      ⟨made, _, q, grown_and_written hhost (hdir directory) named making file⟩⟩
  | written _ dir made _ q directory named making file =>
    exact Or.inr ⟨dir, directory, hdir directory, Or.inr
      ⟨made, _, q, grown_and_written hhost (hdir directory) named making file⟩⟩

/-- Without a result every file is as it was and where it was, or the key was broken off. -/
theorem files_of_error {e : Failure} (h : Ends host keyDirectory name force key t (.error e) t')
    (hhost : host.OnTree) (hne : keyDirectory ≠ some "") :
    SameFiles t t' ∨ ∃ dir q cause, keyDirectory = some dir ∧
      e = .writeFailed (keyFilePath dir name) cause ∧ BrokenOff t t' dir name force key q := by
  cases h with
  | refused _ unnamed => exact Or.inl fun _ _ _ => Iff.rfl
  | stopped _ dir answer _ directory named making =>
    have hgrown := FileTree.grown_makeDirectories hhost (dir.length + 1) dir t
    rw [making] at hgrown
    exact Or.inl fun _ _ _ => hgrown.file_iff
  | interrupted cause dir made _ q n directory named making file =>
    have hdir : dir ≠ "" := by
      rintro rfl
      exact hne directory
    obtain ⟨hgrown, hwritten⟩ := grown_and_written hhost hdir named making file
    obtain ⟨mode, hholds⟩ := hwritten.holds
    refine Or.inr ⟨dir, q, cause, directory, rfl, keyFileAt_of_written hdir hwritten,
      ⟨n, mode, hholds⟩, fun p content mode hp => ?_⟩
    rw [hwritten.elsewhere p hp]
    exact hgrown.file_iff

theorem eq_of_not_isKeyName (h : Ends host keyDirectory name force key t result t')
    (hname : ¬ KeyStore.IsKeyName name) : t' = t := by
  cases h with
  | refused _ unnamed => rfl
  | stopped _ _ _ _ _ named => exact absurd named hname
  | interrupted _ _ _ _ _ _ _ named => exact absurd named hname
  | written _ _ _ _ _ _ named => exact absurd named hname

/-- Unless a file may be replaced, everything that was there is there. -/
theorem kept (h : Ends host keyDirectory name false key t result t') (hhost : host.OnTree)
    (hne : keyDirectory ≠ some "") (p : Place) (node : Node) (hp : t.get? p = some node) :
    t'.get? p = some node := by
  rcases h.grown_cases hhost hne with rfl | ⟨dir, -, -, hgrown | ⟨made, _, q, hgrown, hwritten⟩⟩
  · exact hp
  · exact hgrown.kept p node hp
  · exact hwritten.kept_of_fresh p node (hgrown.kept p node hp)

/-- What a key changes is the place of its file, and there are directories on the way to it. -/
theorem changes (h : Ends host keyDirectory name force key t result t') (hhost : host.OnTree)
    (hne : keyDirectory ≠ some "") (p : Place) (hp : t'.get? p ≠ t.get? p) :
    ∃ dir, keyDirectory = some dir ∧
      (NewDirectory t t' dir p ∨ KeyFileAt t' dir name force p) := by
  rcases h.grown_cases hhost hne with
    rfl | ⟨dir, hdir, hempty, hgrown | ⟨made, _, q, hgrown, hwritten⟩⟩
  · exact absurd rfl hp
  · exact ⟨dir, hdir, Or.inl (hgrown.changed hp)⟩
  · exact ⟨dir, hdir, changes_of_written hempty hgrown hwritten hp⟩

end Keygen.Ends

end

/-! ## Every command -/

/-- How a command with a bad exit code can have ended, with the result that a caller sees and the
tree `t'`. -/
inductive Failed (host : Host (StateM FileTree)) (call : Invocation) (start : Activity)
    (t t' : FileTree) (result : Outcome) : Prop
  /-- Nothing was printed, and there are the same files as before. -/
  | untraced (silent : result.output = []) (same : SameFiles t t')
  /-- Nothing was printed, and the write of a key failed after its file had been opened. -/
  | brokenOff (name : String) (force : Bool) (dir : String) (q : Place) (cause : OsError)
    (silent : result.output = []) (verb : call.verb = .keygen name force)
    (directory : call.options.keyDirectory = some dir)
    (failure : result.failure = some (Failure.writeFailed (keyFilePath dir name) cause).message)
    (file : BrokenOff t t' dir name force (start.tape.window start.tape.drawn 32) q)
  /-- The command had a result, which could not be printed. -/
  | unprinted (cause : OsError) (exitCode : result.exitCode = 101)
    (done : ((run host call).exec start t).1.1 = .ok result.output)
    (refused : host.print result.output t' = (.error cause, t'))
    (panic : result.panic = some ("failed printing to stdout: " ++ cause.message))

section

variable {host : Host (StateM FileTree)} {call : Invocation} {start : Activity} {t : FileTree}

/-- A command with a bad exit code had no result and has printed nothing, or its result could not be
printed. -/
theorem failed_of_exitCode_ne_zero (hhost : host.OnTree)
    (h : (outcome host call start t).1.exitCode ≠ 0) :
    ((outcome host call start t).1.output = [] ∧
      ∃ e, ((run host call).exec start t).1.1 = .error e ∧
        (outcome host call start t).1.failure = some e.message) ∨
    Failed host call start t (outcome host call start t).2 (outcome host call start t).1 := by
  revert h
  rw [outcome_eq]
  rcases hrun : (run host call).exec start t with ⟨⟨e | output, account⟩, t'⟩
  · exact fun _ => Or.inl ⟨rfl, e, rfl, rfl⟩
  · intro h
    right
    have hsame := hhost.print output t'
    rcases hprint : host.print output t' with ⟨⟨cause⟩ | ⟨⟨⟩⟩, t''⟩
    · rw [hprint] at hsame
      obtain rfl : t'' = t' := hsame
      simp only [hprint, Invocation.printed] at h ⊢
      split at h
      · exact absurd rfl h
      · next hbare =>
        rw [if_neg hbare]
        exact .unprinted cause rfl (by rw [hrun]) hprint rfl
    · simp only [hprint] at h
      exact absurd rfl h

/-- Without room a key is made up to its file. -/
theorem outcome_keygen_withoutRoom {options : Options} {name dir : String} {p q : Place}
    {opened : FileTree} (hdir : options.keyDirectory = some dir) (hname : KeyStore.IsKeyName name)
    (hat : FileTree.DirectoryAt t (Utf8.encode dir) p) (force : Bool)
    (hopen : FileTree.Filled t (Utf8.encode (keyFilePath dir name)) (!force) keyFileMode [] q
      opened) (start : Activity) (input : Bytes) :
    let result := outcome (FileTree.host input).withoutRoom ⟨options, .keygen name force⟩ start t
    result.1.exitCode = 125 ∧ result.2 = opened := by
  intro result
  have hmake := FileTree.makeDirectories_of_directoryAt hat (dir.length + 1) input
  rw [← Host.makeDirectories_withoutRoom] at hmake
  obtain ⟨_, account, hrun, rfl⟩ := exec_keygen_of_opened start hdir hname force hmake
    (FileTree.host_openFile_of_ok (FileTree.openFile_eq_ok_iff.mpr hopen) input) rfl
  have hresult : result = _ := outcome_eq _ _ _ _
  rw [hrun] at hresult
  rw [hresult]
  exact ⟨rfl, rfl⟩

/-- With a closed standard output a key is made all the same. -/
theorem outcome_keygen_withoutOutput {options : Options} {name dir : String} {p q : Place}
    {opened : FileTree} (hdir : options.keyDirectory = some dir) (hname : KeyStore.IsKeyName name)
    (hat : FileTree.DirectoryAt t (Utf8.encode dir) p) (force : Bool)
    (hopen : FileTree.Filled t (Utf8.encode (keyFilePath dir name)) (!force) keyFileMode [] q
      opened) (start : Activity) (input : Bytes) :
    let result := outcome (FileTree.host input).withoutOutput ⟨options, .keygen name force⟩ start t
    result.1.exitCode = 101 ∧
      result.2 = opened.append q
        (keyFileContent (start.tape.window start.tape.drawn Gcm.keySize)) := by
  intro result
  have hmake := FileTree.makeDirectories_of_directoryAt hat (dir.length + 1) input
  rw [← Host.makeDirectories_withoutOutput] at hmake
  obtain ⟨_, account, hrun, output, rfl⟩ := exec_keygen_of_opened start hdir hname force hmake
    (FileTree.host_openFile_of_ok (FileTree.openFile_eq_ok_iff.mpr hopen) input) rfl
  have hresult : result = _ := outcome_eq _ _ _ _
  rw [hrun] at hresult
  rw [hresult]
  exact ⟨rfl, rfl⟩

/-- **Commands that fail leave no trace**, whatever they fail at, with two exceptions. They print
nothing, and there are the same files with the same content as before, unless the write of a key
fails or the result cannot be printed. Only a command that makes a key changes anything at all. It
does so if the name is one that a key may have, replaces nothing unless it is told to, and changes
no other place than that of the key's file and those of missing directories on the way to the key
directory. -/
theorem failures_leave_no_trace {words : List String} {environment : String → Option String}
    (hread : readCommandLine words environment = .ok call) (hhost : host.OnTree)
    (start : Activity) (t : FileTree) :
    let result := (outcome host call start t).1
    let t' := (outcome host call start t).2
    (result.exitCode ≠ 0 → Failed host call start t t' result) ∧
    ((∀ name force, call.verb ≠ .keygen name force) → t' = t) ∧
    ∀ name force, call.verb = .keygen name force →
      (¬ KeyStore.IsKeyName name → t' = t) ∧
      (force = false → ∀ p node, t.get? p = some node → t'.get? p = some node) ∧
      ∀ p, t'.get? p ≠ t.get? p → ∃ dir, call.options.keyDirectory = some dir ∧
        (NewDirectory t t' dir p ∨ KeyFileAt t' dir name force p) := by
  intro result t'
  have hne := keyDirectory_ne_empty hread
  have hsystem : t' = ((run host call).exec start t).2 := outcome_snd hhost call start t
  have hreads : (∀ name force, call.verb ≠ .keygen name force) → t' = t := by
    intro hverb
    rw [hsystem]
    exact reads_run hhost call hverb start t
  have hends : ∀ {name force}, call.verb = .keygen name force →
      Keygen.Ends host call.options.keyDirectory name force
        (start.tape.window start.tape.drawn Gcm.keySize) t ((run host call).exec start t).1.1
        t' := by
    intro name force hverb
    rw [hsystem]
    unfold run
    rw [hverb]
    exact exec_runKeygen_ends hhost call.options name force start t
  refine ⟨fun hexit => ?_, hreads, fun name force hverb => ⟨?_, ?_, ?_⟩⟩
  · rcases failed_of_exitCode_ne_zero hhost hexit with ⟨hsilent, e, hfail, hmessage⟩ | hfailed
    · -- without a result either the tree is the same or a new key was stopped on its way
      by_cases hverb : ∃ name force, call.verb = .keygen name force
      · obtain ⟨name, force, hverb⟩ := hverb
        rcases (hfail ▸ hends hverb).files_of_error hhost hne with
          hsame | ⟨dir, q, cause, hdir, rfl, hbroken⟩
        · exact .untraced hsilent hsame
        · exact .brokenOff name force dir q cause hsilent hverb hdir hmessage hbroken
      · refine .untraced hsilent fun p content mode => ?_
        rw [hreads fun name force h => hverb ⟨name, force, h⟩]
    · exact hfailed
  · exact (hends hverb).eq_of_not_isKeyName
  · rintro rfl
    exact (hends hverb).kept hhost hne
  · exact (hends hverb).changes hhost hne

/-- A second key of one name, a key whose name would lead out of the directory, a key for which
there is no room, and a key of which nobody hears. -/
theorem failures_leave_no_trace_refused :
    let options : Options := { keyDirectory := some "keys" }
    let start : Activity := { tape := .counting 0 }
    let t := keyTree ["a"] [0xAA]
    let host := FileTree.host []
    let again := outcome host ⟨options, .keygen "a" false⟩ start t
    let above := outcome host ⟨options, .keygen "../a" true⟩ start {}
    let full := outcome host.withoutRoom ⟨options, .keygen "a" true⟩ start t
    let unheard := outcome host.withoutOutput ⟨options, .keygen "a" true⟩ start t
    (again.1.exitCode ≠ 0 ∧ Failed host ⟨options, .keygen "a" false⟩ start t again.2 again.1) ∧
    (above.1.exitCode ≠ 0 ∧ above.2 = {}) ∧
    (full.1.exitCode ≠ 0 ∧
      Failed host.withoutRoom ⟨options, .keygen "a" true⟩ start t full.2 full.1) ∧
    (unheard.1.exitCode ≠ 0 ∧
      Failed host.withoutOutput ⟨options, .keygen "a" true⟩ start t unheard.2 unheard.1) := by
  intro options start t host again above full unheard
  have hread : readCommandLine ["--key-dir", "keys", "keygen", "a"] (fun _ => none)
      = .ok ⟨options, .keygen "a" false⟩ := by
    cbv
  have hreplace : readCommandLine ["--key-dir", "keys", "keygen", "a", "--force"] (fun _ => none)
      = .ok ⟨options, .keygen "a" true⟩ := by
    cbv
  have habove : readCommandLine ["--key-dir", "keys", "keygen", "../a", "--force"] (fun _ => none)
      = .ok ⟨options, .keygen "../a" true⟩ := by
    cbv
  have hhost : host.OnTree := FileTree.onTree_host []
  have hdir : options.keyDirectory = some "keys" := rfl
  have hdirectory := directoryAt_keyTree ["a"] [0xAA]
  have hagain : again.1.exitCode ≠ 0 := by
    intro hexit
    obtain ⟨_, made, q, ⟨rfl⟩, -, hmake, hfilled⟩ := written_of_keygen hhost hexit
    rw [FileTree.makeDirectories_of_directoryAt hdirectory] at hmake
    obtain rfl : t = made := (Prod.mk.inj hmake).2
    obtain ⟨hresolve, mode, -, hbefore⟩ := hfilled
    have hplace : t.resolve .newFile (Utf8.encode (keyFilePath "keys" "a"))
        = .ok (keyPlace "a") := by
      cbv
    obtain rfl := Except.ok.inj (hplace.symm.trans hresolve)
    rcases hbefore with ⟨hnone, -⟩ | ⟨hforce, -⟩
    · have hsome : t.get? (keyPlace "a") ≠ none := by
        cbv
        exact Option.some_ne_none _
      exact hsome hnone
    · cases hforce
  have hname : ¬ KeyStore.IsKeyName "../a" :=
    fun h => absurd (KeyStore.isName_iff.mpr h) (by decide)
  have ha : KeyStore.IsKeyName "a" := KeyStore.isName_iff.mp (by decide)
  have hopen : FileTree.Filled t (Utf8.encode (keyFilePath "keys" "a")) false keyFileMode []
      (keyPlace "a") _ :=
    ⟨by cbv, keyFileMode, rfl, Or.inr ⟨rfl, _, by cbv⟩⟩
  have hfull : full.1.exitCode ≠ 0 := by
    rw [(outcome_keygen_withoutRoom hdir ha hdirectory true hopen start []).1]
    decide
  have hunheard : unheard.1.exitCode ≠ 0 := by
    rw [(outcome_keygen_withoutOutput hdir ha hdirectory true hopen start []).1]
    decide
  refine ⟨⟨hagain, (failures_leave_no_trace hread hhost start t).1 hagain⟩, ⟨?_, ?_⟩,
    ⟨hfull, (failures_leave_no_trace hreplace hhost.withoutRoom start t).1 hfull⟩,
    hunheard, (failures_leave_no_trace hreplace hhost.withoutOutput start t).1 hunheard⟩
  · intro hexit
    obtain ⟨-, -, -, -, hnamed, -, -⟩ := written_of_keygen hhost hexit
    exact hname hnamed
  · exact ((failures_leave_no_trace habove hhost start {}).2.2 "../a" true rfl).1 hname

/-- A key directory with a symbolic link that leads out of it. -/
def linkTree : FileTree where
  nodes := [([Utf8.encode "keys"], .directory),
    (keyPlace "a", .symlink (Utf8.encode "../precious")),
    ([Utf8.encode "precious"], .file [0x70] 0o644)]

/-- **What a command can leave behind.** Without room for a new key the old one is erased, and where
there was none an empty file is made. With a closed standard output a key is made, and the command
panics. And with a symbolic link in its place a key goes to a file that is in no key directory. -/
theorem failures_leave_traces :
    let options : Options := { keyDirectory := some "keys" }
    let start : Activity := { tape := .counting 0 }
    let key := (RandomTape.counting 0).window 0 32
    let place := keyPlace "a"
    let host := FileTree.host []
    (let t := keyTree ["a"] [0xAA]
     let result := outcome host.withoutRoom ⟨options, .keygen "a" true⟩ start t
     result.1.exitCode = 125 ∧
       t.get? place = some (.file (keyFileContent [0xAA]) keyFileMode) ∧
       result.2.get? place = some (.file [] keyFileMode)) ∧
    (let t := keyTree [] []
     let result := outcome host.withoutRoom ⟨options, .keygen "a" false⟩ start t
     result.1.exitCode = 125 ∧ t.get? place = none ∧
       result.2.get? place = some (.file [] keyFileMode)) ∧
    (let t := keyTree [] []
     let result := outcome host.withoutOutput ⟨options, .keygen "a" false⟩ start t
     result.1.exitCode = 101 ∧ t.get? place = none ∧
       result.2.get? place = some (.file (keyFileContent key) keyFileMode)) ∧
    (let result := outcome host ⟨options, .keygen "a" true⟩ start linkTree
     let outside := [Utf8.encode "precious"]
     result.1.exitCode = 0 ∧ linkTree.get? outside = some (.file [0x70] 0o644) ∧
       result.2.get? outside = some (.file (keyFileContent key) 0o644)) := by
  intro options start key place host
  have hname : KeyStore.IsKeyName "a" := KeyStore.isName_iff.mp (by decide)
  have hdir : options.keyDirectory = some "keys" := rfl
  have hnew : FileTree.Filled (keyTree [] []) (Utf8.encode (keyFilePath "keys" "a")) true
      keyFileMode [] place _ :=
    ⟨by cbv, keyFileMode, rfl, Or.inl ⟨by cbv, rfl⟩⟩
  have hplace : place ≠ [] := List.cons_ne_nil _ _
  refine ⟨?_, ?_, ?_, ?_⟩
  · intro t result
    have hold : FileTree.Filled t (Utf8.encode (keyFilePath "keys" "a")) false keyFileMode [] place
        _ :=
      ⟨by cbv, keyFileMode, rfl, Or.inr ⟨rfl, _, by cbv⟩⟩
    obtain ⟨hexit, hleft⟩ := outcome_keygen_withoutRoom hdir hname
      (directoryAt_keyTree ["a"] [0xAA]) true hold start []
    refine ⟨hexit, by cbv, ?_⟩
    rw [hleft, FileTree.get?_put_self hplace]
  · intro t result
    obtain ⟨hexit, hleft⟩ := outcome_keygen_withoutRoom hdir hname (directoryAt_keyTree [] [])
      false hnew start []
    refine ⟨hexit, by cbv, ?_⟩
    rw [hleft, FileTree.get?_put_self hplace]
  · intro t result
    obtain ⟨hexit, hleft⟩ := outcome_keygen_withoutOutput hdir hname (directoryAt_keyTree [] [])
      false hnew start []
    refine ⟨hexit, by cbv, ?_⟩
    rw [hleft, FileTree.append_put hplace, FileTree.get?_put_self hplace]
    rfl
  · intro result outside
    have hlink : FileTree.Filled linkTree (Utf8.encode (keyFilePath "keys" "a")) false keyFileMode
        [] outside _ :=
      ⟨by cbv, 0o644, rfl, Or.inr ⟨rfl, _, by cbv⟩⟩
    have hat : FileTree.DirectoryAt linkTree (Utf8.encode "keys") [Utf8.encode "keys"] :=
      FileTree.directoryAt_iff.mpr ⟨by cbv, by cbv⟩
    have houtside : outside ≠ [] := List.cons_ne_nil _ _
    have hmake := FileTree.makeDirectories_of_directoryAt hat ("keys".length + 1) []
    obtain ⟨_, account, hrun, output, rfl⟩ := exec_keygen_of_opened start hdir hname true hmake
      (FileTree.host_openFile_of_ok (FileTree.openFile_eq_ok_iff.mpr hlink) []) rfl
    rw [FileTree.append_put houtside, List.nil_append] at hrun
    have hsuccess := succeeds_of_exec hrun rfl (P := fun _ => True) trivial
    refine ⟨hsuccess.exitCode, by cbv, ?_⟩
    rw [hsuccess.system]
    exact FileTree.get?_put_self houtside

end

end SealedRecords.Command
