import SealedRecords.Proofs.Command.Keygen
import SealedRecords.Proofs.Command.Traces
import SealedRecords.Proofs.Keys.Refusals

/-!
# Key directories that cannot be loaded

Commands that need keys load the whole key directory first, and there are many reasons
for which this can fail. The caller gets an exit code for it. It is the code of a bad
configuration, whatever the reason, but for one: a file that holds a key under a name
that no key may have. A name of that kind is a usage error where a key is made, and the
two are told apart nowhere, so here it gives the code of a usage error too.

> `exitCode_of_unloadable`: which code there is, on any host.
-/

namespace SealedRecords.Command

open SealedRecords

section

variable {σ : Type} {host : Host (StateM σ)} {call : Invocation} {options : Options}
  {start : Activity} {w w₁ w₂ : σ} {dir : String} {listing : Except OsError (List DirEntry)}
  {err : KeyStoreError}

/-! ## Reasons -/

/-- What cannot be listed, or is not loadable, is refused for some reason. -/
theorem exists_refusal (config : KeyStoreConfig) (dir : String)
    (h : ∀ entries, listing = .ok entries → ¬ KeyStore.Loadable config entries) :
    ∃ err, (KeyStore.ofDirectory config dir listing).1 = .error err := by
  cases listing with
  | error cause => exact ⟨_, rfl⟩
  | ok entries =>
    cases hresult : (KeyStore.ofDirectory config dir (.ok entries)).1 with
    | error err => exact ⟨err, rfl⟩
    | ok store => exact absurd (KeyStore.ofDirectory_eq_ok_iff.mp hresult).1 (h entries rfl)

/-- The reason is a name exactly if the listing stops at one. -/
theorem stopsAtName_iff_of_refusal {config : KeyStoreConfig}
    (h : (KeyStore.ofDirectory config dir listing).1 = .error err) :
    (∃ entries stem, listing = .ok entries ∧ KeyStore.StopsAtName config entries stem) ↔
      ∃ name, err = .invalidName name := by
  cases listing with
  | error cause =>
    obtain rfl : .loadFailed (.unreadable dir cause) = err := Except.error.inj h
    simp
  | ok entries =>
    constructor
    · intro hstops
      obtain ⟨listed, stem, heq, hstem⟩ := hstops
      obtain rfl : entries = listed := Except.ok.inj heq
      have hname : (KeyStore.ofDirectory config dir (.ok entries)).1 = .error (.invalidName stem) :=
        KeyStore.ofDirectory_eq_invalidName_iff.mpr hstem
      exact ⟨stem, Except.error.inj (h.symm.trans hname)⟩
    · intro hname
      obtain ⟨name, rfl⟩ := hname
      exact ⟨entries, name, rfl, KeyStore.ofDirectory_eq_invalidName_iff.mp h⟩

/-- A name has the code of a usage error, and every other reason that of a bad configuration. -/
theorem keyStoreExitCode_cases (err : KeyStoreError) :
    (keyStoreExitCode err = 64 ∧ ∃ name, err = .invalidName name) ∨
      (keyStoreExitCode err = 78 ∧ ¬ ∃ name, err = .invalidName name) := by
  cases err with
  | invalidName name => exact Or.inl ⟨rfl, name, rfl⟩
  | loadFailed cause => exact Or.inr ⟨rfl, by simp⟩
  | invalidHex name fault => exact Or.inr ⟨rfl, by simp⟩
  | invalidKeyLength name expected actual => exact Or.inr ⟨rfl, by simp⟩

/-! ## Commands that need keys -/

/-- A command that needs keys has its input, and the system is `w'` when it has been read: it seals
under a name, or opens. -/
def Verb.HasInput (host : Host (StateM σ)) (start : Activity) (w w' : σ) : Verb → Prop
  | .seal (some _) source => ∃ payload account,
    (readPayload host source).exec start w = ((.ok payload, account), w')
  | .unseal source => ∃ envelope account,
    (readEnvelope host source).exec start w = ((.ok envelope, account), w')
  | _ => False

theorem exec_loadKeys_of_error (hdir : options.keyDirectory = some dir)
    (hlisting : host.listDirectory dir w = (listing, w₁))
    (h : (KeyStore.ofDirectory {} dir listing).1 = .error err) (a : Activity) :
    ∃ a', (loadKeys host options).exec a w = ((.error (.keysNotLoaded err), a'), w₁) := by
  have hask : (Work.ask (host.listDirectory dir)).exec a w = ((.ok listing, a), w₁) := by
    rw [Work.exec_ask, hlisting]
  unfold loadKeys
  simp only [hdir, Work.exec_bind_of_ok hask]
  rcases hresult : KeyStore.ofDirectory {} dir listing with ⟨result, events⟩
  rw [hresult] at h
  obtain rfl : result = .error err := h
  exact ⟨_, rfl⟩

/-- A command that needs keys fails with the reason for which they cannot be loaded. -/
theorem exec_run_of_refusal (hdir : call.options.keyDirectory = some dir)
    (hinput : call.verb.HasInput host start w w₁)
    (hlisting : host.listDirectory dir w₁ = (listing, w₂))
    (h : (KeyStore.ofDirectory {} dir listing).1 = .error err) :
    ∃ account, (run host call).exec start w = ((.error (.keysNotLoaded err), account), w₂) := by
  obtain ⟨options, verb⟩ := call
  cases verb with
  | «seal» keyName source =>
    cases keyName with
    | none => exact absurd hinput id
    | some name =>
      obtain ⟨payload, account, hread⟩ := hinput
      obtain ⟨account', hload⟩ := exec_loadKeys_of_error hdir hlisting h account
      refine ⟨account', ?_⟩
      show (runSeal host options (some name) source).exec start w = _
      unfold runSeal
      rw [Work.exec_bind_of_ok hread, Work.exec_bind_of_error hload]
  | «unseal» source =>
    obtain ⟨envelope, account, hread⟩ := hinput
    obtain ⟨account', hload⟩ := exec_loadKeys_of_error hdir hlisting h account
    refine ⟨account', ?_⟩
    show (runUnseal host options source).exec start w = _
    unfold runUnseal
    rw [Work.exec_bind_of_ok hread, Work.exec_bind_of_error hload]
  | inspect source => exact absurd hinput id
  | keygen name force => exact absurd hinput id
  | version extended => exact absurd hinput id

/-- **Which exit code there is for a key directory that cannot be loaded.** Whatever the host is and
whatever the reason, a command that seals under a name or opens, and has its input, prints nothing
and says why the keys were not loaded. Its exit code is 64 if the directory was taken up to a file
that holds a key under a name that no key may have; and it is 78, the code of a bad configuration,
for every other reason. -/
theorem exitCode_of_unloadable (hdir : call.options.keyDirectory = some dir)
    (hinput : call.verb.HasInput host start w w₁)
    (hlisting : host.listDirectory dir w₁ = (listing, w₂))
    (hload : ∀ entries, listing = .ok entries → ¬ KeyStore.Loadable {} entries) :
    ((outcome host call start w).1.exitCode = 64 ↔
      ∃ entries stem, listing = .ok entries ∧ KeyStore.StopsAtName {} entries stem) ∧
    ((outcome host call start w).1.exitCode = 78 ↔
      ¬ ∃ entries stem, listing = .ok entries ∧ KeyStore.StopsAtName {} entries stem) ∧
    (outcome host call start w).1.output = [] ∧
    ∃ err, (KeyStore.ofDirectory {} dir listing).1 = .error err ∧
      (outcome host call start w).1.failure = some ("failed loading keys: " ++ err.message) := by
  obtain ⟨err, herr⟩ := exists_refusal {} dir hload
  obtain ⟨account, hrun⟩ := exec_run_of_refusal hdir hinput hlisting herr
  have hstops := stopsAtName_iff_of_refusal herr
  have hexit : (outcome host call start w).1.exitCode = keyStoreExitCode err :=
    (outcome_of_error hrun).1
  have hsilent : (outcome host call start w).1.output = [] := by
    rw [outcome_eq, hrun]
  have hreport : ∃ err, (KeyStore.ofDirectory {} dir listing).1 = .error err ∧
      (outcome host call start w).1.failure = some ("failed loading keys: " ++ err.message) :=
    ⟨err, herr, (outcome_of_error hrun).2⟩
  rw [hexit, hstops]
  rcases keyStoreExitCode_cases err with ⟨hcode, hname⟩ | ⟨hcode, hname⟩
  · rw [hcode]
    exact ⟨iff_of_true rfl hname, iff_of_false (by decide) (not_not_intro hname), hsilent, hreport⟩
  · rw [hcode]
    exact ⟨iff_of_false (by decide) hname, iff_of_true rfl hname, hsilent, hreport⟩

end

/-! ## On a tree of files -/

section

variable {t : FileTree} {input b : Bytes} {source : Source} {start : Activity}

theorem hasInput_of_payload (h : source.SuppliesPayload t input b) (name : String)
    (start : Activity) : (Verb.seal (some name) source).HasInput (FileTree.host input) start t t :=
  ⟨b, start, exec_readPayload h start⟩

theorem hasInput_of_envelope (h : source.SuppliesEnvelope t input b) (start : Activity) :
    (Verb.unseal source).HasInput (FileTree.host input) start t t :=
  ⟨b, start, exec_readEnvelope h start⟩

theorem listDirectory_host {dir : String} {listing : Except OsError (List DirEntry)}
    (h : t.listDirectory (Utf8.encode dir) = listing) (input : Bytes) :
    (FileTree.host input).listDirectory dir t = (listing, t) := by
  show (t.listDirectory (Utf8.encode dir), t) = _
  rw [h]

/-- A tree with a key file whose name has a blank. -/
def blankTree : FileTree := keyTree ["a b"] (List.replicate 32 0x11)

/-- The listing of the only directory in it. -/
def blankListing : List DirEntry :=
  [⟨KeyStore.keyFileName "a b", .file (keyFileContent (List.replicate 32 0x11))⟩]

theorem listDirectory_blankTree :
    blankTree.listDirectory (Utf8.encode "keys") = .ok blankListing := by
  cbv

theorem listDirectory_missing :
    blankTree.listDirectory (Utf8.encode "none") = .error .notFound := by
  cbv

theorem stopsAtName_blankListing : KeyStore.StopsAtName {} blankListing "a b" := by
  have hloadable : KeyStore.Loadable {} [] := ⟨nofun, Nat.zero_le _, nofun⟩
  have hname : ¬ KeyStore.IsKeyName "a b" :=
    fun h => absurd (KeyStore.isName_iff.mpr h) (by decide)
  have hsize : (keyFileContent (List.replicate 32 0x11)).length ≤ 4096 := by
    rw [length_keyFileContent]
    decide
  exact ⟨[], _, [], _, rfl, hloadable, by decide, KeyStore.names_keyFileName (by decide) _, rfl,
    hsize, ⟨_, holdsKey_keyFileContent _⟩, hname⟩

theorem ofDirectory_blankListing (dir : String) :
    (KeyStore.ofDirectory {} dir (.ok blankListing)).1 = .error (.invalidName "a b") :=
  KeyStore.ofDirectory_eq_invalidName_iff.mpr stopsAtName_blankListing

/-- Sealing with the keys of a directory that is not there has another exit code than with those of
a directory in which a key has a blank in its name. -/
theorem exitCode_of_unloadable_blankName :
    let start : Activity := { tape := .counting 0 }
    let missing : Invocation := ⟨{ keyDirectory := some "none" }, .seal (some "a") .input⟩
    let blank : Invocation := ⟨{ keyDirectory := some "keys" }, .seal (some "a") .input⟩
    (outcome (FileTree.host [0x68]) missing start blankTree).1.exitCode = 78 ∧
    (outcome (FileTree.host [0x68]) blank start blankTree).1.exitCode = 64 := by
  intro start missing blank
  have hpayload : Source.input.SuppliesPayload blankTree [0x68] [0x68] := rfl
  constructor
  · have hinput : missing.verb.HasInput (FileTree.host [0x68]) start blankTree blankTree :=
      hasInput_of_payload hpayload "a" start
    have hdir : missing.options.keyDirectory = some "none" := rfl
    obtain ⟨-, hother, -⟩ := exitCode_of_unloadable hdir hinput
      (listDirectory_host listDirectory_missing [0x68]) (fun entries h => nomatch h)
    refine hother.mpr fun h => ?_
    obtain ⟨entries, stem, hlisted, -⟩ := h
    cases hlisted
  · have hinput : blank.verb.HasInput (FileTree.host [0x68]) start blankTree blankTree :=
      hasInput_of_payload hpayload "a" start
    have hdir : blank.options.keyDirectory = some "keys" := rfl
    have hunloadable : ∀ entries, (.ok blankListing : Except OsError _) = .ok entries →
        ¬ KeyStore.Loadable {} entries := by
      intro entries hentries hload
      obtain rfl : blankListing = entries := Except.ok.inj hentries
      cases (ofDirectory_blankListing "keys").symm.trans
        (KeyStore.ofDirectory_eq_ok_iff.mpr ⟨hload, rfl⟩)
    obtain ⟨hname, -⟩ := exitCode_of_unloadable hdir hinput
      (listDirectory_host listDirectory_blankTree [0x68]) hunloadable
    exact hname.mpr ⟨_, _, rfl, stopsAtName_blankListing⟩

theorem suppliesEnvelope_given : (Source.given "78").SuppliesEnvelope blankTree [] [0x78] :=
  Hex.decodeTrimmed_eq_ok_iff.mp (by decide)

theorem not_loads_blankTree (options : Options) (h : options.keyDirectory = some "keys")
    (store : KeyStore) : ¬ options.Loads blankTree store := by
  unfold Options.Loads
  rw [h]
  show (KeyStore.ofDirectory {} "keys" (blankTree.listDirectory (Utf8.encode "keys"))).1 ≠ .ok store
  rw [listDirectory_blankTree, ofDirectory_blankListing]
  nofun

theorem exec_unseal_blankTree (options : Options) (h : options.keyDirectory = some "keys")
    (start : Activity) :
    ∃ account, (run (FileTree.host []) ⟨options, .unseal (.given "78")⟩).exec start blankTree =
      ((.error (.keysNotLoaded (.invalidName "a b")), account), blankTree) := by
  have hinput := hasInput_of_envelope suppliesEnvelope_given start
  have hlisting := listDirectory_host listDirectory_blankTree []
  exact exec_run_of_refusal h hinput hlisting (ofDirectory_blankListing "keys")

/-- Not every key directory that cannot be loaded has the exit code of a bad configuration. -/
theorem unloadable_without_78 : ¬ ∀ (t : FileTree) (input b : Bytes) (options : Options)
    (source : Source) (start : Activity), source.SuppliesEnvelope t input b →
      (∀ store, ¬ options.Loads t store) →
      (outcome (FileTree.host input) ⟨options, .unseal source⟩ start t).1.exitCode = 78 := by
  intro h
  have hexit := h blankTree [] [0x78] { keyDirectory := some "keys" } (.given "78")
    { tape := .counting 0 } suppliesEnvelope_given (not_loads_blankTree _ rfl)
  obtain ⟨account, hrun⟩ := exec_unseal_blankTree { keyDirectory := some "keys" } rfl
    { tape := .counting 0 }
  rw [(outcome_of_error hrun).1] at hexit
  exact absurd hexit (by decide)

end

end SealedRecords.Command
