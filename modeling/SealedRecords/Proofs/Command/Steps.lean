import SealedRecords.Command.Run
import SealedRecords.FileTree
import SealedRecords.Proofs.Text.Hex

/-!
# Commands at work

A command asks its host, keeps an account and may fail. `Work.exec` runs one on a
host whose operations change a state, and the equations below take a run apart at
its binds. `outcome` then has one equation for each way in which a run can end.

The parts that several commands share are described once, for a tree of files as
the host. Where the input of a command comes from is `Source.Supplies`, which keys
it works with is `Options.Loads`:

> `exec_readPayload`, `exec_readEnvelope`, `exec_loadKeys`: reading changes
> nothing on the host, and loading keys leaves the tape alone.
-/

namespace SealedRecords.Command

open SealedRecords

namespace Work

variable {σ : Type}

/-- What a command ends with on a system, the account that it leaves, and the system. -/
def exec (x : Work (StateM σ) α) (a : Activity) (w : σ) : (Except Failure α × Activity) × σ :=
  (x.run.run a).run w

@[simp] theorem exec_pure (r : α) (a : Activity) (w : σ) :
    (pure r : Work (StateM σ) α).exec a w = ((.ok r, a), w) := rfl

@[simp] theorem exec_throw (e : Failure) (a : Activity) (w : σ) :
    (throw e : Work (StateM σ) α).exec a w = ((.error e, a), w) := rfl

theorem exec_ask (x : StateM σ α) (a : Activity) (w : σ) :
    (ask x).exec a w = ((.ok (x w).1, a), (x w).2) := rfl

@[simp] theorem exec_account (x : Act α) (a : Activity) (w : σ) :
    (account x : Work (StateM σ) α).exec a w = ((.ok (x.exec a).1, (x.exec a).2), w) := rfl

theorem exec_bind (x : Work (StateM σ) α) (f : α → Work (StateM σ) β) (a : Activity) (w : σ) :
    (x >>= f).exec a w =
      match x.exec a w with
      | ((.ok r, a'), w') => (f r).exec a' w'
      | ((.error e, a'), w') => ((.error e, a'), w') := by
  show (((ExceptT.bindCont f (x.exec a w).1.1).run (x.exec a w).1.2).run (x.exec a w).2) = _
  rcases x.exec a w with ⟨⟨e | r, a'⟩, w'⟩
  · rfl
  · rfl

variable {x : Work (StateM σ) α} {f : α → Work (StateM σ) β} {r : α} {e : Failure}
  {a a' : Activity} {w w' : σ}

theorem exec_bind_of_ok (h : x.exec a w = ((.ok r, a'), w')) :
    (x >>= f).exec a w = (f r).exec a' w' := by
  rw [exec_bind, h]

theorem exec_bind_of_error (h : x.exec a w = ((.error e, a'), w')) :
    (x >>= f).exec a w = ((.error e, a'), w') := by
  rw [exec_bind, h]

/-- A question to the host that has an answer. -/
theorem exec_attempt_of_ok {y : StateM σ (Except OsError α)} (failure : OsError → Failure)
    (h : y w = (.ok r, w')) (a : Activity) :
    (attempt y failure).exec a w = ((.ok r, a), w') := by
  unfold attempt
  rw [exec_bind, exec_ask, h]
  rfl

theorem exec_attempt_of_error {y : StateM σ (Except OsError α)} (failure : OsError → Failure)
    {cause : OsError} (h : y w = (.error cause, w')) (a : Activity) :
    (attempt y failure).exec a w = ((.error (failure cause), a), w') := by
  unfold attempt
  rw [exec_bind, exec_ask, h]
  rfl

end Work

/-! ## What a caller sees -/

section

variable {σ : Type} {host : Host (StateM σ)} {call : Invocation} {start account : Activity}
  {w w' : σ}

theorem outcome_eq (host : Host (StateM σ)) (call : Invocation) (start : Activity) (w : σ) :
    outcome host call start w =
      match (run host call).exec start w with
      | ((.ok output, account), w') =>
        (call.printed output (loggedEvents call.options.logLevel account.log)
          (host.print output w').1, (host.print output w').2)
      | ((.error e, account), w') =>
        ({ exitCode := e.exitCode, log := loggedEvents call.options.logLevel account.log,
           failure := some e.message }, w') := by
  have hrun : (run host call).run start w = (run host call).exec start w := rfl
  unfold outcome
  simp only [bind, StateT.bind, hrun]
  rcases (run host call).exec start w with ⟨⟨e | output, account⟩, w'⟩
  · rfl
  · rfl

theorem outcome_of_ok {output : Bytes}
    (h : (run host call).exec start w = ((.ok output, account), w'))
    (hprint : host.print output w' = (.ok (), w')) :
    (outcome host call start w).1.exitCode = 0 ∧
      (outcome host call start w).1.output = output := by
  rw [outcome_eq, h]
  simp only [hprint]
  exact ⟨rfl, rfl⟩

theorem outcome_of_error {e : Failure}
    (h : (run host call).exec start w = ((.error e, account), w')) :
    (outcome host call start w).1.exitCode = e.exitCode ∧
      (outcome host call start w).1.failure = some e.message := by
  rw [outcome_eq, h]
  exact ⟨rfl, rfl⟩

/-- A run of a command ended well: it printed something as described, and left the system `w`. -/
structure Succeeds (result : Outcome × σ) (output : Bytes → Prop) (w : σ) : Prop where
  exitCode : result.1.exitCode = 0
  failure : result.1.failure = none
  output : output result.1.output
  system : result.2 = w

theorem osExitCode_ne_zero (e : OsError) : osExitCode e ≠ 0 := by
  cases e <;> simp [osExitCode]

theorem Failure.exitCode_ne_zero (e : Failure) : e.exitCode ≠ 0 := by
  cases e with
  | readFailed path cause => exact osExitCode_ne_zero cause
  | inputFailed cause => exact osExitCode_ne_zero cause
  | createFailed path cause => exact osExitCode_ne_zero cause
  | writeFailed path cause => exact osExitCode_ne_zero cause
  | envelope verb cause => cases cause <;> simp [exitCode, envelopeExitCode]
  | keysNotLoaded cause => cases cause <;> simp [exitCode, keyStoreExitCode]
  | invalidKey cause => cases cause <;> simp [exitCode, keyStoreExitCode]
  | _ => simp [exitCode]

/-- A good exit code says that the command has a result. -/
theorem exec_of_exitCode_eq_zero (h : (outcome host call start w).1.exitCode = 0) :
    ∃ output account w', (run host call).exec start w = ((.ok output, account), w') ∧
      (outcome host call start w).2 = (host.print output w').2 := by
  revert h
  rw [outcome_eq]
  rcases (run host call).exec start w with ⟨⟨e | output, account⟩, w'⟩
  · exact fun h => absurd h e.exitCode_ne_zero
  · exact fun _ => ⟨output, account, w', rfl, rfl⟩

theorem succeeds_of_exec {output : Bytes} {P : Bytes → Prop}
    (h : (run host call).exec start w = ((.ok output, account), w'))
    (hprint : host.print output w' = (.ok (), w')) (hP : P output) :
    Succeeds (outcome host call start w) P w' := by
  rw [outcome_eq, h]
  simp only [hprint]
  exact ⟨rfl, rfl, hP, rfl⟩

end

/-! ## Where input and keys come from -/

/-- The input of a command on a tree is `b`. What stands on the command line itself is taken for
bytes as `given` says. -/
def Source.Supplies (t : FileTree) (input : Bytes) (given : String → Bytes → Prop) (b : Bytes) :
    Source → Prop
  | .given text => given text b
  | .file path => t.fileContent (Utf8.encode path) = .ok b
  | .input => input = b

/-- The payload to seal: a text on the command line stands for its bytes. -/
def Source.SuppliesPayload (source : Source) (t : FileTree) (input b : Bytes) : Prop :=
  source.Supplies t input (fun text b => Utf8.encode text = b) b

/-- The envelope to open: a text on the command line spells it in hexadecimal. -/
def Source.SuppliesEnvelope (source : Source) (t : FileTree) (input b : Bytes) : Prop :=
  source.Supplies t input (fun text b => Hex.Written b text) b

/-- The keys that a command on a tree works with: those of its key directory, or none. -/
def Options.Loads (options : Options) (t : FileTree) (store : KeyStore) : Prop :=
  match options.keyDirectory with
  | none => store = {}
  | some dir => (KeyStore.ofDirectory {} dir (t.listDirectory (Utf8.encode dir))).1 = .ok store

variable {t : FileTree} {input b : Bytes} {source : Source} {options : Options} {store : KeyStore}

theorem exec_readBytes_file {path : String} (h : t.fileContent (Utf8.encode path) = .ok b)
    (input : Bytes) (a : Activity) :
    (readBytes (FileTree.host input) (some path)).exec a t = ((.ok b, a), t) := by
  have hask : (FileTree.host input).fileContent path t = (.ok b, t) := by
    show (t.fileContent (Utf8.encode path), t) = _
    rw [h]
  exact Work.exec_attempt_of_ok _ hask a

theorem exec_readPayload (h : source.SuppliesPayload t input b) (a : Activity) :
    (readPayload (FileTree.host input) source).exec a t = ((.ok b, a), t) := by
  cases source with
  | given text =>
    obtain rfl : Utf8.encode text = b := h
    rfl
  | file path => exact exec_readBytes_file h input a
  | input =>
    obtain rfl : input = b := h
    rfl

theorem exec_readEnvelope (h : source.SuppliesEnvelope t input b) (a : Activity) :
    (readEnvelope (FileTree.host input) source).exec a t = ((.ok b, a), t) := by
  cases source with
  | given text =>
    have hdecode := Hex.decodeTrimmed_eq_ok_iff.mpr h
    unfold readEnvelope
    simp only [hdecode]
    rfl
  | file path => exact exec_readBytes_file h input a
  | input =>
    obtain rfl : input = b := h
    rfl

/-- Loading keys adds to the log and to nothing else. -/
theorem exec_loadKeys (h : options.Loads t store) (input : Bytes) (a : Activity) :
    ∃ log, (loadKeys (FileTree.host input) options).exec a t
      = ((.ok store, { a with log := log }), t) := by
  unfold Options.Loads at h
  unfold loadKeys
  cases hdir : options.keyDirectory with
  | none =>
    rw [hdir] at h
    obtain rfl : store = {} := h
    exact ⟨_, rfl⟩
  | some dir =>
    simp only [hdir] at h
    have hask : (Work.ask ((FileTree.host input).listDirectory dir)).exec a t
        = ((.ok (t.listDirectory (Utf8.encode dir)), a), t) := rfl
    simp only [Work.exec_bind_of_ok hask]
    rcases hresult : KeyStore.ofDirectory {} dir (t.listDirectory (Utf8.encode dir))
      with ⟨result, events⟩
    rw [hresult] at h
    obtain rfl : result = .ok store := h
    exact ⟨_, rfl⟩

/-- What is opened is what the record cipher makes of the input. Keys that were loaded have left
events in the account, which it does not look at. -/
theorem exec_runUnseal_eq (hload : options.Loads t store)
    (henvelope : source.SuppliesEnvelope t input b) (a : Activity) :
    ∃ a₁ a', (runUnseal (FileTree.host input) options source).exec a t =
      ((match (((recordCipher options store).decode b).exec a₁).1 with
        | .ok ⟨ref, .ok payload⟩ => .ok (openedPayload options.format ref payload)
        | .ok ⟨_, .error e⟩ => .error (.crypto "open" e)
        | .error e => .error (.envelope "open" e), a'), t) := by
  obtain ⟨log, hkeys⟩ := exec_loadKeys hload input a
  unfold runUnseal
  rw [Work.exec_bind_of_ok (exec_readEnvelope henvelope a), Work.exec_bind_of_ok hkeys,
    Work.exec_bind, Work.exec_account]
  refine ⟨{ a with log := log }, (((recordCipher options store).decode b).exec
    { a with log := log }).2, ?_⟩
  rcases ((recordCipher options store).decode b).exec { a with log := log } with
    ⟨e | ⟨ref, e | payload⟩, a'⟩
  · rfl
  · rfl
  · rfl

end SealedRecords.Command
