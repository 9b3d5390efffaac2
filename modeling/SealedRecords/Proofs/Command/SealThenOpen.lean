import SealedRecords.Proofs.Cipher.Gcm
import SealedRecords.Proofs.Command.Steps
import SealedRecords.Proofs.Files.Listing
import SealedRecords.Proofs.Json.FlatObjects
import SealedRecords.Proofs.Keys.Loading
import SealedRecords.Proofs.Keys.Resolving

/-!
# Sealing on the command line, and opening again

Sealing and opening are two runs of the program, on trees of files that need not
be the same, with input from different places. What ties them together is the
envelope: the first run prints it in one of four formats, and somebody hands it to
the second run as bytes or in hexadecimal.

A name in a key directory that loads has all that sealing asks for. It is a
reference that a frame can carry, because it was the name of a file, and its key
has the length that the cipher wants. So no run of `seal` fails behind the point
where its input and its keys were read:

> `exec_runSeal_named`, `exec_runSeal_clear`: what sealing gives.

> `shows_sealedEnvelope`: what is printed for programs, and the line for people,
> tell the bytes of the envelope.

> `exec_runUnseal`: opening gives the payload, if the record cipher does.
-/

namespace SealedRecords.Command

open SealedRecords

/-! ## Printed envelopes -/

/-- An output tells the bytes of an envelope: it is the envelope, or it has them in hexadecimal as
its only line or in the field `envelope_hex` of a JSON object. A table is for people to look at. -/
def OutputFormat.Shows (format : OutputFormat) (output envelope : Bytes) : Prop :=
  match format with
  | .raw => output = envelope
  | .pretty => ∃ text, output = Utf8.encode text ∧ Hex.Written envelope text
  | .json => envelope.length ≤ Json.maxSignificand → ∃ v text, Json.parse output = .ok v ∧
      v.field? "envelope_hex" = some (.text text) ∧ Hex.Written envelope text
  | .table => True

/-- An envelope is told by what is printed of it. For JSON its length has to be a number of 64
bits, as that of every sequence of bytes in memory is. -/
theorem shows_sealedEnvelope (format : OutputFormat) (r : Option KeyRef) {n : Nat}
    {envelope : Bytes} (hn : n ≤ envelope.length) :
    format.Shows (sealedEnvelope format r n envelope) envelope := by
  cases format with
  | raw => rfl
  | table => trivial
  | pretty => exact ⟨Hex.encode envelope ++ "\n", rfl, Hex.written_line envelope⟩
  | json =>
    intro hlength
    have hflat : ∀ f ∈ [("key_ref", JsonValue.text? (r.map KeyRef.display)),
        ("envelope_hex", .text (Hex.encode envelope)), ("envelope_size", .nat envelope.length),
        ("payload_size", .nat n)], Json.IsFlat f.2 := by
      simp only [List.forall_mem_cons]
      exact ⟨.text? _, .text _, .nat hlength, .nat (Nat.le_trans hn hlength),
        fun _ h => absurd h List.not_mem_nil⟩
    refine ⟨_, Hex.encode envelope, Json.parse_object hflat, ?_, Hex.written_encode envelope⟩
    -- the fields behind it have other names
    show NameMap.get? (Json.fieldsRead _ []) "envelope_hex" = _
    simp only [Json.fieldsRead, List.foldl_cons, List.foldl_nil]
    rw [NameMap.get?_put_of_ne (by decide), NameMap.get?_put_of_ne (by decide),
      NameMap.get?_put_self]

/-! ## Keys that were loaded -/

variable {t : FileTree} {input payload envelope key : Bytes} {source : Source}
  {options : Options} {store : KeyStore} {name : String}

/-- A name in a key directory that loads is a reference that a frame can carry, and its key is one
that the cipher takes. -/
theorem key_of_loads (hload : options.Loads t store) (hname : store.contains name = true) :
    ∃ key, store.get? name = some key ∧ key.length = Gcm.keySize ∧
      (KeyRef.ofText name).isEmpty = false ∧
      (KeyRef.ofText name).size ≤ Envelope.maxKeyRefSize := by
  obtain ⟨key, hkey⟩ := Option.isSome_iff_exists.mp hname
  unfold Options.Loads at hload
  cases hdir : options.keyDirectory with
  | none =>
    simp only [hdir] at hload
    subst hload
    cases hkey
  | some dir =>
    simp only [hdir] at hload
    cases hlist : t.listDirectory (Utf8.encode dir) with
    | error e =>
      rw [hlist] at hload
      cases hload
    | ok entries =>
      rw [hlist] at hload
      obtain ⟨hname, haccepts⟩ := KeyStore.accepted_of_ofDirectory hload hkey
      obtain ⟨e, he, hstem, content, hkind, -⟩ := KeyStore.file_of_ofDirectory hload hkey
      have hshort := FileTree.length_name_lt hlist he hkind
      rw [KeyStore.eq_encode_of_names hstem hname, Utf8.encode_append, List.length_append] at hshort
      refine ⟨key, hkey, haccepts, ?_, ?_⟩
      · rw [Envelope.not_isEmpty_iff]
        intro hempty
        exact hname.1 (Utf8.encode_injective hempty)
      · show (Utf8.encode name).length ≤ 4294967295
        have hlimit : FileTree.pathLimit = 4096 := rfl
        omega

/-! ## Sealing -/

/-- The envelope of a payload under the key of a name, with the next nonce of a tape. -/
def sealedUnder (aad : Option String) (name : String) (key payload : Bytes) (tape : RandomTape) :
    Bytes :=
  Envelope.frame (Utf8.encode name) (Gcm.encryptWith (Gcm.blockOf (Aes.roundKeys key))
    (match aad with
      | some aad => Utf8.encode aad
      | none => []) (tape.window tape.drawn Gcm.nonceSize) payload)

theorem length_le_sealedUnder (aad : Option String) (name : String) (key payload : Bytes)
    (tape : RandomTape) : payload.length ≤ (sealedUnder aad name key payload tape).length := by
  unfold sealedUnder
  rw [Envelope.length_frame, Gcm.length_encryptWith (Gcm.length_blockOf _) _ _ _
    (RandomTape.length_window _ _ _)]
  omega

theorem keys_recordCipher (options : Options) (store : KeyStore) (name : String) :
    (recordCipher options store).keys (KeyRef.ofText name) = { key := store.get? name } :=
  store.provider_ofText name

/-- Under the name of a key of the right length a payload is sealed. -/
theorem exec_encode_named (hkey : store.get? name = some key) (hlength : key.length = Gcm.keySize)
    (hne : (KeyRef.ofText name).isEmpty = false)
    (hsize : (KeyRef.ofText name).size ≤ Envelope.maxKeyRefSize) (options : Options)
    (payload : Bytes) (a : Activity) :
    ∃ a', ((recordCipher options store).encode (some (KeyRef.ofText name)) payload).exec a
      = (.ok (sealedUnder options.aad name key payload a.tape), a') := by
  have hfound : ((recordCipher options store).keys (KeyRef.ofText name)).key = some key := by
    rw [keys_recordCipher, hkey]
  have hencrypt := Gcm.encrypt_of_length hlength
    (match options.aad with
      | some aad => Utf8.encode aad
      | none => []) payload a.tape
  have hcipher : (recordCipher options store).cipher = Gcm.cipher
      (match options.aad with
        | some aad => Utf8.encode aad
        | none => []) := rfl
  rw [RecordCipher.encode_some _ hne, RecordCipher.encrypt_of_resolved hfound, hcipher, hencrypt]
  simp only [if_pos hsize]
  exact ⟨_, rfl⟩

theorem exec_runSeal_named (hload : options.Loads t store) (hkey : store.get? name = some key)
    (hlength : key.length = Gcm.keySize) (hne : (KeyRef.ofText name).isEmpty = false)
    (hsize : (KeyRef.ofText name).size ≤ Envelope.maxKeyRefSize)
    (hpayload : source.SuppliesPayload t input payload) (a : Activity) :
    ∃ a', (runSeal (FileTree.host input) options (some name) source).exec a t
      = ((.ok (sealedEnvelope options.format (some (KeyRef.ofText name)) payload.length
          (sealedUnder options.aad name key payload a.tape)), a'), t) := by
  obtain ⟨log, hkeys⟩ := exec_loadKeys hload input a
  obtain ⟨a', hencode⟩ := exec_encode_named hkey hlength hne hsize options payload
    { a with log := log }
  unfold runSeal
  rw [Work.exec_bind_of_ok (exec_readPayload hpayload a)]
  simp only [Work.exec_bind_of_ok hkeys, Work.exec_bind, Work.exec_account, hencode]
  exact ⟨_, rfl⟩

/-- Without a name the payload goes into a frame in clear, and no keys are read. -/
theorem exec_runSeal_clear (hpayload : source.SuppliesPayload t input payload) (options : Options)
    (a : Activity) :
    ∃ a', (runSeal (FileTree.host input) options none source).exec a t
      = ((.ok (sealedEnvelope options.format none payload.length (Envelope.frame [] payload)), a'),
          t) := by
  have hframe : (Envelope.encodePlain payload []).2 = Envelope.frame [] payload := by
    rw [Envelope.encodePlain_eq, List.nil_append]
  unfold runSeal
  rw [Work.exec_bind_of_ok (exec_readPayload hpayload a)]
  simp only [Work.exec_bind, Work.exec_account, hframe]
  exact ⟨_, rfl⟩

/-! ## Opening -/

theorem exec_runUnseal {ref : Option KeyRef} (hload : options.Loads t store)
    (henvelope : source.SuppliesEnvelope t input envelope)
    (hdecode : ∀ a, (((recordCipher options store).decode envelope).exec a).1
      = .ok ⟨ref, .ok payload⟩) (a : Activity) :
    ∃ a', (runUnseal (FileTree.host input) options source).exec a t
      = ((.ok (openedPayload options.format ref payload), a'), t) := by
  obtain ⟨a₁, a', hrun⟩ := exec_runUnseal_eq hload henvelope a
  rw [hdecode a₁] at hrun
  exact ⟨a', hrun⟩

/-- A run of `open` in the format `raw` on an envelope that opens prints the payload. -/
theorem succeeds_unseal {ref : Option KeyRef} (hload : options.Loads t store)
    (henvelope : source.SuppliesEnvelope t input envelope) (hraw : options.format = .raw)
    (hdecode : ∀ a, (((recordCipher options store).decode envelope).exec a).1
      = .ok ⟨ref, .ok payload⟩) (start : Activity) :
    Succeeds (outcome (FileTree.host input) ⟨options, .unseal source⟩ start t) (· = payload) t := by
  obtain ⟨a', hrun⟩ := exec_runUnseal hload henvelope hdecode start
  rw [hraw] at hrun
  exact succeeds_of_exec hrun rfl rfl

/-- **What was sealed on the command line is opened again.** Take any keys, the name of one of
them, any additional data and payload, and any tape. There is one envelope that every run of `seal`
with that name, payload and data, on that tape and with a key directory that loads to those keys,
tells in every format, wherever its payload comes from; and every run of `open` in the format `raw`
with the same data and a directory that loads to the same keys, fed the bytes of that envelope as a
file, as its input, or in any hexadecimal spelling on the command line, prints the payload. Without
a name the same holds for every payload, those that look like an envelope too, whatever keys are
loaded and whatever the additional data. No run changes a file. -/
theorem unseal_after_seal :
    (∀ (store : KeyStore) (name : String) (aad : Option String) (payload : Bytes)
        (tape : RandomTape), store.contains name = true →
      ∃ envelope : Bytes,
        (∀ (t : FileTree) input options source (start : Activity), options.Loads t store →
          options.aad = aad → source.SuppliesPayload t input payload → start.tape = tape →
          Succeeds (outcome (FileTree.host input) ⟨options, .seal (some name) source⟩ start t)
            (fun output => options.format.Shows output envelope) t) ∧
        ∀ (t : FileTree) input options source (start : Activity), options.Loads t store →
          options.aad = aad → options.format = .raw → source.SuppliesEnvelope t input envelope →
          Succeeds (outcome (FileTree.host input) ⟨options, .unseal source⟩ start t)
            (· = payload) t) ∧
    ∀ payload : Bytes, ∃ envelope : Bytes,
      (∀ (t : FileTree) input options source (start : Activity),
        source.SuppliesPayload t input payload →
        Succeeds (outcome (FileTree.host input) ⟨options, .seal none source⟩ start t)
          (fun output => options.format.Shows output envelope) t) ∧
      ∀ (t : FileTree) input options source (start : Activity) store, options.Loads t store →
        options.format = .raw → source.SuppliesEnvelope t input envelope →
        Succeeds (outcome (FileTree.host input) ⟨options, .unseal source⟩ start t)
          (· = payload) t := by
  constructor
  · intro store name aad payload tape hname
    obtain ⟨key, hkey⟩ := Option.isSome_iff_exists.mp hname
    refine ⟨sealedUnder aad name key payload tape, ?_, ?_⟩
    · rintro t input options source start hload rfl hpayload rfl
      obtain ⟨key', hkey', hlength, hne, hsize⟩ := key_of_loads hload hname
      obtain rfl : key = key' := Option.some.inj (hkey.symm.trans hkey')
      obtain ⟨a', hrun⟩ := exec_runSeal_named hload hkey hlength hne hsize hpayload start
      exact succeeds_of_exec hrun rfl (shows_sealedEnvelope _ _ (length_le_sealedUnder _ _ _ _ _))
    · rintro t input options source start hload rfl hraw henvelope
      obtain ⟨key', hkey', hlength, hne, hsize⟩ := key_of_loads hload hname
      obtain rfl : key = key' := Option.some.inj (hkey.symm.trans hkey')
      obtain ⟨a', hencode⟩ := exec_encode_named hkey hlength hne hsize options payload
        { tape := tape }
      have hdecode : ∀ a, (((recordCipher options store).decode
          (sealedUnder options.aad name key payload tape)).exec a).1
          = .ok ⟨some (KeyRef.ofText name), .ok payload⟩ := by
        intro a
        rw [RecordCipher.decode_encode (Gcm.cipher_inverts _) hencode a]
      exact succeeds_unseal hload henvelope hraw hdecode start
  · intro payload
    refine ⟨Envelope.frame [] payload, ?_, ?_⟩
    · intro t input options source start hpayload
      obtain ⟨a', hrun⟩ := exec_runSeal_clear hpayload options start
      have hlength : payload.length ≤ (Envelope.frame [] payload).length := by
        rw [Envelope.length_frame]
        omega
      exact succeeds_of_exec hrun rfl (shows_sealedEnvelope _ _ hlength)
    · intro t input options source start store hload hraw henvelope
      have hdecode : ∀ a, (((recordCipher options store).decode
          (Envelope.frame [] payload)).exec a).1 = .ok ⟨none, .ok payload⟩ := by
        intro a
        rw [RecordCipher.decode_of_clear _ (Envelope.decode_frame_nil payload) rfl]
        rfl
      exact succeeds_unseal hload henvelope hraw hdecode start

set_option maxRecDepth 4000 in
/-- A key directory with one key, in capitals and with a line feed behind it. The payload is on the
command line of the first run, and the envelope is the input of the second. -/
theorem unseal_after_seal_oneKey :
    let t : FileTree := {
      nodes := [([Utf8.encode "keys"], .directory),
        ([Utf8.encode "keys", Utf8.encode "K1.key"],
          .file (Utf8.encode (String.ofList (List.replicate 64 'A') ++ "\n")) 0o600)] }
    let options : Options := { keyDirectory := some "keys", aad := some "orders" }
    let start : Activity := { tape := .counting 0 }
    ∃ envelope, Succeeds (outcome (FileTree.host []) ⟨options, .seal (some "K1") (.given "hi")⟩
        start t) (· = envelope) t ∧
      Succeeds (outcome (FileTree.host envelope) ⟨options, .unseal .input⟩ start t)
        (· = [0x68, 0x69]) t := by
  intro t options start
  have hload : options.Loads t { keys := [("K1", List.replicate 32 0xAA)] } := by
    show (KeyStore.ofDirectory {} "keys" (t.listDirectory (Utf8.encode "keys"))).1 = .ok _
    cbv
  have hgiven : (Source.given "hi").SuppliesPayload t [] [0x68, 0x69] :=
    show Utf8.encode "hi" = _ by decide
  obtain ⟨envelope, hseal, hunseal⟩ := unseal_after_seal.1
    { keys := [("K1", List.replicate 32 0xAA)] } "K1" (some "orders") [0x68, 0x69] (.counting 0)
    (by decide)
  exact ⟨envelope, hseal t [] options (.given "hi") start hload rfl hgiven rfl,
    hunseal t envelope options .input start hload rfl rfl rfl⟩

end SealedRecords.Command
