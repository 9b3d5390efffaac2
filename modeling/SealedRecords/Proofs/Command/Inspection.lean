import SealedRecords.Proofs.Command.Steps
import SealedRecords.Proofs.Envelope.WireFormat
import SealedRecords.Proofs.Json.FlatObjects
import SealedRecords.Proofs.Keys.Resolving
import SealedRecords.Proofs.RecordCipher.Outcomes

/-!
# Inspecting and opening

Two commands read an envelope. `inspect` shows what the envelope says about itself,
without keys; `open` takes the payload out of it. They may be run by different
people, with other options, on other trees of files. What they have in common is
the input, and that is enough for them to agree about it: each has one equation
that puts its outcome down to what `Envelope.decode` makes of the input, and to
the keys if the envelope is sealed.

> `inspect_of_decode`, `inspect_of_error`: what a caller of `inspect` sees.

> `open_of_clear`, `open_of_sealed`, `open_of_error`: what a caller of `open` sees.

`Report` is what `inspect` tells, and `OutputFormat.Reports` how it is told in each
format: `reports_inspected`.
-/

namespace SealedRecords

/-! ## The parts of an envelope in the input -/

namespace Envelope

variable {b : Bytes} {env : Envelope}

/-- The payload or the ciphertext stands at the end of the input. -/
theorem body_of_decode (h : decode b = .ok env) :
    env.body = b.drop (b.length - env.body.length) := by
  refine List.suffix_iff_eq_drop.mp ?_
  cases env with
  | raw body =>
    obtain ⟨-, rfl⟩ := decode_eq_raw_iff.mp h
    exact List.suffix_refl _
  | plain body =>
    obtain rfl := decode_eq_plain_iff.mp h
    exact List.suffix_append _ _
  | «sealed» r ciphertext =>
    obtain ⟨-, -, rfl⟩ := decode_eq_sealed_iff.mp h
    exact List.suffix_append _ _

/-- The reference of a sealed envelope stands behind the head. -/
theorem reference_of_decode {r : KeyRef} {ciphertext : Bytes}
    (h : decode b = .ok (.sealed r ciphertext)) : (b.drop headerSize).take r.size = r.bytes := by
  obtain ⟨-, -, rfl⟩ := decode_eq_sealed_iff.mp h
  exact reference_of_frame r.bytes ciphertext

theorem eq_sealed_of_keyRef? {r : KeyRef} (h : env.keyRef? = some r) :
    ∃ ciphertext, env = .sealed r ciphertext := by
  cases env with
  | raw body => cases h
  | plain body => cases h
  | «sealed» r' ciphertext =>
    obtain rfl : r' = r := Option.some.inj h
    exact ⟨ciphertext, rfl⟩

/-- The words for the kinds tell the sealed envelopes from the others. -/
theorem keyRef?_of_kind :
    (env.kind = "raw" ∨ env.kind = "plain" → env.keyRef? = none) ∧
      (env.kind = "sealed" → ∃ r, env.keyRef? = some r) := by
  cases env with
  | raw body => simp [kind, keyRef?]
  | plain body => simp [kind, keyRef?]
  | «sealed» r ciphertext => simp [kind, keyRef?]

/-- Only an input that is cut short cannot be read. -/
theorem decode_eq_error_iff_isCutShort :
    (∃ e, decode b = .error e) ↔ IsCutShort b := by
  constructor
  · intro h
    obtain ⟨e, he⟩ := h
    obtain ⟨hm, hl, -⟩ := decode_eq_error_iff.mp he
    exact isCutShort_of_lacking hm hl
  · intro h
    obtain ⟨-, needed, hdecode, -⟩ := h
    exact ⟨_, hdecode⟩

end Envelope

namespace Command

/-! ## Reports -/

/-- What `inspect` tells about an envelope. -/
structure Report where
  kind : String
  /-- The reference as people see it. -/
  keyRef : Option String
  keyRefHex : Option String
  keyRefSize : Nat
  bodySize : Nat
  wireSize : Nat
  deriving DecidableEq, Repr

namespace Report

/-- A report as the fields of an object. -/
def fields (r : Report) : List (String × JsonValue) :=
  [("kind", .text r.kind), ("key_ref", .text? r.keyRef), ("key_ref_hex", .text? r.keyRefHex),
    ("key_ref_len", .nat r.keyRefSize), ("body_size", .nat r.bodySize),
    ("wire_size", .nat r.wireSize)]

/-- The report on an envelope. -/
def of (env : Envelope) : Report where
  kind := env.kind
  keyRef := env.keyRef?.map KeyRef.display
  keyRefHex := env.keyRef?.map fun r => Hex.encode r.bytes
  keyRefSize := (env.keyRef?.map KeyRef.size).getD 0
  bodySize := env.body.length
  wireSize := env.wireSize

/-- No size in a report is larger than the size on the wire. -/
theorem sizes_le (env : Envelope) :
    (of env).keyRefSize ≤ (of env).wireSize ∧ (of env).bodySize ≤ (of env).wireSize := by
  cases env with
  | raw body => exact ⟨Nat.zero_le _, Nat.le_refl _⟩
  | plain body => exact ⟨Nat.zero_le _, Nat.le_add_left ..⟩
  | «sealed» r ciphertext =>
    show r.size ≤ Envelope.headerSize + r.size + ciphertext.length ∧
      ciphertext.length ≤ Envelope.headerSize + r.size + ciphertext.length
    omega

end Report

/-- An output tells a report: for programs it is an object with the fields of the report, for people
a line or a table. The object is read with these fields if the size on the wire is a number of 64
bits, as that of every sequence of bytes in memory is. -/
def OutputFormat.Reports (format : OutputFormat) (output : Bytes) (r : Report) : Prop :=
  let ref := r.keyRef.getD "-"
  match format with
  | .json | .raw => output = line (JsonValue.object r.fields).render ∧
    (r.wireSize ≤ Json.maxSignificand →
      ∃ v, Json.parse output = .ok v ∧ ∀ f ∈ r.fields, v.field? f.1 = some f.2)
  | .table => output = line (Grid.render ["KIND", "KEY REF", "KEY REF LEN", "BODY", "WIRE"]
      [[r.kind, ref, toString r.keyRefSize, toString r.bodySize, toString r.wireSize]])
  | .pretty =>
    let n := r.keyRefSize
    let body := r.bodySize
    output = line s!"kind={r.kind} key_ref={ref} key_ref_len={n} body={body} wire={r.wireSize}"

/-- The fields of a report are read back. -/
theorem parse_fields {r : Report} (hsizes : r.keyRefSize ≤ r.wireSize ∧ r.bodySize ≤ r.wireSize)
    (hwire : r.wireSize ≤ Json.maxSignificand) :
    ∃ v, Json.parse (line (JsonValue.object r.fields).render) = .ok v ∧
      ∀ f ∈ r.fields, v.field? f.1 = some f.2 := by
  have hflat : ∀ f ∈ r.fields, Json.IsFlat f.2 := by
    unfold Report.fields
    simp only [List.forall_mem_cons]
    exact ⟨.text _, .text? _, .text? _, .nat (Nat.le_trans hsizes.1 hwire),
      .nat (Nat.le_trans hsizes.2 hwire), .nat hwire, fun _ h => absurd h List.not_mem_nil⟩
  have hnames : (r.fields.map Prod.fst).Nodup := by
    show ["kind", "key_ref", "key_ref_hex", "key_ref_len", "body_size", "wire_size"].Nodup
    decide
  refine ⟨_, Json.parse_object hflat, ?_⟩
  intro f hf
  exact Json.get?_fieldsRead hnames hf []

theorem inspected_json (env : Envelope) :
    inspected .json env = line (JsonValue.object (Report.of env).fields).render := by
  cases env with
  | raw body => rfl
  | plain body => rfl
  | «sealed» r ciphertext => rfl

/-- What `inspect` prints tells the report on the envelope. -/
theorem reports_inspected (format : OutputFormat) (env : Envelope) :
    format.Reports (inspected format env) (Report.of env) := by
  have hjson := parse_fields (Report.sizes_le env)
  rw [← inspected_json] at hjson
  cases format with
  | json => exact ⟨inspected_json env, hjson⟩
  | raw => exact ⟨inspected_json env, hjson⟩
  | table =>
    cases env with
    | raw body => rfl
    | plain body => rfl
    | «sealed» r ciphertext => rfl
  | pretty =>
    cases env with
    | raw body => rfl
    | plain body => rfl
    | «sealed» r ciphertext => rfl

variable {t : FileTree} {input b : Bytes} {source : Source} {options : Options} {store : KeyStore}
  {env : Envelope}

/-! ## Inspecting -/

/-- What is inspected is the input alone. -/
theorem exec_runInspect (hsource : source.SuppliesEnvelope t input b) (options : Options)
    (a : Activity) :
    ∃ a', (runInspect (FileTree.host input) options source).exec a t =
      ((match Envelope.decode b with
        | .ok env => .ok (inspected options.format env)
        | .error e => .error (.envelope "inspect" e), a'), t) := by
  unfold runInspect
  rw [Work.exec_bind_of_ok (exec_readEnvelope hsource a)]
  cases Envelope.decode b with
  | ok env => exact ⟨_, rfl⟩
  | error e => exact ⟨_, rfl⟩

theorem inspect_of_decode (hsource : source.SuppliesEnvelope t input b)
    (h : Envelope.decode b = .ok env) (options : Options) (start : Activity) :
    (outcome (FileTree.host input) ⟨options, .inspect source⟩ start t).1.exitCode = 0 ∧
      (outcome (FileTree.host input) ⟨options, .inspect source⟩ start t).1.output =
        inspected options.format env := by
  obtain ⟨a', hrun⟩ := exec_runInspect hsource options start
  rw [h] at hrun
  exact outcome_of_ok hrun rfl

theorem inspect_of_error {e : EnvelopeError} (hsource : source.SuppliesEnvelope t input b)
    (h : Envelope.decode b = .error e) (options : Options) (start : Activity) :
    (outcome (FileTree.host input) ⟨options, .inspect source⟩ start t).1.exitCode =
        envelopeExitCode e ∧
      (outcome (FileTree.host input) ⟨options, .inspect source⟩ start t).1.failure =
        some ("inspect failed: " ++ e.message) := by
  obtain ⟨a', hrun⟩ := exec_runInspect hsource options start
  rw [h] at hrun
  have hfailed : (run (FileTree.host input) ⟨options, .inspect source⟩).exec start t =
      ((.error (.envelope "inspect" e), a'), t) := hrun
  exact outcome_of_error hfailed

/-! ## Opening -/

/-- The payload is what AES-GCM decrypts, under the stored key that the reference names. -/
def Options.Decrypts (options : Options) (store : KeyStore) (ref body payload : Bytes) : Prop :=
  ∃ name key, ref = Utf8.encode name ∧ store.get? name = some key ∧
    (Gcm.cipher (options.aad.elim [] Utf8.encode)).decrypt key body = .ok payload

theorem cipher_recordCipher (options : Options) (store : KeyStore) :
    (recordCipher options store).cipher = Gcm.cipher (options.aad.elim [] Utf8.encode) := by
  unfold recordCipher
  cases options.aad with
  | none => rfl
  | some aad => rfl

/-- Under a reference a payload comes out exactly if there is one that `Decrypts` describes. -/
theorem decrypt_eq_ok_iff {r : KeyRef} {body payload : Bytes} {a : Activity} :
    (((recordCipher options store).decrypt r body).exec a).1 = .ok payload ↔
      options.Decrypts store r.bytes body payload := by
  have hkeys : (recordCipher options store).keys r = store.provider r := rfl
  constructor
  · intro h
    cases hk : (store.provider r).key with
    | none =>
      rw [RecordCipher.decrypt_of_unresolved (hkeys ▸ hk)] at h
      cases h
    | some key =>
      obtain ⟨name, hname, hget⟩ := KeyStore.key_provider_eq_some_iff.mp hk
      rw [RecordCipher.decrypt_of_resolved (hkeys ▸ hk), cipher_recordCipher] at h
      refine ⟨name, key, hname, hget, ?_⟩
      cases hd : (Gcm.cipher (options.aad.elim [] Utf8.encode)).decrypt key body with
      | error e =>
        rw [hd] at h
        cases h
      | ok out =>
        rw [hd] at h
        exact congrArg Except.ok (Except.ok.inj h)
  · intro h
    obtain ⟨name, key, hname, hget, hd⟩ := h
    have hk := KeyStore.key_provider_eq_some_iff.mpr ⟨name, hname, hget⟩
    rw [RecordCipher.decrypt_of_resolved (hkeys ▸ hk), cipher_recordCipher, hd]

section

variable (hload : options.Loads t store) (hsource : source.SuppliesEnvelope t input b)

include hload hsource

theorem open_of_error {e : EnvelopeError} (h : Envelope.decode b = .error e) (start : Activity) :
    (outcome (FileTree.host input) ⟨options, .unseal source⟩ start t).1.exitCode =
        envelopeExitCode e ∧
      (outcome (FileTree.host input) ⟨options, .unseal source⟩ start t).1.failure =
        some ("open failed: " ++ e.message) := by
  obtain ⟨a₁, a', hrun⟩ := exec_runUnseal_eq hload hsource start
  rw [RecordCipher.decode_of_error _ h] at hrun
  have hfailed : (run (FileTree.host input) ⟨options, .unseal source⟩).exec start t =
      ((.error (.envelope "open" e), a'), t) := hrun
  exact outcome_of_error hfailed

/-- An envelope without a reference is opened whatever keys are loaded. -/
theorem open_of_clear (h : Envelope.decode b = .ok env) (hr : env.keyRef? = none)
    (start : Activity) :
    (outcome (FileTree.host input) ⟨options, .unseal source⟩ start t).1.exitCode = 0 ∧
      (outcome (FileTree.host input) ⟨options, .unseal source⟩ start t).1.output =
        openedPayload options.format none env.body := by
  obtain ⟨a₁, a', hrun⟩ := exec_runUnseal_eq hload hsource start
  rw [RecordCipher.decode_of_clear _ h hr] at hrun
  exact outcome_of_ok hrun rfl

/-- A sealed envelope is opened exactly if its body can be decrypted. -/
theorem open_of_sealed {r : KeyRef} {body : Bytes} (h : Envelope.decode b = .ok (.sealed r body))
    (start : Activity) :
    (∃ payload, options.Decrypts store r.bytes body payload ∧
      (outcome (FileTree.host input) ⟨options, .unseal source⟩ start t).1.exitCode = 0 ∧
      (outcome (FileTree.host input) ⟨options, .unseal source⟩ start t).1.output =
        openedPayload options.format (some r) payload) ∨
    ((∀ payload, ¬ options.Decrypts store r.bytes body payload) ∧
      (outcome (FileTree.host input) ⟨options, .unseal source⟩ start t).1.exitCode = 3) := by
  obtain ⟨a₁, a', hrun⟩ := exec_runUnseal_eq hload hsource start
  rw [RecordCipher.decode_of_sealed _ h] at hrun
  cases hd : (((recordCipher options store).decrypt r body).exec a₁).1 with
  | ok payload =>
    rw [hd] at hrun
    exact Or.inl ⟨payload, decrypt_eq_ok_iff.mp hd, outcome_of_ok hrun rfl⟩
  | error e =>
    rw [hd] at hrun
    have hfailed : (run (FileTree.host input) ⟨options, .unseal source⟩).exec start t =
        ((.error (.crypto "open" e), a'), t) := hrun
    refine Or.inr ⟨?_, (outcome_of_error hfailed).1⟩
    intro payload hpayload
    rw [decrypt_eq_ok_iff.mpr hpayload] at hd
    cases hd

/-- An envelope that can be read is opened, or its body cannot be decrypted. -/
theorem open_of_decode (h : Envelope.decode b = .ok env) (start : Activity) :
    let opening := (outcome (FileTree.host input) ⟨options, .unseal source⟩ start t).1
    opening.exitCode ≠ 60 ∧
    (env.keyRef? = none →
      opening.exitCode = 0 ∧ (options.format = .raw → opening.output = env.body)) ∧
    ∀ r, env.keyRef? = some r →
      (∃ payload, options.Decrypts store r.bytes env.body payload ∧ opening.exitCode = 0 ∧
        (options.format = .raw → opening.output = payload)) ∨
      ((∀ payload, ¬ options.Decrypts store r.bytes env.body payload) ∧ opening.exitCode = 3) := by
  intro opening
  -- in the format `raw` the payload itself is printed
  have hprinted : ∀ {ref payload}, opening.output = openedPayload options.format ref payload →
      options.format = .raw → opening.output = payload := by
    intro ref payload houtput hraw
    rw [houtput, hraw]
    rfl
  cases hr : env.keyRef? with
  | none =>
    obtain ⟨hexit, houtput⟩ := open_of_clear hload hsource h hr start
    have hne : opening.exitCode ≠ 60 := by
      intro h
      exact absurd (hexit.symm.trans h) (by decide)
    exact ⟨hne, fun _ => ⟨hexit, hprinted houtput⟩, nofun⟩
  | some r =>
    obtain ⟨ciphertext, rfl⟩ := Envelope.eq_sealed_of_keyRef? hr
    rcases open_of_sealed hload hsource h start with ⟨payload, hpayload, hexit, houtput⟩ |
      ⟨hnone, hexit⟩
    · refine ⟨fun h => absurd (hexit.symm.trans h) (by decide), nofun, ?_⟩
      intro r' hr'
      obtain rfl : r = r' := Option.some.inj hr'
      exact Or.inl ⟨payload, hpayload, hexit, hprinted houtput⟩
    · refine ⟨fun h => absurd (hexit.symm.trans h) (by decide), nofun, ?_⟩
      intro r' hr'
      obtain rfl : r = r' := Option.some.inj hr'
      exact Or.inr ⟨hnone, hexit⟩

end

/-! ## Both together -/

/-- Both commands have the exit code 60 for an input that cannot be read. -/
theorem envelopeExitCode_of_decode {e : EnvelopeError} (h : Envelope.decode b = .error e) :
    envelopeExitCode e = 60 := by
  obtain ⟨-, -, rfl⟩ := Envelope.decode_eq_error_iff.mp h
  rfl

/-- The sizes in a report and the reference in hexadecimal are those of the input. -/
theorem report_of_decode (h : Envelope.decode b = .ok env) :
    (Report.of env).wireSize = b.length ∧
    (∀ hex, (Report.of env).keyRefHex = some hex →
      hex = Hex.encode ((b.drop 10).take (Report.of env).keyRefSize)) ∧
    (((Report.of env).kind = "raw" ∧ (Report.of env).wireSize = (Report.of env).bodySize) ∨
      (((Report.of env).kind = "plain" ∨ (Report.of env).kind = "sealed") ∧
        (Report.of env).wireSize =
          10 + (Report.of env).keyRefSize + (Report.of env).bodySize)) := by
  refine ⟨Envelope.wireSize_of_decode h, ?_⟩
  cases env with
  | raw body => exact ⟨nofun, Or.inl ⟨rfl, rfl⟩⟩
  | plain body => exact ⟨nofun, Or.inr ⟨Or.inl rfl, rfl⟩⟩
  | «sealed» r ciphertext =>
    refine ⟨?_, Or.inr ⟨Or.inr rfl, rfl⟩⟩
    intro hex hhex
    have hbytes : (b.drop 10).take (Report.of (.sealed r ciphertext)).keyRefSize = r.bytes :=
      Envelope.reference_of_decode h
    rw [hbytes]
    exact (Option.some.inj hhex).symm

/-- **Inspecting and opening agree on every input.** The two commands get the same bytes, from
wherever each of them gets its input, and `open` has a key directory that loads or none. Both have
the exit code 60 for the same inputs, those that are a frame cut short, and give the same reason.
Otherwise `inspect` succeeds, and tells a report. The size on the wire in it is that of the input,
and the sum of what the envelope consists of; a reference in hexadecimal is what stands behind the
head. If the report says `raw` or `plain`, then `open` succeeds whatever keys are loaded, and in the
format `raw` prints the last bytes of the input, as many as the report says the body has. If it says
`sealed`, then `open` has the exit code 0 and prints what AES-GCM makes of these bytes, under the
key of the name that the reference spells, or there is no such payload and the exit code is 3. -/
theorem inspect_agrees_with_open {t t' : FileTree} {input input' b : Bytes}
    {source source' : Source} {options' : Options} {store : KeyStore}
    (hsource : source.SuppliesEnvelope t input b)
    (hsource' : source'.SuppliesEnvelope t' input' b) (hload : options'.Loads t' store)
    (options : Options) (start start' : Activity) :
    let inspection := (outcome (FileTree.host input) ⟨options, .inspect source⟩ start t).1
    let opening := (outcome (FileTree.host input') ⟨options', .unseal source'⟩ start' t').1
    (inspection.exitCode = 0 ∨ inspection.exitCode = 60) ∧
    (inspection.exitCode = 60 ↔ opening.exitCode = 60) ∧
    (inspection.exitCode = 60 ↔ Envelope.IsCutShort b) ∧
    (inspection.exitCode = 60 → ∃ e : EnvelopeError,
      inspection.failure = some ("inspect failed: " ++ e.message) ∧
      opening.failure = some ("open failed: " ++ e.message)) ∧
    (inspection.exitCode = 0 → ∃ report : Report,
      options.format.Reports inspection.output report ∧
      report.wireSize = b.length ∧
      (∀ hex, report.keyRefHex = some hex →
        hex = Hex.encode ((b.drop 10).take report.keyRefSize)) ∧
      ((report.kind = "raw" ∧ report.wireSize = report.bodySize) ∨
        ((report.kind = "plain" ∨ report.kind = "sealed") ∧
          report.wireSize = 10 + report.keyRefSize + report.bodySize)) ∧
      (report.kind = "raw" ∨ report.kind = "plain" → opening.exitCode = 0 ∧
        (options'.format = .raw → opening.output = b.drop (b.length - report.bodySize))) ∧
      (report.kind = "sealed" →
        let ref := (b.drop 10).take report.keyRefSize
        let body := b.drop (b.length - report.bodySize)
        report.keyRefHex = some (Hex.encode ref) ∧
        ((∃ payload, options'.Decrypts store ref body payload ∧ opening.exitCode = 0 ∧
          (options'.format = .raw → opening.output = payload)) ∨
        ((∀ payload, ¬ options'.Decrypts store ref body payload) ∧ opening.exitCode = 3)))) := by
  intro inspection opening
  cases hdecode : Envelope.decode b with
  | error e =>
    obtain ⟨hexit, hfailure⟩ := inspect_of_error hsource hdecode options start
    obtain ⟨hexit', hfailure'⟩ := open_of_error hload hsource' hdecode start'
    rw [envelopeExitCode_of_decode hdecode] at hexit hexit'
    have hcut : Envelope.IsCutShort b := Envelope.decode_eq_error_iff_isCutShort.mp ⟨e, hdecode⟩
    refine ⟨Or.inr hexit, ⟨fun _ => hexit', fun _ => hexit⟩, ⟨fun _ => hcut, fun _ => hexit⟩,
      fun _ => ⟨e, hfailure, hfailure'⟩, ?_⟩
    intro hzero
    exact absurd (hexit.symm.trans hzero) (by decide)
  | ok env =>
    obtain ⟨hexit, houtput⟩ := inspect_of_decode hsource hdecode options start
    obtain ⟨hne', hclear, hsealed⟩ := open_of_decode hload hsource' hdecode start'
    have hne : inspection.exitCode ≠ 60 := by
      intro h
      exact absurd (hexit.symm.trans h) (by decide)
    have hcut : ¬ Envelope.IsCutShort b := by
      intro h
      obtain ⟨e, he⟩ := Envelope.decode_eq_error_iff_isCutShort.mpr h
      rw [hdecode] at he
      cases he
    obtain ⟨hwire, hhex, hsizes⟩ := report_of_decode hdecode
    have hbody : env.body = b.drop (b.length - (Report.of env).bodySize) :=
      Envelope.body_of_decode hdecode
    refine ⟨Or.inl hexit, ⟨fun h => absurd h hne, fun h => absurd h hne'⟩,
      ⟨fun h => absurd h hne, fun h => absurd h hcut⟩, fun h => absurd h hne, fun _ => ?_⟩
    refine ⟨Report.of env, houtput ▸ reports_inspected options.format env, hwire, hhex, hsizes,
      ?_, ?_⟩
    · intro hkind
      rw [← hbody]
      exact hclear (Envelope.keyRef?_of_kind.1 hkind)
    · intro hkind ref body
      obtain ⟨r, hr⟩ := Envelope.keyRef?_of_kind.2 hkind
      have href : ref = r.bytes := by
        obtain ⟨ciphertext, rfl⟩ := Envelope.eq_sealed_of_keyRef? hr
        exact Envelope.reference_of_decode hdecode
      have hopening := hsealed r hr
      rw [← href, hbody] at hopening
      refine ⟨?_, hopening⟩
      show env.keyRef?.map (fun r => Hex.encode r.bytes) = _
      rw [hr, href]
      rfl

/-- A sealed frame in hexadecimal on the command line of `inspect`, and as the input of `open`,
which has no keys. -/
theorem inspect_agrees_with_open_keyless :
    let b : Bytes := Envelope.magic ++ [0, 0, 0, 1, 0x4B, 0x68, 0x69]
    let inspection := (outcome (FileTree.host [])
      ⟨{ format := .json }, .inspect (.given "2b452b1b2b46000000014b6869")⟩
      { tape := .counting 0 } {}).1
    let opening := (outcome (FileTree.host b) ⟨{}, .unseal .input⟩ { tape := .counting 0 } {}).1
    inspection.exitCode = 0 ∧ opening.exitCode = 3 ∧
      ∃ report : Report, OutputFormat.json.Reports inspection.output report ∧
        report.kind = "sealed" ∧ report.wireSize = 13 ∧
        report.keyRefHex = some (Hex.encode ((b.drop 10).take report.keyRefSize)) := by
  intro b inspection opening
  have hsource : (Source.given "2b452b1b2b46000000014b6869").SuppliesEnvelope {} [] b :=
    Hex.written_encode b
  have hsource' : Source.input.SuppliesEnvelope {} b b := rfl
  have hload : Options.Loads {} {} {} := rfl
  have hexit : inspection.exitCode = 0 := by decide
  have hexit' : opening.exitCode = 3 := by decide
  obtain ⟨-, -, -, -, hreport⟩ := inspect_agrees_with_open hsource hsource' hload
    { format := .json } { tape := .counting 0 } { tape := .counting 0 }
  obtain ⟨report, hreports, hwire, -, hsizes, hclear, hsealed⟩ := hreport hexit
  -- `open` would not fail for want of a key if there were no reference
  have hunclear : ¬ (report.kind = "raw" ∨ report.kind = "plain") := by
    intro hkind
    exact absurd (hexit'.symm.trans (hclear hkind).1) (by decide)
  have hkind : report.kind = "sealed" := by
    rcases hsizes with ⟨hraw, -⟩ | ⟨hplain | hsealed, -⟩
    · exact absurd (Or.inl hraw) hunclear
    · exact absurd (Or.inr hplain) hunclear
    · exact hsealed
  exact ⟨hexit, hexit', report, hreports, hkind, hwire, (hsealed hkind).1⟩

end Command

end SealedRecords
