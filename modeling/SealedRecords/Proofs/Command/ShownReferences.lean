import SealedRecords.Command.LogLine
import SealedRecords.Command.Output
import SealedRecords.Proofs.Text.References

/-!
# Where references are shown

A reference comes from an envelope, so anybody may have chosen its bytes. It is shown in
log lines, in the wording of errors and in what commands print, and in each of these
places it stays within its line:

- a control character in a line of the log comes from another field;
- a control character in the wording of an error comes from the words of the cipher;
- what commands print about an envelope has a number of lines that only the format
  decides.

> `shown_references`: this, and when two references are shown alike.
-/

namespace SealedRecords

/-! ## Log lines -/

namespace Event

theorem clean_level (e : Event) : Clean e.level.name := by
  cases e.level <;> decide

theorem clean_message (e : Event) : Clean e.message := by
  cases e with
  | lookup note => cases note <;> dsimp only [message] <;> decide
  | _ => dsimp only [message]; decide

theorem clean_names (e : Event) : ∀ f ∈ e.fields, Clean f.1 := by
  cases e with
  | lookup note =>
    cases note <;>
      simp only [fields, List.forall_mem_cons, List.not_mem_nil, false_implies, implies_true] <;>
      decide
  | _ =>
    simp only [fields, List.forall_mem_cons, List.not_mem_nil, false_implies, implies_true] <;>
      decide

/-- The field with the reference holds what is shown for one. -/
theorem exists_keyRef {e : Event} {v : FieldValue} (h : ("key_ref", v) ∈ e.fields) :
    ∃ r : KeyRef, v = .shown r.display := by
  cases e with
  | lookup note => cases note <;> simp [fields] at h; exact ⟨_, h⟩
  | _ => simp [fields] at h <;> exact ⟨_, h⟩

end Event

namespace Command

theorem clean_fieldText {v : FieldValue} (h : Clean v.plain) : Clean (fieldText v) := by
  cases v with
  | shown s => exact h
  | text s => exact h.quoted
  | number n => exact h
  | flag b => exact h

theorem clean_fieldJson {v : FieldValue} (h : Clean v.plain) : Clean (fieldJson v).render := by
  cases v with
  | shown s => exact h.jsonText
  | text s => exact h.jsonText
  | number n => exact Clean.jsonNumber n
  | flag b =>
    rw [fieldJson, JsonValue.render]
    exact h

/-- A line is clean if the values in it are, and the reference need not be asked. -/
theorem clean_logLine {e : Event}
    (h : ∀ f ∈ e.fields, f.1 ≠ "key_ref" → Clean f.2.plain) (format : LogFormat) :
    Clean (logLine format e) := by
  have hvalues : ∀ f ∈ e.fields, Clean f.2.plain := by
    intro f hf
    obtain ⟨name, v⟩ := f
    by_cases hname : name = "key_ref"
    · subst hname
      obtain ⟨r, rfl⟩ := Event.exists_keyRef hf
      exact r.clean_display
    · exact h (name, v) hf hname
  cases format with
  | text =>
    refine Clean.intercalate (by decide) ?_
    simp only [List.cons_append, List.nil_append, List.forall_mem_cons, List.forall_mem_map]
    refine ⟨e.clean_level, e.clean_message, fun f hf => ?_⟩
    exact ((e.clean_names f hf).append (by decide)).append (clean_fieldText (hvalues f hf))
  | json =>
    refine Clean.jsonObject ?_
    simp only [List.cons_append, List.nil_append, List.forall_mem_cons, List.forall_mem_map]
    refine ⟨⟨by decide, e.clean_level.jsonText⟩, ⟨by decide, e.clean_message.jsonText⟩, ?_⟩
    intro f hf
    exact ⟨e.clean_names f hf, clean_fieldJson (hvalues f hf)⟩

end Command

/-! ## Errors -/

/-- What a cipher says is clean, but for words of its own. -/
theorem CipherError.clean_message_iff {e : CipherError} :
    Clean e.message ↔ ∀ text, e = .other text → Clean text := by
  cases e with
  | invalidKeyLength n =>
    have hclean : Clean ("invalid key length (expected 32 bytes, got " ++ toString n ++ ")") :=
      (Clean.append (by decide) (.number n)).append (by decide)
    exact iff_of_true hclean (fun text h => nomatch h)
  | tooShort n =>
    have hclean : Clean ("ciphertext too short (" ++ toString n ++ " bytes, need at least 28)") :=
      (Clean.append (by decide) (.number n)).append (by decide)
    exact iff_of_true hclean (fun text h => nomatch h)
  | tagMismatch =>
    have hclean : Clean "AES-GCM tag mismatch" := by decide
    exact iff_of_true hclean (fun text h => nomatch h)
  | other text =>
    constructor
    · intro h text' he
      cases he
      exact h
    · intro h
      exact h text rfl

/-- A control character in the wording of an error is one of the cipher's own words. -/
theorem CryptoError.clean_message_iff {e : CryptoError} :
    Clean e.message ↔ ∀ r text, e = .cipherFailure r (.other text) → Clean text := by
  cases e with
  | keyNotFound r =>
    have hclean : Clean ("no key found for key reference " ++ r.display) :=
      Clean.append (by decide) r.clean_display
    exact iff_of_true hclean (fun r text h => nomatch h)
  | cipherFailure r cause =>
    have hfront : Clean ("cipher failed for key reference " ++ r.display ++ ": ") :=
      (Clean.append (by decide) r.clean_display).append (by decide)
    have hmessage : Clean (CryptoError.cipherFailure r cause).message ↔ Clean cause.message :=
      ⟨Clean.right_of_append, hfront.append⟩
    rw [hmessage, CipherError.clean_message_iff]
    constructor
    · intro h r' text he
      cases he
      exact h text rfl
    · intro h text he
      subst he
      exact h r text rfl

/-! ## What commands print -/

namespace Command

/-- A reference as people see it, or the dash for none. -/
theorem clean_shownRef (r : Option KeyRef) : Clean (shownRef r) := by
  cases r with
  | none => decide
  | some r => exact r.clean_display

/-- An output is a number of lines without control characters. -/
def IsLines (n : Nat) (out : Bytes) : Prop :=
  ∃ ls : List String, ls.length = n ∧ (∀ l ∈ ls, Clean l) ∧ out = ls.flatMap line

/-- How many lines a command prints about an envelope. -/
def lineCount : OutputFormat → Nat
  | .table => 5
  | _ => 1

theorem isLines_line {s : String} (h : Clean s) : IsLines 1 (line s) :=
  ⟨[s], rfl, by simpa using h, by simp⟩

/-- Lines with a line feed between them and one behind the last. -/
theorem line_intercalate (l : String) (ls : List String) :
    line ("\n".intercalate (l :: ls)) = (l :: ls).flatMap line := by
  induction ls generalizing l with
  | nil => simp
  | cons m ls ih =>
    rw [String.intercalate_cons_cons, List.flatMap_cons, ← ih m]
    simp only [line, Utf8.encode_append, List.append_assoc]

theorem isLines_render {headings row : List String} (hrow : row ≠ []) (hheadings : headings ≠ [])
    (h : ∀ s ∈ row, Clean s) (h' : ∀ s ∈ headings, Clean s) :
    IsLines 5 (line (Grid.render headings [row])) := by
  obtain ⟨ls, hlength, hclean, hrender⟩ := Grid.exists_render hrow hheadings h h'
  refine ⟨ls, hlength, hclean, ?_⟩
  cases ls with
  | nil => exact absurd hlength (by decide)
  | cons l ls => rw [hrender, line_intercalate]

theorem clean_kind (e : Envelope) : Clean e.kind := by
  cases e <;> dsimp only [Envelope.kind] <;> decide

/-- The value of the field with the reference. -/
theorem clean_jsonRef (r : Option KeyRef) :
    Clean (JsonValue.text? (r.map KeyRef.display)).render := by
  refine Clean.jsonText? fun s hs => ?_
  obtain ⟨r, -, rfl⟩ := Option.map_eq_some_iff.mp hs
  exact r.clean_display

/-- What is printed about an envelope has as many lines as the format has. A table goes to no
terminal here and below, so that no cell is wrapped: see `Grid.render`. -/
theorem isLines_inspected (format : OutputFormat) (e : Envelope) :
    IsLines (lineCount format) (inspected format e) := by
  have hkind := clean_kind e
  have hshown := clean_shownRef e.keyRef?
  have hhex : ∀ s ∈ e.keyRef?.map fun r => Hex.encode r.bytes, Clean s := by
    intro s hs
    obtain ⟨r, -, rfl⟩ := Option.map_eq_some_iff.mp hs
    exact Clean.hex r.bytes
  cases format with
  | json | raw =>
    refine isLines_line (Clean.jsonObject ?_)
    simp only [List.forall_mem_cons]
    exact ⟨⟨by decide, hkind.jsonText⟩, ⟨by decide, clean_jsonRef e.keyRef?⟩,
      ⟨by decide, Clean.jsonText? hhex⟩, ⟨by decide, Clean.jsonNumber _⟩,
      ⟨by decide, Clean.jsonNumber _⟩, ⟨by decide, Clean.jsonNumber _⟩, List.forall_mem_nil _⟩
  | table =>
    refine isLines_render (List.cons_ne_nil _ _) (List.cons_ne_nil _ _) ?_ (by decide)
    simp only [List.forall_mem_cons]
    exact ⟨hkind, hshown, Clean.number _, Clean.number _, Clean.number _, List.forall_mem_nil _⟩
  | pretty =>
    refine isLines_line ?_
    have hfront := ((Clean.append (by decide : Clean "kind=") hkind).append
      (by decide : Clean " key_ref=")).append hshown
    exact (((((hfront.append (by decide : Clean " key_ref_len=")).append (Clean.number _)).append
      (by decide : Clean " body=")).append (Clean.number _)).append
      (by decide : Clean " wire=")).append (Clean.number _)

/-- What is printed, to no terminal, about an envelope that was written has as many lines as the
format has, unless it is the envelope itself. -/
theorem isLines_sealedEnvelope {format : OutputFormat} (hformat : format ≠ .raw)
    (r : Option KeyRef) (payloadSize : Nat) (envelope : Bytes) :
    IsLines (lineCount format) (sealedEnvelope format r payloadSize envelope) := by
  cases format with
  | raw => exact absurd rfl hformat
  | json =>
    refine isLines_line (Clean.jsonObject ?_)
    simp only [List.forall_mem_cons]
    exact ⟨⟨by decide, clean_jsonRef r⟩, ⟨by decide, (Clean.hex envelope).jsonText⟩,
      ⟨by decide, Clean.jsonNumber _⟩, ⟨by decide, Clean.jsonNumber _⟩, List.forall_mem_nil _⟩
  | table =>
    refine isLines_render (List.cons_ne_nil _ _) (List.cons_ne_nil _ _) ?_ (by decide)
    simp only [List.forall_mem_cons]
    exact ⟨clean_shownRef r, Clean.number _, Clean.number _, Clean.hex envelope,
      List.forall_mem_nil _⟩
  | pretty => exact isLines_line (Clean.hex envelope)

/-- What is printed, to no terminal, about an opened envelope has as many lines as the format has,
unless the payload itself brings more of them. -/
theorem isLines_openedPayload {format : OutputFormat} (hformat : format ≠ .raw)
    (r : Option KeyRef) {payload : Bytes} (hpayload : Clean (preview payload)) :
    IsLines (lineCount format) (openedPayload format r payload) := by
  cases format with
  | raw => exact absurd rfl hformat
  | json =>
    refine isLines_line (Clean.jsonObject ?_)
    simp only [List.forall_mem_cons]
    exact ⟨⟨by decide, clean_jsonRef r⟩, ⟨by decide, Clean.jsonNumber _⟩,
      ⟨by decide, hpayload.jsonText⟩, List.forall_mem_nil _⟩
  | table =>
    refine isLines_render (List.cons_ne_nil _ _) (List.cons_ne_nil _ _) ?_ (by decide)
    simp only [List.forall_mem_cons]
    exact ⟨clean_shownRef r, Clean.number _, hpayload, List.forall_mem_nil _⟩
  | pretty =>
    refine isLines_line ?_
    have hfront := (Clean.append (by decide : Clean "key_ref=") (clean_shownRef r)).append
      (by decide : Clean " size=")
    exact ((hfront.append (Clean.number _)).append (by decide : Clean " payload=")).append hpayload

/-! ## References on display -/

/-- **References on display.** What is shown for a reference has no control character, whatever
its bytes are. So no reference adds a line or an escape: to a log, where a line is clean if the
other fields are; to the wording of an error, which is clean but for words of the cipher's own; or
to what commands print to no terminal, the lines of which are counted by the format.

Two references are shown alike in one way only: one of them is no text, or one with a control
character, and the other is the text `0x` and the first in lower-case hexadecimal. -/
theorem shown_references :
    (∀ r : KeyRef, Clean r.display) ∧
    (∀ format (e : Event), (∀ f ∈ e.fields, f.1 ≠ "key_ref" → Clean f.2.plain) →
      Clean (logLine format e)) ∧
    (∀ e : CryptoError,
      Clean e.message ↔ ∀ r text, e = .cipherFailure r (.other text) → Clean text) ∧
    (∀ format e, IsLines (lineCount format) (inspected format e)) ∧
    (∀ format r payloadSize envelope, format ≠ .raw →
      IsLines (lineCount format) (sealedEnvelope format r payloadSize envelope)) ∧
    (∀ format r payload, format ≠ .raw → Clean (preview payload) →
      IsLines (lineCount format) (openedPayload format r payload)) ∧
    ∀ a b : KeyRef, a ≠ b →
      (a.display = b.display ↔ (a.Unprintable ∧ b.IsHexOf a) ∨ (b.Unprintable ∧ a.IsHexOf b)) := by
  refine ⟨KeyRef.clean_display, ?_, fun e => e.clean_message_iff, isLines_inspected, ?_, ?_, ?_⟩
  · intro format e h
    exact clean_logLine h format
  · intro format r payloadSize envelope hformat
    exact isLines_sealedEnvelope hformat r payloadSize envelope
  · intro format r payload hformat hpayload
    exact isLines_openedPayload hformat r hpayload
  · intro a b hne
    exact KeyRef.display_eq_iff hne

/-- The bytes `00 FF 10` and the name `0x00ff10` are two references that are shown alike, and a
reference that is a line feed stays within the line of the log that names it. -/
theorem shown_references_alike :
    KeyRef.ofText "0x00ff10" ≠ ⟨[0x00, 0xFF, 0x10]⟩ ∧
    (KeyRef.ofText "0x00ff10").display = (KeyRef.mk [0x00, 0xFF, 0x10]).display ∧
    Clean (logLine .text (.decryptionKeyMissing ⟨[0x0A]⟩)) ∧
    IsLines 5 (openedPayload .table (some ⟨[0x0A]⟩) [0x6F, 0x6B]) := by
  obtain ⟨-, hlog, -, -, -, hopened, halike⟩ := shown_references
  have hne : KeyRef.ofText "0x00ff10" ≠ ⟨[0x00, 0xFF, 0x10]⟩ := by decide
  have hunprintable : (KeyRef.mk [0x00, 0xFF, 0x10]).Unprintable :=
    Or.inl (KeyRef.text?_eq_none_iff.mp (by decide))
  refine ⟨hne, (halike _ _ hne).mpr (Or.inr ⟨hunprintable, ?_⟩), hlog _ _ (by decide),
    hopened .table _ _ (by decide) (by decide)⟩
  exact KeyRef.isHexOf_iff.mpr (by decide)

end Command

end SealedRecords
