import SealedRecords.Proofs.RecordCipher.Outcomes

/-!
# What is reported of a loss

A payload that cannot be encrypted or decrypted is lost, and the log is the only
place that tells. This file says what the log gains: nothing about a loss if there
was none, and one event otherwise, which names the reference and the cause. A key
provider may report on the way, also as a warning and also about a reference;
`Event.isFacade` goes by level and wording and passes over such reports.

`Activity.Reports` compares two accounts by the events that tell of a loss. It is
transitive, so a call can be taken apart:

> `reports_encode`, `reports_decode`: putting a payload into an envelope, or taking
> it out, reports one event if there was no key or the cipher failed, and none
> otherwise.
-/

namespace SealedRecords

/-- Whether a record is written or read. -/
inductive Direction where
  | writing
  | reading
  deriving DecidableEq, Repr

namespace Event

/-- The level and the wording of what is reported when a payload cannot be encrypted or decrypted
under its reference. -/
def facadeReports : List (Level × String) :=
  [(.warn, "no key found for key reference"), (.error, "error while encrypting data"),
    (.warn, "no key found, record cannot be decrypted"), (.error, "error while decrypting data")]

/-- Whether an event is such a report. -/
def isFacade (e : Event) : Bool := facadeReports.contains (e.level, e.message)

/-- Whether an event says that a record is left out. -/
def isDropped (e : Event) : Bool :=
  e.level == .debug && e.message == "record dropped, no encrypted output"

/-- Whether an event tells of a loss in one way or the other. -/
def tellsLoss (e : Event) : Bool := e.isFacade || e.isDropped

/-- The event says of a reference that there is no key for it, or that the cipher failed with its
key, in the words for a payload that was to be encrypted, or decrypted. -/
def Blames (e : Event) (direction : Direction) (r : KeyRef) : Prop :=
  (match direction with
    | .writing => (e.level = .warn ∧ e.message = "no key found for key reference") ∨
      (e.level = .error ∧ e.message = "error while encrypting data")
    | .reading => (e.level = .warn ∧ e.message = "no key found, record cannot be decrypted") ∨
      (e.level = .error ∧ e.message = "error while decrypting data")) ∧
    e.fields.lookup "key_ref" = some (.shown r.display)

/-- The report of a key provider is not one about a loss, whatever its level. -/
theorem tellsLoss_lookup (note : LookupNote) : (lookup note).tellsLoss = false := by
  cases note <;> rfl

/-- Among the events that tell of a loss are all those that do so in a given way. -/
theorem filter_tellsLoss {p : Event → Bool} (h : ∀ e, p e = true → e.tellsLoss = true)
    (es : List Event) : (es.filter tellsLoss).filter p = es.filter p := by
  rw [List.filter_filter]
  refine List.filter_congr fun e _ => ?_
  cases hp : p e with
  | false => rfl
  | true => exact h e hp

end Event

namespace CryptoError

/-- What is reported when a payload cannot be encrypted. -/
def encryptionEvent : CryptoError → Event
  | .keyNotFound r => .encryptionKeyMissing r
  | .cipherFailure r e => .encryptionFailed r e

/-- What is reported when a payload cannot be decrypted. -/
def decryptionEvent : CryptoError → Event
  | .keyNotFound r => .decryptionKeyMissing r
  | .cipherFailure r e => .decryptionFailed r e

/-- What the log gains about a record that is lost for this cause. -/
def losses (e : CryptoError) (topic : String) : Direction → List Event
  | .writing => [e.encryptionEvent, .recordDropped topic e]
  | .reading => [e.decryptionEvent]

theorem blames_encryptionEvent (e : CryptoError) :
    e.encryptionEvent.Blames .writing e.keyRef := by
  cases e with
  | keyNotFound r => exact ⟨Or.inl ⟨rfl, rfl⟩, rfl⟩
  | cipherFailure r cause => exact ⟨Or.inr ⟨rfl, rfl⟩, rfl⟩

theorem blames_decryptionEvent (e : CryptoError) :
    e.decryptionEvent.Blames .reading e.keyRef := by
  cases e with
  | keyNotFound r => exact ⟨Or.inl ⟨rfl, rfl⟩, rfl⟩
  | cipherFailure r cause => exact ⟨Or.inr ⟨rfl, rfl⟩, rfl⟩

/-- The facade reports a loss once, about the reference in question. -/
theorem filter_isFacade_losses (e : CryptoError) (topic : String) (direction : Direction) :
    ∃ ev, (e.losses topic direction).filter Event.isFacade = [ev] ∧
      ev.Blames direction e.keyRef := by
  cases direction with
  | writing =>
    refine ⟨e.encryptionEvent, ?_, e.blames_encryptionEvent⟩
    cases e <;> rfl
  | reading =>
    refine ⟨e.decryptionEvent, ?_, e.blames_decryptionEvent⟩
    cases e <;> rfl

theorem filter_isDropped_losses (e : CryptoError) (topic : String) :
    (e.losses topic .writing).filter Event.isDropped = [.recordDropped topic e] := by
  cases e <;> rfl

end CryptoError

/-! ## Accounts before and after -/

namespace Activity

/-- From one account to the other the log has grown, by these events about losses and perhaps by
others. -/
def Reports (a : Activity) (losses : List Event) (a' : Activity) : Prop :=
  ∃ es, a'.log = a.log ++ es ∧ es.filter Event.tellsLoss = losses

variable {a a' a'' : Activity} {losses losses' : List Event}

theorem reports_of_log_eq (h : a'.log = a.log) : a.Reports [] a' :=
  ⟨[], by rw [h, List.append_nil], rfl⟩

theorem Reports.trans (h : a.Reports losses a') (h' : a'.Reports losses' a'') :
    a.Reports (losses ++ losses') a'' := by
  obtain ⟨es, hlog, rfl⟩ := h
  obtain ⟨es', hlog', rfl⟩ := h'
  exact ⟨es ++ es', by rw [hlog', hlog, List.append_assoc], List.filter_append _ _⟩

theorem reports_noted (a : Activity) (es : List Event) :
    a.Reports (es.filter Event.tellsLoss) (a.noted es) := ⟨es, rfl, rfl⟩

theorem reports_lookedUp (a : Activity) (found : Lookup) : a.Reports [] (a.lookedUp found) := by
  refine ⟨found.notes.map .lookup, rfl, ?_⟩
  rw [List.filter_eq_nil_iff]
  intro e he
  obtain ⟨note, -, rfl⟩ := List.mem_map.mp he
  rw [Event.tellsLoss_lookup]
  exact Bool.false_ne_true

/-- Among the events by which the log has grown, those about losses are all that count. -/
theorem Reports.exists_events (h : a.Reports losses a') :
    ∃ es, a'.log = a.log ++ es ∧ es.filter Event.isFacade = losses.filter Event.isFacade ∧
      es.filter Event.isDropped = losses.filter Event.isDropped := by
  obtain ⟨es, hlog, rfl⟩ := h
  have hfacade : ∀ e : Event, e.isFacade = true → e.tellsLoss = true :=
    fun e he => Bool.or_eq_true_iff.mpr (Or.inl he)
  have hdropped : ∀ e : Event, e.isDropped = true → e.tellsLoss = true :=
    fun e he => Bool.or_eq_true_iff.mpr (Or.inr he)
  exact ⟨es, hlog, (Event.filter_tellsLoss hfacade es).symm,
    (Event.filter_tellsLoss hdropped es).symm⟩

end Activity

namespace RecordCipher

variable (c : RecordCipher) (r : KeyRef) (ref : Option KeyRef) (data payload b : Bytes)
  (a : Activity)

/-! ## The facade -/

theorem reports_encrypt :
    (∃ out, ((c.encrypt r data).exec a).1 = .ok out ∧
      a.Reports [] ((c.encrypt r data).exec a).2) ∨
    ∃ e, ((c.encrypt r data).exec a).1 = .error e ∧ e.keyRef = r ∧
      a.Reports [e.encryptionEvent] ((c.encrypt r data).exec a).2 := by
  have hlookup := a.reports_lookedUp (c.keys r)
  cases hk : (c.keys r).key with
  | none =>
    rw [encrypt_of_unresolved hk]
    exact Or.inr ⟨_, rfl, rfl, hlookup.trans (Activity.reports_noted _ _)⟩
  | some key =>
    rw [encrypt_of_resolved hk]
    rcases c.cipher.encrypt key data a.tape with ⟨e | out, tape⟩
    · have hcall : a.Reports [] ((a.lookedUp (c.keys r)).encrypted tape) := hlookup
      exact Or.inr ⟨_, rfl, rfl, hcall.trans (Activity.reports_noted _ _)⟩
    · exact Or.inl ⟨out, rfl, hlookup⟩

theorem reports_decrypt :
    (∃ out, ((c.decrypt r data).exec a).1 = .ok out ∧
      a.Reports [] ((c.decrypt r data).exec a).2) ∨
    ∃ e, ((c.decrypt r data).exec a).1 = .error e ∧ e.keyRef = r ∧
      a.Reports [e.decryptionEvent] ((c.decrypt r data).exec a).2 := by
  have hlookup := a.reports_lookedUp (c.keys r)
  cases hk : (c.keys r).key with
  | none =>
    rw [decrypt_of_unresolved hk]
    exact Or.inr ⟨_, rfl, rfl, hlookup.trans (Activity.reports_noted _ _)⟩
  | some key =>
    rw [decrypt_of_resolved hk]
    cases c.cipher.decrypt key data with
    | error e =>
      have hcall : a.Reports [] (a.lookedUp (c.keys r)).decrypted := hlookup
      exact Or.inr ⟨_, rfl, rfl, hcall.trans (Activity.reports_noted _ _)⟩
    | ok out => exact Or.inl ⟨out, rfl, hlookup⟩

/-! ## Envelopes -/

/-- Putting a payload into an envelope reports a loss exactly if there was no key for the reference
or the cipher failed. A payload in clear is reported, but not as lost. -/
theorem reports_encode :
    (∃ e, ((c.encode ref payload).exec a).1 = .error (.crypto e) ∧ ref = some e.keyRef ∧
      a.Reports [e.encryptionEvent] ((c.encode ref payload).exec a).2) ∨
    ((∀ e, ((c.encode ref payload).exec a).1 ≠ .error (.crypto e)) ∧
      a.Reports [] ((c.encode ref payload).exec a).2) := by
  cases ref with
  | none => exact Or.inr ⟨nofun, Activity.reports_noted a [.sentInClear]⟩
  | some r =>
    cases he : r.isEmpty with
    | true =>
      rw [encode_of_empty c he]
      exact Or.inr ⟨nofun, Activity.reports_of_log_eq rfl⟩
    | false =>
      have hcases := c.reports_encrypt r payload a
      rw [encode_some c he]
      rcases hx : (c.encrypt r payload).exec a with ⟨e | out, a'⟩
      · rw [hx] at hcases
        obtain ⟨out, hout, -⟩ | ⟨e', he', hr, hreports⟩ := hcases
        · cases hout
        · obtain rfl : e = e' := Except.error.inj he'
          exact Or.inl ⟨e, rfl, by rw [hr], hreports⟩
      · rw [hx] at hcases
        obtain ⟨out', -, hreports⟩ | ⟨e', he', -⟩ := hcases
        · -- the frame may still be refused, which is an error and no loss
          by_cases hs : r.size ≤ Envelope.maxKeyRefSize
          · simp only [if_pos hs]
            exact Or.inr ⟨nofun, hreports⟩
          · simp only [if_neg hs]
            exact Or.inr ⟨nofun, hreports⟩
        · cases he'

/-- Taking a payload out of an envelope reports a loss exactly if the payload could not be
decrypted, and then about the reference of the frame. -/
theorem reports_decode :
    (∃ e ciphertext, Envelope.decode b = .ok (.sealed e.keyRef ciphertext) ∧
      ((c.decode b).exec a).1 = .ok ⟨some e.keyRef, .error e⟩ ∧
      a.Reports [e.decryptionEvent] ((c.decode b).exec a).2) ∨
    ((∀ opened, ((c.decode b).exec a).1 = .ok opened → ∃ x, opened.payload = .ok x) ∧
      a.Reports [] ((c.decode b).exec a).2) := by
  rcases hb : Envelope.decode b with e | env
  · rw [decode_of_error c hb]
    exact Or.inr ⟨nofun, Activity.reports_of_log_eq rfl⟩
  · cases env with
    | raw body =>
      rw [decode_of_clear c hb rfl]
      refine Or.inr ⟨?_, Activity.reports_noted a [.rawPassed body.length]⟩
      rintro opened ⟨⟩
      exact ⟨body, rfl⟩
    | plain body =>
      rw [decode_of_clear c hb rfl]
      refine Or.inr ⟨?_, Activity.reports_noted a [.clearFrameRead body.length]⟩
      rintro opened ⟨⟩
      exact ⟨body, rfl⟩
    | «sealed» r ciphertext =>
      rw [decode_of_sealed c hb]
      rcases c.reports_decrypt r ciphertext a with ⟨out, hout, hreports⟩ | ⟨e, he, rfl, hreports⟩
      · refine Or.inr ⟨?_, hreports⟩
        rintro opened ⟨⟩
        exact ⟨out, hout⟩
      · exact Or.inl ⟨e, ciphertext, rfl, by rw [he], hreports⟩

end RecordCipher

end SealedRecords
