import SealedRecords.Proofs.Envelope.WireFormat
import SealedRecords.RecordCipher

/-!
# The outcomes of encryption under a reference

One equation for each way in which `RecordCipher.encode` and
`RecordCipher.decode` can end, with the account that is left behind: which look-up
was made, whether the cipher was called, what was drawn and reported. Later
files cite these equations and never unfold the two functions.

> `encode_of_empty`: an empty reference leaves the account untouched.

> `encode_ok_some`: bytes that come out under a reference are a frame around what
> the cipher gave.

> `decode_encode`: with a cipher whose decryption undoes its encryption, the
> payload comes back, whatever its bytes look like.
-/

namespace SealedRecords

namespace Activity

/-- The account after one look-up. -/
def lookedUp (a : Activity) (found : Lookup) : Activity :=
  { a with lookups := a.lookups + 1, log := a.log ++ found.notes.map .lookup }

/-- The account after one encryption that leaves the tape at `tape`. -/
def encrypted (a : Activity) (tape : RandomTape) : Activity :=
  { a with tape := tape, calls := { a.calls with encryptions := a.calls.encryptions + 1 } }

/-- The account after one decryption. -/
def decrypted (a : Activity) : Activity :=
  { a with calls := { a.calls with decryptions := a.calls.decryptions + 1 } }

/-- The account after a report. -/
def noted (a : Activity) (es : List Event) : Activity := { a with log := a.log ++ es }

@[simp] theorem lookedUp_tape (a : Activity) (found : Lookup) :
    (a.lookedUp found).tape = a.tape := rfl

end Activity

/-- Decryption under a key gives back what was encrypted under it, whenever encryption gave a
result at all. -/
def Cipher.Inverts (c : Cipher) : Prop :=
  ∀ key data tape out tape', c.encrypt key data tape = (.ok out, tape') →
    c.decrypt key out = .ok data

/-- Masking twice with one key changes nothing. -/
theorem Cipher.mask_mask (key data : Bytes) : mask key (mask key data) = data := by
  unfold mask
  rw [List.mapIdx_mapIdx]
  apply List.ext_getElem
  · rw [List.length_mapIdx]
  · intro i h₁ h₂
    rw [List.getElem_mapIdx]
    show data[i] ^^^ _ ^^^ _ = data[i]
    rw [UInt8.xor_assoc, UInt8.xor_self, UInt8.xor_zero]

theorem Cipher.masking_inverts : masking.Inverts := by
  intro key data tape out tape' h
  have h := congrArg Prod.fst h
  simp only [masking] at h
  cases hk : key.isEmpty with
  | true =>
    rw [hk] at h
    cases h
  | false =>
    rw [hk] at h
    obtain rfl : maskTag ++ mask key data = out := by cases h; rfl
    have hp : maskTag.isPrefixOf (maskTag ++ mask key data) = true :=
      List.isPrefixOf_iff_prefix.mpr (List.prefix_append _ _)
    simp only [masking, hp, hk, if_true, Bool.false_eq_true, if_false, List.drop_left, mask_mask]

namespace RecordCipher

variable {c : RecordCipher} {r : KeyRef} {key payload out : Bytes} {e : CipherError}
  {tape : RandomTape} {a : Activity}

/-! ## The facade -/

theorem exec_resolve (c : RecordCipher) (r : KeyRef) (a : Activity) :
    (c.resolve r).exec a = ((c.keys r).key, a.lookedUp (c.keys r)) := rfl

theorem encrypt_of_unresolved (hk : (c.keys r).key = none) (data : Bytes) (a : Activity) :
    (c.encrypt r data).exec a = (.error (.keyNotFound r),
      (a.lookedUp (c.keys r)).noted [.encryptionKeyMissing r]) := by
  simp only [encrypt, Act.exec_bind, exec_resolve, hk]
  rfl

theorem encrypt_of_resolved (hk : (c.keys r).key = some key) (data : Bytes) (a : Activity) :
    (c.encrypt r data).exec a =
      match c.cipher.encrypt key data a.tape with
      | (.ok out, tape) => (.ok out, (a.lookedUp (c.keys r)).encrypted tape)
      | (.error e, tape) => (.error (.cipherFailure r e),
          ((a.lookedUp (c.keys r)).encrypted tape).noted [.encryptionFailed r e]) := by
  simp only [encrypt, Act.exec_bind, exec_resolve, hk, Act.exec_countEncryption,
    Act.exec_drawing, Activity.lookedUp_tape]
  cases c.cipher.encrypt key data a.tape with
  | mk y tape => cases y <;> rfl

theorem decrypt_of_unresolved (hk : (c.keys r).key = none) (data : Bytes) (a : Activity) :
    (c.decrypt r data).exec a = (.error (.keyNotFound r),
      (a.lookedUp (c.keys r)).noted [.decryptionKeyMissing r]) := by
  simp only [decrypt, Act.exec_bind, exec_resolve, hk]
  rfl

theorem decrypt_of_resolved (hk : (c.keys r).key = some key) (data : Bytes) (a : Activity) :
    (c.decrypt r data).exec a =
      match c.cipher.decrypt key data with
      | .ok out => (.ok out, (a.lookedUp (c.keys r)).decrypted)
      | .error e => (.error (.cipherFailure r e),
          (a.lookedUp (c.keys r)).decrypted.noted [.decryptionFailed r e]) := by
  simp only [decrypt, Act.exec_bind, exec_resolve, hk]
  cases c.cipher.decrypt key data <;> rfl

/-! ## Sealing -/

theorem encode_none (c : RecordCipher) (payload : Bytes) (a : Activity) :
    (c.encode none payload).exec a = (.ok payload, a.noted [.sentInClear]) := rfl

theorem encode_of_empty (c : RecordCipher) (h : r.isEmpty = true) (payload : Bytes)
    (a : Activity) : (c.encode (some r) payload).exec a = (.error (.envelope .emptyKeyRef), a) := by
  simp only [encode, h, if_true]
  rfl

/-- Under a reference that is not empty the facade decides, and what it encrypts is framed. -/
theorem encode_some (c : RecordCipher) (h : r.isEmpty = false) (payload : Bytes) (a : Activity) :
    (c.encode (some r) payload).exec a =
      match (c.encrypt r payload).exec a with
      | (.error e, a') => (.error (.crypto e), a')
      | (.ok out, a') =>
        if r.size ≤ Envelope.maxKeyRefSize then (.ok (Envelope.frame r.bytes out), a')
        else (.error (.envelope (.keyRefTooLarge r.size)), a') := by
  simp only [encode, h, Bool.false_eq_true, if_false, Act.exec_bind]
  cases (c.encrypt r payload).exec a with
  | mk y a' =>
    cases y with
    | error e => rfl
    | ok out =>
      by_cases hs : r.size ≤ Envelope.maxKeyRefSize
      · simp only [Envelope.encodeSealed_of_fits h hs, if_pos hs]
        rfl
      · simp only [Envelope.encodeSealed_of_large h (Nat.lt_of_not_le hs), if_neg hs]
        rfl

/-- Bytes that come out under a reference are a frame around what the cipher gave for the key of
that reference. -/
theorem encode_ok_some {b : Bytes} {a' : Activity}
    (h : (c.encode (some r) payload).exec a = (.ok b, a')) :
    r.isEmpty = false ∧ r.size ≤ Envelope.maxKeyRefSize ∧ ∃ key out tape,
      (c.keys r).key = some key ∧ c.cipher.encrypt key payload a.tape = (.ok out, tape) ∧
        b = Envelope.frame r.bytes out := by
  cases he : r.isEmpty with
  | true =>
    rw [encode_of_empty c he] at h
    simp at h
  | false =>
    -- bytes come out only if there is a key, the cipher gives a result and the frame takes it
    rw [encode_some c he] at h
    cases hk : (c.keys r).key with
    | none =>
      rw [encrypt_of_unresolved hk] at h
      simp at h
    | some key =>
      rw [encrypt_of_resolved hk] at h
      rcases hc : c.cipher.encrypt key payload a.tape with ⟨e | out, tape⟩
      · rw [hc] at h
        simp at h
      · rw [hc] at h
        by_cases hs : r.size ≤ Envelope.maxKeyRefSize
        · simp only [if_pos hs, Prod.mk.injEq, Except.ok.injEq] at h
          exact ⟨rfl, hs, key, out, tape, rfl, hc, h.1.symm⟩
        · simp [if_neg hs] at h

/-! ## Opening -/

theorem decode_of_error {b : Bytes} {e : EnvelopeError} (c : RecordCipher)
    (h : Envelope.decode b = .error e) (a : Activity) : (c.decode b).exec a = (.error e, a) := by
  simp only [decode, h]
  rfl

/-- What has no reference is handed on as it is, without a look-up or a cipher call. -/
theorem decode_of_clear {b : Bytes} {env : Envelope} (c : RecordCipher)
    (h : Envelope.decode b = .ok env) (hr : env.keyRef? = none) (a : Activity) :
    (c.decode b).exec a = (.ok ⟨none, .ok env.body⟩, a.noted env.events) := by
  simp only [decode, h]
  cases env with
  | raw body => rfl
  | plain body => rfl
  | «sealed» r ciphertext => simp [Envelope.keyRef?] at hr

theorem decode_of_sealed {b ciphertext : Bytes} (c : RecordCipher)
    (h : Envelope.decode b = .ok (.sealed r ciphertext)) (a : Activity) :
    (c.decode b).exec a =
      (.ok ⟨some r, ((c.decrypt r ciphertext).exec a).1⟩, ((c.decrypt r ciphertext).exec a).2) := by
  -- reading a sealed envelope reports nothing, so the account is that of the decryption
  have hnote : ((Act.note (Envelope.events (.sealed r ciphertext))).exec a).2 = a := by
    simp [Envelope.events]
  simp only [decode, h, Act.exec_bind, Act.exec_pure, hnote]

/-- What was sealed comes back as it was, with its reference, after exactly one look-up and one
decryption. The payload may itself be an envelope: only the outer frame is taken off. -/
theorem decode_encode {b : Bytes} {a' : Activity} (hc : c.cipher.Inverts)
    (h : (c.encode (some r) payload).exec a = (.ok b, a')) (a₂ : Activity) :
    (c.decode b).exec a₂ = (.ok ⟨some r, .ok payload⟩, (a₂.lookedUp (c.keys r)).decrypted) := by
  obtain ⟨hne, hs, key, out, tape, hk, he, rfl⟩ := encode_ok_some h
  have hd : Envelope.decode (Envelope.frame r.bytes out) = .ok (.sealed r out) :=
    Envelope.decode_eq_sealed_iff.mpr ⟨hne, hs, rfl⟩
  rw [decode_of_sealed c hd, decrypt_of_resolved hk, hc key payload a.tape out tape he]

end RecordCipher

end SealedRecords
