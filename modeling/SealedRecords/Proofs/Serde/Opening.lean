import SealedRecords.Proofs.Serde.RoundTrip

/-!
# What a deserializer hands on

A deserializer that opens envelopes calls its inner deserializer once for every
input that is not cut short, and not at all for the others. What it hands on is
settled before that call, by the frame, the key and the cipher alone: `Hands` has
one constructor for each way in which this can go, with the account at that
moment, so that "no look-up" and "no cipher call" can be read off it.

> `exec_opening_of_hands`: the call as a whole is the call of the inner
> deserializer, with one entry put behind the headers if that succeeds.

> `cutShort_or_hands`: every input is cut short, or something is handed on for it.

That a value which could not be decrypted is handed on as absent, and does not end
the call, is what makes the two failures differ: the entry is written when
decryption fails, and not when the inner deserializer does.
-/

namespace SealedRecords

namespace Deserializer

/-- What the inner deserializer gets for the bytes `b`: a payload or none, the reference that the
headers will tell, and the exchange that it finds. -/
inductive Hands (cipher : RecordCipher) (s : Exchange) :
    (b : Bytes) → (payload : Option Bytes) → (ref : Option KeyRef) → (found : Exchange) → Prop where
  /-- Bytes without a frame are handed on as a whole. -/
  | unframed {b : Bytes} (hm : ¬ Envelope.magic <+: b) :
    Hands cipher s b (some b) none
      (s.withActivity (s.activity.noted [.rawPassed b.length]))
  /-- Of a frame in clear the body is handed on. -/
  | clear (body : Bytes) :
    Hands cipher s (Envelope.frame [] body) (some body) none
      (s.withActivity (s.activity.noted [.clearFrameRead body.length]))
  /-- No key answers to the reference of a sealed frame, and the cipher is not called. -/
  | unresolved {r : KeyRef} (ciphertext : Bytes) (hne : r.isEmpty = false)
    (hs : r.size ≤ Envelope.maxKeyRefSize) (hk : (cipher.keys r).key = none) :
    Hands cipher s (Envelope.frame r.bytes ciphertext) none (some r)
      (s.withActivity ((s.activity.lookedUp (cipher.keys r)).noted [.decryptionKeyMissing r]))
  /-- The cipher refuses the body of a sealed frame. -/
  | refused {r : KeyRef} {ciphertext key : Bytes} {e : CipherError} (hne : r.isEmpty = false)
    (hs : r.size ≤ Envelope.maxKeyRefSize) (hk : (cipher.keys r).key = some key)
    (hd : cipher.cipher.decrypt key ciphertext = .error e) :
    Hands cipher s (Envelope.frame r.bytes ciphertext) none (some r)
      (s.withActivity ((s.activity.lookedUp (cipher.keys r)).decrypted.noted
        [.decryptionFailed r e]))
  /-- The cipher decrypts the body of a sealed frame. -/
  | decrypted {r : KeyRef} {ciphertext key x : Bytes} (hne : r.isEmpty = false)
    (hs : r.size ≤ Envelope.maxKeyRefSize) (hk : (cipher.keys r).key = some key)
    (hd : cipher.cipher.decrypt key ciphertext = .ok x) :
    Hands cipher s (Envelope.frame r.bytes ciphertext) (some x) (some r)
      (s.withActivity (s.activity.lookedUp (cipher.keys r)).decrypted)

variable {cipher : RecordCipher} {inner : Deserializer α} {thread : Thread} {topic : String}
  {s found : Exchange} {b : Bytes} {payload : Option Bytes} {ref : Option KeyRef}

/-! ## Before the inner call -/

/-- Every input is cut short, or something is handed on for it. -/
theorem cutShort_or_hands (cipher : RecordCipher) (s : Exchange) (b : Bytes) :
    Envelope.IsCutShort b ∨ ∃ payload ref found, Hands cipher s b payload ref found := by
  rcases Envelope.frame_cases b with hm | ⟨hm, hl⟩ | ⟨ref, body, hs, rfl⟩
  · exact Or.inr ⟨_, _, _, .unframed hm⟩
  · exact Or.inl (Envelope.isCutShort_of_lacking hm hl)
  · right
    by_cases hne : ref = []
    · subst hne
      exact ⟨_, _, _, .clear body⟩
    · have he : KeyRef.isEmpty ⟨ref⟩ = false := Envelope.not_isEmpty_iff.mpr hne
      cases hk : (cipher.keys ⟨ref⟩).key with
      | none => exact ⟨_, _, _, .unresolved body he hs hk⟩
      | some key =>
        cases hd : cipher.cipher.decrypt key body with
        | error e => exact ⟨_, _, _, .refused he hs hk hd⟩
        | ok x => exact ⟨_, _, _, .decrypted he hs hk hd⟩

/-- What is handed on is what the record cipher makes of the input, and of the exchange only the
account is another one than before. -/
theorem decode_of_hands (h : Hands cipher s b payload ref found) :
    ∃ opened a, (cipher.decode b).exec s.activity = (.ok ⟨ref, opened⟩, a) ∧
      opened.toOption = payload ∧ found = s.withActivity a := by
  -- a sealed frame is decrypted, whatever comes of that
  have hsealed : ∀ {r : KeyRef} (ciphertext : Bytes), r.isEmpty = false →
      r.size ≤ Envelope.maxKeyRefSize →
      (cipher.decode (Envelope.frame r.bytes ciphertext)).exec s.activity =
        (.ok ⟨some r, ((cipher.decrypt r ciphertext).exec s.activity).1⟩,
          ((cipher.decrypt r ciphertext).exec s.activity).2) := by
    intro r ciphertext hne hs
    exact RecordCipher.decode_of_sealed cipher
      (Envelope.decode_eq_sealed_iff.mpr ⟨hne, hs, rfl⟩) s.activity
  cases h with
  | unframed hm =>
    rw [RecordCipher.decode_of_clear cipher (Envelope.decode_of_not_magic hm) rfl]
    exact ⟨_, _, rfl, rfl, rfl⟩
  | clear body =>
    rw [RecordCipher.decode_of_clear cipher (Envelope.decode_frame_nil body) rfl]
    exact ⟨_, _, rfl, rfl, rfl⟩
  | unresolved ciphertext hne hs hk =>
    rw [hsealed ciphertext hne hs, RecordCipher.decrypt_of_unresolved hk]
    exact ⟨_, _, rfl, rfl, rfl⟩
  | refused hne hs hk hd =>
    rw [hsealed _ hne hs, RecordCipher.decrypt_of_resolved hk, hd]
    exact ⟨_, _, rfl, rfl, rfl⟩
  | decrypted hne hs hk hd =>
    rw [hsealed _ hne hs, RecordCipher.decrypt_of_resolved hk, hd]
    exact ⟨_, _, rfl, rfl, rfl⟩

/-- Whatever is handed on, the inner deserializer finds the headers and the slots as they were. -/
theorem Hands.unchanged (h : Hands cipher s b payload ref found) :
    found.headers = s.headers ∧ found.slots = s.slots := by
  obtain ⟨opened, a, -, -, rfl⟩ := decode_of_hands h
  exact ⟨rfl, rfl⟩

/-- Without a reference nothing was looked up, decrypted or drawn. -/
theorem Hands.untouched (h : Hands cipher s b payload none found) :
    found.activity.lookups = s.activity.lookups ∧ found.activity.calls = s.activity.calls ∧
      found.activity.tape = s.activity.tape := by
  cases h with
  | unframed hm => exact ⟨rfl, rfl, rfl⟩
  | clear body => exact ⟨rfl, rfl, rfl⟩

/-! ## The call -/

/-- A frame that is cut short is refused with the exchange as it was: no key was looked up, the
cipher was not called, and neither was the inner deserializer. -/
theorem exec_opening_of_cutShort (cipher : RecordCipher) (inner : Deserializer α) (thread : Thread)
    (topic : String) (h : Envelope.IsCutShort b) (s : Exchange) :
    ∃ needed, b.length < needed ∧ (opening cipher inner thread topic (some b)).exec s =
      (.error (.envelope (.malformed needed b.length)), s) := by
  obtain ⟨-, needed, hdecode, hlt, -⟩ := h
  have hcall := exec_opening cipher inner thread topic b s
  rw [RecordCipher.decode_of_error cipher hdecode] at hcall
  exact ⟨needed, hlt, hcall⟩

/-- The call as a whole is the call of the inner deserializer, with one entry put behind the headers
if that succeeds. -/
theorem exec_opening_of_hands (inner : Deserializer α) (thread : Thread) (topic : String)
    (h : Hands cipher s b payload ref found) :
    (opening cipher inner thread topic (some b)).exec s =
      match (inner thread topic payload).exec found with
      | (.error e, s') => (.error e, s')
      | (.ok value, s') => (.ok value, { s' with headers := s'.headers.addKeyRef ref }) := by
  obtain ⟨opened, a, hdecode, rfl, rfl⟩ := decode_of_hands h
  have hcall := exec_opening cipher inner thread topic b s
  rw [hdecode] at hcall
  exact hcall

/-- **Reading is atomic in the headers.** Absent data is read as absent, with nothing done. For
bytes that are a frame cut short the call ends with the error of the frame, with nothing done
either. For all other bytes the inner deserializer is called once, with what `Hands` says: the whole
input, the body of a frame in clear, what the cipher made of the body of a sealed frame, or nothing
if there was no key or the cipher failed. Without a reference no key was looked up and the cipher
was not called. An error of the inner deserializer is the error of the call, and leaves the headers
as they were before it. A value of the inner deserializer is the value of the call, and the headers
are then those before it and one entry: with the reference of a sealed frame, decrypted or not, and
without a value otherwise. -/
theorem opening_atomic (cipher : RecordCipher) (hinner : inner.KeepsHeaders) (thread : Thread)
    (topic : String) (s : Exchange) :
    (opening cipher inner thread topic none).exec s = (.ok none, s) ∧
    ∀ b : Bytes,
      (Envelope.IsCutShort b ∨ ∃ payload ref found, Hands cipher s b payload ref found) ∧
      (Envelope.IsCutShort b → ∃ needed, b.length < needed ∧
        (opening cipher inner thread topic (some b)).exec s =
          (.error (.envelope (.malformed needed b.length)), s)) ∧
      ∀ payload ref found, Hands cipher s b payload ref found →
        found.headers = s.headers ∧
        (ref = none → found.activity.lookups = s.activity.lookups ∧
          found.activity.calls = s.activity.calls) ∧
        (∀ e s', (inner thread topic payload).exec found = (.error e, s') →
          (opening cipher inner thread topic (some b)).exec s = (.error e, s') ∧
            s'.headers = s.headers) ∧
        ∀ value s', (inner thread topic payload).exec found = (.ok value, s') →
          ∃ h : Headers, (opening cipher inner thread topic (some b)).exec s =
              (.ok value, { s' with headers := h }) ∧
            h.entries = s.headers.entries ++ [⟨Headers.keyRefName, ref.map KeyRef.bytes⟩] := by
  refine ⟨rfl, fun b => ⟨cutShort_or_hands cipher s b,
    fun hcut => exec_opening_of_cutShort cipher inner thread topic hcut s, ?_⟩⟩
  intro payload ref found h
  have hkept : ∀ y s', (inner thread topic payload).exec found = (y, s') →
      s'.headers = s.headers := by
    intro y s' hy
    have hk := hinner thread topic payload found
    rw [hy] at hk
    exact hk.trans h.unchanged.1
  refine ⟨h.unchanged.1, ?_, ?_, ?_⟩
  · intro href
    subst href
    exact ⟨h.untouched.1, h.untouched.2.1⟩
  · intro e s' hy
    rw [exec_opening_of_hands inner thread topic h, hy]
    exact ⟨rfl, hkept _ s' hy⟩
  · intro value s' hy
    refine ⟨s'.headers.addKeyRef ref, ?_, ?_⟩
    · rw [exec_opening_of_hands inner thread topic h, hy]
    · rw [hkept _ s' hy]
      rfl

/-- A frame under a known key whose body the cipher refuses: the inner codec is told that there is
nothing, and the headers tell the reference behind an older one. -/
theorem opening_atomic_refused :
    let cipher : RecordCipher := ⟨.ofList [(⟨[0x4B]⟩, [0x11])], .masking⟩
    let s : Exchange :=
      { activity := { tape := .counting 0 }, headers := ⟨[⟨Headers.keyRefName, some [0x4C]⟩]⟩ }
    ∃ s', (opening cipher Codec.bytes.serde.deserializer .main "orders"
        (some (Envelope.magic ++ [0, 0, 0, 1, 0x4B, 0x68]))).exec s = (.ok none, s') ∧
      s'.headers.entries =
        [⟨Headers.keyRefName, some [0x4C]⟩, ⟨Headers.keyRefName, some [0x4B]⟩] := by
  intro cipher s
  have hbytes : Codec.bytes.serde.ReadsBack := Codec.readsBack_ofFunctions fun _ => rfl
  have hinner : Codec.bytes.serde.deserializer.KeepsHeaders := hbytes.keepsHeaders.deserializer
  obtain ⟨-, hcall⟩ := opening_atomic cipher hinner .main "orders" s
  obtain ⟨-, -, hhands⟩ := hcall (Envelope.frame [0x4B] [0x68])
  have hkey : (cipher.keys ⟨[0x4B]⟩).key = some [0x11] := rfl
  have hrefused : Hands cipher s (Envelope.frame [0x4B] [0x68]) none (some ⟨[0x4B]⟩) _ :=
    .refused rfl (by decide) hkey rfl
  obtain ⟨-, -, -, hvalue⟩ := hhands none (some ⟨[0x4B]⟩) _ hrefused
  obtain ⟨h, hout, hentries⟩ := hvalue none _ rfl
  exact ⟨_, hout, hentries⟩

end Deserializer

end SealedRecords
