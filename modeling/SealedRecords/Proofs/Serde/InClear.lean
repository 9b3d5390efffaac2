import SealedRecords.Proofs.Serde.RoundTrip

/-!
# Records in clear

A record without a reference leaves as the inner codec wrote it, with nothing
around it. Whoever reads it has only the bytes to go by, and takes everything for
a frame that starts with the magic. So a payload in clear is read back as it was
exactly if it does not start like a frame:

> `decode_inClear_iff`: an envelope that is read as its own bytes in clear is one
> that does not start with the magic.

For the payloads that do, `clear_payload_misread` shows the mildest case: what
comes back is another payload, and nothing is reported as wrong.
-/

namespace SealedRecords

namespace RecordCipher

/-- What has no frame is read as it is. No key is looked up and the cipher is not called. -/
theorem decode_of_unframed {b : Bytes} (c : RecordCipher) (h : ¬ Envelope.magic <+: b)
    (a : Activity) :
    (c.decode b).exec a = (.ok ⟨none, .ok b⟩, a.noted [.rawPassed b.length]) :=
  decode_of_clear c (Envelope.decode_of_not_magic h) rfl a

/-- What starts like a frame is never read as it is. -/
theorem decode_ne_inClear {b : Bytes} (c : RecordCipher) (h : Envelope.magic <+: b)
    (a : Activity) : ((c.decode b).exec a).1 ≠ .ok ⟨none, .ok b⟩ := by
  rcases Envelope.frame_cases b with hn | ⟨-, hl⟩ | ⟨ref, body, hs, rfl⟩
  · exact absurd h hn
  · rw [decode_of_error c (Envelope.decode_of_lacking h hl)]
    simp
  · by_cases hne : ref = []
    · -- the frame in clear is longer than the payload in it
      subst hne
      rw [decode_of_clear c (Envelope.decode_frame_nil body) rfl]
      intro heq
      have hbody : body = Envelope.frame [] body := by simpa [Envelope.body] using heq
      exact absurd (congrArg List.length hbody) (Nat.ne_of_lt (Envelope.length_lt_frame [] body))
    · rw [decode_of_sealed c (Envelope.decode_frame hne hs body)]
      simp

/-- An envelope is read as its own bytes in clear exactly if it does not start with the magic. -/
theorem decode_inClear_iff {b : Bytes} (c : RecordCipher) (a : Activity) :
    ((c.decode b).exec a).1 = .ok ⟨none, .ok b⟩ ↔ ¬ Envelope.magic <+: b := by
  constructor
  · intro h hm
    exact decode_ne_inClear c hm a h
  · intro h
    rw [decode_of_unframed c h]

/-- A payload in clear that is itself a frame in clear: what is read is the payload of that frame,
without its ten first bytes, and not the payload that was sent. -/
theorem clear_payload_misread :
    let c : RecordCipher := ⟨.ofList [], .masking⟩
    let a : Activity := { tape := .counting 0 }
    let payload : Bytes := Envelope.magic ++ [0, 0, 0, 0, 0x68]
    ((c.encode none payload).exec a).1 = .ok payload ∧
      ((c.decode payload).exec a).1 = .ok ⟨none, .ok [0x68]⟩ ∧
      ((c.decode payload).exec a).1 ≠ .ok ⟨none, .ok payload⟩ := by
  intro c a payload
  exact ⟨rfl, rfl, decode_ne_inClear c (List.prefix_append _ _) a⟩

end RecordCipher

/-- A deserializer reads `b` as the value `v`, wherever and whenever it is called. The headers gain
one entry, which says that there is no reference. -/
def Deserializer.RestoresInClear (f : Deserializer α) (topic : String) (b : Bytes) (v : α) : Prop :=
  ∀ thread s, ∃ s', (f thread topic (some b)).exec s = (.ok (some v), s') ∧
    s'.headers.entries = s.headers.entries ++ [⟨Headers.keyRefName, none⟩] ∧
    s'.headers.keyRef? = none

namespace Serde

variable {cipher : RecordCipher} {inner : Serde α} {thread : Thread} {topic : String} {v : α}
  {b : Bytes} {s s' : Exchange}

/-- Bytes given out without a reference are restored if they do not start like a frame. -/
theorem restoresInClear_of_sealing (channel : Pairing) (hinner : inner.ReadsBack)
    (hr : s.reference channel thread = none)
    (h : (Serializer.sealing cipher channel inner.serializer thread topic (some v)).exec s
      = (.ok (some b), s')) (hb : ¬ Envelope.magic <+: b) :
    (Deserializer.opening cipher inner.deserializer).RestoresInClear topic b v := by
  obtain ⟨x, s₁, hx, henc⟩ := written_of_sealing channel hinner.keepsHeaders hr h
  obtain rfl : x = b := by
    rw [RecordCipher.encode_none] at henc
    exact Except.ok.inj (congrArg Prod.fst henc)
  intro thread₂ s₂
  obtain ⟨s₃, hread, hheaders⟩ := exec_opening_of_written hinner hx thread₂
    (RecordCipher.decode_of_unframed cipher hb s₂.activity)
  refine ⟨s₃, hread, ?_, ?_⟩
  · rw [hheaders]
    rfl
  · rw [hheaders, Headers.keyRef?_addKeyRef]

/-- **Records in clear are read back.** Without a reference a payload is given out as it is, with
the cipher not called, and reading gives it back, with no reference and the cipher not called,
exactly if it does not start with the magic. Take an inner serde that reads back what it writes. If
the value side of a pair finds its slot empty, or a self-aware serde finds that the value has no
reference, or the headers tell none to a serde that goes by them, then whatever bytes the
serializer gives out, the deserializer of the same serde reads them as the value that was written,
unless they start with the magic, and adds one entry to the headers, which says that there is no
reference. -/
theorem clear_roundTrip (cipher : RecordCipher) (hinner : inner.ReadsBack) :
    (∀ payload a, (cipher.encode none payload).exec a
      = (.ok payload, a.noted [.sentInClear])) ∧
    (∀ payload a, ((cipher.decode payload).exec a).1 = .ok ⟨none, .ok payload⟩
      ↔ ¬ Envelope.magic <+: payload) ∧
    (∀ payload a, ¬ Envelope.magic <+: payload →
      (cipher.decode payload).exec a
        = (.ok ⟨none, .ok payload⟩, a.noted [.rawPassed payload.length])) ∧
    (∀ {κ : Type} (extractor : Extractor κ) (key : Serde κ) c thread topic v s b s',
      s.slots.peek thread c = none →
      ((paired cipher extractor c key inner).value.serializer thread topic (some v)).exec s
        = (.ok (some b), s') → ¬ Envelope.magic <+: b →
      (paired cipher extractor c key inner).value.deserializer.RestoresInClear topic b v) ∧
    (∀ (extractor : Extractor α) c thread topic v s tape b s',
      extractor.ofRecord topic (some v) s.activity.tape = (.ok none, tape) →
      ((selfAware cipher extractor c inner).serializer thread topic (some v)).exec s
        = (.ok (some b), s') → ¬ Envelope.magic <+: b →
      (selfAware cipher extractor c inner).deserializer.RestoresInClear topic b v) ∧
    ∀ thread topic v s b s',
      s.headers.keyRef? = none →
      ((sealingByHeaders cipher inner).serializer thread topic (some v)).exec s
        = (.ok (some b), s') → ¬ Envelope.magic <+: b →
      (sealingByHeaders cipher inner).deserializer.RestoresInClear topic b v := by
  refine ⟨RecordCipher.encode_none cipher, fun _ a => RecordCipher.decode_inClear_iff cipher a,
    fun _ a h => RecordCipher.decode_of_unframed cipher h a, ?_, ?_, ?_⟩
  · intro κ extractor key c thread topic v s b s' hr h hb
    exact restoresInClear_of_sealing (some c) hinner hr h hb
  · intro extractor c thread topic v s tape b s' hx h hb
    obtain ⟨s₀, hr, hs⟩ := sealing_of_selfAware hx
    rw [hs] at h
    exact restoresInClear_of_sealing (some c) hinner hr h hb
  · intro thread topic v s b s' hr h hb
    exact restoresInClear_of_sealing none hinner hr h hb

/-- Five bytes of the magic and nothing else, sent by a pair whose slot is empty. -/
theorem clear_roundTrip_partialMagic :
    (paired ⟨.ofList [], .masking⟩ (.ofNames fun _ k => some k) 1
        Codec.text.serde Codec.bytes.serde).value.deserializer.RestoresInClear "orders"
      [0x2B, 0x45, 0x2B, 0x1B, 0x2B] [0x2B, 0x45, 0x2B, 0x1B, 0x2B] := by
  let s : Exchange := { activity := { tape := .counting 0 } }
  have hbytes : Codec.bytes.serde.ReadsBack := Codec.readsBack_ofFunctions fun _ => rfl
  obtain ⟨-, -, -, hpair, -⟩ := clear_roundTrip ⟨.ofList [], .masking⟩ hbytes
  exact hpair _ _ 1 .main "orders" _ s _ _ rfl rfl (by decide)

end Serde

end SealedRecords
