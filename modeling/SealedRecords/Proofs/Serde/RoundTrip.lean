import SealedRecords.Proofs.Headers.Multimap
import SealedRecords.Proofs.Serde.SlotEffects

/-!
# The sealed round trip

What a value side gives out under a reference is read back by the deserializer
that belongs to it: the value comes back, and the headers gain one entry that
tells the reference. Writing and reading may happen on different threads, with
different slots, headers and accounts. Nothing is asked of the bytes between the
inner codec and the frame, which may be an envelope themselves.

`Deserializer.Restores` is the conclusion for one frame. All three kinds of serde
are `opening` on the way in and end in `sealing` on the way out, so one lemma
carries them:

> `restores_of_sealing`: a frame given out by `sealing` under `r` is restored by
> `opening` with the reference `r`.
-/

namespace SealedRecords

/-- A serde that leaves the headers alone and reads back, on any thread and at any time, every
value that it has written. -/
structure Serde.ReadsBack (inner : Serde α) : Prop where
  keepsHeaders : inner.KeepsHeaders
  reads_back : ∀ {thread topic v s x s'},
    (inner.serializer thread topic (some v)).exec s = (.ok (some x), s') →
      ∀ thread₂ s₂, ∃ s₃,
        (inner.deserializer thread₂ topic (some x)).exec s₂ = (.ok (some v), s₃)

/-- A codec whose reader undoes its writer reads back what it writes. -/
theorem Codec.readsBack_ofFunctions {write : α → Bytes} {read : Bytes → Except SerdeError α}
    (h : ∀ v, read (write v) = .ok v) : (ofFunctions write read).serde.ReadsBack where
  keepsHeaders := keepsHeaders_ofFunctions write read
  reads_back := by
    intro thread topic v s x s' hx thread₂ s₂
    have hx := congrArg Prod.fst hx
    obtain rfl : write v = x := by cases hx; rfl
    refine ⟨s₂, ?_⟩
    simp only [ofFunctions, serde, SerdeM.exec_codec, h]
    rfl

/-- A deserializer reads `b` as the value `v`, wherever and whenever it is called. The headers gain
one entry, and they then tell the reference `r`. -/
def Deserializer.Restores (f : Deserializer α) (topic : String) (b : Bytes) (v : α) (r : KeyRef) :
    Prop :=
  ∀ thread s, ∃ s', (f thread topic (some b)).exec s = (.ok (some v), s') ∧
    s'.headers.entries = s.headers.entries ++ [⟨Headers.keyRefName, some r.bytes⟩] ∧
    s'.headers.keyRef? = some r

namespace Serde

variable {cipher : RecordCipher} {inner : Serde α} {thread : Thread} {topic : String} {v : α}
  {r : KeyRef} {ref : Option KeyRef} {b : Bytes} {s s' : Exchange}

/-- What a value side gives out was written by the inner codec and then put into an envelope. -/
theorem written_of_sealing (channel : Pairing) (hinner : inner.KeepsHeaders)
    (hr : s.reference channel thread = ref)
    (h : (Serializer.sealing cipher channel inner.serializer thread topic (some v)).exec s
      = (.ok (some b), s')) :
    ∃ x s₁, (inner.serializer thread topic (some v)).exec (s.taken channel thread)
        = (.ok (some x), s₁) ∧
      (cipher.encode ref x).exec s₁.activity = (.ok b, s'.activity) := by
  rw [Serializer.exec_sealing_eq_sealingUnder cipher channel hinner.serializer, hr] at h
  obtain ⟨x, s₁, hx, hb⟩ := Serializer.written_of_sealingUnder h
  exact ⟨x, s₁, hx, Serializer.encode_of_sealPayload hb⟩

/-- A payload that is taken out of an envelope as it was written is read as the value that was
written. The headers gain the reference of the envelope and are otherwise as before the call. -/
theorem exec_opening_of_written (hinner : inner.ReadsBack) {x : Bytes}
    (hx : (inner.serializer thread topic (some v)).exec s = (.ok (some x), s'))
    (thread₂ : Thread) {s₂ : Exchange} {a : Activity}
    (hd : (cipher.decode b).exec s₂.activity = (.ok ⟨ref, .ok x⟩, a)) :
    ∃ s₃, (Deserializer.opening cipher inner.deserializer thread₂ topic (some b)).exec s₂
        = (.ok (some v), s₃) ∧ s₃.headers = s₂.headers.addKeyRef ref := by
  obtain ⟨s₃, hread⟩ := hinner.reads_back hx thread₂ (s₂.withActivity a)
  -- the one entry is appended to the headers as they were before the call
  have hkeep : s₃.headers = s₂.headers := by
    have := hinner.keepsHeaders.deserializer thread₂ topic (some x) (s₂.withActivity a)
    rw [hread] at this
    exact this
  refine ⟨{ s₃ with headers := s₃.headers.addKeyRef ref }, ?_, ?_⟩
  · rw [Deserializer.exec_opening, hd]
    simp only [Except.toOption, hread]
  · rw [hkeep]

/-- A frame given out by `sealing` under `r` is restored by `opening` with the reference `r`. -/
theorem restores_of_sealing (channel : Pairing) (hc : cipher.cipher.Inverts)
    (hinner : inner.ReadsBack) (hr : s.reference channel thread = some r)
    (h : (Serializer.sealing cipher channel inner.serializer thread topic (some v)).exec s
      = (.ok (some b), s')) :
    (Deserializer.opening cipher inner.deserializer).Restores topic b v r := by
  obtain ⟨x, s₁, hx, hb⟩ := written_of_sealing channel hinner.keepsHeaders hr h
  intro thread₂ s₂
  have hopen := RecordCipher.decode_encode hc hb s₂.activity
  obtain ⟨s₃, hread, hheaders⟩ := exec_opening_of_written hinner hx thread₂ hopen
  refine ⟨s₃, hread, ?_, ?_⟩
  · rw [hheaders]
    rfl
  · rw [hheaders, Headers.keyRef?_addKeyRef]

/-- A self-aware serializer that computed a reference, or found that there is none, seals under
what it computed. -/
theorem sealing_of_selfAware {extractor : Extractor α} {c : ChannelId} {tape : RandomTape}
    (hx : extractor.ofRecord topic (some v) s.activity.tape = (.ok ref, tape)) :
    ∃ s₀ : Exchange, s₀.reference (some c) thread = ref ∧
      ((selfAware cipher extractor c inner).serializer thread topic (some v)).exec s
        = (Serializer.sealing cipher (some c) inner.serializer thread topic (some v)).exec s₀ := by
  -- what the outer layer publishes is what the inner one finds
  refine ⟨Serializer.announced (s.drawn tape) (some c) thread topic ref,
    Slots.peek_publish_self _ _ _ _, ?_⟩
  exact Serializer.exec_announcing_of_ok hx

/-- **The sealed round trip.** Take a cipher whose decryption undoes its encryption and an inner
serde that reads back what it writes. If the value side of a pair, a self-aware serde or a serde
that goes by the headers gives out bytes, and the reference found in the slot, computed from the
value or found in the headers is `r`, then the deserializer of the same serde reads them as the
value that was written, adds one entry to the headers, and the headers tell `r`. Exactly one frame
is taken off: whatever payload was sealed, an envelope too, comes back as it was. -/
theorem sealed_roundTrip (hc : cipher.cipher.Inverts) (hinner : inner.ReadsBack) :
    (∀ {κ : Type} (extractor : Extractor κ) (key : Serde κ) c thread topic v r s b s',
      s.slots.peek thread c = some r →
      ((paired cipher extractor c key inner).value.serializer thread topic (some v)).exec s
        = (.ok (some b), s') →
      (paired cipher extractor c key inner).value.deserializer.Restores topic b v r) ∧
    (∀ (extractor : Extractor α) c thread topic v r s tape b s',
      extractor.ofRecord topic (some v) s.activity.tape = (.ok (some r), tape) →
      ((selfAware cipher extractor c inner).serializer thread topic (some v)).exec s
        = (.ok (some b), s') →
      (selfAware cipher extractor c inner).deserializer.Restores topic b v r) ∧
    (∀ thread topic v r s b s',
      s.headers.keyRef? = some r →
      ((sealingByHeaders cipher inner).serializer thread topic (some v)).exec s
        = (.ok (some b), s') →
      (sealingByHeaders cipher inner).deserializer.Restores topic b v r) ∧
    ∀ r payload b a a',
      (cipher.encode (some r) payload).exec a = (.ok b, a') →
      ∀ a₂, ((cipher.decode b).exec a₂).1 = .ok ⟨some r, .ok payload⟩ := by
  refine ⟨?_, ?_, ?_, ?_⟩
  · intro κ extractor key c thread topic v r s b s' hr h
    exact restores_of_sealing (some c) hc hinner hr h
  · intro extractor c thread topic v r s tape b s' hx h
    obtain ⟨s₀, hr, hs⟩ := sealing_of_selfAware hx
    rw [hs] at h
    exact restores_of_sealing (some c) hc hinner hr h
  · intro thread topic v r s b s' hr h
    exact restores_of_sealing none hc hinner hr h
  · intro r payload b a a' h a₂
    rw [RecordCipher.decode_encode hc h a₂]

/-- A payload that starts like an envelope, sealed by a pair and read back. -/
theorem sealed_roundTrip_envelope :
    (paired ⟨.ofList [(⟨[0x4B]⟩, [0x11])], .masking⟩ (.ofNames fun _ k => some k) 1
        Codec.text.serde Codec.bytes.serde).value.deserializer.Restores "orders"
      [0x2B, 0x45, 0x2B, 0x1B, 0x2B, 0x46, 0, 0, 0, 1, 0x4B, 0x78, 0x6F, 0x72, 0x3A,
        0x3A, 0x54, 0x3A, 0x0A, 0x3A, 0x57, 0x11, 0x11, 0x11, 0x11]
      (Envelope.magic ++ [0, 0, 0, 0]) ⟨[0x4B]⟩ := by
  let s : Exchange :=
    { activity := { tape := .counting 0 }, slots := { filled := [⟨.main, 1, ⟨[0x4B]⟩⟩] } }
  have hbytes : Codec.bytes.serde.ReadsBack := Codec.readsBack_ofFunctions fun _ => rfl
  exact (sealed_roundTrip Cipher.masking_inverts hbytes).1 _ _ 1 .main "orders" _ _ s _ _ rfl rfl

end Serde

end SealedRecords
