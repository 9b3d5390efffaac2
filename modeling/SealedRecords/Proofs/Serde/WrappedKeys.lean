import SealedRecords.Keys.Wrapping
import SealedRecords.Proofs.Serde.Transports

/-!
# Records under wrapped data keys

Two ciphers are at work: one wraps the data key of a record under the master key,
the other encrypts the record under the data key. Neither the producer nor the
consumer stores a data key. The producer draws it from the random tape, and what
travels in the frame is its wrapped form, from which the provider of the master
key gets it back.

`MasterKey.Wraps` ties a reference to its data key, and is all that the value
side needs to know about the key side:

> `wraps_of_extractor`: what the extractor gives is a wrapped form of the bytes
> that it drew.

> `sealedOrDropped_of_wraps`: under such a reference a value goes out in a frame
> that the holder of the master key can read, or not at all.

A reference that cannot be unwrapped is no error for the reader: the record is
read as absent, and the inner codec is asked what that means.
-/

namespace SealedRecords

/-- A deserializer that reads absent bytes as an absent value. -/
def Deserializer.PassesAbsence (f : Deserializer α) : Prop :=
  ∀ thread topic s, ∃ s', (f thread topic none).exec s = (.ok none, s')

theorem Codec.passesAbsence_ofFunctions (write : α → Bytes) (read : Bytes → Except SerdeError α) :
    (ofFunctions write read).serde.deserializer.PassesAbsence := fun _ _ s => ⟨s, rfl⟩

/-- An inner serializer of a key side does not undo what was announced before it ran: it leaves
the cell of the channel alone, or without a channel the headers. -/
def Serializer.KeepsAnnouncement (channel : Pairing) (f : Serializer α) : Prop :=
  match channel with
  | some c => f.KeepsCells c
  | none => f.KeepsHeaders

theorem Codec.keepsAnnouncement_ofFunctions (channel : Pairing) (write : α → Bytes)
    (read : Bytes → Except SerdeError α) :
    (ofFunctions write read).serde.serializer.KeepsAnnouncement channel := by
  cases channel with
  | none => exact fun _ _ _ _ => rfl
  | some c => exact fun _ _ _ _ _ => rfl

/-- The value side finds what a key side that succeeded has computed. -/
theorem Serde.reference_of_announcing {extractor : Extractor κ} {channel : Pairing}
    {key : Serializer κ} (hkey : key.KeepsAnnouncement channel) {thread : Thread} {topic : String}
    {k : Option κ} {y : Option Bytes} {s s₁ : Exchange}
    (hy : (Serializer.announcing extractor channel key thread topic k).exec s = (.ok y, s₁)) :
    ∃ ref, (extractor.ofRecord topic k s.activity.tape).1 = .ok ref ∧
      s₁.reference channel thread = ref := by
  cases channel with
  | some c => exact peek_of_announcing hkey hy
  | none => exact keyRef?_of_announcing hkey hy

namespace MasterKey

variable {m : MasterKey} {A : Cipher} {length : Nat} {dataKey wrapped payload : Bytes} {r : KeyRef}
  {e : CipherError} {tape tape' : RandomTape}

/-- The reference is a wrapped form of the data key that a frame can carry. -/
structure Wraps (m : MasterKey) (r : KeyRef) (dataKey : Bytes) : Prop where
  unwraps : m.provider r = { key := some dataKey }
  nonempty : r.isEmpty = false
  fits : r.size ≤ Envelope.maxKeyRefSize

/-- Wrapped data keys of a length can be the reference of a frame. -/
def FitsFrames (m : MasterKey) (length : Nat) : Prop :=
  ∀ dataKey tape wrapped tape', dataKey.length = length →
    m.wrap dataKey tape = (.ok wrapped, tape') →
      wrapped ≠ [] ∧ wrapped.length ≤ Envelope.maxKeyRefSize

/-- Masking makes keys longer by its tag. -/
theorem fitsFrames_masking (key : Bytes)
    (h : Cipher.maskTag.length + length ≤ Envelope.maxKeyRefSize) :
    FitsFrames ⟨.masking, key⟩ length := by
  intro dataKey tape wrapped tape' hlength hw
  have hfst := congrArg Prod.fst hw
  simp only [wrap, Cipher.masking] at hfst
  cases hk : key.isEmpty with
  | true =>
    rw [hk] at hfst
    cases hfst
  | false =>
    rw [hk] at hfst
    obtain rfl : Cipher.maskTag ++ Cipher.mask key dataKey = wrapped := by cases hfst; rfl
    have hmask : (Cipher.mask key dataKey).length = length := by
      rw [Cipher.mask, List.length_mapIdx, hlength]
    refine ⟨List.cons_ne_nil _ _, ?_⟩
    rw [List.length_append, hmask]
    exact h

/-! ## Drawing and wrapping -/

/-- The tape after a data key was drawn from it. -/
def afterDataKey (length : Nat) (tape : RandomTape) : RandomTape :=
  { tape with drawn := tape.drawn + length }

/-- The data key that is drawn next. -/
def nextDataKey (length : Nat) (tape : RandomTape) : Bytes := tape.window tape.drawn length

theorem exec_extractor (m : MasterKey) (length : Nat) (topic : String) (k : κ)
    (tape : RandomTape) :
    m.extractor length topic k tape =
      match m.wrap (nextDataKey length tape) (afterDataKey length tape) with
      | (.ok wrapped, tape') => (.ok (some ⟨wrapped⟩), tape')
      | (.error e, tape') => (.error (.wrapFailed e), tape') := by
  unfold extractor nextDataKey afterDataKey
  simp only [bind, StateT.bind, RandomTape.draw]
  rcases m.wrap (tape.window tape.drawn length) { tape with drawn := tape.drawn + length }
    with ⟨e | wrapped, tape'⟩
  · rfl
  · rfl

theorem provider_of_decrypt (h : m.cipher.decrypt m.key r.bytes = .ok dataKey) :
    m.provider r = { key := some dataKey } := by
  unfold provider unwrap
  rw [h]

theorem provider_of_error (h : m.cipher.decrypt m.key r.bytes = .error e) :
    m.provider r = { key := none, notes := [.unwrapFailed e] } := by
  unfold provider unwrap
  rw [h]

/-- What the extractor gives is a wrapped form of the bytes that it drew. -/
theorem wraps_of_extractor (hm : m.cipher.Inverts) (hfit : m.FitsFrames length) {topic : String}
    {k : κ} {ref : Option KeyRef}
    (h : m.extractor length topic k tape = (.ok ref, tape')) :
    ∃ r, ref = some r ∧
      m.wrap (nextDataKey length tape) (afterDataKey length tape) = (.ok r.bytes, tape') ∧
      m.Wraps r (nextDataKey length tape) := by
  rw [exec_extractor] at h
  rcases hw : m.wrap (nextDataKey length tape) (afterDataKey length tape) with ⟨e | wrapped, tape''⟩
  · rw [hw] at h
    cases h
  · rw [hw] at h
    obtain ⟨rfl, rfl⟩ : some (⟨wrapped⟩ : KeyRef) = ref ∧ tape'' = tape' := by
      cases h
      exact ⟨rfl, rfl⟩
    obtain ⟨hne, hsize⟩ := hfit _ _ _ _ (RandomTape.length_window _ _ _) hw
    have hunwrap : m.cipher.decrypt m.key wrapped = .ok (nextDataKey length tape) :=
      hm _ _ _ _ _ hw
    exact ⟨⟨wrapped⟩, rfl, rfl, provider_of_decrypt hunwrap, List.isEmpty_eq_false_iff.mpr hne,
      hsize⟩

/-! ## Sealing under a wrapped key -/

/-- A producer and a consumer that know a master key and a payload cipher, and no data key. -/
def recordCipher (m : MasterKey) (A : Cipher) : RecordCipher := ⟨m.provider, A⟩

/-- The fate of a value `v` that the inner codec writes as `payload`, under a reference `r` that
wraps `dataKey`: a frame that carries `r` and gives the value to everybody who knows the master
key and the payload cipher, or, if that cipher refuses, nothing at all. -/
structure SealedOrDropped (m : MasterKey) (A : Cipher) (inner : Deserializer α) (topic : String)
    (v : α) (payload dataKey : Bytes) (tape : RandomTape) (r : KeyRef)
    (out : Except SerdeError (Option Bytes)) : Prop where
  framed : ∀ ciphertext tape', A.encrypt dataKey payload tape = (.ok ciphertext, tape') →
    ∃ b, out = .ok (some b) ∧ Envelope.decode b = .ok (.sealed r ciphertext) ∧
      (∀ a, (((m.recordCipher A).decode b).exec a).1 = .ok ⟨some r, .ok payload⟩) ∧
      (Deserializer.opening (m.recordCipher A) inner).Restores topic b v r
  dropped : ∀ e tape', A.encrypt dataKey payload tape = (.error e, tape') → out = .ok none

section

variable {inner : Serde α} {channel : Pairing} {thread : Thread} {topic : String} {v : α}
  {s s₁ : Exchange}

/-- Under a reference that wraps a data key, a value goes out in a frame that the holder of the
master key can read, or not at all. -/
theorem sealedOrDropped_of_wraps (hA : A.Inverts) (hinner : inner.ReadsBack)
    (hr : m.Wraps r dataKey) (href : s.reference channel thread = some r)
    (hx : (inner.serializer thread topic (some v)).exec (s.taken channel thread)
      = (.ok (some payload), s₁)) :
    m.SealedOrDropped A inner.deserializer topic v payload dataKey s₁.activity.tape r
      ((Serializer.sealing (m.recordCipher A) channel inner.serializer thread topic
        (some v)).exec s).1 := by
  have hkey : ((m.recordCipher A).keys r).key = some dataKey := by
    show (m.provider r).key = _
    rw [hr.unwraps]
  have hrun : (Serializer.sealing (m.recordCipher A) channel inner.serializer thread topic
      (some v)).exec s
      = (Serializer.sealPayload (m.recordCipher A) topic (some r) payload).exec s₁ := by
    rw [Serializer.exec_sealing_of_keepsHeaders _ channel hinner.keepsHeaders.serializer, hx, href]
  refine ⟨fun ciphertext tape' hc => ?_, fun e tape' hc => ?_⟩
  · have hsealed := Serializer.sealPayload_of_encrypted topic hr.nonempty hr.fits hkey hc
    have hframe : Envelope.decode (Envelope.frame r.bytes ciphertext)
        = .ok (.sealed r ciphertext) :=
      Envelope.decode_eq_sealed_iff.mpr ⟨hr.nonempty, hr.fits, rfl⟩
    refine ⟨Envelope.frame r.bytes ciphertext, ?_, hframe, fun a => ?_, ?_⟩
    · rw [hrun, hsealed]
    · rw [RecordCipher.decode_encode hA (Serializer.encode_of_sealPayload hsealed) a]
    · exact Serde.restores_of_sealing channel hA hinner href (hrun.trans hsealed)
  · rw [hrun, Serializer.sealPayload_of_failed topic hr.nonempty hkey hc]

end

/-! ## References that do not unwrap -/

/-- For a deserializer a reference that does not unwrap means absent bytes: the inner codec
decides, and the call has no error of its own. -/
theorem opening_of_not_unwrapped (A : Cipher) (inner : Deserializer α) {b ciphertext : Bytes}
    (h : m.cipher.decrypt m.key r.bytes = .error e)
    (hb : Envelope.decode b = .ok (.sealed r ciphertext)) (thread : Thread) (topic : String)
    (s : Exchange) :
    ∃ a, (Deserializer.opening (m.recordCipher A) inner thread topic (some b)).exec s =
      match (inner thread topic none).exec (s.withActivity a) with
      | (.error e, s') => (.error e, s')
      | (.ok value, s') => (.ok value, { s' with headers := s'.headers.addKeyRef (some r) }) := by
  have hkey : ((m.recordCipher A).keys r).key = none := by
    show (m.provider r).key = none
    rw [provider_of_error h]
  rw [Deserializer.exec_opening, RecordCipher.decode_of_sealed _ hb,
    RecordCipher.decrypt_of_unresolved hkey]
  exact ⟨_, rfl⟩

/-- **Records under wrapped data keys.** Take a wrapping cipher and a payload cipher whose
decryption undoes their encryption, a master key whose wrapped keys fit into a frame, and an inner
serde that reads back what it writes. Then, for every length of the data keys, every tape and every
payload:

* a reference that the extractor gives unwraps to exactly the data key that was drawn for it;
* a pair, or two serdes that go by the headers, whose key side has succeeded, seal the value under
  that data key or leave it out, and so does a self-aware serde in one call;
* if the data key cannot be wrapped, the key side fails with the cause and has changed nothing but
  the tape, so that neither the headers nor a slot tell of a reference;
* a reference that does not unwrap finds no key, and a record with it is read as its inner
  deserializer reads absent bytes: as absent, unless that one objects. -/
theorem wrapped_keys_suffice (hm : m.cipher.Inverts) (hA : A.Inverts) (hfit : m.FitsFrames length)
    {inner : Serde α} (hinner : inner.ReadsBack) :
    (∀ {κ : Type} (k : κ) topic tape ref tape',
      m.extractor length topic k tape = (.ok ref, tape') →
      ∃ r, ref = some r ∧
        m.wrap (tape.window tape.drawn length) (afterDataKey length tape) = (.ok r.bytes, tape') ∧
        m.provider r = { key := some (tape.window tape.drawn length) }) ∧
    (∀ {κ : Type} (key : Serializer κ) channel, key.KeepsAnnouncement channel →
      ∀ thread topic k s y s₁ v payload s₂,
      (Serializer.announcing (m.extractor length) channel key thread topic (some k)).exec s
        = (.ok y, s₁) →
      (inner.serializer thread topic (some v)).exec (s₁.taken channel thread)
        = (.ok (some payload), s₂) →
      ∃ r tape', m.extractor length topic k s.activity.tape = (.ok (some r), tape') ∧
        m.SealedOrDropped A inner.deserializer topic v payload
          (s.activity.tape.window s.activity.tape.drawn length) s₂.activity.tape r
          ((Serializer.sealing (m.recordCipher A) channel inner.serializer thread topic
            (some v)).exec s₁).1) ∧
    (∀ channel thread topic v s ref tape' payload s₂,
      m.extractor length topic v s.activity.tape = (.ok ref, tape') →
      (inner.serializer thread topic (some v)).exec
          ((Serializer.announced (s.drawn tape') (some channel) thread topic ref).taken
            (some channel) thread)
        = (.ok (some payload), s₂) →
      ∃ r, ref = some r ∧
        m.SealedOrDropped A inner.deserializer topic v payload
          (s.activity.tape.window s.activity.tape.drawn length) s₂.activity.tape r
          (((Serde.selfAware (m.recordCipher A) (m.extractor length) channel inner).serializer
            thread topic (some v)).exec s).1) ∧
    (∀ {κ : Type} (key : Serializer κ) channel thread topic k s e tape',
      m.wrap (s.activity.tape.window s.activity.tape.drawn length)
          (afterDataKey length s.activity.tape) = (.error e, tape') →
      (Serializer.announcing (m.extractor length) channel key thread topic (some k)).exec s
        = (.error (.keyReference (.wrapFailed e)), s.drawn tape')) ∧
    ∀ r e, m.cipher.decrypt m.key r.bytes = .error e →
      (∀ data a, (((m.recordCipher A).encrypt r data).exec a).1 = .error (.keyNotFound r) ∧
        (((m.recordCipher A).decrypt r data).exec a).1 = .error (.keyNotFound r)) ∧
      ∀ (reader : Deserializer α) b ciphertext, Envelope.decode b = .ok (.sealed r ciphertext) →
        ∀ thread topic s,
          (∃ s₁, ((Deserializer.opening (m.recordCipher A) reader thread topic (some b)).exec s).1
            = ((reader thread topic none).exec s₁).1) ∧
          (reader.PassesAbsence → ∃ s₁,
            (Deserializer.opening (m.recordCipher A) reader thread topic (some b)).exec s
              = (.ok none, s₁) ∧ s₁.headers.keyRef? = some r) := by
  refine ⟨?_, ?_, ?_, ?_, ?_⟩
  · intro κ k topic tape ref tape' h
    obtain ⟨r, hr, hwrapped, hwraps⟩ := wraps_of_extractor hm hfit h
    exact ⟨r, hr, hwrapped, hwraps.unwraps⟩
  · intro κ key channel hkey thread topic k s y s₁ v payload s₂ hy hx
    obtain ⟨ref, hextracted, href⟩ := Serde.reference_of_announcing hkey hy
    have hdrawn : m.extractor length topic k s.activity.tape
        = (.ok ref, (m.extractor length topic k s.activity.tape).2) := Prod.ext hextracted rfl
    obtain ⟨r, rfl, -, hwraps⟩ := wraps_of_extractor hm hfit hdrawn
    exact ⟨r, _, hdrawn, sealedOrDropped_of_wraps hA hinner hwraps href hx⟩
  · intro channel thread topic v s ref tape' payload s₂ hextracted hx
    obtain ⟨r, rfl, -, hwraps⟩ := wraps_of_extractor hm hfit hextracted
    refine ⟨r, rfl, ?_⟩
    have hpublished : (Serializer.announced (s.drawn tape') (some channel) thread topic
        (some r)).reference (some channel) thread = some r := Slots.peek_publish_self _ _ _ _
    have hrun : ((Serde.selfAware (m.recordCipher A) (m.extractor length) channel
        inner).serializer thread topic (some v)).exec s = _ :=
      Serializer.exec_announcing_of_ok hextracted
    rw [hrun]
    exact sealedOrDropped_of_wraps hA hinner hwraps hpublished hx
  · intro κ key channel thread topic k s e tape' hw
    have hextracted : (m.extractor length).ofRecord topic (some k) s.activity.tape
        = (.error (.wrapFailed e), tape') := by
      show m.extractor length topic k s.activity.tape = _
      rw [exec_extractor, nextDataKey, hw]
    exact Serializer.exec_announcing_of_error hextracted
  · intro r e he
    refine ⟨fun data a => ?_, fun reader b ciphertext hb thread topic s => ?_⟩
    · have hkey : ((m.recordCipher A).keys r).key = none := by
        show (m.provider r).key = none
        rw [provider_of_error he]
      rw [RecordCipher.encrypt_of_unresolved hkey, RecordCipher.decrypt_of_unresolved hkey]
      exact ⟨rfl, rfl⟩
    · obtain ⟨a, hrun⟩ := opening_of_not_unwrapped A reader he hb thread topic s
      refine ⟨⟨s.withActivity a, ?_⟩, fun habsent => ?_⟩
      · rw [hrun]
        rcases (reader thread topic none).exec (s.withActivity a) with ⟨e' | value, s'⟩
        · rfl
        · rfl
      · obtain ⟨s', hnone⟩ := habsent thread topic (s.withActivity a)
        rw [hnone] at hrun
        exact ⟨_, hrun, Headers.keyRef?_addKeyRef _ _⟩

/-- A pair over two maskings: the record goes out under a data key of two bytes, in a frame that
carries its wrapped form, and is restored. With a reference without the tag of a wrapped key the
same record is read as absent. -/
theorem wrapped_keys_suffice_masked :
    let m : MasterKey := ⟨.masking, [0x5A]⟩
    let wrapped : KeyRef := ⟨[0x78, 0x6F, 0x72, 0x3A, 0x5D, 0x52]⟩
    let ciphertext : Bytes := [0x78, 0x6F, 0x72, 0x3A, 0x6F]
    let reader := Deserializer.opening (m.recordCipher .masking) Codec.bytes.serde.deserializer
    reader.Restores "orders" (Envelope.frame wrapped.bytes ciphertext) [0x68] wrapped ∧
      ∀ s, ∃ s₁, (reader .main "orders" (some (Envelope.frame [0x4B] ciphertext))).exec s
        = (.ok none, s₁) ∧ s₁.headers.keyRef? = some ⟨[0x4B]⟩ := by
  intro m wrapped ciphertext reader
  have hfit : m.FitsFrames 2 := fitsFrames_masking _ (by decide)
  have hbytes : Codec.bytes.serde.ReadsBack := Codec.readsBack_ofFunctions fun _ => rfl
  obtain ⟨-, hpair, -, -, hlost⟩ := wrapped_keys_suffice (A := .masking) Cipher.masking_inverts
    Cipher.masking_inverts hfit hbytes
  constructor
  · let s : Exchange := { activity := { tape := .counting 7 } }
    have hdrawn : s.activity.tape.window s.activity.tape.drawn 2 = [7, 8] := by decide
    have hencrypted : ∀ tape, Cipher.masking.encrypt [7, 8] [0x68] tape
        = (.ok ciphertext, tape) := fun _ => rfl
    obtain ⟨r, tape', hr, hfate⟩ := hpair Codec.text.serde.serializer (some 1)
      (Codec.keepsAnnouncement_ofFunctions _ _ _) .main "orders" "K1" s _ _ [0x68] [0x68] _ rfl rfl
    rw [hdrawn] at hfate
    obtain ⟨b, hb, hdecode, -, hrestores⟩ := hfate.framed ciphertext _ (hencrypted _)
    obtain rfl : wrapped = r := by
      have hfst := congrArg Prod.fst hr
      cases hfst
      rw [hdrawn]
      decide
    obtain ⟨-, -, rfl⟩ := Envelope.decode_eq_sealed_iff.mp hdecode
    exact hrestores
  · intro s
    have hframe : Envelope.decode (Envelope.frame [0x4B] ciphertext)
        = .ok (.sealed ⟨[0x4B]⟩ ciphertext) :=
      Envelope.decode_eq_sealed_iff.mpr ⟨rfl, by decide, rfl⟩
    have hforeign := (hlost ⟨[0x4B]⟩ (.other "missing xor tag") rfl).2
      Codec.bytes.serde.deserializer (Envelope.frame [0x4B] ciphertext) ciphertext hframe
      .main "orders" s
    exact hforeign.2 (Codec.passesAbsence_ofFunctions _ _)

end MasterKey

end SealedRecords
