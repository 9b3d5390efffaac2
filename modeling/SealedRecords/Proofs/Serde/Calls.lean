import SealedRecords.Proofs.RecordCipher.Outcomes
import SealedRecords.Serde.Pairing

/-!
# What one call of a serde does

Equations for the two layers that a record passes on its way out, `announcing`
on the key side and `sealing` on the value side, and for `opening` on its way in.
Each equation runs the inner codec once and says what happens around it.

> `exec_sealing`: the slot is emptied first, and only then the inner codec runs;
> what it writes is sealed under what was in the slot, or under what the headers
> say if there is no channel.

`SerdeM.Keeps` is the frame condition of this layer: a part of the exchange that
a computation does not change, whatever it ends with.
-/

namespace SealedRecords

namespace SerdeM

/-- A computation leaves a part of the exchange as it is, also when it fails. -/
def Keeps (part : Exchange → β) (x : SerdeM α) : Prop := ∀ s, part (x.exec s).2 = part s

end SerdeM

namespace Serializer

/-- A serializer leaves the slots as they are, as every codec does that knows no channel. -/
def KeepsSlots (f : Serializer α) : Prop :=
  ∀ thread topic v, (f thread topic v).Keeps Exchange.slots

/-- A serializer leaves the headers as they are. -/
def KeepsHeaders (f : Serializer α) : Prop :=
  ∀ thread topic v, (f thread topic v).Keeps Exchange.headers

end Serializer

namespace Deserializer

/-- A deserializer leaves the slots as they are. -/
def KeepsSlots (f : Deserializer α) : Prop :=
  ∀ thread topic b, (f thread topic b).Keeps Exchange.slots

/-- A deserializer leaves the headers as they are. -/
def KeepsHeaders (f : Deserializer α) : Prop :=
  ∀ thread topic b, (f thread topic b).Keeps Exchange.headers

end Deserializer

/-- A serde leaves the slots as they are in both directions. -/
structure Serde.KeepsSlots (s : Serde α) : Prop where
  serializer : s.serializer.KeepsSlots
  deserializer : s.deserializer.KeepsSlots

/-- A serde leaves the headers as they are in both directions. -/
structure Serde.KeepsHeaders (s : Serde α) : Prop where
  serializer : s.serializer.KeepsHeaders
  deserializer : s.deserializer.KeepsHeaders

/-- A codec alone never touches a slot. -/
theorem Codec.keepsSlots_serde (c : Codec α) : c.serde.KeepsSlots :=
  ⟨fun _ _ _ _ => rfl, fun _ _ _ _ => rfl⟩

theorem Codec.keepsHeaders_ofFunctions (write : α → Bytes) (read : Bytes → Except SerdeError α) :
    (ofFunctions write read).serde.KeepsHeaders := by
  refine ⟨fun _ _ _ _ => rfl, fun _ _ b _ => ?_⟩
  cases b with
  | none => rfl
  | some b =>
    simp only [ofFunctions, serde, SerdeM.exec_codec]
    cases read b <;> rfl

namespace Exchange

/-- The exchange after the slot of a channel, if there is one, was emptied on a thread. -/
def taken (s : Exchange) (channel : Pairing) (thread : Thread) : Exchange :=
  match channel with
  | some c => { s with slots := s.slots.clear thread c }
  | none => s

/-- The reference under which a value side seals: what its slot holds, whatever the headers say,
or without a channel what the headers say. -/
def reference (s : Exchange) (channel : Pairing) (thread : Thread) : Option KeyRef :=
  match channel with
  | some c => s.slots.peek thread c
  | none => s.headers.keyRef?

/-- The exchange with another account. -/
def withActivity (s : Exchange) (a : Activity) : Exchange := { s with activity := a }

/-- The exchange after random bytes were drawn. -/
def drawn (s : Exchange) (tape : RandomTape) : Exchange :=
  s.withActivity { s.activity with tape := tape }

end Exchange

namespace Serializer

variable {channel : Pairing} {inner : Serializer α} {thread : Thread} {topic : String}
  {value : Option α} {s : Exchange}

/-! ## The value side -/

theorem exec_takeSlot (channel : Pairing) (thread : Thread) (s : Exchange) :
    (takeSlot channel thread).exec s =
      (.ok (channel.map fun c => s.slots.peek thread c), s.taken channel thread) := by
  cases channel <;> rfl

/-- How a written value leaves: in an envelope, not at all, or with an error of the frame. -/
theorem exec_sealPayload (cipher : RecordCipher) (topic : String) (ref : Option KeyRef)
    (payload : Bytes) (s : Exchange) :
    (sealPayload cipher topic ref payload).exec s =
      match (cipher.encode ref payload).exec s.activity with
      | (.ok b, a) => (.ok (some b), s.withActivity a)
      | (.error (.crypto e), a) =>
        (.ok none, s.withActivity (a.noted [.recordDropped topic e]))
      | (.error (.envelope e), a) => (.error (.envelope e), s.withActivity a) := by
  simp only [sealPayload, SerdeM.exec_bind, SerdeM.exec_account]
  rcases (cipher.encode ref payload).exec s.activity with ⟨(e | e) | b, a⟩ <;> rfl

/-- The value side in one equation. With a channel the reference is what the slot held before the
call; without one it is what the headers say after the inner codec has run. -/
theorem exec_sealing (cipher : RecordCipher) (channel : Pairing) (inner : Serializer α)
    (thread : Thread) (topic : String) (value : Option α) (s : Exchange) :
    (sealing cipher channel inner thread topic value).exec s =
      match (inner thread topic value).exec (s.taken channel thread) with
      | (.error e, s') => (.error e, s')
      | (.ok none, s') => (.ok none, s')
      | (.ok (some payload), s') =>
        (sealPayload cipher topic
          ((channel.map fun c => s.slots.peek thread c).getD s'.headers.keyRef?)
            payload).exec s' := by
  simp only [sealing, SerdeM.exec_bind, exec_takeSlot]
  rcases (inner thread topic value).exec (s.taken channel thread) with ⟨e | (_ | payload), s'⟩
  · rfl
  · rfl
  · cases channel <;> rfl

/-- An inner codec that leaves the headers alone cannot change the reference. -/
theorem reference_after_inner (h : inner.KeepsHeaders) {y : Except SerdeError (Option Bytes)}
    {s' : Exchange} (hy : (inner thread topic value).exec (s.taken channel thread) = (y, s')) :
    (channel.map fun c => s.slots.peek thread c).getD s'.headers.keyRef?
      = s.reference channel thread := by
  cases channel with
  | some c => rfl
  | none =>
    -- only here are the headers read after the call
    have hs := h thread topic value (s.taken none thread)
    rw [hy] at hs
    show s'.headers.keyRef? = s.headers.keyRef?
    rw [show s'.headers = s.headers from hs]

/-! ## The key side -/

/-- The exchange after a reference, or its absence, was announced. -/
def announced (s : Exchange) (channel : Pairing) (thread : Thread) (topic : String)
    (ref : Option KeyRef) : Exchange :=
  match channel with
  | none =>
    { s with
      activity := s.activity.noted [.referenceExtracted topic ref.isSome]
      headers := s.headers.addKeyRef ref }
  | some c =>
    { activity := (s.activity.noted [.referenceExtracted topic ref.isSome]).noted
        [.referencePublished c ref.isSome]
      slots := s.slots.publish thread c ref
      headers := s.headers.addKeyRef ref }

theorem exec_announce (channel : Pairing) (thread : Thread) (topic : String)
    (ref : Option KeyRef) (s : Exchange) :
    (announce channel thread topic ref).exec s =
      (.ok (), announced s channel thread topic ref) := by
  cases channel <;> rfl

/-- The key side in one equation: an extraction that fails changes nothing but the tape. -/
theorem exec_announcing (extractor : Extractor α) (channel : Pairing) (inner : Serializer α)
    (thread : Thread) (topic : String) (key : Option α) (s : Exchange) :
    (announcing extractor channel inner thread topic key).exec s =
      match extractor.ofRecord topic key s.activity.tape with
      | (.error e, tape) =>
        (.error (.keyReference e), s.withActivity { s.activity with tape := tape })
      | (.ok ref, tape) =>
        (inner thread topic key).exec
          (announced (s.withActivity { s.activity with tape := tape }) channel thread topic
            ref) := by
  simp only [announcing, SerdeM.exec_bind, SerdeM.exec_account, Act.exec_drawing]
  cases extractor.ofRecord topic key s.activity.tape with
  | mk y tape =>
    cases y with
    | error e => rfl
    | ok ref => rw [SerdeM.exec_bind, exec_announce]; rfl

section

variable {extractor : Extractor α} {key : Option α} {tape : RandomTape}

/-- A key side that cannot compute a reference has drawn random bytes, and that is all. -/
theorem exec_announcing_of_error {e : ExtractionError}
    (hx : extractor.ofRecord topic key s.activity.tape = (.error e, tape)) :
    (announcing extractor channel inner thread topic key).exec s =
      (.error (.keyReference e), s.drawn tape) := by
  rw [exec_announcing, hx]
  rfl

/-- A key side that computes a reference, or finds that there is none, announces it and leaves the
rest to its inner codec. -/
theorem exec_announcing_of_ok {ref : Option KeyRef}
    (hx : extractor.ofRecord topic key s.activity.tape = (.ok ref, tape)) :
    (announcing extractor channel inner thread topic key).exec s =
      (inner thread topic key).exec (announced (s.drawn tape) channel thread topic ref) := by
  rw [exec_announcing, hx]
  rfl

/-- A key side that succeeded has computed a reference, or found that there is none, and its inner
codec has written the key after that was announced. -/
theorem extracted_of_announcing {y : Option Bytes} {s' : Exchange}
    (h : (announcing extractor channel inner thread topic key).exec s = (.ok y, s')) :
    ∃ ref tape, extractor.ofRecord topic key s.activity.tape = (.ok ref, tape) ∧
      (inner thread topic key).exec (announced (s.drawn tape) channel thread topic ref)
        = (.ok y, s') := by
  rcases hx : extractor.ofRecord topic key s.activity.tape with ⟨e | ref, tape⟩
  · rw [exec_announcing_of_error hx] at h
    cases h
  · rw [exec_announcing_of_ok hx] at h
    exact ⟨ref, tape, rfl, h⟩

end

end Serializer

/-! ## Reading -/

/-- Reading in one equation: the inner codec gets what could be decrypted, and the headers get the
reference of the frame only if the inner codec succeeds. -/
theorem Deserializer.exec_opening (cipher : RecordCipher) (inner : Deserializer α)
    (thread : Thread) (topic : String) (b : Bytes) (s : Exchange) :
    (opening cipher inner thread topic (some b)).exec s =
      match (cipher.decode b).exec s.activity with
      | (.error e, a) => (.error (.envelope e), s.withActivity a)
      | (.ok opened, a) =>
        match (inner thread topic opened.payload.toOption).exec (s.withActivity a) with
        | (.error e, s') => (.error e, s')
        | (.ok value, s') =>
          (.ok value, { s' with headers := s'.headers.addKeyRef opened.keyRef }) := by
  simp only [opening, SerdeM.exec_bind, SerdeM.exec_account]
  rcases (cipher.decode b).exec s.activity with ⟨e | opened, a⟩
  · rfl
  · -- the reference is appended after the inner codec, so its failure leaves no entry
    simp only [SerdeM.exec_bind, Exchange.withActivity]
    rcases (inner thread topic opened.payload.toOption).exec
      { activity := a, slots := s.slots, headers := s.headers } with ⟨e | value, s'⟩
    · rfl
    · rfl

end SealedRecords
