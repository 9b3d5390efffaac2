import SealedRecords.Proofs.Serde.NoFallback
import SealedRecords.Proofs.Slots.Cells

/-!
# What a call does to the slots

Three things happen to the slots in a call, each at most once and always on the
calling thread: the key side publishes, the value side empties, and building
makes a channel. How the call ends plays no part. Reading and the serdes without
a channel do nothing.

> `slots_announcing`: a key side publishes what it computed if it could compute
> it, and this cannot be undone by a failure of the inner codec.

> `slots_sealing`: a value side empties its slot, on every path.

`sealingUnder` is the value side without its channel, for a reference that is
fixed beforehand. It is what a paired value side amounts to once the slot has
been read, `exec_sealing_paired`, and every value side whose inner codec leaves
the headers alone, `exec_sealing_eq_sealingUnder`.
-/

namespace SealedRecords

/-- A serde that knows no channel, as every inner codec is. -/
structure SlotFree (α : Type) extends Serde α where
  keepsSlots : toSerde.KeepsSlots

namespace Serializer

variable {cipher : RecordCipher} {channel : Pairing} {inner : Serializer α} {thread : Thread}
  {topic : String} {value : Option α} {s : Exchange}

/-! ## The value side -/

theorem slots_sealPayload (cipher : RecordCipher) (topic : String) (ref : Option KeyRef)
    (payload : Bytes) : (sealPayload cipher topic ref payload).Keeps Exchange.slots := by
  intro s
  rw [exec_sealPayload]
  rcases (cipher.encode ref payload).exec s.activity with ⟨(e | e) | b, a⟩ <;> rfl

/-- A value side empties its slot, on every path. -/
theorem slots_sealing (channel : Pairing) (h : inner.KeepsSlots) :
    ((sealing cipher channel inner thread topic value).exec s).2.slots
      = (s.taken channel thread).slots := by
  have hi := h thread topic value (s.taken channel thread)
  rw [exec_sealing]
  rcases hy : (inner thread topic value).exec (s.taken channel thread) with ⟨e | (_ | x), s₁⟩
  · rw [hy] at hi
    exact hi
  · rw [hy] at hi
    exact hi
  · rw [hy] at hi
    exact (slots_sealPayload cipher topic _ x s₁).trans hi

/-- Writes a value and seals it under a reference that is fixed beforehand. -/
def sealingUnder (cipher : RecordCipher) (ref : Option KeyRef) (inner : Serializer α) :
    Serializer α := fun thread topic value => do
  match ← inner thread topic value with
  | none => return none
  | some payload => sealPayload cipher topic ref payload

/-- A paired value side seals under what its slot holds, and the slot is empty from then on. -/
theorem exec_sealing_paired (cipher : RecordCipher) (c : ChannelId) (inner : Serializer α)
    (thread : Thread) (topic : String) (value : Option α) (s : Exchange) :
    (sealing cipher (some c) inner thread topic value).exec s =
      (sealingUnder cipher (s.slots.peek thread c) inner thread topic value).exec
        (s.taken (some c) thread) := by
  rw [exec_sealing]
  simp only [sealingUnder, SerdeM.exec_bind]
  rcases (inner thread topic value).exec (s.taken (some c) thread) with ⟨e | (_ | x), s₁⟩
  · rfl
  · rfl
  · rfl

/-- Over an inner codec that leaves the headers alone, a value side seals under the reference that
it finds before the call. -/
theorem exec_sealing_eq_sealingUnder {inner : Serializer α} (cipher : RecordCipher)
    (channel : Pairing) (hinner : inner.KeepsHeaders) (thread : Thread) (topic : String)
    (value : Option α) (s : Exchange) :
    (sealing cipher channel inner thread topic value).exec s =
      (sealingUnder cipher (s.reference channel thread) inner thread topic value).exec
        (s.taken channel thread) := by
  rw [exec_sealing_of_keepsHeaders cipher channel hinner]
  simp only [sealingUnder, SerdeM.exec_bind]
  rcases (inner thread topic value).exec (s.taken channel thread) with ⟨e | (_ | x), s₁⟩
  · rfl
  · rfl
  · rfl

/-- Bytes that are given out were written by the inner codec and then sealed. -/
theorem written_of_sealingUnder {ref : Option KeyRef} {b : Bytes} {s' : Exchange}
    (h : (sealingUnder cipher ref inner thread topic value).exec s = (.ok (some b), s')) :
    ∃ x s₁, (inner thread topic value).exec s = (.ok (some x), s₁) ∧
      (sealPayload cipher topic ref x).exec s₁ = (.ok (some b), s') := by
  simp only [sealingUnder, SerdeM.exec_bind] at h
  rcases hy : (inner thread topic value).exec s with ⟨e | (_ | x), s₁⟩
  · rw [hy] at h
    cases h
  · rw [hy] at h
    cases h
  · rw [hy] at h
    exact ⟨x, s₁, rfl, h⟩

/-- Bytes given out under a reference are a sealed frame around the cipher's output for what the
inner codec has written. -/
theorem sealingUnder_ok_some {r : KeyRef} {b : Bytes}
    (h : ((sealingUnder cipher (some r) inner thread topic value).exec s).1 = .ok (some b)) :
    ∃ x s₁ key c tape, (inner thread topic value).exec s = (.ok (some x), s₁) ∧
      (cipher.keys r).key = some key ∧
      cipher.cipher.encrypt key x s₁.activity.tape = (.ok c, tape) ∧
      b = Envelope.frame r.bytes c ∧ Envelope.decode b = .ok (.sealed r c) := by
  obtain ⟨x, s₁, hx, hb⟩ := written_of_sealingUnder (Prod.ext h rfl)
  obtain ⟨key, c, tape, hk, hc, hframe, hd⟩ := sealPayload_ok_some hb
  exact ⟨x, s₁, key, c, tape, hx, hk, hc, hframe, hd⟩

/-- Without a reference the answer of the inner codec is handed on. -/
theorem fst_sealingUnder_none (cipher : RecordCipher) (inner : Serializer α) (thread : Thread)
    (topic : String) (value : Option α) (s : Exchange) :
    ((sealingUnder cipher none inner thread topic value).exec s).1
      = ((inner thread topic value).exec s).1 := by
  simp only [sealingUnder, SerdeM.exec_bind]
  rcases (inner thread topic value).exec s with ⟨e | (_ | x), s₁⟩
  · rfl
  · rfl
  · show ((sealPayload cipher topic none x).exec s₁).1 = _
    rw [sealPayload_none]

/-! ## The key side -/

/-- A key side does to the slots what its inner codec does to them once the reference has been
announced, and nothing if there is no reference to announce. -/
theorem slots_announcing (extractor : Extractor α) :
    ((announcing extractor channel inner thread topic value).exec s).2.slots =
      match extractor.ofRecord topic value s.activity.tape with
      | (.error _, _) => s.slots
      | (.ok ref, tape) =>
        ((inner thread topic value).exec
          (announced (s.withActivity { s.activity with tape := tape }) channel thread topic
            ref)).2.slots := by
  rw [exec_announcing]
  cases extractor.ofRecord topic value s.activity.tape with
  | mk y tape => cases y <;> rfl

/-- A paired key side publishes what it computed, whatever becomes of the key. -/
theorem slots_announcing_paired (extractor : Extractor α) {c : ChannelId} (h : inner.KeepsSlots) :
    ((announcing extractor (some c) inner thread topic value).exec s).2.slots =
      s.slots.afterKey thread c (extractor.ofRecord topic value s.activity.tape).1 := by
  rw [slots_announcing]
  cases extractor.ofRecord topic value s.activity.tape with
  | mk y tape =>
    cases y with
    | error e => rfl
    | ok ref => exact h thread topic value _

/-- A key side without a channel leaves the slots as they are. -/
theorem keepsSlots_announcing (extractor : Extractor α) (h : inner.KeepsSlots) :
    (announcing extractor none inner).KeepsSlots := by
  intro thread topic value s
  show ((announcing extractor none inner thread topic value).exec s).2.slots = s.slots
  rw [slots_announcing]
  cases extractor.ofRecord topic value s.activity.tape with
  | mk y tape =>
    cases y with
    | error e => rfl
    | ok ref => exact h thread topic value _

end Serializer

/-! ## Reading -/

/-- Opening leaves the slots as they are. -/
theorem Deserializer.keepsSlots_opening (cipher : RecordCipher) {inner : Deserializer α}
    (h : inner.KeepsSlots) : (opening cipher inner).KeepsSlots := by
  intro thread topic data s
  cases data with
  | none => rfl
  | some b =>
    show ((opening cipher inner thread topic (some b)).exec s).2.slots = s.slots
    rw [exec_opening]
    rcases (cipher.decode b).exec s.activity with ⟨e | opened, a⟩
    · rfl
    · have hi := h thread topic opened.payload.toOption (s.withActivity a)
      rcases hy : (inner thread topic opened.payload.toOption).exec (s.withActivity a)
        with ⟨e | value, s₁⟩
      · rw [hy] at hi
        simp only [hy]
        exact hi
      · rw [hy] at hi
        simp only [hy]
        exact hi

/-! ## The serdes of the library -/

namespace Serde

variable {cipher : RecordCipher} {thread : Thread} {topic : String} {s : Exchange}

/-- The two layers of a self-aware serializer publish and empty one and the same slot. -/
theorem slots_selfAware (cipher : RecordCipher) (extractor : Extractor α) (c : ChannelId)
    (inner : SlotFree α) (value : Option α) :
    (((selfAware cipher extractor c inner.toSerde).serializer thread topic value).exec s).2.slots =
      s.slots.afterBoth thread c (extractor.ofRecord topic value s.activity.tape).1 := by
  show ((Serializer.announcing extractor (some c) _ thread topic value).exec s).2.slots = _
  rw [Serializer.slots_announcing]
  cases extractor.ofRecord topic value s.activity.tape with
  | mk y tape =>
    cases y with
    | error e => rfl
    | ok ref => exact Serializer.slots_sealing (some c) inner.keepsSlots.serializer

end Serde

end SealedRecords
