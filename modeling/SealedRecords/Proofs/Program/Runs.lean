import SealedRecords.Proofs.Serde.SlotEffects

/-!
# Programs that use the serdes

A program builds pairs and self-aware serdes, calls them on any thread, calls
serdes that have no channel, and drops what it has built. `Action` lists these
steps, `World` is what they work on, and a `Run` is any order of them, together
with the world each step started from. Every call brings headers of its own. What
a program may not do is call or drop a thing that it does not hold: `Allowed`.

All that a run needs to know about the slots is in two places. `slotsAfter` says
what each step does to them:

> `slots_perform`: the slots after a step are `slotsAfter`.

and `Sound` is what every step preserves: the things that a program holds have
channels that are live, no two of them share one, and no number is in use that
was not given out.

> `Run.sound`: every world that a run reaches is sound.
-/

namespace SealedRecords

namespace Program

/-- What a pair is built from. -/
structure PairParts : Type 1 where
  Key : Type
  Value : Type
  cipher : RecordCipher
  extractor : Extractor Key
  key : SlotFree Key
  value : SlotFree Value

/-- A pair that was built, with the channel it got. -/
structure Pair extends PairParts where
  channel : ChannelId

/-- The two serdes of a pair. -/
def Pair.serdes (p : Pair) : SerdePair p.Key p.Value :=
  Serde.paired p.cipher p.extractor p.channel p.key.toSerde p.value.toSerde

/-- What a self-aware serde is built from. -/
structure SelfAwareParts : Type 1 where
  Value : Type
  cipher : RecordCipher
  extractor : Extractor Value
  value : SlotFree Value

/-- A self-aware serde that was built, with the channel it got. -/
structure SelfAware extends SelfAwareParts where
  channel : ChannelId

/-- The serde itself. -/
def SelfAware.serde (s : SelfAware) : Serde s.Value :=
  Serde.selfAware s.cipher s.extractor s.channel s.value.toSerde

/-- What has a channel of its own. -/
inductive Member : Type 1 where
  | pair (p : Pair)
  | selfAware (s : SelfAware)

def Member.channel : Member → ChannelId
  | .pair p => p.channel
  | .selfAware s => s.channel

/-- What the steps of a program work on: the account, the slots of all threads, and the things with
a channel that the program holds. -/
structure World : Type 1 where
  activity : Activity
  slots : Slots := {}
  members : List Member := []

namespace World

/-- What a call with these headers finds. -/
def enter (w : World) (headers : Headers) : Exchange := ⟨w.activity, w.slots, headers⟩

/-- The world after a call that leaves `s`. -/
def leave (w : World) (s : Exchange) : World :=
  { w with activity := s.activity, slots := s.slots }

/-- The world after a call, whatever it ends with. -/
def call (w : World) (headers : Headers) (x : SerdeM α) : World :=
  w.leave (x.exec (w.enter headers)).2

end World

/-- One step of a program. -/
inductive Action : Type 1 where
  | buildPair (parts : PairParts)
  | buildSelfAware (parts : SelfAwareParts)
  | drop (m : Member) (t : Thread)
  | writeKey (p : Pair) (t : Thread) (topic : String) (headers : Headers) (key : Option p.Key)
  | readKey (p : Pair) (t : Thread) (topic : String) (headers : Headers) (data : Option Bytes)
  | writeValue (p : Pair) (t : Thread) (topic : String) (headers : Headers)
      (value : Option p.Value)
  | readValue (p : Pair) (t : Thread) (topic : String) (headers : Headers) (data : Option Bytes)
  | writeSelfAware (s : SelfAware) (t : Thread) (topic : String) (headers : Headers)
      (value : Option s.Value)
  | readSelfAware (s : SelfAware) (t : Thread) (topic : String) (headers : Headers)
      (data : Option Bytes)
  /-- Writing with a serde that seals under the reference in the headers. -/
  | writeByHeaders {α : Type} (cipher : RecordCipher) (inner : SlotFree α) (t : Thread)
      (topic : String) (headers : Headers) (value : Option α)
  /-- Reading with a serde that seals under the reference in the headers. -/
  | readByHeaders {α : Type} (cipher : RecordCipher) (inner : SlotFree α) (t : Thread)
      (topic : String) (headers : Headers) (data : Option Bytes)
  /-- Writing with the key serializer of a producer. -/
  | writeProducerKey {κ ν : Type} (cipher : RecordCipher) (extractor : Extractor κ)
      (key : SlotFree κ) (value : SlotFree ν) (t : Thread) (topic : String) (headers : Headers)
      (data : Option κ)
  /-- Writing with the value serializer of a producer. -/
  | writeProducerValue {κ ν : Type} (cipher : RecordCipher) (extractor : Extractor κ)
      (key : SlotFree κ) (value : SlotFree ν) (t : Thread) (topic : String) (headers : Headers)
      (data : Option ν)

namespace Action

/-- A program uses what it holds and nothing else that has a channel. -/
def Allowed (w : World) : Action → Prop
  | .drop m _ => m ∈ w.members
  | .writeKey p .. | .readKey p .. | .writeValue p .. | .readValue p .. => .pair p ∈ w.members
  | .writeSelfAware s .. | .readSelfAware s .. => .selfAware s ∈ w.members
  | _ => True

/-- The world after a step. -/
def perform (w : World) : Action → World
  | .buildPair parts =>
    match (Serde.buildPair parts.cipher parts.extractor parts.key.toSerde
      parts.value.toSerde).exec (w.enter {}) with
    | (.ok (channel, _), s) =>
      { w.leave s with members := .pair ⟨parts, channel⟩ :: w.members }
    | (.error _, s) => w.leave s
  | .buildSelfAware parts =>
    match (Serde.buildSelfAware parts.cipher parts.extractor parts.value.toSerde).exec
      (w.enter {}) with
    | (.ok (channel, _), s) =>
      { w.leave s with members := .selfAware ⟨parts, channel⟩ :: w.members }
    | (.error _, s) => w.leave s
  | .drop m t =>
    { w with
      slots := w.slots.drop t m.channel
      members := w.members.filter fun other => other.channel != m.channel }
  | .writeKey p t topic headers key => w.call headers (p.serdes.key.serializer t topic key)
  | .readKey p t topic headers data => w.call headers (p.serdes.key.deserializer t topic data)
  | .writeValue p t topic headers value => w.call headers (p.serdes.value.serializer t topic value)
  | .readValue p t topic headers data => w.call headers (p.serdes.value.deserializer t topic data)
  | .writeSelfAware s t topic headers value => w.call headers (s.serde.serializer t topic value)
  | .readSelfAware s t topic headers data => w.call headers (s.serde.deserializer t topic data)
  | .writeByHeaders cipher inner t topic headers value =>
    w.call headers ((Serde.sealingByHeaders cipher inner.toSerde).serializer t topic value)
  | .readByHeaders cipher inner t topic headers data =>
    w.call headers ((Serde.sealingByHeaders cipher inner.toSerde).deserializer t topic data)
  | .writeProducerKey cipher extractor key value t topic headers data =>
    w.call headers
      ((SerializerPair.byHeaders cipher extractor key.serializer value.serializer).key t topic data)
  | .writeProducerValue cipher extractor key value t topic headers data =>
    w.call headers
      ((SerializerPair.byHeaders cipher extractor key.serializer value.serializer).value t topic
        data)

/-- What a step does to the slots. -/
def slotsAfter (w : World) : Action → Slots
  | .buildPair _ | .buildSelfAware _ => (Slots.create w.slots).2
  | .drop m t => w.slots.drop t m.channel
  | .writeKey p t topic _ key =>
    w.slots.afterKey t p.channel (p.extractor.ofRecord topic key w.activity.tape).1
  | .writeValue p t _ _ _ => w.slots.clear t p.channel
  | .writeSelfAware s t topic _ value =>
    w.slots.afterBoth t s.channel (s.extractor.ofRecord topic value w.activity.tape).1
  | _ => w.slots

/-- The things with a channel that the program holds after a step. -/
def membersAfter (w : World) : Action → List Member
  | .buildPair parts => .pair ⟨parts, w.slots.next⟩ :: w.members
  | .buildSelfAware parts => .selfAware ⟨parts, w.slots.next⟩ :: w.members
  | .drop m _ => w.members.filter fun other => other.channel != m.channel
  | _ => w.members

theorem slots_perform (w : World) (a : Action) : (a.perform w).slots = a.slotsAfter w := by
  cases a with
  | buildPair parts => rfl
  | buildSelfAware parts => rfl
  | drop m t => rfl
  | writeKey p t topic headers key =>
    exact Serializer.slots_announcing_paired p.extractor p.key.keepsSlots.serializer
  | readKey p t topic headers data =>
    exact p.key.keepsSlots.deserializer t topic data (w.enter headers)
  | writeValue p t topic headers value =>
    exact Serializer.slots_sealing (some p.channel) p.value.keepsSlots.serializer
  | readValue p t topic headers data =>
    exact Deserializer.keepsSlots_opening p.cipher p.value.keepsSlots.deserializer t topic data
      (w.enter headers)
  | writeSelfAware s t topic headers value =>
    exact Serde.slots_selfAware s.cipher s.extractor s.channel s.value value
  | readSelfAware s t topic headers data =>
    exact Deserializer.keepsSlots_opening s.cipher s.value.keepsSlots.deserializer t topic data
      (w.enter headers)
  | writeByHeaders cipher inner t topic headers value =>
    exact Serializer.slots_sealing none inner.keepsSlots.serializer
  | readByHeaders cipher inner t topic headers data =>
    exact Deserializer.keepsSlots_opening cipher inner.keepsSlots.deserializer t topic data
      (w.enter headers)
  | writeProducerKey cipher extractor key value t topic headers data =>
    exact Serializer.keepsSlots_announcing extractor key.keepsSlots.serializer t topic data
      (w.enter headers)
  | writeProducerValue cipher extractor key value t topic headers data =>
    exact Serializer.slots_sealing none value.keepsSlots.serializer

theorem members_perform (w : World) (a : Action) : (a.perform w).members = a.membersAfter w := by
  cases a <;> rfl

/-- What a program did not hold before a step was built in it, on a new channel. -/
theorem built_of_new {w : World} {a : Action} {m : Member} (hm' : m ∈ (a.perform w).members)
    (hm : m ∉ w.members) :
    (∃ parts, a = .buildPair parts ∧ m = .pair ⟨parts, w.slots.next⟩) ∨
      ∃ parts, a = .buildSelfAware parts ∧ m = .selfAware ⟨parts, w.slots.next⟩ := by
  rw [a.members_perform] at hm'
  cases a with
  | buildPair parts =>
    rcases List.mem_cons.mp hm' with h | h
    · exact Or.inl ⟨parts, rfl, h⟩
    · exact absurd h hm
  | buildSelfAware parts =>
    rcases List.mem_cons.mp hm' with h | h
    · exact Or.inr ⟨parts, rfl, h⟩
    · exact absurd h hm
  | drop n t => exact absurd (List.mem_filter.mp hm').1 hm
  | _ => exact absurd hm' hm

end Action

/-! ## What every step preserves -/

/-- The channels of what a program holds are live, no two of these things share one, and no number
is in use that was not given out. -/
structure World.Sound (w : World) : Prop where
  bounded : w.slots.Bounded
  live : ∀ m ∈ w.members, m.channel ∈ w.slots.live
  unique : ∀ m ∈ w.members, ∀ n ∈ w.members, m.channel = n.channel → m = n

namespace World.Sound

variable {w : World} {a : Action}

theorem member_lt (h : w.Sound) {m : Member} (hm : m ∈ w.members) : m.channel < w.slots.next :=
  h.bounded.live_lt m.channel (h.live m hm)

theorem bounded_slotsAfter (h : w.Sound) (ha : a.Allowed w) : (a.slotsAfter w).Bounded := by
  cases a with
  | buildPair parts => exact h.bounded.create
  | buildSelfAware parts => exact h.bounded.create
  | drop m t => exact h.bounded.drop
  | writeKey p t topic headers key => exact h.bounded.afterKey (h.member_lt ha)
  | writeValue p t topic headers value => exact h.bounded.clear
  | writeSelfAware s t topic headers value => exact h.bounded.afterBoth (h.member_lt ha)
  | _ => exact h.bounded

theorem live_membersAfter (h : w.Sound) :
    ∀ m ∈ a.membersAfter w, m.channel ∈ (a.slotsAfter w).live := by
  intro m hm
  cases a with
  | buildPair parts =>
    rcases List.mem_cons.mp hm with rfl | hm
    · exact List.mem_cons_self
    · exact List.mem_cons_of_mem _ (h.live m hm)
  | buildSelfAware parts =>
    rcases List.mem_cons.mp hm with rfl | hm
    · exact List.mem_cons_self
    · exact List.mem_cons_of_mem _ (h.live m hm)
  | drop n t =>
    obtain ⟨hm, hne⟩ := List.mem_filter.mp hm
    exact List.mem_filter.mpr ⟨h.live m hm, hne⟩
  | writeKey p t topic headers key =>
    unfold Action.slotsAfter
    rw [Slots.live_afterKey]
    exact h.live m hm
  | writeSelfAware s t topic headers value =>
    unfold Action.slotsAfter
    rw [Slots.live_afterBoth]
    exact h.live m hm
  | _ => exact h.live m hm

/-- A new thing has a channel that nothing else has. -/
theorem unique_cons (h : w.Sound) {m : Member} (hm : m.channel = w.slots.next) :
    ∀ m₁ ∈ m :: w.members, ∀ m₂ ∈ m :: w.members, m₁.channel = m₂.channel → m₁ = m₂ := by
  intro m₁ h₁ m₂ h₂ heq
  rcases List.mem_cons.mp h₁ with e₁ | h₁ <;> rcases List.mem_cons.mp h₂ with e₂ | h₂
  · rw [e₁, e₂]
  · have hlt := h.member_lt h₂
    rw [← heq, e₁, hm] at hlt
    exact absurd hlt (Nat.lt_irrefl _)
  · have hlt := h.member_lt h₁
    rw [heq, e₂, hm] at hlt
    exact absurd hlt (Nat.lt_irrefl _)
  · exact h.unique m₁ h₁ m₂ h₂ heq

theorem unique_membersAfter (h : w.Sound) :
    ∀ m ∈ a.membersAfter w, ∀ n ∈ a.membersAfter w, m.channel = n.channel → m = n := by
  cases a with
  | buildPair parts => exact h.unique_cons rfl
  | buildSelfAware parts => exact h.unique_cons rfl
  | drop m t =>
    intro m₁ h₁ m₂ h₂ heq
    exact h.unique m₁ (List.mem_filter.mp h₁).1 m₂ (List.mem_filter.mp h₂).1 heq
  | _ => exact h.unique

/-- Every step that is allowed preserves soundness. -/
theorem perform (h : w.Sound) (ha : a.Allowed w) : (a.perform w).Sound where
  bounded := by
    rw [a.slots_perform]
    exact h.bounded_slotsAfter ha
  live := by
    rw [a.slots_perform, a.members_perform]
    exact h.live_membersAfter
  unique := by
    rw [a.members_perform]
    exact h.unique_membersAfter

end World.Sound

/-- Numbers are given out in order. -/
theorem Action.next_le_perform (w : World) (a : Action) :
    w.slots.next ≤ (a.perform w).slots.next := by
  rw [a.slots_perform]
  cases a with
  | buildPair parts => exact Nat.le_succ _
  | buildSelfAware parts => exact Nat.le_succ _
  | writeKey p t topic headers key => exact Nat.le_of_eq (Slots.next_afterKey _ _ _).symm
  | writeSelfAware s t topic headers value =>
    exact Nat.le_of_eq (Slots.next_afterBoth _ _ _).symm
  | _ => exact Nat.le_refl _

/-! ## Runs -/

/-- A step together with the world that it started from. -/
structure Step : Type 1 where
  world : World
  action : Action

/-- The steps that a program has made since it started, the latest first, and the world they have
led to. -/
inductive Run : List Step → World → Prop where
  | start (activity : Activity) : Run [] { activity := activity }
  | step {past : List Step} {w : World} {a : Action} :
      Run past w → a.Allowed w → Run (⟨w, a⟩ :: past) (a.perform w)

/-- Every world that a run reaches is sound. -/
theorem Run.sound {past : List Step} {w : World} (h : Run past w) : w.Sound := by
  induction h with
  | start activity =>
    exact ⟨Slots.bounded_empty, fun _ hm => absurd hm List.not_mem_nil,
      fun _ hm => absurd hm List.not_mem_nil⟩
  | step _ ha ih => exact ih.perform ha

end Program

end SealedRecords
