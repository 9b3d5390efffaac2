import SealedRecords.Proofs.Program.Leftovers
import SealedRecords.Proofs.Serde.Losses

/-!
# The log tells of every lost record

In a run of a program every record that a call was given and that came out as
absent is in the log, once, with its reference and the cause; and nothing in the
log tells of a loss that was none. `Action.call?` reads a step as a call of a
serializer or deserializer, with what one needs to know to judge it: whether it was
given a record, and the reference under which that was to be sealed, or was sealed.

> `tellsLoss_of_call`: over plain codecs each call tells of a loss if and only if
> there was one.

A step that is not a call tells of none. So between any two points of a run the
reports of the facade count the records that were lost there:

> `Run.countP_isFacade`.
-/

namespace SealedRecords

namespace Program

/-- A call of a serializer or a deserializer: what is run with which headers, whether it is given a
record, and the reference that counts for it. -/
structure SerdeCall : Type 1 where
  Result : Type
  run : SerdeM (Option Result)
  headers : Headers
  direction : Direction
  topic : String
  given : Bool
  reference : Option KeyRef

namespace SerdeCall

/-- What a call ends with in a world, and the exchange that it leaves. -/
def outcome (call : SerdeCall) (w : World) : Except SerdeError (Option call.Result) × Exchange :=
  call.run.exec (w.enter call.headers)

/-- A call is given a record, and it comes out as absent. -/
def lost (call : SerdeCall) (w : World) : Bool :=
  call.given && match (call.outcome w).1 with
    | .ok none => true
    | _ => false

theorem lost_iff (call : SerdeCall) (w : World) :
    call.lost w = true ↔ call.given = true ∧ (call.outcome w).1 = .ok none := by
  unfold lost
  rcases (call.outcome w).1 with e | (_ | v)
  · simp
  · simp
  · simp

end SerdeCall

namespace Action

/-- The call that a step is, if it is one. On the key side nothing is sealed, so no reference
counts. -/
def call? (w : World) : Action → Option SerdeCall
  | .buildPair _ | .buildSelfAware _ | .drop _ _ => none
  | .writeKey p t topic headers key =>
    some ⟨_, p.serdes.key.serializer t topic key, headers, .writing, topic, key.isSome, none⟩
  | .readKey p t topic headers data =>
    some ⟨_, p.serdes.key.deserializer t topic data, headers, .reading, topic, data.isSome, none⟩
  | .writeValue p t topic headers value =>
    some ⟨_, p.serdes.value.serializer t topic value, headers, .writing, topic, value.isSome,
      w.slots.peek t p.channel⟩
  | .readValue p t topic headers data =>
    some ⟨_, p.serdes.value.deserializer t topic data, headers, .reading, topic, data.isSome,
      data.bind Envelope.reference?⟩
  | .writeSelfAware s t topic headers value =>
    some ⟨_, s.serde.serializer t topic value, headers, .writing, topic, value.isSome,
      Extractor.found (s.extractor.ofRecord topic value w.activity.tape).1⟩
  | .readSelfAware s t topic headers data =>
    some ⟨_, s.serde.deserializer t topic data, headers, .reading, topic, data.isSome,
      data.bind Envelope.reference?⟩
  | .writeByHeaders cipher inner t topic headers value =>
    some ⟨_, (Serde.sealingByHeaders cipher inner.toSerde).serializer t topic value, headers,
      .writing, topic, value.isSome, headers.keyRef?⟩
  | .readByHeaders cipher inner t topic headers data =>
    some ⟨_, (Serde.sealingByHeaders cipher inner.toSerde).deserializer t topic data, headers,
      .reading, topic, data.isSome, data.bind Envelope.reference?⟩
  | .writeProducerKey cipher extractor key value t topic headers data =>
    some ⟨_, (SerializerPair.byHeaders cipher extractor key.serializer value.serializer).key t topic
      data, headers, .writing, topic, data.isSome, none⟩
  | .writeProducerValue cipher extractor key value t topic headers data =>
    some ⟨_, (SerializerPair.byHeaders cipher extractor key.serializer value.serializer).value t
      topic data, headers, .writing, topic, data.isSome, headers.keyRef?⟩

/-- The payload codec of a step is plain. -/
def Plain : Action → Prop
  | .buildPair _ | .buildSelfAware _ | .drop _ _ => True
  | .writeKey p .. | .readKey p .. => p.key.Plain
  | .writeValue p .. | .readValue p .. => p.value.Plain
  | .writeSelfAware s .. | .readSelfAware s .. => s.value.Plain
  | .writeByHeaders _ inner .. | .readByHeaders _ inner .. => inner.Plain
  | .writeProducerKey _ _ key .. => key.Plain
  | .writeProducerValue _ _ _ value .. => value.Plain

variable {w : World} {a : Action} {call : SerdeCall}

theorem activity_perform_of_call (h : a.call? w = some call) :
    (a.perform w).activity = (call.outcome w).2.activity := by
  cases a <;> cases h <;> rfl

/-- Building and dropping tell of no loss. -/
theorem reports_perform_of_no_call (h : a.call? w = none) :
    w.activity.Reports [] (a.perform w).activity := by
  cases a with
  | buildPair parts => exact Activity.reports_noted w.activity [.pairBuilt _]
  | buildSelfAware parts => exact Activity.reports_noted w.activity [.selfAwareBuilt _]
  | drop m t => exact Activity.reports_of_log_eq rfl
  | _ => cases h

/-- A call over a plain codec tells of a loss if and only if there was one. -/
theorem tellsLoss_of_call (hplain : a.Plain) (h : a.call? w = some call) :
    TellsLoss call.given call.reference call.direction call.topic (w.enter call.headers)
      (call.outcome w) := by
  cases a with
  | writeKey p t topic headers key =>
    cases h
    exact Serializer.tellsLoss_announcing p.extractor (some p.channel) p.key.serializer
      (fun _ => none) t topic key (w.enter headers)
      fun found s => Serializer.tellsLoss_plain hplain t topic key _
  | readKey p t topic headers data =>
    cases h
    exact Deserializer.tellsLoss_plain hplain t topic data (w.enter headers)
  | writeValue p t topic headers value =>
    cases h
    exact Serializer.tellsLoss_sealing p.cipher (some p.channel) hplain t topic value
      (w.enter headers)
  | readValue p t topic headers data =>
    cases h
    exact Deserializer.tellsLoss_opening p.cipher hplain t topic data (w.enter headers)
  | writeSelfAware m t topic headers value =>
    cases h
    refine Serializer.tellsLoss_announcing m.extractor (some m.channel)
      (.sealing m.cipher (some m.channel) m.value.serializer) Extractor.found t topic value
      (w.enter headers) fun found s => ?_
    -- the inner layer finds in the slot what the outer one has published
    have href : (Serializer.announced s (some m.channel) t topic found).reference
        (some m.channel) t = found := Slots.peek_publish_self s.slots t m.channel found
    have htells := Serializer.tellsLoss_sealing m.cipher (some m.channel) hplain t topic value
      (Serializer.announced s (some m.channel) t topic found)
    rw [href] at htells
    exact htells
  | readSelfAware m t topic headers data =>
    cases h
    exact Deserializer.tellsLoss_opening m.cipher hplain t topic data (w.enter headers)
  | writeByHeaders cipher inner t topic headers value =>
    cases h
    exact Serializer.tellsLoss_sealing cipher none hplain t topic value (w.enter headers)
  | readByHeaders cipher inner t topic headers data =>
    cases h
    exact Deserializer.tellsLoss_opening cipher hplain t topic data (w.enter headers)
  | writeProducerKey cipher extractor key value t topic headers data =>
    cases h
    exact Serializer.tellsLoss_announcing extractor none key.serializer (fun _ => none) t topic data
      (w.enter headers) fun found s => Serializer.tellsLoss_plain hplain t topic data _
  | writeProducerValue cipher extractor key value t topic headers data =>
    cases h
    exact Serializer.tellsLoss_sealing cipher none hplain t topic data (w.enter headers)
  | _ => cases h

end Action

/-! ## Steps and runs -/

namespace Step

/-- A step is a call that is given a record, and it comes out as absent. -/
def lost (x : Step) : Bool :=
  match x.action.call? x.world with
  | some call => call.lost x.world
  | none => false

variable {x : Step} {call : SerdeCall}

theorem lost_of_call (h : x.action.call? x.world = some call) : x.lost = call.lost x.world := by
  unfold lost
  rw [h]

/-- What a step adds to the log tells whether it has lost a record. -/
theorem exists_events (hplain : x.action.Plain) :
    ∃ es, (x.action.perform x.world).activity.log = x.world.activity.log ++ es ∧
      (∀ call, x.action.call? x.world = some call →
        (x.lost = true ↔ ∃ ev r, call.reference = some r ∧ ev.Blames call.direction r ∧
          es.filter Event.isFacade = [ev] ∧
          (call.direction = .writing → (es.filter Event.isDropped).length = 1))) ∧
      (x.lost = false → es.filter Event.isFacade = [] ∧ es.filter Event.isDropped = []) := by
  cases hcall : x.action.call? x.world with
  | none =>
    obtain ⟨es, hlog, hfacade, hdropped⟩ :=
      (Action.reports_perform_of_no_call hcall).exists_events
    exact ⟨es, hlog, nofun, fun _ => ⟨hfacade, hdropped⟩⟩
  | some call =>
    obtain ⟨es, hlog, hlost, hkept⟩ := (Action.tellsLoss_of_call hplain hcall).lost_iff
    rw [← Action.activity_perform_of_call hcall] at hlog
    rw [← call.lost_iff x.world, ← lost_of_call hcall] at hlost hkept
    refine ⟨es, hlog, ?_, fun hnot => hkept (Bool.eq_false_iff.mp hnot)⟩
    intro call' hcall'
    obtain rfl : call = call' := Option.some.inj hcall'
    exact hlost

/-- A step adds one report of the facade if it has lost a record, and none otherwise. -/
theorem countP_isFacade_perform (hplain : x.action.Plain) :
    (x.action.perform x.world).activity.log.countP Event.isFacade =
      x.world.activity.log.countP Event.isFacade + [x].countP lost := by
  obtain ⟨es, hlog, hlost, hkept⟩ := exists_events hplain
  rw [hlog, List.countP_append, List.countP_singleton, List.countP_eq_length_filter (l := es)]
  congr 1
  cases hx : x.lost with
  | false =>
    rw [(hkept hx).1]
    rfl
  | true =>
    cases hcall : x.action.call? x.world with
    | none =>
      unfold lost at hx
      rw [hcall] at hx
      cases hx
    | some call =>
      obtain ⟨ev, r, -, -, hone, -⟩ := (hlost call hcall).mp hx
      rw [hone]
      rfl

end Step

section

variable {past later earlier : List Step} {x : Step} {w : World}

/-- Between any two points of a run the reports of the facade count the records that were lost. -/
theorem Run.countP_isFacade (h : Run past w) (hplain : ∀ y ∈ past, y.action.Plain)
    (hpast : past = later ++ x :: earlier) :
    w.activity.log.countP Event.isFacade =
      x.world.activity.log.countP Event.isFacade + (later ++ [x]).countP Step.lost := by
  induction h generalizing later with
  | start activity => cases later <;> cases hpast
  | @step past w a _ _ ih =>
    have hstep := Step.countP_isFacade_perform (x := ⟨w, a⟩) (hplain _ List.mem_cons_self)
    cases later with
    | nil =>
      obtain ⟨rfl, -⟩ := List.cons.inj hpast
      exact hstep
    | cons y later =>
      obtain ⟨rfl, hearlier⟩ := List.cons.inj hpast
      have hrun := ih (fun z hz => hplain z (List.mem_cons_of_mem _ hz)) hearlier
      have hcount : (⟨w, a⟩ :: (later ++ [x])).countP Step.lost
          = (later ++ [x]).countP Step.lost + [⟨w, a⟩].countP Step.lost := by
        rw [List.countP_cons, List.countP_singleton]
      rw [List.cons_append, hcount, ← Nat.add_assoc, ← hrun]
      exact hstep

/-- **No record is lost in silence.** The codecs of the library are plain: they write and read
absent for absent only, and report nothing. Take any run of a program over plain codecs, with any
key providers and ciphers. Of each call the log tells whether it was given a record that came out
as absent: exactly if among the events that the call has added there is one report of the facade,
that there is no key or that the cipher failed, with the reference that counts for the call, and on
writing also one that the record is left out. All other steps add no such event. So between any two
points of the run the reports of the facade are as many as the records that were lost. -/
theorem Run.losses_reported :
    (Codec.bytes.serde.Plain ∧ Codec.text.serde.Plain ∧ Codec.json.serde.Plain ∧
      Codec.order.serde.Plain ∧ ∀ {α : Type} (write : α → JsonValue) read,
        (Codec.ofJson write read).serde.Plain) ∧
    ∀ {past : List Step} {w : World}, Run past w → (∀ x ∈ past, x.action.Plain) →
      (∀ x ∈ past, ∃ es,
        (x.action.perform x.world).activity.log = x.world.activity.log ++ es ∧
        (∀ call, x.action.call? x.world = some call →
          (x.lost = true ↔ call.given = true ∧ (call.outcome x.world).1 = .ok none) ∧
          (x.lost = true ↔ ∃ ev r, call.reference = some r ∧ ev.Blames call.direction r ∧
            es.filter Event.isFacade = [ev] ∧
            (call.direction = .writing → (es.filter Event.isDropped).length = 1))) ∧
        (x.lost = false → es.filter Event.isFacade = [] ∧ es.filter Event.isDropped = [])) ∧
      ∀ later x earlier, past = later ++ x :: earlier →
        w.activity.log.countP Event.isFacade =
          x.world.activity.log.countP Event.isFacade + (later ++ [x]).countP Step.lost := by
  have hplain : ∀ {α : Type} (write : α → Bytes) (read : Bytes → Except SerdeError α),
      (Codec.ofFunctions write read).serde.Plain := Codec.plain_ofFunctions
  refine ⟨⟨hplain _ _, hplain _ _, hplain _ _, hplain _ _, fun _ _ => hplain _ _⟩, ?_⟩
  intro past w h hpast
  refine ⟨fun x hx => ?_, fun later x earlier => h.countP_isFacade hpast⟩
  obtain ⟨es, hlog, hlost, hkept⟩ := Step.exists_events (hpast x hx)
  refine ⟨es, hlog, fun call hcall => ⟨?_, hlost call hcall⟩, hkept⟩
  rw [Step.lost_of_call hcall]
  exact call.lost_iff x.world

/-- A provider warns that the reference in the headers is not the name of a key. The record is lost
then, and of the two warnings about the reference the facade's is the one that counts. -/
theorem Run.losses_reported_unnamed :
    let cipher : RecordCipher :=
      ⟨fun r => { key := none, notes := [.unnamedReference r] }, .masking⟩
    let bytes : SlotFree Bytes := ⟨Codec.bytes.serde, Codec.bytes.keepsSlots_serde⟩
    let headers : Headers := ⟨[⟨Headers.keyRefName, some [0x4B]⟩]⟩
    let w := (Action.writeByHeaders cipher bytes .main "orders" headers (some [0x68])).perform
      { activity := { tape := .counting 0 } }
    w.activity.log.countP Event.isFacade = 1 ∧
      ∃ ev, w.activity.log.filter Event.isFacade = [ev] ∧ ev.Blames .writing ⟨[0x4B]⟩ := by
  intro cipher bytes headers w
  have hrun := (Run.start { tape := .counting 0 }).step
    (a := .writeByHeaders cipher bytes .main "orders" headers (some [0x68])) trivial
  obtain ⟨⟨hbytes, -⟩, hall⟩ := losses_reported
  obtain ⟨hsteps, hcount⟩ := hall hrun fun x hx => List.mem_singleton.mp hx ▸ hbytes
  obtain ⟨es, hlog, hcall, -⟩ := hsteps _ List.mem_cons_self
  obtain ⟨ev, r, href, hblames, hone, -⟩ := (hcall _ rfl).2.mp rfl
  obtain rfl : r = ⟨[0x4B]⟩ := Option.some.inj (href.symm.trans rfl)
  refine ⟨(hcount [] _ [] rfl).trans rfl, ev, ?_, hblames⟩
  rw [show w.activity.log = es from hlog]
  exact hone

end

end Program

end SealedRecords
