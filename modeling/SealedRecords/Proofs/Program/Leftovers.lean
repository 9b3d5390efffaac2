import SealedRecords.Proofs.Program.Handover

/-!
# References left over

A key side overwrites its slot with what it has computed. If it could compute
nothing it stops before the slot is reached, so what an earlier record has left
there stays, and the next value on that thread and pair is sealed under it. This
file says exactly when that happens: the latest key call has computed nothing, no
value call has emptied the slot since, and something was pending when the key call
was made.

> `Run.leftover_iff`: what is left over in a slot is the reference that was handed
> over before the latest key call, and is left over on these conditions only.

A key call that went well has overwritten the slot. So a host that sends no value
after a failed key call never meets a leftover, and one that sends it nevertheless
may seal it under the reference of another record.
-/

namespace SealedRecords

/-- The reference that an extraction has found: none if it failed. -/
def Extractor.found : Except ExtractionError (Option KeyRef) → Option KeyRef
  | .ok ref => ref
  | .error _ => none

namespace Program

namespace Step

variable {x : Step} {p : Pair} {t : Thread}

/-- A call of the key side of `p` on `t`, whatever it ended with. -/
def WritesKey (x : Step) (p : Pair) (t : Thread) : Prop :=
  ∃ topic headers key, x.action = .writeKey p t topic headers key

theorem Publishes.writesKey {ref : Option KeyRef} (h : x.Publishes p t ref) : x.WritesKey p t := by
  obtain ⟨topic, headers, key, ha, -⟩ := h
  exact ⟨topic, headers, key, ha⟩

theorem WritesKey.not_takes (h : x.WritesKey p t) : ¬ x.Takes p t := by
  rintro ⟨topic', headers', value, hvalue⟩
  obtain ⟨topic, headers, key, hkey⟩ := h
  rw [hkey] at hvalue
  cases hvalue

/-- A key call that computed nothing does not count. -/
theorem WritesKey.not_touches (h : x.WritesKey p t) (hn : ∀ ref, ¬ x.Publishes p t ref) :
    ¬ x.Touches p t := by
  rintro (⟨ref, hp⟩ | ht)
  · exact hn ref hp
  · exact h.not_takes ht

end Step

/-- A key call leaves in its slot what it has computed, and what was there if it computed nothing.
The inner codec plays no part. -/
theorem peek_writeKey (w : World) (p : Pair) (t : Thread) (topic : String) (headers : Headers)
    (key : Option p.Key) :
    ((Action.writeKey p t topic headers key).perform w).slots.peek t p.channel =
      match (p.extractor.ofRecord topic key w.activity.tape).1 with
      | .ok ref => ref
      | .error _ => w.slots.peek t p.channel := by
  rw [Action.slots_perform]
  show (w.slots.afterKey t p.channel _).peek t p.channel = _
  cases (p.extractor.ofRecord topic key w.activity.tape).1 with
  | ok ref => exact Slots.peek_publish_self _ _ _ _
  | error e => rfl

/-- A key call leaves its own reference and nothing else exactly if it could compute one, or find
that there is none, or if nothing was pending before. -/
theorem peek_writeKey_eq_found_iff (w : World) (p : Pair) (t : Thread) (topic : String)
    (headers : Headers) (key : Option p.Key) :
    ((Action.writeKey p t topic headers key).perform w).slots.peek t p.channel =
        Extractor.found (p.extractor.ofRecord topic key w.activity.tape).1 ↔
      (∃ ref, (p.extractor.ofRecord topic key w.activity.tape).1 = .ok ref) ∨
        w.slots.peek t p.channel = none := by
  rw [peek_writeKey]
  cases (p.extractor.ofRecord topic key w.activity.tape).1 with
  | ok ref => exact ⟨fun _ => Or.inl ⟨ref, rfl⟩, fun _ => rfl⟩
  | error e =>
    constructor
    · exact Or.inr
    · rintro (⟨ref, href⟩ | hnone)
      · cases href
      · exact hnone

section

variable {later earlier : List Step} {x : Step} {p : Pair} {t : Thread} {r : KeyRef}

/-- Steps that do not count change nothing about what was handed over. -/
theorem handedOver_append_of_untouched {past : List Step} (h : ∀ y ∈ later, ¬ y.Touches p t) :
    HandedOver (later ++ past) p t r ↔ HandedOver past p t r := by
  induction later with
  | nil => exact Iff.rfl
  | cons y later ih =>
    obtain ⟨hy, hlater⟩ := List.forall_mem_cons.mp h
    rw [List.cons_append, handedOver_cons_of_untouched hy]
    exact ih hlater

/-- After a value call and no further key call nothing is handed over. -/
theorem not_handedOver_of_mem_takes {past : List Step}
    (hkey : ∀ y ∈ later, ∀ ref, ¬ y.Publishes p t ref) (h : ∃ y ∈ later, y.Takes p t) :
    ¬ HandedOver (later ++ past) p t r := by
  obtain ⟨y, hy, htakes⟩ := h
  obtain ⟨before, after, rfl⟩ := List.append_of_mem hy
  rw [List.append_assoc, List.cons_append]
  exact not_handedOver_of_takes htakes fun z hz => hkey z (List.mem_append_left _ hz)

/-- What is handed over although the latest key call has not computed it was handed over before
that call, which has computed nothing, and no value call came after it. -/
theorem handedOver_leftover_iff (hx : x.WritesKey p t)
    (hlater : ∀ y ∈ later, ¬ y.WritesKey p t) :
    (HandedOver (later ++ x :: earlier) p t r ∧ ¬ x.Publishes p t (some r)) ↔
      (∀ ref, ¬ x.Publishes p t ref) ∧ (∀ y ∈ later, ¬ y.Takes p t) ∧
        HandedOver earlier p t r := by
  have hkey : ∀ y ∈ later, ∀ ref, ¬ y.Publishes p t ref :=
    fun y hy ref h => hlater y hy h.writesKey
  have huntouched (htakes : ∀ y ∈ later, ¬ y.Takes p t) : ∀ y ∈ later, ¬ y.Touches p t := by
    rintro y hy (⟨ref, h⟩ | h)
    · exact hkey y hy ref h
    · exact htakes y hy h
  constructor
  · rintro ⟨hover, hnot⟩
    have htakes : ∀ y ∈ later, ¬ y.Takes p t :=
      fun y hy h => not_handedOver_of_mem_takes hkey ⟨y, hy, h⟩ hover
    rw [handedOver_append_of_untouched (huntouched htakes)] at hover
    have hnone : ∀ ref, ¬ x.Publishes p t ref := by
      -- had the call computed anything, it would be that which is handed over
      intro ref h
      exact hnot ((handedOver_cons_of_touches (Or.inl ⟨ref, h⟩)).mp hover)
    exact ⟨hnone, htakes, (handedOver_cons_of_untouched (hx.not_touches hnone)).mp hover⟩
  · rintro ⟨hnone, htakes, hover⟩
    rw [handedOver_append_of_untouched (huntouched htakes)]
    exact ⟨(handedOver_cons_of_untouched (hx.not_touches hnone)).mpr hover, hnone (some r)⟩

end

/-- In every world that a run reaches, a slot holds a reference that the latest key call has not
computed exactly if that call has computed nothing, no value call came after it, and the reference
was handed over before. -/
theorem Run.leftover_iff {past later earlier : List Step} {x : Step} {w : World} (h : Run past w)
    {p : Pair} (hp : .pair p ∈ w.members) {t : Thread} (hpast : past = later ++ x :: earlier)
    (hx : x.WritesKey p t) (hlater : ∀ y ∈ later, ¬ y.WritesKey p t) (r : KeyRef) :
    (w.slots.peek t p.channel = some r ∧ ¬ x.Publishes p t (some r)) ↔
      (∀ ref, ¬ x.Publishes p t ref) ∧ (∀ y ∈ later, ¬ y.Takes p t) ∧
        HandedOver earlier p t r := by
  rw [h.peek_iff_handedOver hp t r, hpast]
  exact handedOver_leftover_iff hx hlater

/-- **What a key call leaves behind.** In every world that a run reaches, take a pair that the
program holds, and a thread. A key call made there now leaves in the slot the reference it has
computed and nothing else, so nothing if it found none, exactly if it did not fail to compute one
or nothing was handed over before it. A record without a key always empties the slot. And take the
latest key call there, whenever it was: the reference under which the value side seals next is
another one than what that call has computed exactly if the call has computed nothing, no value
call came after it, and the reference was handed over before it. -/
theorem Run.keyCall_overwrites_iff {past : List Step} {w : World} (h : Run past w) {p : Pair}
    (hp : .pair p ∈ w.members) (t : Thread) :
    (∀ topic headers key,
      ((Action.writeKey p t topic headers key).perform w).slots.peek t p.channel =
          Extractor.found (p.extractor.ofRecord topic key w.activity.tape).1 ↔
        (∃ ref, (p.extractor.ofRecord topic key w.activity.tape).1 = .ok ref) ∨
          ∀ r, ¬ HandedOver past p t r) ∧
    (∀ topic headers,
      ((Action.writeKey p t topic headers none).perform w).slots.peek t p.channel = none) ∧
    ∀ later x earlier, past = later ++ x :: earlier → x.WritesKey p t →
      (∀ y ∈ later, ¬ y.WritesKey p t) →
      ∃ ref : Option KeyRef,
        (∀ r, (ref = some r ∧ ¬ x.Publishes p t (some r)) ↔
          (∀ ref', ¬ x.Publishes p t ref') ∧ (∀ y ∈ later, ¬ y.Takes p t) ∧
            HandedOver earlier p t r) ∧
        ∀ topic headers value,
          (p.serdes.value.serializer t topic value).exec (w.enter headers) =
            (Serializer.sealingUnder p.cipher ref p.value.serializer t topic value).exec
              ((w.enter headers).taken (some p.channel) t) := by
  refine ⟨fun topic headers key => ?_, fun topic headers => ?_,
    fun later x earlier hpast hx hlater => ?_⟩
  · have hnone : w.slots.peek t p.channel = none ↔ ∀ r, ¬ HandedOver past p t r := by
      rw [Option.eq_none_iff_forall_ne_some]
      exact forall_congr' fun r => not_congr (h.peek_iff_handedOver hp t r)
    rw [peek_writeKey_eq_found_iff, hnone]
  · exact peek_writeKey w p t topic headers none
  · exact ⟨w.slots.peek t p.channel, h.leftover_iff hp hpast hx hlater,
      fun topic headers value => Serializer.exec_sealing_paired p.cipher p.channel
        p.value.serializer t topic value (w.enter headers)⟩

/-- A pair whose extractor knows one key and fails for every other one. -/
def choosy : PairParts where
  Key := String
  Value := Bytes
  cipher := ⟨.ofList [(.ofText "K1", [0x11])], .masking⟩
  extractor := fun _ key => pure <|
    if key = "K1" then .ok (some (.ofText "K1")) else .error (.other "master key unavailable")
  key := ⟨Codec.text.serde, Codec.text.keepsSlots_serde⟩
  value := ⟨Codec.bytes.serde, Codec.bytes.keepsSlots_serde⟩

/-- A record was abandoned after its key call, and for the next one no reference could be computed.
A value that is sent nevertheless is sealed under the reference of the first record. -/
theorem Run.keyCall_overwrites_iff_abandoned :
    let p : Pair := ⟨choosy, 1⟩
    let w₁ := (Action.buildPair choosy).perform { activity := { tape := .counting 0 } }
    let w₂ := (Action.writeKey p .main "orders" {} (some "K1")).perform w₁
    let w₃ := (Action.writeKey p .main "orders" {} (some "K2")).perform w₂
    (p.serdes.value.serializer .main "orders" (some [0x68])).exec (w₃.enter {}) =
      (Serializer.sealingUnder p.cipher (some (.ofText "K1")) p.value.serializer .main "orders"
        (some [0x68])).exec ((w₃.enter {}).taken (some 1) .main) := by
  intro p w₁ w₂ w₃
  have hrun := ((Run.start { tape := .counting 0 }).step (a := .buildPair choosy) trivial
    |>.step (a := .writeKey p .main "orders" {} (some "K1")) List.mem_cons_self
    |>.step (a := .writeKey p .main "orders" {} (some "K2")) List.mem_cons_self)
  obtain ⟨-, -, hlatest⟩ := hrun.keyCall_overwrites_iff (p := p) List.mem_cons_self .main
  obtain ⟨ref, href, hcall⟩ := hlatest [] _ _ rfl ⟨"orders", {}, some "K2", rfl⟩
    fun _ hy => absurd hy List.not_mem_nil
  have hrefused : ∀ ref', ¬ Step.Publishes ⟨w₂, .writeKey p .main "orders" {} (some "K2")⟩ p .main
      ref' := by
    rintro ref' ⟨topic, headers, key, ha, hx⟩
    cases ha
    cases hx
  have hfirst : HandedOver [⟨w₁, .writeKey p .main "orders" {} (some "K1")⟩,
      ⟨{ activity := { tape := .counting 0 } }, .buildPair choosy⟩] p .main (.ofText "K1") :=
    ⟨[], _, _, rfl, ⟨"orders", {}, some "K1", rfl, rfl⟩, fun _ hy => absurd hy List.not_mem_nil⟩
  obtain ⟨hK1, -⟩ := (href (.ofText "K1")).mpr
    ⟨hrefused, fun _ hy => absurd hy List.not_mem_nil, hfirst⟩
  rw [hK1] at hcall
  exact hcall "orders" {} (some [0x68])

/-- The same program, step by step: the second key call ends with an error and has found no
reference, the slot still holds the one of the first record, and the value goes out in a frame that
carries it. -/
theorem failed_keyCall_leaves_reference :
    let p : Pair := ⟨choosy, 1⟩
    let w₁ := (Action.buildPair choosy).perform { activity := { tape := .counting 0 } }
    let w₂ := (Action.writeKey p .main "orders" {} (some "K1")).perform w₁
    let w₃ := (Action.writeKey p .main "orders" {} (some "K2")).perform w₂
    (∃ past, Run past w₃) ∧
      ((p.serdes.key.serializer .main "orders" (some "K2")).exec (w₂.enter {})).1 =
        .error (.keyReference (.other "master key unavailable")) ∧
      w₃.slots.peek .main 1 = some (.ofText "K1") ∧
      w₃.slots.peek .main 1 ≠
        Extractor.found (p.extractor.ofRecord "orders" (some "K2") w₂.activity.tape).1 ∧
      ((p.serdes.value.serializer .main "orders" (some [0x68])).exec (w₃.enter {})).1 =
        .ok (some (Envelope.magic ++
          [0, 0, 0, 2, 0x4B, 0x31, 0x78, 0x6F, 0x72, 0x3A, 0x79])) := by
  intro p w₁ w₂ w₃
  have hrun := ((Run.start { tape := .counting 0 }).step (a := .buildPair choosy) trivial
    |>.step (a := .writeKey p .main "orders" {} (some "K1")) List.mem_cons_self
    |>.step (a := .writeKey p .main "orders" {} (some "K2")) List.mem_cons_self)
  have hslot : w₃.slots.peek .main 1 = some (.ofText "K1") := rfl
  refine ⟨⟨_, hrun⟩, rfl, hslot, ?_, ?_⟩
  · rw [hslot]
    exact Option.some_ne_none _
  · simp only [w₃, w₂, w₁, p]
    rfl

end Program

end SealedRecords
