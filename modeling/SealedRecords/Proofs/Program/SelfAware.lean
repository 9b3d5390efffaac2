import SealedRecords.Proofs.Program.Runs
import SealedRecords.Proofs.Serde.Agreement

/-!
# Self-aware serdes have no memory

A self-aware serializer hands a reference to itself: its outer layer publishes what
its inner layer takes out in the same call. Between two calls the slots of its
channel are therefore empty on every thread. A call that fails early leaves them so
because it has not published anything yet, and every other call because the inner
layer empties the slot before it can fail.

> `Run.peek_selfAware`: in every world that a run reaches, the slots of a self-aware
> serde are empty on every thread.

> `exec_selfAware_of_ok`: a call seals under the reference that was computed in it.

So nothing gets from one call to the next. `SelfAwareParts.write` is the same
serializer as a function, with neither a channel nor a thread in it.
-/

namespace SealedRecords

/-- What can be seen of a call from outside: what it ended with, the headers, and the random bytes
that are left. -/
def SerdeM.seen (out : Except SerdeError α × Exchange) :
    Except SerdeError α × Headers × RandomTape :=
  (out.1, out.2.headers, out.2.activity.tape)

/-- Nothing more can be seen of computations that agree, whatever they know. -/
theorem SerdeM.Agree.seen_eq {known : List ChannelId} {x y : SerdeM α} (h : x.Agree known y)
    {s s' : Exchange} (hs : s.Alike known s') :
    SerdeM.seen (x.exec s) = SerdeM.seen (y.exec s') := by
  obtain ⟨hy, ha⟩ := h s s' hs
  unfold SerdeM.seen
  rw [hy, ha.headers, ha.tape]

namespace Program

/-! ## Empty slots -/

/-- No step fills a slot of a self-aware serde that the program holds. -/
theorem peek_perform_selfAware {w : World} {a : Action} {m : SelfAware} {t : Thread}
    (hw : w.Sound) (ha : a.Allowed w) (hm : .selfAware m ∈ w.members)
    (h : w.slots.peek t m.channel = none) : (a.perform w).slots.peek t m.channel = none := by
  have hlive : m.channel ∈ w.slots.live := hw.live _ hm
  rw [a.slots_perform]
  cases a with
  | drop n u => exact Slots.peek_clear_eq_none h
  | writeKey q u topic headers key =>
    -- the one step that leaves a slot filled works on another channel
    have hne : m.channel ≠ q.channel := fun hc => by cases hw.unique _ hm _ ha hc
    exact (Slots.peek_afterKey_of_ne _ (fun hcell => hne hcell.2) hlive).trans h
  | writeValue q u topic headers value => exact Slots.peek_clear_eq_none h
  | writeSelfAware n u topic headers value => exact Slots.peek_afterBoth_eq_none hlive h
  | _ => exact h

/-- In every world that a run reaches, the slots of a self-aware serde are empty on every
thread. -/
theorem Run.peek_selfAware {past : List Step} {w : World} (h : Run past w) {m : SelfAware}
    (hm : .selfAware m ∈ w.members) (t : Thread) : w.slots.peek t m.channel = none := by
  induction h with
  | start activity => exact absurd hm List.not_mem_nil
  | @step past w a hrun ha ih =>
    by_cases hold : .selfAware m ∈ w.members
    · exact peek_perform_selfAware hrun.sound ha hold (ih hold)
    · rcases Action.built_of_new hm hold with ⟨parts, -, hp⟩ | ⟨parts, rfl, hs⟩
      · cases hp
      · -- nobody can have published on a channel that did not exist
        obtain rfl := Member.selfAware.inj hs
        rw [Action.slots_perform]
        exact hrun.sound.bounded.peek_next t

/-! ## One call -/

section

variable {m : SelfAware} {t : Thread} {topic : String} {value : Option m.Value} {s : Exchange}
  {tape : RandomTape}

/-- The exchange that the inner codec of a self-aware serializer works on: the reference is in the
headers, and the slot is empty again. -/
def SelfAware.inside (m : SelfAware) (s : Exchange) (t : Thread) (topic : String)
    (ref : Option KeyRef) (tape : RandomTape) : Exchange :=
  (Serializer.announced (s.drawn tape) (some m.channel) t topic ref).taken (some m.channel) t

theorem exec_selfAware_of_error {e : ExtractionError}
    (hx : m.extractor.ofRecord topic value s.activity.tape = (.error e, tape)) :
    (m.serde.serializer t topic value).exec s = (.error (.keyReference e), s.drawn tape) :=
  Serializer.exec_announcing_of_error hx

/-- A call seals under the reference that was computed in it. -/
theorem exec_selfAware_of_ok {ref : Option KeyRef}
    (hx : m.extractor.ofRecord topic value s.activity.tape = (.ok ref, tape)) :
    (m.serde.serializer t topic value).exec s =
      (Serializer.sealingUnder m.cipher ref m.value.serializer t topic value).exec
        (m.inside s t topic ref tape) := by
  -- what the outer layer has published is what the inner one takes out
  have hfound : (Serializer.announced (s.drawn tape) (some m.channel) t topic ref).slots.peek t
      m.channel = ref := Slots.peek_publish_self _ _ _ _
  show (Serializer.announcing m.extractor (some m.channel) _ t topic value).exec s = _
  rw [Serializer.exec_announcing_of_ok hx]
  show (Serializer.sealing m.cipher (some m.channel) m.value.serializer t topic value).exec _ = _
  rw [Serializer.exec_sealing_paired, hfound]
  rfl

/-- What a self-aware serializer comes to. It is a function of the topic, the value, the headers
and the random bytes to come. -/
def SelfAwareParts.write (parts : SelfAwareParts) (topic : String) (value : Option parts.Value)
    (headers : Headers) (tape : RandomTape) :
    Except SerdeError (Option Bytes) × Headers × RandomTape :=
  match parts.extractor.ofRecord topic value tape with
  | (.error e, tape) => (.error (.keyReference e), headers, tape)
  | (.ok ref, tape) =>
    SerdeM.seen <|
      (Serializer.sealingUnder parts.cipher ref parts.value.serializer .main topic value).exec
        { activity := { tape := tape }, headers := headers.addKeyRef ref }

/-- A self-aware serializer is that function, if its inner codec is a function of the same things:
the slots, the thread and everything that was done before play no part. -/
theorem seen_selfAware (hinner : m.value.serializer.Memoryless) (t : Thread) (topic : String)
    (value : Option m.Value) (s : Exchange) :
    SerdeM.seen ((m.serde.serializer t topic value).exec s) =
      m.toSelfAwareParts.write topic value s.headers s.activity.tape := by
  unfold SelfAwareParts.write
  rcases hx : m.extractor.ofRecord topic value s.activity.tape with ⟨e | ref, tape⟩
  · rw [exec_selfAware_of_error hx]
    rfl
  · rw [exec_selfAware_of_ok hx]
    have halike : (m.inside s t topic ref tape).Alike []
        { activity := { tape := tape }, headers := s.headers.addKeyRef ref } :=
      Exchange.Alike.of_nil rfl rfl
    exact (Serializer.agree_sealingUnder m.cipher ref
      (hinner t .main topic value)).seen_eq halike

end

/-- **Self-aware serdes have no memory.** In every world that a run reaches, take a self-aware
serde that the program holds. Its slots are empty on every thread, and after any call of it, in
either direction and whatever it ended with, they are so again. A call whose extraction fails ends
with that error and does nothing else. A call whose extraction finds no reference ends with what
the inner codec answers, in clear. If the extraction finds a reference, the only bytes that a call
gives out are the frame around the cipher's output for what the inner codec has written, under that
reference. And if the inner codec is a function of its topic, its value, the headers and the random
bytes to come, so is the serializer. -/
theorem Run.selfAware_memoryless {past : List Step} {w : World} (h : Run past w) {m : SelfAware}
    (hm : .selfAware m ∈ w.members) :
    (∀ u, w.slots.peek u m.channel = none) ∧
    (∀ t topic headers data u,
      ((Action.readSelfAware m t topic headers data).perform w).slots.peek u m.channel = none) ∧
    ∀ t topic headers value,
      let out := (m.serde.serializer t topic value).exec (w.enter headers)
      (∀ u, ((Action.writeSelfAware m t topic headers value).perform w).slots.peek u m.channel
        = none) ∧
      (∀ e tape, m.extractor.ofRecord topic value w.activity.tape = (.error e, tape) →
        out = (.error (.keyReference e), (w.enter headers).drawn tape)) ∧
      (∀ tape, m.extractor.ofRecord topic value w.activity.tape = (.ok none, tape) →
        out.1 = ((m.value.serializer t topic value).exec
          (m.inside (w.enter headers) t topic none tape)).1) ∧
      (∀ r tape, m.extractor.ofRecord topic value w.activity.tape = (.ok (some r), tape) →
        ∀ b, out.1 = .ok (some b) → ∃ x s key c tape',
          (m.value.serializer t topic value).exec
            (m.inside (w.enter headers) t topic (some r) tape) = (.ok (some x), s) ∧
          (m.cipher.keys r).key = some key ∧
          m.cipher.cipher.encrypt key x s.activity.tape = (.ok c, tape') ∧
          b = Envelope.magic ++ Bytes.toWord r.size ++ r.bytes ++ c ∧
          Envelope.decode b = .ok (.sealed r c) ∧ (x.length ≤ c.length → b ≠ x)) ∧
      (m.value.serializer.Memoryless →
        SerdeM.seen out = m.toSelfAwareParts.write topic value headers w.activity.tape) := by
  refine ⟨h.peek_selfAware hm, fun t topic headers data => ?_, fun t topic headers value => ?_⟩
  · exact (h.step (a := .readSelfAware m t topic headers data) hm).peek_selfAware hm
  · refine ⟨(h.step (a := .writeSelfAware m t topic headers value) hm).peek_selfAware hm,
      fun e tape hx => exec_selfAware_of_error hx, fun tape hx => ?_, fun r tape hx b hb => ?_,
      fun hinner => seen_selfAware hinner t topic value (w.enter headers)⟩
    · rw [exec_selfAware_of_ok hx]
      exact Serializer.fst_sealingUnder_none _ _ _ _ _ _
    · rw [exec_selfAware_of_ok hx] at hb
      obtain ⟨x, s, key, c, tape', hy, hk, hc, rfl, hd⟩ := Serializer.sealingUnder_ok_some hb
      refine ⟨x, s, key, c, tape', hy, hk, hc, rfl, hd, fun hle hbx => ?_⟩
      have hlt := Envelope.length_lt_frame r.bytes c
      rw [hbx] at hlt
      exact absurd hle (Nat.not_le_of_lt hlt)

/-- A call failed on another thread before. The next one finds nothing of it. -/
theorem Run.selfAware_memoryless_afterFailure :
    let parts : SelfAwareParts :=
      { Value := String
        cipher := ⟨.ofList [(.ofText "K1", [0x11])], .masking⟩
        extractor := fun _ value => pure <|
          if value = "K1" then .ok (some (.ofText value)) else .error (.other "unavailable")
        value := ⟨Codec.text.serde, Codec.text.keepsSlots_serde⟩ }
    let m : SelfAware := ⟨parts, 1⟩
    let w₁ := (Action.buildSelfAware parts).perform { activity := { tape := .counting 0 } }
    let w₂ := (Action.writeSelfAware m (.worker "other") "orders" {} (some "K2")).perform w₁
    (∀ u, w₂.slots.peek u 1 = none) ∧
      SerdeM.seen ((m.serde.serializer .main "orders" (some "K1")).exec (w₂.enter {})) =
        parts.write "orders" (some "K1") {} (.counting 0) := by
  intro parts m w₁ w₂
  have hrun := ((Run.start { tape := .counting 0 }).step (a := .buildSelfAware parts) trivial
    |>.step (a := .writeSelfAware m (.worker "other") "orders" {} (some "K2"))
      List.mem_cons_self)
  obtain ⟨hempty, -, hcall⟩ := hrun.selfAware_memoryless (m := m) List.mem_cons_self
  obtain ⟨-, -, -, -, hfunction⟩ := hcall .main "orders" {} (some "K1")
  exact ⟨hempty, hfunction Codec.text.memoryless_serde⟩

end Program

end SealedRecords
