import SealedRecords.Proofs.Program.Runs

/-!
# Which reference a value is sealed under

The history of a program settles under which reference the value side of a pair
seals next on a thread. Only two kinds of steps count: calls of the key side of
the same pair on the same thread that computed something, and calls of its value
side there. If the last of these was a key call that computed a reference, it is
that reference, and else there is none.

> `Run.peek_iff_handedOver`: in every world that a run reaches, a slot of a pair
> holds what the history says.

Each step of the program either is one of the two kinds or leaves the slot alone
(`peek_perform_of_untouched`). The pair under consideration is compared with the
pairs of other steps by its channel, which `World.Sound` allows.
-/

namespace SealedRecords

namespace Program

/-! ## The steps that count -/

namespace Step

/-- A call of the key side of `p` on `t` that computed `ref`, whatever became of the key. -/
def Publishes (x : Step) (p : Pair) (t : Thread) (ref : Option KeyRef) : Prop :=
  ∃ topic headers key, x.action = .writeKey p t topic headers key ∧
    (p.extractor.ofRecord topic key x.world.activity.tape).1 = .ok ref

/-- A call of the value side of `p` on `t`, whatever it ended with. -/
def Takes (x : Step) (p : Pair) (t : Thread) : Prop :=
  ∃ topic headers value, x.action = .writeValue p t topic headers value

/-- One or the other. -/
def Touches (x : Step) (p : Pair) (t : Thread) : Prop :=
  (∃ ref, x.Publishes p t ref) ∨ x.Takes p t

variable {x : Step} {p : Pair} {t : Thread}

theorem peek_of_publishes {ref : Option KeyRef} (h : x.Publishes p t ref) :
    (x.action.perform x.world).slots.peek t p.channel = ref := by
  obtain ⟨topic, headers, key, ha, hx⟩ := h
  rw [x.action.slots_perform, ha]
  show (x.world.slots.afterKey t p.channel _).peek t p.channel = ref
  rw [hx]
  exact Slots.peek_publish_self _ _ _ _

theorem peek_of_takes (h : x.Takes p t) :
    (x.action.perform x.world).slots.peek t p.channel = none := by
  obtain ⟨topic, headers, value, ha⟩ := h
  rw [x.action.slots_perform, ha]
  exact Slots.peek_clear_self _ _ _

/-- A step that counts leaves a reference in the slot exactly if it computed it. -/
theorem peek_iff_of_touches {r : KeyRef} (h : x.Touches p t) :
    (x.action.perform x.world).slots.peek t p.channel = some r ↔ x.Publishes p t (some r) := by
  constructor
  · intro hpeek
    rcases h with ⟨ref, hpub⟩ | htake
    · obtain rfl : ref = some r := (peek_of_publishes hpub).symm.trans hpeek
      exact hpub
    · rw [peek_of_takes htake] at hpeek
      cases hpeek
  · exact peek_of_publishes

theorem Takes.not_publishes {ref : Option KeyRef} (h : x.Takes p t) : ¬ x.Publishes p t ref := by
  rintro ⟨topic, headers, key, hkey, -⟩
  obtain ⟨topic', headers', value, hvalue⟩ := h
  rw [hkey] at hvalue
  cases hvalue

end Step

/-- A step that does not count leaves the slot of a pair that the program holds as it was. -/
theorem peek_perform_of_untouched {w : World} {a : Action} {p : Pair} {t : Thread}
    (hw : w.Sound) (ha : a.Allowed w) (hp : .pair p ∈ w.members)
    (hp' : .pair p ∈ (a.perform w).members) (hn : ¬ Step.Touches ⟨w, a⟩ p t) :
    (a.perform w).slots.peek t p.channel = w.slots.peek t p.channel := by
  have hlive : p.channel ∈ w.slots.live := hw.live _ hp
  rw [a.slots_perform]
  cases a with
  | buildPair parts => exact Slots.peek_create _ _ _
  | buildSelfAware parts => exact Slots.peek_create _ _ _
  | drop m u =>
    -- the pair is still held afterwards, so it was another channel that was dropped
    have hne := (List.mem_filter.mp hp').2
    exact Slots.peek_drop_of_ne _ _ _ fun h => by simp [Member.channel, h] at hne
  | writeKey q u topic headers key =>
    unfold Action.slotsAfter
    by_cases hcell : t = u ∧ p.channel = q.channel
    · -- the same channel is the same pair, and then the step counts unless nothing was computed
      obtain ⟨rfl, hc⟩ := hcell
      obtain rfl : p = q := Member.pair.inj (hw.unique _ hp _ ha hc)
      cases hx : (p.extractor.ofRecord topic key w.activity.tape).1 with
      | error e =>
        show (w.slots.afterKey t p.channel _).peek t p.channel = _
        rw [hx]
        rfl
      | ok ref => exact absurd (Or.inl ⟨ref, topic, headers, key, rfl, hx⟩) hn
    · exact Slots.peek_afterKey_of_ne _ hcell hlive
  | writeValue q u topic headers value =>
    refine Slots.peek_clear_of_ne _ fun hcell => hn ?_
    obtain ⟨rfl, hc⟩ := hcell
    obtain rfl : p = q := Member.pair.inj (hw.unique _ hp _ ha hc)
    exact Or.inr ⟨topic, headers, value, rfl⟩
  | writeSelfAware s u topic headers value =>
    have hne : p.channel ≠ s.channel := fun hc => by cases hw.unique _ hp _ ha hc
    exact Slots.peek_afterBoth_of_ne _ (fun hcell => hne hcell.2) hlive
  | _ => rfl

/-! ## What the history says -/

/-- The latest step that counts was a key call that computed `r`. -/
def HandedOver (past : List Step) (p : Pair) (t : Thread) (r : KeyRef) : Prop :=
  ∃ later x earlier, past = later ++ x :: earlier ∧ x.Publishes p t (some r) ∧
    ∀ y ∈ later, ¬ y.Touches p t

section

variable {past : List Step} {x : Step} {p : Pair} {t : Thread} {r : KeyRef}

theorem handedOver_cons_of_untouched (h : ¬ x.Touches p t) :
    HandedOver (x :: past) p t r ↔ HandedOver past p t r := by
  constructor
  · rintro ⟨_ | ⟨z, later⟩, y, earlier, heq, hy, hlater⟩
    · obtain ⟨rfl, -⟩ := List.cons.inj heq
      exact absurd (Or.inl ⟨_, hy⟩) h
    · obtain ⟨rfl, rfl⟩ := List.cons.inj heq
      exact ⟨later, y, earlier, rfl, hy, fun z hz => hlater z (List.mem_cons_of_mem _ hz)⟩
  · rintro ⟨later, y, earlier, rfl, hy, hlater⟩
    exact ⟨x :: later, y, earlier, rfl, hy, List.forall_mem_cons.mpr ⟨h, hlater⟩⟩

theorem handedOver_cons_of_touches (h : x.Touches p t) :
    HandedOver (x :: past) p t r ↔ x.Publishes p t (some r) := by
  constructor
  · rintro ⟨_ | ⟨z, later⟩, y, earlier, heq, hy, hlater⟩
    · obtain ⟨rfl, -⟩ := List.cons.inj heq
      exact hy
    · obtain ⟨rfl, -⟩ := List.cons.inj heq
      exact absurd h (hlater x List.mem_cons_self)
  · intro hx
    exact ⟨[], x, past, rfl, hx, fun _ hy => absurd hy List.not_mem_nil⟩

/-- After a value call nothing is handed over until the key side has computed something again. -/
theorem not_handedOver_of_takes {later earlier : List Step} (hx : x.Takes p t)
    (h : ∀ y ∈ later, ∀ ref, ¬ y.Publishes p t ref) :
    ¬ HandedOver (later ++ x :: earlier) p t r := by
  induction later with
  | nil =>
    rw [List.nil_append, handedOver_cons_of_touches (Or.inr hx)]
    exact hx.not_publishes
  | cons y later ih =>
    obtain ⟨hy, hlater⟩ := List.forall_mem_cons.mp h
    by_cases hyt : y.Touches p t
    · rw [List.cons_append, handedOver_cons_of_touches hyt]
      exact hy (some r)
    · rw [List.cons_append, handedOver_cons_of_untouched hyt]
      exact ih hlater

end

/-! ## Every world of a run -/

/-- A pair whose reference was handed over has a number that was given out. -/
theorem Run.channel_lt_of_handedOver {past : List Step} {w : World} (h : Run past w) {p : Pair}
    {t : Thread} {r : KeyRef} (hp : HandedOver past p t r) : p.channel < w.slots.next := by
  induction h with
  | start activity =>
    obtain ⟨later, x, earlier, heq, -, -⟩ := hp
    cases later <;> cases heq
  | @step past w a hrun ha ih =>
    refine Nat.lt_of_lt_of_le ?_ (a.next_le_perform w)
    by_cases htouch : Step.Touches ⟨w, a⟩ p t
    · obtain ⟨topic, headers, key, rfl, -⟩ := (handedOver_cons_of_touches htouch).mp hp
      have hheld : .pair p ∈ w.members := ha
      exact hrun.sound.member_lt hheld
    · exact ih ((handedOver_cons_of_untouched htouch).mp hp)

/-- A pair that the program did not hold before a step was built in it, on a new channel. -/
theorem Action.eq_buildPair_of_new {w : World} {a : Action} {p : Pair}
    (hp' : .pair p ∈ (a.perform w).members) (hp : .pair p ∉ w.members) :
    a = .buildPair p.toPairParts ∧ p.channel = w.slots.next := by
  rcases Action.built_of_new hp' hp with ⟨parts, ha, h⟩ | ⟨parts, -, h⟩
  · obtain rfl := Member.pair.inj h
    exact ⟨ha, rfl⟩
  · cases h

/-- In every world that a run reaches, a slot of a pair holds what the history says. -/
theorem Run.peek_iff_handedOver {past : List Step} {w : World} (h : Run past w) {p : Pair}
    (hp : .pair p ∈ w.members) (t : Thread) (r : KeyRef) :
    w.slots.peek t p.channel = some r ↔ HandedOver past p t r := by
  induction h with
  | start activity => exact absurd hp List.not_mem_nil
  | @step past w a hrun ha ih =>
    by_cases hold : .pair p ∈ w.members
    · by_cases htouch : Step.Touches ⟨w, a⟩ p t
      · rw [handedOver_cons_of_touches htouch]
        exact Step.peek_iff_of_touches htouch
      · rw [handedOver_cons_of_untouched htouch,
          peek_perform_of_untouched hrun.sound ha hold hp htouch]
        exact ih hold
    · -- the channel is new: its slots are empty, and nobody can have published on it
      obtain ⟨rfl, hnew⟩ := Action.eq_buildPair_of_new hp hold
      have huntouched : ¬ Step.Touches ⟨w, .buildPair p.toPairParts⟩ p t := by
        rintro (⟨ref, topic, headers, key, hkey, -⟩ | ⟨topic, headers, value, hvalue⟩)
        · cases hkey
        · cases hvalue
      have hempty : w.slots.peek t p.channel = none := by
        rw [hnew]
        exact hrun.sound.bounded.peek_next t
      rw [handedOver_cons_of_untouched huntouched, Action.slots_perform]
      show (Slots.create w.slots).2.peek t p.channel = some r ↔ _
      rw [Slots.peek_create, hempty]
      constructor
      · intro hsome
        cases hsome
      · intro hhanded
        have hlt := hrun.channel_lt_of_handedOver hhanded
        rw [hnew] at hlt
        exact absurd hlt (Nat.lt_irrefl _)

/-- **The latest key call decides.** In every world that a run reaches there is, for each pair that
the program holds and each thread, one reference or none under which the value side seals next.
It is what the latest key call of that pair on that thread that computed anything has computed, if
no value call there came after it, and else there is none. In particular there is none after a
value call, however that ended, until the next such key call. The headers of the value call play no
part, and however it ends the slot is empty afterwards. -/
theorem Run.seals_under_latest_key {past : List Step} {w : World} (h : Run past w) {p : Pair}
    (hp : .pair p ∈ w.members) (t : Thread) :
    ∃ ref : Option KeyRef,
      (∀ r, ref = some r ↔ HandedOver past p t r) ∧
      (∀ later x earlier, past = later ++ x :: earlier → x.Takes p t →
        (∀ y ∈ later, ∀ ref', ¬ y.Publishes p t ref') → ref = none) ∧
      ∀ topic headers value,
        (p.serdes.value.serializer t topic value).exec (w.enter headers) =
          (Serializer.sealingUnder p.cipher ref p.value.serializer t topic value).exec
            ((w.enter headers).taken (some p.channel) t) ∧
        ((Action.writeValue p t topic headers value).perform w).slots.peek t p.channel = none := by
  have hpeek := h.peek_iff_handedOver hp t
  refine ⟨w.slots.peek t p.channel, hpeek, ?_, fun topic headers value => ⟨?_, ?_⟩⟩
  · rintro later x earlier rfl hx hlater
    rw [Option.eq_none_iff_forall_ne_some]
    intro r hr
    exact not_handedOver_of_takes hx hlater ((hpeek r).mp hr)
  · exact Serializer.exec_sealing_paired p.cipher p.channel p.value.serializer t topic value
      (w.enter headers)
  · exact Step.peek_of_takes (x := ⟨w, .writeValue p t topic headers value⟩)
      ⟨topic, headers, value, rfl⟩

/-- Two key calls on different threads: the value on the first of them is sealed under the key
reference that was computed there. -/
theorem Run.seals_under_latest_key_twoThreads :
    let parts : PairParts :=
      { Key := String
        Value := Bytes
        cipher := ⟨.ofList [(.ofText "K1", [0x11])], .masking⟩
        extractor := .ofNames fun _ key => some key
        key := ⟨Codec.text.serde, Codec.text.keepsSlots_serde⟩
        value := ⟨Codec.bytes.serde, Codec.bytes.keepsSlots_serde⟩ }
    let p : Pair := ⟨parts, 1⟩
    let w₁ := (Action.buildPair parts).perform { activity := { tape := .counting 0 } }
    let w₂ := (Action.writeKey p .main "orders" {} (some "K1")).perform w₁
    let w₃ := (Action.writeKey p (.worker "other") "orders" {} (some "K2")).perform w₂
    (p.serdes.value.serializer .main "orders" (some [0x68])).exec (w₃.enter {}) =
      (Serializer.sealingUnder p.cipher (some (.ofText "K1")) p.value.serializer .main "orders"
        (some [0x68])).exec ((w₃.enter {}).taken (some 1) .main) := by
  intro parts p w₁ w₂ w₃
  have hrun := ((Run.start { tape := .counting 0 }).step (a := .buildPair parts) trivial
    |>.step (a := .writeKey p .main "orders" {} (some "K1")) List.mem_cons_self
    |>.step (a := .writeKey p (.worker "other") "orders" {} (some "K2")) List.mem_cons_self)
  obtain ⟨ref, href, -, hcall⟩ := hrun.seals_under_latest_key (p := p) List.mem_cons_self .main
  have hK1 : ref = some (.ofText "K1") := by
    refine (href _).mpr ⟨[_], _, _, rfl, ⟨"orders", {}, some "K1", rfl, rfl⟩, ?_⟩
    intro y hy
    rw [List.mem_singleton.mp hy]
    rintro (⟨ref, topic, headers, key, ha, -⟩ | ⟨topic, headers, value, ha⟩) <;> cases ha
  rw [hK1] at hcall
  exact (hcall "orders" {} (some [0x68])).1

end Program

end SealedRecords
