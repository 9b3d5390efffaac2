import SealedRecords.Proofs.Serde.SlotEffects

/-!
# What a call depends on

Of all that an exchange holds, a call looks at little: the random bytes to come,
the headers, and the slots of the channels that it knows. The log and the counts
are written and never read. `Exchange.Alike` compares two exchanges by what can be
looked at, and `SerdeM.Agree` says that two computations end alike on exchanges
that are alike.

> `agree_sealingUnder`: sealing under a fixed reference agrees whenever the inner
> codecs do.

The two layers of a serializer are then compared one at a time. A layer may be
given a channel on one side and none, or another one, on the other side: announcing
and emptying a slot goes unseen by everybody who does not know its channel.
-/

namespace SealedRecords

/-- Two exchanges that a computation cannot tell apart if it knows the channels `known` and no
other one: the random bytes to come are the same, so are the headers, and so are the slots of
those channels, which exist in both. -/
structure Exchange.Alike (known : List ChannelId) (s s' : Exchange) : Prop where
  tape : s.activity.tape = s'.activity.tape
  headers : s.headers = s'.headers
  live : ∀ d ∈ known, d ∈ s.slots.live ∧ d ∈ s'.slots.live
  cells : ∀ d ∈ known, ∀ t, s.slots.peek t d = s'.slots.peek t d

/-- Two computations end with the same result on exchanges that are alike, and leave exchanges
that are alike. -/
def SerdeM.Agree (known : List ChannelId) (x y : SerdeM α) : Prop :=
  ∀ s s' : Exchange, s.Alike known s' →
    (x.exec s).1 = (y.exec s').1 ∧ (x.exec s).2.Alike known (y.exec s').2

/-- A serializer looks at the channels `known` and no other one, and never at the log or the
counts. -/
def Serializer.KnowsOnly (known : List ChannelId) (f : Serializer α) : Prop :=
  ∀ thread topic v, (f thread topic v).Agree known (f thread topic v)

/-- A serializer whose doings are a function of the topic, the value, the headers and the random
bytes to come. -/
def Serializer.Memoryless (f : Serializer α) : Prop :=
  ∀ t u topic v, (f t topic v).Agree [] (f u topic v)

namespace Exchange.Alike

variable {known : List ChannelId} {s s' : Exchange} {channel channel' : Pairing}

/-- Without a known channel only the random bytes and the headers count. -/
theorem of_nil (ht : s.activity.tape = s'.activity.tape) (hh : s.headers = s'.headers) :
    s.Alike [] s' :=
  ⟨ht, hh, fun _ hd => absurd hd List.not_mem_nil, fun _ hd => absurd hd List.not_mem_nil⟩

theorem withActivity (h : s.Alike known s') {a a' : Activity} (ha : a.tape = a'.tape) :
    (s.withActivity a).Alike known (s'.withActivity a') :=
  ⟨ha, h.headers, h.live, h.cells⟩

theorem drawn (h : s.Alike known s') (tape : RandomTape) :
    (s.drawn tape).Alike known (s'.drawn tape) :=
  h.withActivity rfl

theorem withHeaders (h : s.Alike known s') (headers : Headers) :
    { s with headers := headers }.Alike known { s' with headers := headers } :=
  ⟨h.tape, rfl, h.live, h.cells⟩

/-- Emptying a slot of an unknown channel goes unseen. -/
theorem taken_left (h : s.Alike known s') (hc : ∀ c ∈ channel, c ∉ known) (t : Thread) :
    (s.taken channel t).Alike known s' := by
  cases channel with
  | none => exact h
  | some c =>
    refine ⟨h.tape, h.headers, h.live, fun d hd u => ?_⟩
    have hne : d ≠ c := fun he => hc c rfl (he ▸ hd)
    exact (Slots.peek_clear_of_ne s.slots fun hcell => hne hcell.2).trans (h.cells d hd u)

theorem symm (h : s.Alike known s') : s'.Alike known s :=
  ⟨h.tape.symm, h.headers.symm, fun d hd => (h.live d hd).symm,
    fun d hd t => (h.cells d hd t).symm⟩

theorem taken (h : s.Alike known s') (hc : ∀ c ∈ channel, c ∉ known)
    (hc' : ∀ c ∈ channel', c ∉ known) (t u : Thread) :
    (s.taken channel t).Alike known (s'.taken channel' u) :=
  ((h.taken_left hc t).symm.taken_left hc' u).symm

end Exchange.Alike

/-! ## Sealing -/

namespace RecordCipher

variable {a a' : Activity}

/-- Encryption looks at the random bytes to come and at nothing else of the account. -/
theorem encrypt_congr (c : RecordCipher) (r : KeyRef) (data : Bytes) (h : a.tape = a'.tape) :
    ((c.encrypt r data).exec a).1 = ((c.encrypt r data).exec a').1 ∧
      ((c.encrypt r data).exec a).2.tape = ((c.encrypt r data).exec a').2.tape := by
  cases hk : (c.keys r).key with
  | none =>
    rw [encrypt_of_unresolved hk, encrypt_of_unresolved hk]
    exact ⟨rfl, h⟩
  | some key =>
    rw [encrypt_of_resolved hk, encrypt_of_resolved hk, h]
    rcases c.cipher.encrypt key data a'.tape with ⟨e | out, tape⟩
    · exact ⟨rfl, rfl⟩
    · exact ⟨rfl, rfl⟩

/-- So does sealing. -/
theorem encode_congr (c : RecordCipher) (ref : Option KeyRef) (payload : Bytes)
    (h : a.tape = a'.tape) :
    ((c.encode ref payload).exec a).1 = ((c.encode ref payload).exec a').1 ∧
      ((c.encode ref payload).exec a).2.tape = ((c.encode ref payload).exec a').2.tape := by
  cases ref with
  | none => exact ⟨rfl, h⟩
  | some r =>
    cases he : r.isEmpty with
    | true =>
      rw [encode_of_empty c he, encode_of_empty c he]
      exact ⟨rfl, h⟩
    | false =>
      obtain ⟨hy, ht⟩ := encrypt_congr c r payload h
      rw [encode_some c he, encode_some c he]
      rcases hx : (c.encrypt r payload).exec a with ⟨y, b⟩
      rcases hx' : (c.encrypt r payload).exec a' with ⟨y', b'⟩
      rw [hx, hx'] at hy ht
      obtain rfl : y = y' := hy
      cases y with
      | error e => exact ⟨rfl, ht⟩
      | ok out =>
        -- whether the frame takes the reference is settled by its size
        by_cases hs : r.size ≤ Envelope.maxKeyRefSize
        · simp only [if_pos hs]
          exact ⟨trivial, ht⟩
        · simp only [if_neg hs]
          exact ⟨trivial, ht⟩

end RecordCipher

namespace Serializer

variable {known : List ChannelId} {s s' : Exchange}

theorem agree_sealPayload (cipher : RecordCipher) (topic : String) (ref : Option KeyRef)
    (payload : Bytes) :
    (sealPayload cipher topic ref payload).Agree known (sealPayload cipher topic ref payload) := by
  intro s s' h
  obtain ⟨hy, ht⟩ := RecordCipher.encode_congr cipher ref payload h.tape
  rw [exec_sealPayload, exec_sealPayload]
  rcases hx : (cipher.encode ref payload).exec s.activity with ⟨y, a⟩
  rcases hx' : (cipher.encode ref payload).exec s'.activity with ⟨y', a'⟩
  rw [hx, hx'] at hy ht
  obtain rfl : y = y' := hy
  rcases y with (e | e) | b
  · exact ⟨rfl, h.withActivity ht⟩
  · exact ⟨rfl, h.withActivity ht⟩
  · exact ⟨rfl, h.withActivity ht⟩

/-- Sealing under a fixed reference agrees whenever the inner codecs do. -/
theorem agree_sealingUnder (cipher : RecordCipher) (ref : Option KeyRef) {f g : Serializer α}
    {t u : Thread} {topic : String} {v : Option α} (h : (f t topic v).Agree known (g u topic v)) :
    (sealingUnder cipher ref f t topic v).Agree known (sealingUnder cipher ref g u topic v) := by
  intro s s' hs
  obtain ⟨hy, ha⟩ := h s s' hs
  simp only [sealingUnder, SerdeM.exec_bind]
  rcases hx : (f t topic v).exec s with ⟨y, s₁⟩
  rcases hx' : (g u topic v).exec s' with ⟨y', s₁'⟩
  rw [hx, hx'] at hy ha
  obtain rfl : y = y' := hy
  rcases y with e | (_ | payload)
  · exact ⟨rfl, ha⟩
  · exact ⟨rfl, ha⟩
  · exact agree_sealPayload cipher topic ref payload s₁ s₁' ha

/-! ## Announcing -/

variable {channel channel' : Pairing} {t u : Thread} {topic : String} {ref : Option KeyRef}

theorem tape_announced :
    (announced s channel t topic ref).activity.tape = s.activity.tape := by
  cases channel <;> rfl

theorem headers_announced :
    (announced s channel t topic ref).headers = s.headers.addKeyRef ref := by
  cases channel <;> rfl

theorem live_announced : (announced s channel t topic ref).slots.live = s.slots.live := by
  cases channel with
  | none => rfl
  | some c => exact Slots.live_publish s.slots t c ref

/-- Announcing goes unseen in the slots of other channels. -/
theorem peek_announced {d : ChannelId} (hne : ∀ c ∈ channel, c ≠ d) (hd : d ∈ s.slots.live) :
    (announced s channel t topic ref).slots.peek u d = s.slots.peek u d := by
  cases channel with
  | none => rfl
  | some c => exact Slots.peek_publish_of_ne s.slots ref (fun h => hne c rfl h.2.symm) hd

end Serializer

/-- Announcing one and the same reference keeps exchanges alike, whatever the channels on which it
is announced. -/
theorem Exchange.Alike.announced {known : List ChannelId} {s s' : Exchange}
    {channel channel' : Pairing} (h : s.Alike known s') (hc : ∀ c ∈ channel, c ∉ known)
    (hc' : ∀ c ∈ channel', c ∉ known) (t u : Thread) (topic : String) (ref : Option KeyRef) :
    (Serializer.announced s channel t topic ref).Alike known
      (Serializer.announced s' channel' u topic ref) := by
  refine ⟨?_, ?_, fun d hd => ?_, fun d hd v => ?_⟩
  · rw [Serializer.tape_announced, Serializer.tape_announced]
    exact h.tape
  · rw [Serializer.headers_announced, Serializer.headers_announced, h.headers]
  · rw [Serializer.live_announced, Serializer.live_announced]
    exact h.live d hd
  · obtain ⟨hl, hl'⟩ := h.live d hd
    rw [Serializer.peek_announced (fun c hcc he => hc c hcc (he ▸ hd)) hl,
      Serializer.peek_announced (fun c hcc he => hc' c hcc (he ▸ hd)) hl']
    exact h.cells d hd v

/-! ## Codecs -/

namespace Codec

variable {known : List ChannelId}

theorem agree_serializer (c : Codec α) (t u : Thread) (topic : String) (v : Option α) :
    (c.serde.serializer t topic v).Agree known (c.serde.serializer u topic v) := by
  intro s s' h
  show ((SerdeM.codec (c.serialize topic v)).exec s).1 = _ ∧
    Exchange.Alike known ((SerdeM.codec (c.serialize topic v)).exec s).2 _
  rw [SerdeM.exec_codec, h.headers]
  exact ⟨rfl, h.withHeaders _⟩

/-- A codec knows no channel. -/
theorem knowsOnly_serde (c : Codec α) : c.serde.serializer.KnowsOnly known :=
  fun t topic v => c.agree_serializer t t topic v

theorem memoryless_serde (c : Codec α) : c.serde.serializer.Memoryless := c.agree_serializer

end Codec

end SealedRecords
