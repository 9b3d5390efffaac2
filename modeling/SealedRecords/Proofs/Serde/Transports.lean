import SealedRecords.Proofs.Serde.Agreement
import SealedRecords.Proofs.Serde.RoundTrip

/-!
# Two transports of a reference

The key side of a record hands its reference to the value side through a slot, if
the two were built with a channel, or else through the last entry of the headers.
For a host that sends one record after the other it makes no difference which
transport it chose, provided that the inner codecs leave the headers and the
channel of the pair alone.

What carries the proof from one record to the next is only that the two exchanges
stay alike: slots and headers may hold leftovers, and different ones. Within a
record more is known:

> `handedOver_of_announcing`: after a key side that succeeded, the slot of the
> one transport holds what the headers of the other one say.

> `alike_send`: one record has the same fate with both transports, and leaves
> exchanges that are alike.
-/

namespace SealedRecords

/-- A record on its way out: the thread that sends it, its topic, the headers that it brings along,
its key and its value. -/
structure OutgoingRecord (κ ν : Type) where
  thread : Thread
  topic : String
  headers : Headers
  key : Option κ
  value : Option ν

/-- What became of a record: its key; its value, unless the key failed and the record was
abandoned; its headers. -/
structure SentRecord where
  key : Except SerdeError (Option Bytes)
  value : Option (Except SerdeError (Option Bytes))
  headers : Headers

/-- The two serializers of a pair. -/
def SerdePair.serializers (p : SerdePair κ ν) : SerializerPair κ ν :=
  ⟨p.key.serializer, p.value.serializer⟩

namespace SerializerPair

/-- Sends a record: the key first, and then, if that went well, the value with the same headers. -/
def send (p : SerializerPair κ ν) (r : OutgoingRecord κ ν) (s : Exchange) :
    SentRecord × Exchange :=
  match (p.key r.thread r.topic r.key).exec { s with headers := r.headers } with
  | (.error e, s₁) => (⟨.error e, none, s₁.headers⟩, s₁)
  | (.ok key, s₁) =>
    let (value, s₂) := (p.value r.thread r.topic r.value).exec s₁
    (⟨.ok key, some value, s₂.headers⟩, s₂)

/-- Sends records one after the other. -/
def sendAll (p : SerializerPair κ ν) : List (OutgoingRecord κ ν) → Exchange →
    List SentRecord × Exchange
  | [], s => ([], s)
  | r :: rs, s =>
    let (sent, s₁) := p.send r s
    let (more, s₂) := p.sendAll rs s₁
    (sent :: more, s₂)

end SerializerPair

/-- A serializer neither fills nor empties a slot of a channel, on any thread. -/
def Serializer.KeepsCells (f : Serializer α) (c : ChannelId) : Prop :=
  ∀ thread topic v t, (f thread topic v).Keeps fun s => s.slots.peek t c

/-- An inner serializer of a pair with the channel `c`: it leaves the headers alone and knows only
the channels `known`, and `c` is not one of them. -/
structure Serializer.Inner (known : List ChannelId) (c : ChannelId) (f : Serializer α) : Prop where
  keepsHeaders : f.KeepsHeaders
  knowsOnly : f.KnowsOnly known
  keepsCells : f.KeepsCells c

/-- A codec that leaves the headers alone can be an inner serializer of any pair. -/
theorem Codec.inner_serde {known : List ChannelId} {c : ChannelId} (codec : Codec α)
    (h : codec.serde.serializer.KeepsHeaders) : codec.serde.serializer.Inner known c :=
  ⟨h, codec.knowsOnly_serde, fun _ _ _ _ _ => rfl⟩

namespace Serde

variable {known : List ChannelId} {c : ChannelId} {extractor : Extractor κ} {key : Serializer κ}
  {value : Serializer ν} {s s' : Exchange} {t : Thread} {topic : String}

/-- The channel of a pair is none of the known ones. -/
private theorem outside_some (hc : c ∉ known) : ∀ d ∈ some c, d ∉ known :=
  fun _ hd => Option.mem_some_iff.mp hd ▸ hc

private theorem outside_none : ∀ d ∈ (none : Pairing), d ∉ known :=
  fun d hd => absurd hd (Option.not_mem_none d)

/-! ## The key side -/

/-- The two key sides end alike. -/
theorem agree_announcing (extractor : Extractor κ) (hc : c ∉ known) (hkey : key.KnowsOnly known)
    (t : Thread) (topic : String) (k : Option κ) :
    (Serializer.announcing extractor (some c) key t topic k).Agree known
      (Serializer.announcing extractor none key t topic k) := by
  intro s s' h
  rcases hx : extractor.ofRecord topic k s.activity.tape with ⟨e | ref, tape⟩
  · rw [Serializer.exec_announcing_of_error hx, Serializer.exec_announcing_of_error (h.tape ▸ hx)]
    exact ⟨rfl, h.drawn tape⟩
  · rw [Serializer.exec_announcing_of_ok hx, Serializer.exec_announcing_of_ok (h.tape ▸ hx)]
    exact hkey t topic k _ _ ((h.drawn tape).announced (outside_some hc) outside_none t t topic ref)

/-- A key side that succeeded has left its reference in its slot. -/
theorem peek_of_announcing (hkey : key.KeepsCells c) {k : Option κ} {y : Option Bytes}
    {s₁ : Exchange}
    (hy : (Serializer.announcing extractor (some c) key t topic k).exec s = (.ok y, s₁)) :
    ∃ ref, (extractor.ofRecord topic k s.activity.tape).1 = .ok ref ∧
      s₁.slots.peek t c = ref := by
  obtain ⟨ref, tape, hx, hwrite⟩ := Serializer.extracted_of_announcing hy
  have hkeep := hkey t topic k t (Serializer.announced (s.drawn tape) (some c) t topic ref)
  rw [hwrite] at hkeep
  exact ⟨ref, by rw [hx], hkeep.trans (Slots.peek_publish_self _ _ _ _)⟩

/-- A key side that succeeded has left its reference in the headers. -/
theorem keyRef?_of_announcing (hkey : key.KeepsHeaders) {k : Option κ} {y : Option Bytes}
    {s₁ : Exchange}
    (hy : (Serializer.announcing extractor none key t topic k).exec s = (.ok y, s₁)) :
    ∃ ref, (extractor.ofRecord topic k s.activity.tape).1 = .ok ref ∧
      s₁.headers.keyRef? = ref := by
  obtain ⟨ref, tape, hx, hwrite⟩ := Serializer.extracted_of_announcing hy
  have hkeep : s₁.headers = s.headers.addKeyRef ref := by
    have := hkey t topic k (Serializer.announced (s.drawn tape) none t topic ref)
    rw [hwrite] at this
    exact this
  exact ⟨ref, by rw [hx], by rw [hkeep, Headers.keyRef?_addKeyRef]⟩

/-- After a key side that succeeded, the slot of the one transport holds what the headers of the
other one say. -/
theorem handedOver_of_announcing (hkey : key.Inner known c) (h : s.Alike known s')
    {k : Option κ} {y y' : Option Bytes} {s₁ s₁' : Exchange}
    (hy : (Serializer.announcing extractor (some c) key t topic k).exec s = (.ok y, s₁))
    (hy' : (Serializer.announcing extractor none key t topic k).exec s' = (.ok y', s₁')) :
    s₁.slots.peek t c = s₁'.headers.keyRef? := by
  obtain ⟨ref, hx, hpeek⟩ := peek_of_announcing hkey.keepsCells hy
  obtain ⟨ref', hx', href⟩ := keyRef?_of_announcing hkey.keepsHeaders hy'
  rw [h.tape, hx'] at hx
  rw [hpeek, href]
  exact (Except.ok.inj hx).symm

/-! ## The value side -/

/-- The two value sides end alike if they find the same reference. -/
theorem agree_sealing (cipher : RecordCipher) (hc : c ∉ known) (hvalue : value.Inner known c)
    (h : s.Alike known s') (href : s.slots.peek t c = s'.headers.keyRef?) (topic : String)
    (v : Option ν) :
    ((Serializer.sealing cipher (some c) value t topic v).exec s).1 =
        ((Serializer.sealing cipher none value t topic v).exec s').1 ∧
      ((Serializer.sealing cipher (some c) value t topic v).exec s).2.Alike known
        ((Serializer.sealing cipher none value t topic v).exec s').2 := by
  rw [Serializer.exec_sealing_eq_sealingUnder cipher _ hvalue.keepsHeaders,
    Serializer.exec_sealing_eq_sealingUnder cipher _ hvalue.keepsHeaders]
  have hrefs : s.reference (some c) t = s'.reference none t := href
  rw [hrefs]
  exact Serializer.agree_sealingUnder cipher _ (hvalue.knowsOnly t topic v) _ _
    (h.taken (outside_some hc) outside_none t t)

/-! ## Records -/

section

variable {key : Serde κ} {value : Serde ν}

/-- One record has the same fate with both transports, and leaves exchanges that are alike. -/
theorem alike_send (cipher : RecordCipher) (extractor : Extractor κ) (hc : c ∉ known)
    (hkey : key.serializer.Inner known c) (hvalue : value.serializer.Inner known c)
    (h : s.Alike known s') (r : OutgoingRecord κ ν) :
    ((paired cipher extractor c key value).serializers.send r s).1 =
        ((SerializerPair.byHeaders cipher extractor key.serializer value.serializer).send r s').1 ∧
      ((paired cipher extractor c key value).serializers.send r s).2.Alike known
        ((SerializerPair.byHeaders cipher extractor key.serializer value.serializer).send r
          s').2 := by
  have hentered := h.withHeaders r.headers
  have hannounced := agree_announcing extractor hc hkey.knowsOnly r.thread r.topic r.key _ _
    hentered
  unfold SerializerPair.send
  simp only [paired, SerdePair.serializers, SerializerPair.byHeaders, wrap]
  rcases hy : (Serializer.announcing extractor (some c) key.serializer r.thread r.topic r.key).exec
    { s with headers := r.headers } with ⟨y, s₁⟩
  rcases hy' : (Serializer.announcing extractor none key.serializer r.thread r.topic r.key).exec
    { s' with headers := r.headers } with ⟨y', s₁'⟩
  rw [hy, hy'] at hannounced
  obtain ⟨hyy, halike⟩ := hannounced
  obtain rfl : y = y' := hyy
  cases y with
  | error e => exact ⟨congrArg (SentRecord.mk (.error e) none) halike.headers, halike⟩
  | ok out =>
    -- the key went out, so both value sides are about to find what it has left
    have hsame := handedOver_of_announcing hkey hentered hy hy'
    obtain ⟨hout, hafter⟩ := agree_sealing cipher hc hvalue halike hsame r.topic r.value
    simp only [hout, hafter.headers]
    exact ⟨trivial, hafter⟩

/-- **Both transports agree.** Take a pair that was built with a channel of its own and a pair that
is built on the headers alone, from the same cipher, the same extractor and the same inner
serializers, which leave the headers and that channel alone. Start them on exchanges with the same
random bytes to come; whatever the slots of the channel hold, on any thread, plays no part. For
every list of records, each on a thread of its own choice and with headers of its own, both pairs
give the same keys, the same values, absences and errors, and the same headers, record by record,
and in the end the same random bytes are left. -/
theorem paired_agrees_with_byHeaders (cipher : RecordCipher) (extractor : Extractor κ)
    (hc : c ∉ known) (hkey : key.serializer.Inner known c)
    (hvalue : value.serializer.Inner known c) (h : s.Alike known s')
    (records : List (OutgoingRecord κ ν)) :
    ((paired cipher extractor c key value).serializers.sendAll records s).1 =
        ((SerializerPair.byHeaders cipher extractor key.serializer value.serializer).sendAll
          records s').1 ∧
      ((paired cipher extractor c key value).serializers.sendAll records s).2.Alike known
        ((SerializerPair.byHeaders cipher extractor key.serializer value.serializer).sendAll
          records s').2 := by
  -- the induction carries no more than that the exchanges are alike: leftovers need not match
  induction records generalizing s s' with
  | nil => exact ⟨rfl, h⟩
  | cons r records ih =>
    obtain ⟨hsent, hnext⟩ := alike_send cipher extractor hc hkey hvalue h r
    obtain ⟨hmore, hlast⟩ := ih hnext
    simp only [SerializerPair.sendAll, hsent, hmore]
    exact ⟨trivial, hlast⟩

/-- Three records that bring along the reference of a record that was read before. The key of the
first one is refused after its reference was announced, the second one has no key, the third one
is sealed. -/
theorem paired_agrees_with_byHeaders_leftovers :
    let cipher : RecordCipher := ⟨.ofList [(.ofText "K1", [0x11])], .masking⟩
    let picky : Codec String :=
      { serialize := fun _ key =>
          if key = some "K0" then throw (.codec "refused") else return key.map Utf8.encode
        deserialize := fun _ _ => return none }
    let pair := (paired cipher (.ofNames fun _ key => some key) 1 picky.serde
      Codec.bytes.serde).serializers
    let stale : Headers := ({} : Headers).addKeyRef (some (.ofText "K1"))
    let s : Exchange := { activity := { tape := .counting 0 } }
    (pair.sendAll
        [⟨.main, "orders", stale, some "K0", some [0x68]⟩,
          ⟨.main, "orders", stale, none, some [0x68]⟩,
          ⟨.main, "orders", stale, some "K1", some [0x68]⟩] s).1.map SentRecord.value =
      [none, some (.ok (some [0x68])),
        some (.ok (some
          (Envelope.magic ++ [0, 0, 0, 2, 0x4B, 0x31, 0x78, 0x6F, 0x72, 0x3A, 0x79])))] := by
  intro cipher picky pair stale s
  have hpicky : picky.serde.serializer.KeepsHeaders := by
    intro thread topic key s
    show ((SerdeM.codec (picky.serialize topic key)).exec s).2.headers = s.headers
    by_cases h : key = some "K0"
    · simp only [SerdeM.exec_codec, picky, if_pos h]
      rfl
    · simp only [SerdeM.exec_codec, picky, if_neg h]
      rfl
  have halike : s.Alike [] s := Exchange.Alike.of_nil rfl rfl
  have hagree := (paired_agrees_with_byHeaders (c := 1) cipher (.ofNames fun _ key => some key)
    List.not_mem_nil (picky.inner_serde hpicky) (Codec.bytes.inner_serde fun _ _ _ _ => rfl) halike
    [⟨.main, "orders", stale, some "K0", some [0x68]⟩, ⟨.main, "orders", stale, none, some [0x68]⟩,
      ⟨.main, "orders", stale, some "K1", some [0x68]⟩]).1
  rw [hagree]
  rfl

end

end Serde

end SealedRecords
