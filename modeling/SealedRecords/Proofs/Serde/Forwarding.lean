import Mathlib.Logic.Relation
import SealedRecords.Proofs.Serde.Opening

/-!
# Records that are passed on

A service reads a record and writes another one with the headers that it has then.
Reading and writing know of each other by one entry of the headers only: the last
one kept for a reference. Reading puts it there whenever it succeeds, also if the
value could not be decrypted, and also if there was no reference, so that it hides
every older entry.

> `keyRef?_of_opening`: after a record was read the headers tell the reference of
> its frame, whatever they told before.

> `sealing_after_reading`: what is written then goes out under that reference and
> no other.

So a record that came in sealed does not go out in clear, at one service or at many
in a row:

> `sealed_along_hops`: over any number of hops a sealed frame stays sealed under its
> reference.
-/

namespace SealedRecords

/-- What can be opened is an envelope, and its reference is that of the envelope. -/
theorem RecordCipher.envelope_of_decode {c : RecordCipher} {b : Bytes} {opened : Opened}
    {a a' : Activity} (h : (c.decode b).exec a = (.ok opened, a')) :
    ∃ env, Envelope.decode b = .ok env ∧ opened.keyRef = env.keyRef? := by
  rcases hb : Envelope.decode b with e | env
  · rw [decode_of_error c hb] at h
    cases h
  · refine ⟨env, rfl, ?_⟩
    cases env with
    | raw body =>
      rw [decode_of_clear c hb rfl] at h
      cases h
      rfl
    | plain body =>
      rw [decode_of_clear c hb rfl] at h
      cases h
      rfl
    | «sealed» r ciphertext =>
      rw [decode_of_sealed c hb] at h
      cases h
      rfl

variable {cipher cipher' : RecordCipher} {inner : Deserializer α} {inner' : Serializer β}
  {thread thread' : Thread} {topic topic' : String} {b b' c : Bytes} {v : Option α}
  {value : Option β} {s s' s₂ s₃ : Exchange} {k : KeyRef}

/-! ## One hop -/

/-- After a record was read the headers tell the reference of its frame, or that it had none. -/
theorem Deserializer.keyRef?_of_opening
    (h : (opening cipher inner thread topic (some b)).exec s = (.ok v, s')) :
    ∃ env, Envelope.decode b = .ok env ∧ s'.headers.keyRef? = env.keyRef? := by
  rw [exec_opening] at h
  rcases hd : (cipher.decode b).exec s.activity with ⟨e | opened, a⟩
  · rw [hd] at h
    cases h
  · rw [hd] at h
    obtain ⟨env, hb, href⟩ := RecordCipher.envelope_of_decode hd
    rcases hy : (inner thread topic opened.payload.toOption).exec (s.withActivity a)
      with ⟨e | value, s₁⟩
    · simp only [hy] at h
      cases h
    · simp only [hy] at h
      cases h
      exact ⟨env, hb, (Headers.keyRef?_addKeyRef _ _).trans href⟩

/-- What is written with the headers of a record that was read goes out under its reference. -/
theorem Serializer.sealing_after_reading {env : Envelope} (hinner : inner'.KeepsHeaders)
    (href : s₂.headers.keyRef? = env.keyRef?) :
    (sealing cipher' none inner' thread' topic' value).exec s₂ =
      (sealingUnder cipher' env.keyRef? inner' thread' topic' value).exec s₂ := by
  rw [exec_sealing_eq_sealingUnder cipher' none hinner]
  show (sealingUnder cipher' s₂.headers.keyRef? inner' thread' topic' value).exec s₂ = _
  rw [href]

/-! ## Any number of hops -/

/-- One hop of a record: a deserializer reads the bytes `b`, and a serializer that goes by the
headers writes the bytes `b'` with the headers as they are then. The two may have different keys,
ciphers and codecs, and the value that is written need not be the one that was read. -/
inductive Hop : Bytes → Bytes → Prop where
  | forward {α β : Type} {cipher cipher' : RecordCipher} {inner : Deserializer α}
    {inner' : Serializer β} {thread thread' : Thread} {topic topic' : String} {b b' : Bytes}
    {v : Option α} {value : Option β} {s s' s₂ s₃ : Exchange}
    (hread : (Deserializer.opening cipher inner thread topic (some b)).exec s = (.ok v, s'))
    (hinner : inner'.KeepsHeaders) (hheaders : s₂.headers = s'.headers)
    (hwrite : (Serializer.sealing cipher' none inner' thread' topic' value).exec s₂
      = (.ok (some b'), s₃)) : Hop b b'

/-- A hop keeps the reference of a sealed frame. -/
theorem Hop.keeps_sealed (h : Hop b b') (hb : Envelope.decode b = .ok (.sealed k c)) :
    ∃ c', Envelope.decode b' = .ok (.sealed k c') := by
  cases h with
  | forward hread hinner hheaders hwrite =>
    obtain ⟨env, henv, href⟩ := Deserializer.keyRef?_of_opening hread
    obtain rfl : env = .sealed k c := Except.ok.inj (henv.symm.trans hb)
    rw [← hheaders] at href
    rw [Serializer.sealing_after_reading hinner href] at hwrite
    obtain ⟨x, s₁, key, c', tape, -, -, -, -, hd⟩ :=
      Serializer.sealingUnder_ok_some (congrArg Prod.fst hwrite)
    exact ⟨c', hd⟩

/-- Over any number of hops a sealed frame stays sealed under its reference. -/
theorem sealed_along_hops (h : Relation.ReflTransGen Hop b b')
    (hb : Envelope.decode b = .ok (.sealed k c)) :
    ∃ c', Envelope.decode b' = .ok (.sealed k c') := by
  induction h with
  | refl => exact ⟨c, hb⟩
  | tail _ hop ih =>
    obtain ⟨c₁, h₁⟩ := ih
    exact hop.keeps_sealed h₁

/-- **Forwarding never downgrades protection.** Let a serde that goes by the headers have read the
bytes `b`, with any value or none and whatever the headers were before. Then `b` is an envelope,
and every serializer that goes by the headers, over an inner codec that leaves them alone, seals
under the reference of that envelope from then on, whatever value it writes. If `b` was sealed
under `k`, the only bytes that ever go out are the frame under `k` around the cipher's output, which
is no frame in clear. If `b` had no frame or one in clear, what the inner codec answers goes out as
it is. -/
theorem Serde.forwarding_keeps_reference {inner : Serde α} {y : Option α}
    (h : ((sealingByHeaders cipher inner).deserializer thread topic (some b)).exec s
      = (.ok y, s')) :
    ∃ env, Envelope.decode b = .ok env ∧
      ∀ {β : Type} (cipher' : RecordCipher) (inner' : Serde β), inner'.serializer.KeepsHeaders →
      ∀ thread' topic' value (s₂ : Exchange), s₂.headers = s'.headers →
        let out := ((sealingByHeaders cipher' inner').serializer thread' topic' value).exec s₂
        let written := (inner'.serializer thread' topic' value).exec s₂
        out = (Serializer.sealingUnder cipher' env.keyRef? inner'.serializer thread' topic'
          value).exec s₂ ∧
        (∀ k c, env = .sealed k c → ∀ b', out.1 = .ok (some b') →
          (∃ x c', written.1 = .ok (some x) ∧ b' = (Envelope.encodeSealed k c' []).2 ∧
            Envelope.decode b' = .ok (.sealed k c') ∧ (x.length ≤ c'.length → b' ≠ x) ∧
            ∃ key tape, (cipher'.keys k).key = some key ∧
              cipher'.cipher.encrypt key x written.2.activity.tape = (.ok c', tape)) ∧
          ∀ clear, b' ≠ (Envelope.encodePlain clear []).2) ∧
        (env = .raw b ∨ (∃ body, env = .plain body) → out.1 = written.1) := by
  obtain ⟨env, hb, href⟩ := Deserializer.keyRef?_of_opening h
  refine ⟨env, hb, fun {β} cipher' inner' hinner thread' topic' value s₂ hheaders => ?_⟩
  intro out written
  rw [← hheaders] at href
  have hout : out = (Serializer.sealingUnder cipher' env.keyRef? inner'.serializer thread' topic'
      value).exec s₂ := Serializer.sealing_after_reading hinner href
  refine ⟨hout, ?_, ?_⟩
  · rintro k c rfl b' hb'
    rw [hout] at hb'
    obtain ⟨x, s₁, key, c', tape, hx, hk, hc, rfl, hd⟩ := Serializer.sealingUnder_ok_some hb'
    have hwritten : written = (.ok (some x), s₁) := hx
    obtain ⟨hne, hs, -⟩ := Envelope.decode_eq_sealed_iff.mp hd
    have hframe : Envelope.frame k.bytes c' = (Envelope.encodeSealed k c' []).2 := by
      rw [Envelope.encodeSealed_of_fits hne hs]
      rfl
    rw [hwritten]
    exact ⟨⟨x, c', rfl, hframe, hd, Envelope.frame_ne_of_length_le, key, tape, hk, hc⟩,
      Envelope.ne_encodePlain_of_sealed hd⟩
  · intro hclear
    have hnone : env.keyRef? = none := by
      rcases hclear with rfl | ⟨body, rfl⟩
      · rfl
      · rfl
    rw [hout, hnone]
    exact Serializer.fst_sealingUnder_none cipher' inner'.serializer thread' topic' value s₂

/-- A service without the key reads a sealed record as absent, behind headers that told that there
is no reference. What it writes to the next service, which has the key, is sealed under it. -/
theorem Serde.forwarding_keeps_reference_undecrypted :
    let keyless : RecordCipher := ⟨.ofList [], .masking⟩
    let cipher : RecordCipher := ⟨.ofList [(⟨[0x4B]⟩, [0x11])], .masking⟩
    let s : Exchange :=
      { activity := { tape := .counting 0 }, headers := ⟨[⟨Headers.keyRefName, none⟩]⟩ }
    let b := Envelope.frame [0x4B] [7, 7]
    ∃ s' b' c', ((sealingByHeaders keyless Codec.bytes.serde).deserializer .main "orders"
        (some b)).exec s = (.ok none, s') ∧
      (((sealingByHeaders cipher Codec.bytes.serde).serializer .main "audit"
        (some [0x68])).exec s').1 = .ok (some b') ∧
      Envelope.decode b' = .ok (.sealed ⟨[0x4B]⟩ c') := by
  intro keyless cipher s b
  have hands : Deserializer.Hands keyless s b none (some ⟨[0x4B]⟩) _ :=
    .unresolved [7, 7] rfl (by decide) rfl
  have hread : ((sealingByHeaders keyless Codec.bytes.serde).deserializer .main "orders"
      (some b)).exec s = (.ok none, _) :=
    Deserializer.exec_opening_of_hands Codec.bytes.serde.deserializer .main "orders" hands
  obtain ⟨env, henv, hwrite⟩ := forwarding_keeps_reference hread
  have hb : Envelope.decode b = .ok (.sealed ⟨[0x4B]⟩ [7, 7]) :=
    Envelope.decode_frame (List.cons_ne_nil _ _) (by decide) [7, 7]
  obtain rfl : env = .sealed ⟨[0x4B]⟩ [7, 7] := Except.ok.inj (henv.symm.trans hb)
  obtain ⟨hout, hsealed, -⟩ := hwrite cipher Codec.bytes.serde (fun _ _ _ _ => rfl) .main "audit"
    (some [0x68]) _ rfl
  obtain ⟨⟨x, c', -, -, hd, -⟩, -⟩ := hsealed _ _ rfl _ (congrArg Prod.fst (hout.trans rfl))
  exact ⟨_, _, c', hread, congrArg Prod.fst (hout.trans rfl), hd⟩

end SealedRecords
