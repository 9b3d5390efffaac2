import SealedRecords.Proofs.Serde.Calls

/-!
# No fallback to the payload in clear

A value side that has a reference gives out a frame sealed under it, or nothing,
or an error: there is no path on which the bytes of the inner codec leave as they
are, and none on which they leave in a frame that says it is in clear. The paths
are told apart by what is found on the way: the inner codec's answer, the
reference, the key, the cipher's answer. Each has its equation below, with the
account it leaves, so that "no look-up" and "no cipher call" are equations too.

> `sealPayload_ok_some`: bytes given out under a reference are a sealed frame
> around the cipher's output.
-/

namespace SealedRecords

namespace Serializer

variable {cipher : RecordCipher} {r : KeyRef} {key payload out : Bytes} {e : CipherError}
  {tape : RandomTape} {s : Exchange}

/-! ## The paths of a written value -/

theorem sealPayload_none (cipher : RecordCipher) (topic : String) (payload : Bytes)
    (s : Exchange) :
    (sealPayload cipher topic none payload).exec s =
      (.ok (some payload), s.withActivity (s.activity.noted [.sentInClear])) := by
  rw [exec_sealPayload, RecordCipher.encode_none]

/-- An empty reference is refused with the exchange untouched: no key was looked up, the cipher was
not called, nothing was drawn. -/
theorem sealPayload_of_empty (cipher : RecordCipher) (topic : String) (h : r.isEmpty = true)
    (payload : Bytes) (s : Exchange) :
    (sealPayload cipher topic (some r) payload).exec s =
      (.error (.envelope .emptyKeyRef), s) := by
  rw [exec_sealPayload, RecordCipher.encode_of_empty cipher h]
  rfl

/-- Without a key the value is left out, after one look-up and nothing else. -/
theorem sealPayload_of_unresolved (topic : String) (h : r.isEmpty = false)
    (hk : (cipher.keys r).key = none) (payload : Bytes) (s : Exchange) :
    (sealPayload cipher topic (some r) payload).exec s =
      (.ok none, s.withActivity (((s.activity.lookedUp (cipher.keys r)).noted
        [.encryptionKeyMissing r]).noted [.recordDropped topic (.keyNotFound r)])) := by
  rw [exec_sealPayload, RecordCipher.encode_some cipher h, RecordCipher.encrypt_of_unresolved hk]

/-- A value that the cipher refuses is left out. -/
theorem sealPayload_of_failed (topic : String) (h : r.isEmpty = false)
    (hk : (cipher.keys r).key = some key)
    (hc : cipher.cipher.encrypt key payload s.activity.tape = (.error e, tape)) :
    (sealPayload cipher topic (some r) payload).exec s =
      (.ok none, s.withActivity ((((s.activity.lookedUp (cipher.keys r)).encrypted tape).noted
        [.encryptionFailed r e]).noted [.recordDropped topic (.cipherFailure r e)])) := by
  rw [exec_sealPayload, RecordCipher.encode_some cipher h, RecordCipher.encrypt_of_resolved hk, hc]

/-- A value that the cipher encrypts goes out in a frame that carries its reference. -/
theorem sealPayload_of_encrypted (topic : String) (h : r.isEmpty = false)
    (hs : r.size ≤ Envelope.maxKeyRefSize) (hk : (cipher.keys r).key = some key)
    (hc : cipher.cipher.encrypt key payload s.activity.tape = (.ok out, tape)) :
    (sealPayload cipher topic (some r) payload).exec s =
      (.ok (some (Envelope.frame r.bytes out)),
        s.withActivity ((s.activity.lookedUp (cipher.keys r)).encrypted tape)) := by
  rw [exec_sealPayload, RecordCipher.encode_some cipher h, RecordCipher.encrypt_of_resolved hk, hc]
  simp only [if_pos hs]

/-- Bytes that are given out come from `encode`, whose account is kept. -/
theorem encode_of_sealPayload {topic : String} {ref : Option KeyRef} {b : Bytes} {s' : Exchange}
    (h : (sealPayload cipher topic ref payload).exec s = (.ok (some b), s')) :
    (cipher.encode ref payload).exec s.activity = (.ok b, s'.activity) := by
  rw [exec_sealPayload] at h
  rcases hx : (cipher.encode ref payload).exec s.activity with ⟨(e | e) | b', a⟩
  · rw [hx] at h
    simp at h
  · rw [hx] at h
    simp at h
  · rw [hx] at h
    simp only [Prod.mk.injEq, Except.ok.injEq, Option.some.injEq] at h
    obtain ⟨rfl, rfl⟩ := h
    rfl

/-- Bytes given out under a reference are a sealed frame around the cipher's output. -/
theorem sealPayload_ok_some {topic : String} {b : Bytes} {s' : Exchange}
    (h : (sealPayload cipher topic (some r) payload).exec s = (.ok (some b), s')) :
    ∃ key out tape, (cipher.keys r).key = some key ∧
      cipher.cipher.encrypt key payload s.activity.tape = (.ok out, tape) ∧
      b = Envelope.frame r.bytes out ∧ Envelope.decode b = .ok (.sealed r out) := by
  obtain ⟨hne, hs, key, out, tape, hk, hc, rfl⟩ :=
    RecordCipher.encode_ok_some (encode_of_sealPayload h)
  exact ⟨key, out, tape, hk, hc, rfl, Envelope.decode_eq_sealed_iff.mpr ⟨hne, hs, rfl⟩⟩

/-! ## The value side as a whole -/

/-- Over an inner codec that leaves the headers alone, the reference is settled before the call. -/
theorem exec_sealing_of_keepsHeaders {inner : Serializer α} (cipher : RecordCipher)
    (channel : Pairing) (hinner : inner.KeepsHeaders) (thread : Thread) (topic : String)
    (value : Option α) (s : Exchange) :
    (sealing cipher channel inner thread topic value).exec s =
      match (inner thread topic value).exec (s.taken channel thread) with
      | (.error e, s₁) => (.error e, s₁)
      | (.ok none, s₁) => (.ok none, s₁)
      | (.ok (some x), s₁) =>
        (sealPayload cipher topic (s.reference channel thread) x).exec s₁ := by
  rw [exec_sealing]
  rcases hy : (inner thread topic value).exec (s.taken channel thread) with ⟨e | (_ | x), s₁⟩
  · rfl
  · rfl
  · simp only [reference_after_inner hinner hy]

/-- **No fallback.** Let the inner codec of a value side answer `y` and leave the exchange `s₁`,
and let `out` be what the value side ends with. An inner error and an inner absence are handed on
with nothing done after them. A written payload `x` goes out as it is if there is no reference. If
there is one, `out` is settled by the reference, its key and the cipher's answer; the only bytes
that ever go out are the frame around the cipher's output for `x`, which reads as sealed under that
reference and is no frame in clear. -/
theorem sealing_no_fallback {channel : Pairing} {inner : Serializer α} {thread : Thread}
    {topic : String} {value : Option α} {s s₁ : Exchange} {y : Except SerdeError (Option Bytes)}
    {out : Except SerdeError (Option Bytes) × Exchange} (cipher : RecordCipher)
    (hinner : inner.KeepsHeaders)
    (hy : (inner thread topic value).exec (s.taken channel thread) = (y, s₁))
    (hout : (sealing cipher channel inner thread topic value).exec s = out) :
    (∀ e, y = .error e → out = (.error e, s₁)) ∧
    (y = .ok none → out = (.ok none, s₁)) ∧
    ∀ x, y = .ok (some x) →
      (s.reference channel thread = none →
        out = (.ok (some x), s₁.withActivity (s₁.activity.noted [.sentInClear]))) ∧
      ∀ r, s.reference channel thread = some r →
        (r.isEmpty = true → out = (.error (.envelope .emptyKeyRef), s₁)) ∧
        (r.isEmpty = false → (cipher.keys r).key = none →
          out.1 = .ok none ∧ out.2.activity.calls = s₁.activity.calls ∧
            out.2.activity.tape = s₁.activity.tape) ∧
        (r.isEmpty = false → ∀ key e tape, (cipher.keys r).key = some key →
          cipher.cipher.encrypt key x s₁.activity.tape = (.error e, tape) →
            out.1 = .ok none) ∧
        (r.isEmpty = false → r.size ≤ Envelope.maxKeyRefSize → ∀ key c tape,
          (cipher.keys r).key = some key →
          cipher.cipher.encrypt key x s₁.activity.tape = (.ok c, tape) →
            out.1 = .ok (some (Envelope.magic ++ Bytes.toWord r.size ++ r.bytes ++ c))) ∧
        ∀ b, out.1 = .ok (some b) →
          (∃ key c tape, (cipher.keys r).key = some key ∧
            cipher.cipher.encrypt key x s₁.activity.tape = (.ok c, tape) ∧
            b = Envelope.magic ++ Bytes.toWord r.size ++ r.bytes ++ c ∧
            Envelope.decode b = .ok (.sealed r c) ∧ (x.length ≤ c.length → b ≠ x)) ∧
          ∀ clear, b ≠ (Envelope.encodePlain clear []).2 := by
  subst hout
  rw [exec_sealing_of_keepsHeaders cipher channel hinner, hy]
  refine ⟨?_, ?_, ?_⟩
  · rintro e rfl
    rfl
  · rintro rfl
    rfl
  · rintro x rfl
    refine ⟨fun href => ?_, fun r href => ?_⟩
    · rw [href]
      exact sealPayload_none cipher topic x s₁
    · rw [href]
      refine ⟨fun he => sealPayload_of_empty cipher topic he x s₁, fun hne hk => ?_,
        fun hne key e tape hk hc => ?_, fun hne hs key c tape hk hc => ?_, fun b hb => ?_⟩
      · simp only [sealPayload_of_unresolved topic hne hk]
        exact ⟨trivial, rfl, rfl⟩
      · simp only [sealPayload_of_failed topic hne hk hc]
      · simp only [sealPayload_of_encrypted topic hne hs hk hc]
        rfl
      · obtain ⟨key, c, tape, hk, hc, rfl, hd⟩ := sealPayload_ok_some (Prod.ext hb rfl)
        refine ⟨⟨key, c, tape, hk, hc, rfl, hd, fun hle hbx => ?_⟩, fun clear hclear => ?_⟩
        · -- a frame is longer than the ciphertext in it
          have hlen := Envelope.length_frame r.bytes c
          rw [hbx] at hlen
          have : 0 < Envelope.headerSize := by decide
          omega
        · -- a frame in clear reads as plain, and this one reads as sealed
          rw [hclear, Envelope.encodePlain_eq, List.nil_append, Envelope.decode_frame_nil] at hd
          simp at hd

/-- A slot that holds a reference with a key: the text `h` goes out in a sealed frame. -/
theorem sealing_no_fallback_masked :
    let cipher : RecordCipher := ⟨.ofList [(⟨[0x4B]⟩, [0x11])], .masking⟩
    let s : Exchange :=
      { activity := { tape := .counting 0 }, slots := { filled := [⟨.main, 1, ⟨[0x4B]⟩⟩] } }
    ((sealing cipher (some 1) Codec.bytes.serde.serializer .main "orders" (some [0x68])).exec s).1
      = .ok (some (Envelope.magic ++ [0, 0, 0, 1, 0x4B, 0x78, 0x6F, 0x72, 0x3A, 0x79])) := by
  intro cipher s
  have hwritten : (Codec.bytes.serde.serializer .main "orders" (some [0x68])).exec
      (s.taken (some 1) .main) = (.ok (some [0x68]), s.taken (some 1) .main) := rfl
  obtain ⟨-, -, hpayload⟩ := sealing_no_fallback cipher (fun _ _ _ _ => rfl) hwritten rfl
  obtain ⟨-, hsealed⟩ := hpayload [0x68] rfl
  obtain ⟨-, -, -, hframe, -⟩ := hsealed ⟨[0x4B]⟩ rfl
  exact hframe rfl (by decide) [0x11] [0x78, 0x6F, 0x72, 0x3A, 0x79] (.counting 0) rfl rfl

end Serializer

end SealedRecords
