import SealedRecords.Keys.Naming
import SealedRecords.Proofs.Cipher.Gcm

/-!
# What encryption discloses

Two encryptions are run side by side, with the same tape, the same references and
the same additional data, but with other payloads and other keys. Payloads of one
length and keys of one length cannot be told apart by anything that happens on the
way: `KeyProvider.Alike` relates providers whose keys differ in their bytes only,
and `Disclosure` says how much of what comes out is the same.

> `Gcm.encrypt_alike`: two results begin with the same nonce and are equally long,
> or they are the same error; the tape is left at the same place.

> `RecordCipher.encrypt_alike`, `RecordCipher.encode_alike`: and so is the account.

Nothing is said about the ciphertext itself: that it tells nothing about the
payload is for the cipher to see to.
-/

namespace SealedRecords

/-- Two computations end with the same error, or with values in a relation, and both leave the
same state. -/
inductive SameOutcome {ε α σ : Type} (R : α → α → Prop) :
    Except ε α × σ → Except ε α × σ → Prop where
  | failed (e : ε) (s : σ) : SameOutcome R (.error e, s) (.error e, s)
  | given {x y : α} (h : R x y) (s : σ) : SameOutcome R (.ok x, s) (.ok y, s)

/-- How much of some bytes depends neither on a payload nor on a key, lengths apart. -/
inductive Disclosure where
  /-- All of it. -/
  | all
  /-- Its length. -/
  | length
  /-- Its length, and the nonce that it begins with. -/
  | nonce
  /-- Its length, and of a frame the head, the reference and the nonce behind them. -/
  | frame (r : KeyRef)
  deriving DecidableEq, Repr

namespace Disclosure

/-- Two byte sequences are equally long and begin with the same nonce. -/
def SameNonce (b b' : Bytes) : Prop :=
  ∃ nonce c c', nonce.length = Gcm.nonceSize ∧ c.length = c'.length ∧
    b = nonce ++ c ∧ b' = nonce ++ c'

/-- What is disclosed is the same. -/
def Agree : Disclosure → Bytes → Bytes → Prop
  | all, b, b' => b = b'
  | length, b, b' => b.length = b'.length
  | nonce, b, b' => SameNonce b b'
  | frame r, b, b' => ∃ c c', SameNonce c c' ∧ b = Envelope.frame r.bytes c ∧
      b' = Envelope.frame r.bytes c'

variable {b b' : Bytes}

theorem SameNonce.length_eq (h : SameNonce b b') : b.length = b'.length := by
  obtain ⟨nonce, c, c', -, hc, rfl, rfl⟩ := h
  rw [List.length_append, List.length_append, hc]

/-- Whatever else is disclosed, the length is. -/
theorem Agree.length_eq {δ : Disclosure} (h : δ.Agree b b') : b.length = b'.length := by
  cases δ with
  | all => exact congrArg List.length h
  | length => exact h
  | nonce => exact SameNonce.length_eq h
  | frame r =>
    obtain ⟨c, c', hc, rfl, rfl⟩ := h
    rw [Envelope.length_frame, Envelope.length_frame, hc.length_eq]

/-- The ten bytes of the head, the reference and the nonce are there and the same. -/
theorem Agree.frame_parts {r : KeyRef} (h : (frame r).Agree b b') :
    10 + r.size + Gcm.nonceSize ≤ b.length ∧ b.take 10 = b'.take 10 ∧
      (b.drop 10).take r.size = r.bytes ∧ (b'.drop 10).take r.size = r.bytes ∧
      (b.drop (10 + r.size)).take Gcm.nonceSize = (b'.drop (10 + r.size)).take Gcm.nonceSize := by
  obtain ⟨x, x', ⟨nonce, c, c', hnonce, -, rfl, rfl⟩, rfl, rfl⟩ := h
  have hhead : ∀ x, (Envelope.frame r.bytes x).take 10 =
      Envelope.magic ++ Bytes.toWord r.bytes.length := by
    intro x
    unfold Envelope.frame
    rw [List.append_assoc _ r.bytes x]
    exact List.take_left' rfl
  have hnonces : ∀ c, ((Envelope.frame r.bytes (nonce ++ c)).drop (10 + r.size)).take Gcm.nonceSize
      = nonce := by
    intro c
    have hbody : (Envelope.frame r.bytes (nonce ++ c)).drop (10 + r.size) = nonce ++ c :=
      Envelope.body_of_frame r.bytes (nonce ++ c)
    rw [hbody, ← hnonce, List.take_left]
  refine ⟨?_, ?_, Envelope.reference_of_frame _ _, Envelope.reference_of_frame _ _, ?_⟩
  · rw [Envelope.length_frame, List.length_append, hnonce]
    show 10 + r.bytes.length + 12 ≤ 10 + r.bytes.length + (12 + c.length)
    omega
  · rw [hhead, hhead]
  · rw [hnonces, hnonces]

end Disclosure

/-! ## Providers -/

/-- Answers references with the keys of a repository, under the names that they denote. A
`KeyStore` is one for references that are the names themselves. -/
def KeyProvider.ofRepository (nameOf : KeyRef → Option String) (get : String → Option Bytes) :
    KeyProvider := fun r =>
  match nameOf r with
  | some name => { key := get name }
  | none => { key := none, notes := [.unnamedReference r] }

example (s : KeyStore) : s.provider = .ofRepository KeyRef.text? s.get? := rfl

/-- Two maps, or two repositories, with the same references and keys of the same lengths. -/
inductive KeyProvider.Alike : KeyProvider → KeyProvider → Prop where
  | listed {keys keys' : List (KeyRef × Bytes)}
    (h : ∀ r, (ofList keys r).key.map List.length = (ofList keys' r).key.map List.length) :
    Alike (ofList keys) (ofList keys')
  | stored (nameOf : KeyRef → Option String) {get get' : String → Option Bytes}
    (h : ∀ name, (get name).map List.length = (get' name).map List.length) :
    Alike (ofRepository nameOf get) (ofRepository nameOf get')

namespace KeyProvider.Alike

variable {p p' : KeyProvider}

/-- What is reported about a reference does not depend on the keys. -/
theorem notes_eq (h : p.Alike p') (r : KeyRef) : (p r).notes = (p' r).notes := by
  cases h with
  | listed h => rfl
  | stored nameOf h =>
    unfold ofRepository
    cases nameOf r with
    | none => rfl
    | some name => rfl

theorem length_eq (h : p.Alike p') (r : KeyRef) :
    (p r).key.map List.length = (p' r).key.map List.length := by
  cases h with
  | listed h => exact h r
  | stored nameOf h =>
    unfold ofRepository
    cases nameOf r with
    | none => rfl
    | some name => exact h name

/-- A reference is unknown to both, or known to both with keys of one length. -/
theorem key_cases (h : p.Alike p') (r : KeyRef) :
    ((p r).key = none ∧ (p' r).key = none) ∨
      ∃ key key', (p r).key = some key ∧ (p' r).key = some key' ∧ key.length = key'.length := by
  have hlength := h.length_eq r
  cases hk : (p r).key with
  | none =>
    rw [hk] at hlength
    exact Or.inl ⟨rfl, Option.map_eq_none_iff.mp hlength.symm⟩
  | some key =>
    rw [hk] at hlength
    obtain ⟨key', hk', hkey⟩ := Option.map_eq_some_iff.mp hlength.symm
    exact Or.inr ⟨key, key', rfl, hk', hkey.symm⟩

/-- A look-up leaves the same account. -/
theorem lookedUp_eq (h : p.Alike p') (r : KeyRef) (a : Activity) :
    a.lookedUp (p r) = a.lookedUp (p' r) := by
  rw [Activity.lookedUp, Activity.lookedUp, h.notes_eq r]

end KeyProvider.Alike

/-! ## Encryption -/

variable {data data' : Bytes}

/-- AES-GCM looks at the length of the key and at the length of the data; what it gives begins with
the nonce that it drew. -/
theorem Gcm.encrypt_alike {key key' : Bytes} (hkey : key.length = key'.length)
    (hdata : data.length = data'.length) (aad : Bytes) (tape : RandomTape) :
    SameOutcome Disclosure.SameNonce ((cipher aad).encrypt key data tape)
      ((cipher aad).encrypt key' data' tape) := by
  by_cases hsize : key.length = keySize
  · have hsize' : key'.length = keySize := hkey ▸ hsize
    rw [encrypt_of_length hsize, encrypt_of_length hsize']
    refine .given ⟨tape.window tape.drawn nonceSize, _, _, RandomTape.length_window .., ?_,
      List.append_assoc .., List.append_assoc ..⟩ _
    simp only [List.length_append, length_crypt (length_blockOf _), length_tag (length_blockOf _),
      hdata]
  · have hsize' : key'.length ≠ keySize := hkey ▸ hsize
    rw [encrypt_of_not_length hsize, encrypt_of_not_length hsize', hkey]
    exact .failed _ _

namespace RecordCipher

variable {p p' : KeyProvider}

/-- **Under a reference the facade discloses lengths and the nonce**, and leaves one account. -/
theorem encrypt_alike (hp : p.Alike p') (hdata : data.length = data'.length) (aad : Bytes)
    (r : KeyRef) (a : Activity) :
    SameOutcome Disclosure.SameNonce ((encrypt ⟨p, Gcm.cipher aad⟩ r data).exec a)
      ((encrypt ⟨p', Gcm.cipher aad⟩ r data').exec a) := by
  rcases hp.key_cases r with ⟨hk, hk'⟩ | ⟨key, key', hk, hk', hkey⟩
  · rw [encrypt_of_unresolved (c := ⟨p, _⟩) hk, encrypt_of_unresolved (c := ⟨p', _⟩) hk']
    show SameOutcome _ (_, (a.lookedUp (p r)).noted _) (_, (a.lookedUp (p' r)).noted _)
    rw [hp.lookedUp_eq r a]
    exact .failed _ _
  · have hresult := Gcm.encrypt_alike hkey hdata aad a.tape
    rw [encrypt_of_resolved (c := ⟨p, _⟩) hk, encrypt_of_resolved (c := ⟨p', _⟩) hk']
    simp only [hp.lookedUp_eq r a]
    generalize (Gcm.cipher aad).encrypt key data a.tape = x at hresult ⊢
    generalize (Gcm.cipher aad).encrypt key' data' a.tape = x' at hresult ⊢
    cases hresult with
    | failed e tape => exact .failed _ _
    | given h tape => exact .given h _

/-- How much of an envelope is disclosed: of a payload without a reference the length. -/
def disclosure : Option KeyRef → Disclosure
  | none => .length
  | some r => .frame r

/-- **In an envelope the head, the reference, the nonce and the length are disclosed.** -/
theorem encode_alike (hp : p.Alike p') (hdata : data.length = data'.length) (aad : Bytes)
    (ref : Option KeyRef) (a : Activity) :
    SameOutcome (disclosure ref).Agree ((encode ⟨p, Gcm.cipher aad⟩ ref data).exec a)
      ((encode ⟨p', Gcm.cipher aad⟩ ref data').exec a) := by
  cases ref with
  | none =>
    rw [encode_none, encode_none]
    apply SameOutcome.given
    exact hdata
  | some r =>
    cases hne : r.isEmpty with
    | true =>
      rw [encode_of_empty _ hne, encode_of_empty _ hne]
      exact .failed _ _
    | false =>
      have hresult := encrypt_alike hp hdata aad r a
      rw [encode_some _ hne, encode_some _ hne]
      generalize (encrypt ⟨p, Gcm.cipher aad⟩ r data).exec a = x at hresult ⊢
      generalize (encrypt ⟨p', Gcm.cipher aad⟩ r data').exec a = x' at hresult ⊢
      cases hresult with
      | failed e s => exact .failed _ _
      | given h s =>
        -- whether the frame takes the reference depends on the reference alone
        by_cases hs : r.size ≤ Envelope.maxKeyRefSize
        · simp only [if_pos hs]
          exact .given ⟨_, _, h, rfl, rfl⟩ _
        · simp only [if_neg hs]
          exact .failed _ _

end RecordCipher

end SealedRecords
