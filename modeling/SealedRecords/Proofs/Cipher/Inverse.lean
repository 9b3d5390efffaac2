import SealedRecords.Proofs.Cipher.Gcm

/-!
# Sealing undoes opening

An input of at least 28 bytes is cut into nonce, ciphertext and tag in one way. If
it is decrypted, its tag is the one that belongs to nonce and ciphertext, and the
ciphertext is what the key stream of the nonce makes of the data. So the input is
what the data is encrypted to under its own nonce:

> `encryptWith_of_decryptWith`: an input that is decrypted to data is the encryption
> of the data under the nonce with which it starts.

With the other half, `cipher_inverts`, the two functions are exact inverses, and
everything else that the cipher of the library is given ends in one of its three
errors, `cipher_exact_inverse`.
-/

namespace SealedRecords

/-! ## Tapes that start with given bytes -/

/-- A tape that starts with given bytes, and goes on with zeros. -/
def RandomTape.startingWith (b : Bytes) : RandomTape where
  byte := fun i => b.getD i 0

theorem RandomTape.window_startingWith (b : Bytes) :
    (startingWith b).window 0 b.length = b := by
  have hbytes : (startingWith b).window 0 b.length
      = (List.range b.length).map fun i => b.getD i 0 := by
    simp only [window, startingWith, Nat.zero_add]
  rw [hbytes]
  apply List.ext_getElem
  · rw [List.length_map, List.length_range]
  · intro i _ hi
    rw [List.getElem_map, List.getElem_range, ← List.getElem_eq_getD]

namespace Gcm

/-! ## The parts of an input -/

/-- An input is its nonce, its ciphertext and its tag. -/
theorem parts_of_input (d : Bytes) (n m : Nat) :
    d.take n ++ (d.drop n).take m ++ (d.drop n).drop m = d := by
  rw [List.append_assoc, List.take_append_drop, List.take_append_drop]

section

variable {block : Bytes → Bytes} {aad d p nonce : Bytes} {e : CipherError}

theorem decryptWith_of_short (h : d.length < nonceSize + tagSize) :
    decryptWith block aad d = .error (.tooShort d.length) := by
  unfold decryptWith
  rw [if_pos h]

/-- An input that is long enough is decrypted, or its tag is found not to belong to it. -/
theorem decryptWith_of_long (h : nonceSize + tagSize ≤ d.length) :
    (∃ p, decryptWith block aad d = .ok p) ∨ decryptWith block aad d = .error .tagMismatch := by
  unfold decryptWith
  rw [if_neg (Nat.not_lt.mpr h)]
  simp only
  split
  · exact Or.inl ⟨_, rfl⟩
  · exact Or.inr rfl

variable (hblock : ∀ b, (block b).length = 16)

include hblock

/-- What is decrypted is the encryption of the data under the nonce that it starts with. -/
theorem encryptWith_of_decryptWith (h : decryptWith block aad d = .ok p) :
    nonceSize + tagSize ≤ d.length ∧ encryptWith block aad (d.take nonceSize) p = d := by
  have hlong : ¬ d.length < nonceSize + tagSize := by
    intro hshort
    rw [decryptWith_of_short hshort] at h
    cases h
  refine ⟨Nat.not_lt.mp hlong, ?_⟩
  unfold decryptWith at h
  rw [if_neg hlong] at h
  simp only at h
  split at h
  · next htag =>
    obtain rfl := Except.ok.inj h
    -- the key stream takes the data back to the ciphertext
    unfold encryptWith
    rw [crypt_crypt hblock]
    simp only
    rw [htag]
    exact parts_of_input d _ _
  · cases h

end

/-! ## The cipher -/

section

variable {aad key d p : Bytes} {e : CipherError} {tape : RandomTape}

theorem decrypt_of_length (hkey : key.length = keySize) (aad d : Bytes) :
    (cipher aad).decrypt key d = decryptWith (blockOf (Aes.roundKeys key)) aad d := if_pos hkey

theorem decrypt_of_not_length (hkey : key.length ≠ keySize) (aad d : Bytes) :
    (cipher aad).decrypt key d = .error (.invalidKeyLength key.length) := if_neg hkey

/-- The error with which the cipher refuses an input that it does not decrypt. -/
def refusal (key d : Bytes) : CipherError :=
  if key.length ≠ keySize then .invalidKeyLength key.length
  else if d.length < nonceSize + tagSize then .tooShort d.length
  else .tagMismatch

/-- The cipher decrypts an input or refuses it. -/
theorem decrypt_cases (aad key d : Bytes) :
    (∃ p, (cipher aad).decrypt key d = .ok p) ∨
      (cipher aad).decrypt key d = .error (refusal key d) := by
  unfold refusal
  by_cases hkey : key.length = keySize
  · rw [decrypt_of_length hkey, if_neg (not_not_intro hkey)]
    by_cases hshort : d.length < nonceSize + tagSize
    · rw [if_pos hshort]
      exact Or.inr (decryptWith_of_short hshort)
    · rw [if_neg hshort]
      exact decryptWith_of_long (Nat.not_lt.mp hshort)
  · rw [if_pos hkey]
    exact Or.inr (decrypt_of_not_length hkey aad d)

theorem decrypt_eq_error_iff : (cipher aad).decrypt key d = .error e ↔
    (∀ p, (cipher aad).decrypt key d ≠ .ok p) ∧ e = refusal key d := by
  rcases decrypt_cases aad key d with ⟨p, hok⟩ | hrefused
  · rw [hok]
    constructor
    · intro h
      cases h
    · rintro ⟨hnone, -⟩
      exact absurd rfl (hnone p)
  · rw [hrefused]
    constructor
    · intro h
      exact ⟨fun p => nofun, (Except.error.inj h).symm⟩
    · rintro ⟨-, rfl⟩
      rfl

/-- An input is decrypted to data exactly if it is what the data is encrypted to, whenever the
nonce is drawn with which the input starts. -/
theorem decrypt_eq_ok_iff : (cipher aad).decrypt key d = .ok p ↔
    key.length = keySize ∧ nonceSize + tagSize ≤ d.length ∧
      ∀ tape : RandomTape, tape.window tape.drawn nonceSize = d.take nonceSize →
        ((cipher aad).encrypt key p tape).1 = .ok d := by
  constructor
  · intro h
    have hkey : key.length = keySize := by
      by_cases hkey : key.length = keySize
      · exact hkey
      · rw [decrypt_of_not_length hkey] at h
        cases h
    rw [decrypt_of_length hkey] at h
    obtain ⟨hlong, hd⟩ := encryptWith_of_decryptWith (length_blockOf _) h
    refine ⟨hkey, hlong, fun tape htape => ?_⟩
    rw [encrypt_of_length hkey, htape, hd]
  · rintro ⟨hkey, hlong, hencrypt⟩
    have hnonce : (d.take nonceSize).length = nonceSize := by
      rw [List.length_take, Nat.min_eq_left (Nat.le_trans (Nat.le_add_right _ _) hlong)]
    -- such a nonce can be drawn
    have hwindow := RandomTape.window_startingWith (d.take nonceSize)
    rw [hnonce] at hwindow
    exact cipher_inverts aad key p _ d _ (Prod.ext (hencrypt _ hwindow) rfl)

/-- **AES-GCM decryption is the exact inverse of encryption.** A key of 32 bytes encrypts all data
to the nonce that was drawn, the ciphertext and the tag, 28 bytes more than the data, which are
decrypted to the data; another key encrypts nothing and draws nothing. An input is decrypted to
data only if it is the encryption of the data under the nonce with which it starts, and every other
input is refused: for the length of the key, else for its own length, else for its tag. -/
theorem cipher_exact_inverse (aad key : Bytes) :
    (key.length = keySize → ∀ data (tape : RandomTape),
      let block := blockOf (Aes.roundKeys key)
      let nonce := tape.window tape.drawn nonceSize
      let c := crypt block nonce data
      let out := nonce ++ c ++ tag block aad nonce c
      (cipher aad).encrypt key data tape = (.ok out, { tape with drawn := tape.drawn + 12 }) ∧
        c.length = data.length ∧ out.length = data.length + 28 ∧
        (cipher aad).decrypt key out = .ok data) ∧
    (key.length ≠ keySize → ∀ data tape,
      (cipher aad).encrypt key data tape = (.error (.invalidKeyLength key.length), tape)) ∧
    (∀ d p, (cipher aad).decrypt key d = .ok p ↔ key.length = keySize ∧ 28 ≤ d.length ∧
      ∀ tape : RandomTape, tape.window tape.drawn nonceSize = d.take nonceSize →
        ((cipher aad).encrypt key p tape).1 = .ok d) ∧
    ∀ d e, (cipher aad).decrypt key d = .error e ↔
      (∀ p, (cipher aad).decrypt key d ≠ .ok p) ∧
        e = if key.length ≠ keySize then .invalidKeyLength key.length
          else if d.length < 28 then .tooShort d.length else .tagMismatch := by
  refine ⟨fun hkey data tape => ?_, fun hkey data tape => encrypt_of_not_length hkey aad data tape,
    fun d p => decrypt_eq_ok_iff, fun d e => decrypt_eq_error_iff⟩
  have hblock := length_blockOf (Aes.roundKeys key)
  have hnonce := RandomTape.length_window tape tape.drawn nonceSize
  have hencrypt := encrypt_of_length hkey aad data tape
  refine ⟨hencrypt, length_crypt hblock _ data, length_encryptWith hblock aad _ data hnonce, ?_⟩
  exact cipher_inverts aad key data tape _ _ hencrypt

/-- Two bytes under a key of 32 bytes, an input that is too short for it, and a key that is too
short. -/
theorem cipher_exact_inverse_twoBytes :
    let key : Bytes := List.replicate 32 7
    (∃ out, (cipher [1]).encrypt key [2, 3] (.counting 0)
        = (.ok out, { RandomTape.counting 0 with drawn := 12 }) ∧
      out.length = 30 ∧ (cipher [1]).decrypt key out = .ok [2, 3]) ∧
    (cipher [1]).decrypt key [2, 3] = .error (.tooShort 2) ∧
    (cipher [1]).encrypt [7] [2, 3] (.counting 0)
      = (.error (.invalidKeyLength 1), .counting 0) := by
  intro key
  have hkey : key.length = keySize := List.length_replicate
  obtain ⟨hencrypt, -, hdecrypt, hrefuse⟩ := cipher_exact_inverse [1] key
  obtain ⟨hout, -, hlength, hback⟩ := hencrypt hkey [2, 3] (.counting 0)
  have hnone : ∀ p, (cipher [1]).decrypt key [2, 3] ≠ .ok p := by
    intro p hp
    obtain ⟨-, hlong, -⟩ := (hdecrypt _ p).mp hp
    revert hlong
    decide
  refine ⟨⟨_, hout, hlength, hback⟩, (hrefuse _ _).mpr ⟨hnone, rfl⟩, ?_⟩
  exact (cipher_exact_inverse [1] [7]).2.1 (by decide) [2, 3] (.counting 0)

end

end Gcm

end SealedRecords
