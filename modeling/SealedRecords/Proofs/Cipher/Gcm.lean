import SealedRecords.Cipher.Gcm
import SealedRecords.Proofs.RecordCipher.Outcomes

/-!
# Opening undoes sealing

Counter mode combines the data with a key stream that is at least as long, so
doing it twice gives the data back. That is all the decryption of AES-GCM needs:
it finds the parts of its input by their lengths, computes the tag of the same
ciphertext, and runs the key stream once more. Nothing is asked of the block
cipher but that its blocks have sixteen bytes.

> `decryptWith_encryptWith`: what was encrypted with a nonce of twelve bytes is
> decrypted to the data.

> `cipher_inverts`: the cipher of the library is one whose decryption undoes its
> encryption.
-/

namespace SealedRecords

/-- Combining twice with bytes that are long enough changes nothing. -/
theorem Bytes.xor_xor {a b : Bytes} (h : a.length ≤ b.length) : xor (xor a b) b = a := by
  unfold xor
  induction a generalizing b with
  | nil => rfl
  | cons x a ih =>
    cases b with
    | nil =>
      rw [List.length_cons] at h
      exact absurd h (by simp)
    | cons y b =>
      have hrest : a.length ≤ b.length := Nat.le_of_succ_le_succ h
      rw [List.zipWith_cons_cons, List.zipWith_cons_cons, ih hrest, UInt8.xor_assoc,
        UInt8.xor_self, UInt8.xor_zero]

namespace Gcm

section

variable {block : Bytes → Bytes} (hblock : ∀ b, (block b).length = 16)
  (aad nonce data : Bytes)

include hblock

theorem length_keyStream (n : Nat) : (keyStream block nonce n).length = 16 * n := by
  unfold keyStream
  rw [List.length_flatMap]
  have hconst : (List.range n).map (fun i => (block (counter nonce (i + 2))).length)
      = List.replicate n 16 := by
    apply List.ext_getElem
    · rw [List.length_map, List.length_range, List.length_replicate]
    · intro i h₁ h₂
      rw [List.getElem_map, hblock, List.getElem_replicate]
  rw [hconst, List.sum_replicate_nat, Nat.mul_comm]

theorem length_le_keyStream :
    data.length ≤ (keyStream block nonce (blockCount data.length)).length := by
  rw [length_keyStream hblock]
  unfold blockCount
  omega

theorem length_crypt : (crypt block nonce data).length = data.length := by
  unfold crypt
  rw [Bytes.length_xor]
  have hlong := length_le_keyStream hblock nonce data
  omega

theorem crypt_crypt : crypt block nonce (crypt block nonce data) = data := by
  have hlength := length_crypt hblock nonce data
  -- the same number of blocks is drawn from the key stream both times
  rw [crypt, hlength]
  unfold crypt
  exact Bytes.xor_xor (length_le_keyStream hblock nonce data)

theorem length_tag (ciphertext : Bytes) : (tag block aad nonce ciphertext).length = tagSize := by
  unfold tag
  have hhash : ∀ x, (blockBytes x).length = 16 := by
    intro x
    unfold blockBytes
    rw [List.length_map, List.length_range]
  rw [Bytes.length_xor, hblock, hhash]
  rfl

theorem length_encryptWith (hnonce : nonce.length = nonceSize) :
    (encryptWith block aad nonce data).length = data.length + (nonceSize + tagSize) := by
  unfold encryptWith
  rw [List.length_append, List.length_append, length_crypt hblock, length_tag hblock, hnonce]
  omega

/-- What was encrypted with a nonce of twelve bytes is decrypted to the data. -/
theorem decryptWith_encryptWith (hnonce : nonce.length = nonceSize) :
    decryptWith block aad (encryptWith block aad nonce data) = .ok data := by
  have hlength := length_encryptWith hblock aad nonce data hnonce
  have hlong : ¬ (encryptWith block aad nonce data).length < nonceSize + tagSize := by omega
  -- the three parts are found by their lengths
  have hparts : encryptWith block aad nonce data = nonce ++ (crypt block nonce data ++
      tag block aad nonce (crypt block nonce data)) := List.append_assoc _ _ _
  have hsplit : (crypt block nonce data ++
      tag block aad nonce (crypt block nonce data)).length - tagSize
      = (crypt block nonce data).length := by
    rw [List.length_append, length_tag hblock, Nat.add_sub_cancel]
  unfold decryptWith
  rw [if_neg hlong]
  simp only [hparts, ← hnonce, List.take_left, List.drop_left, hsplit, if_true,
    crypt_crypt hblock]

end

/-! ## The cipher -/

theorem length_blockOf (keys : List Aes.Block) (b : Bytes) : (blockOf keys b).length = 16 :=
  Aes.Block.length_toBytes _

/-- With a key of the right length, encryption draws a nonce and gives a result. -/
theorem encrypt_of_length {key : Bytes} (hkey : key.length = keySize) (aad data : Bytes)
    (tape : RandomTape) :
    (cipher aad).encrypt key data tape =
      (.ok (encryptWith (blockOf (Aes.roundKeys key)) aad (tape.window tape.drawn nonceSize) data),
        { tape with drawn := tape.drawn + nonceSize }) := by
  simp only [cipher, if_pos hkey]
  rfl

theorem encrypt_of_not_length {key : Bytes} (hkey : key.length ≠ keySize) (aad data : Bytes)
    (tape : RandomTape) :
    (cipher aad).encrypt key data tape = (.error (.invalidKeyLength key.length), tape) := by
  simp only [cipher, if_neg hkey]
  rfl

theorem cipher_inverts (aad : Bytes) : (cipher aad).Inverts := by
  intro key data tape out tape' h
  by_cases hkey : key.length = keySize
  · rw [encrypt_of_length hkey] at h
    have hout := congrArg Prod.fst h
    cases hout
    show (if key.length = keySize then _ else _) = _
    rw [if_pos hkey]
    exact decryptWith_encryptWith (length_blockOf _) aad _ data (RandomTape.length_window _ _ _)
  · rw [encrypt_of_not_length hkey] at h
    cases h

end Gcm

end SealedRecords
