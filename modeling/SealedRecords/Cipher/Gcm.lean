import SealedRecords.Cipher.Aes
import SealedRecords.Cipher.Basic

/-!
# AES-GCM

Counter mode with the Galois field tag of NIST SP 800-38D, over any block cipher, and its use as
a cipher of this library: a fresh twelve-byte nonce stands in front of the ciphertext and the
sixteen-byte tag behind it. Additional data is authenticated and not sent.
-/

namespace SealedRecords.Gcm

open SealedRecords

/-- The bytes of a key. -/
def keySize : Nat := 32

/-- The bytes of a nonce. -/
def nonceSize : Nat := 12

/-- The bytes of a tag. -/
def tagSize : Nat := 16

/-! ## The field of the tag -/

/-- The steps of a product from bit `n - 1` of `x` down; the highest bit is the constant
coefficient, so multiplication by the indeterminate shifts to the right. -/
def timesBits : Nat → BitVec 128 → BitVec 128 → BitVec 128 → BitVec 128
  | 0, _, _, z => z
  | n + 1, x, v, z =>
    let z := if x.getLsbD n then z ^^^ v else z
    let v := if v.getLsbD 0 then (v >>> 1) ^^^ 0xE1000000000000000000000000000000#128 else v >>> 1
    timesBits n x v z

/-- The product modulo `x ^ 128 + x ^ 7 + x ^ 2 + x + 1`. -/
def times (x y : BitVec 128) : BitVec 128 := timesBits 128 x y 0

/-- The first `n` blocks of a byte sequence, the last filled up with zeros. -/
def blocks : Nat → Bytes → List (BitVec 128)
  | 0, _ => []
  | n + 1, b =>
    let front := b.take 16
    BitVec.ofNat 128 (Bytes.ofWord (front ++ List.replicate (16 - front.length) 0)) ::
      blocks n (b.drop 16)

/-- The number of blocks that hold `n` bytes. -/
def blockCount (n : Nat) : Nat := (n + 15) / 16

/-- The sixteen bytes of a block. -/
def blockBytes (x : BitVec 128) : Bytes :=
  (List.range 16).map fun i => UInt8.ofNat (x.toNat >>> (8 * (15 - i)))

/-- The hash of the additional data, the ciphertext and their lengths in bits. -/
def hash (h : BitVec 128) (aad ciphertext : Bytes) : BitVec 128 :=
  let lengths := BitVec.ofNat 64 (8 * aad.length) ++ BitVec.ofNat 64 (8 * ciphertext.length)
  let all := blocks (blockCount aad.length) aad ++
    blocks (blockCount ciphertext.length) ciphertext ++ [lengths]
  all.foldl (fun y x => times (y ^^^ x) h) 0

/-! ## Counter mode and tag over a block cipher -/

/-- The counter block `i` of a nonce. -/
def counter (nonce : Bytes) (i : Nat) : Bytes := nonce ++ Bytes.toWord i

/-- The first `n` blocks of key stream; counter one is kept for the tag. -/
def keyStream (block : Bytes → Bytes) (nonce : Bytes) (n : Nat) : Bytes :=
  (List.range n).flatMap fun i => block (counter nonce (i + 2))

/-- The data combined with the key stream; the same function encrypts and decrypts. -/
def crypt (block : Bytes → Bytes) (nonce data : Bytes) : Bytes :=
  Bytes.xor data (keyStream block nonce (blockCount data.length))

/-- The tag of a ciphertext. -/
def tag (block : Bytes → Bytes) (aad nonce ciphertext : Bytes) : Bytes :=
  let h := BitVec.ofNat 128 (Bytes.ofWord (block (List.replicate 16 0)))
  Bytes.xor (block (counter nonce 1)) (blockBytes (hash h aad ciphertext))

/-- Nonce, ciphertext and tag. -/
def encryptWith (block : Bytes → Bytes) (aad nonce data : Bytes) : Bytes :=
  let c := crypt block nonce data
  nonce ++ c ++ tag block aad nonce c

/-- The data of a nonce, a ciphertext and a tag that belongs to them. -/
def decryptWith (block : Bytes → Bytes) (aad data : Bytes) : Except CipherError Bytes :=
  if data.length < nonceSize + tagSize then .error (.tooShort data.length)
  else
    let nonce := data.take nonceSize
    let rest := data.drop nonceSize
    let c := rest.take (rest.length - tagSize)
    if tag block aad nonce c = rest.drop (rest.length - tagSize) then .ok (crypt block nonce c)
    else .error .tagMismatch

/-! ## The cipher -/

/-- The encryption of a sixteen-byte block under given round keys. -/
def blockOf (keys : List Aes.Block) (b : Bytes) : Bytes :=
  (Aes.encryptWith keys (.ofBytes b)).toBytes

/-- AES-256-GCM with fixed additional data. The key length is checked before anything is drawn or
read. -/
def cipher (aad : Bytes) : Cipher where
  encrypt := fun key data =>
    if key.length = keySize then do
      let nonce ← RandomTape.draw nonceSize
      return .ok (encryptWith (blockOf (Aes.roundKeys key)) aad nonce data)
    else return .error (.invalidKeyLength key.length)
  decrypt := fun key data =>
    if key.length = keySize then decryptWith (blockOf (Aes.roundKeys key)) aad data
    else .error (.invalidKeyLength key.length)

end SealedRecords.Gcm
