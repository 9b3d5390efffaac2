import SealedRecords.Proofs.Cipher.Gcm

/-!
# What random bytes are drawn for

The random tape is an endless sequence, and the only way to get bytes from it is to
take those at its position and move the position behind them. A computation that
does so again and again is described by the list of its draws: `Spends` says that
they are made one after the other, each where the one before has stopped, and that
the tape is moved by nothing else. Such descriptions are put together with `++`,
`Spends.append`, so one for each kind of call is all that is needed for programs.

A draw is named for what becomes of its bytes. A data key is the bytes themselves; a
nonce is told by the output of the encryption that it was drawn for, which begins
with it.

> `Spends.bytes_eq`, `pairwise_windows`: the bytes of each draw are those of its
> window on the tape, and no two windows have a byte in common.

With AES-GCM it depends on the length of a key alone whether a nonce is drawn, and a
nonce is drawn exactly if there is an output for it to begin:

> `Gcm.encrypt_eq_ok_iff`, `GcmCipher.encrypt_eq_ok_iff`.
-/

namespace SealedRecords

/-! ## Draws -/

/-- Random bytes that are drawn at once, with what they are drawn for. -/
inductive Draw where
  /-- A data key. -/
  | dataKey (key : Bytes)
  /-- The nonce of an encryption, which gave `out`. -/
  | nonce (out : Bytes)
  deriving DecidableEq, Repr

namespace Draw

/-- How many bytes are drawn. -/
def size : Draw → Nat
  | dataKey key => key.length
  | nonce _ => Gcm.nonceSize

/-- The bytes that were drawn: a data key, or the first twelve bytes of an output. -/
def bytes : Draw → Bytes
  | dataKey key => key
  | nonce out => out.take Gcm.nonceSize

/-- How many bytes are drawn in all. -/
def total : List Draw → Nat
  | [] => 0
  | x :: xs => x.size + total xs

end Draw

open Draw

/-- The tape after `n` more bytes were drawn. -/
def RandomTape.advance (t : RandomTape) (n : Nat) : RandomTape := { t with drawn := t.drawn + n }

theorem RandomTape.advance_advance (t : RandomTape) (n m : Nat) :
    (t.advance n).advance m = t.advance (n + m) := by
  unfold advance
  rw [Nat.add_assoc]

/-- The tape goes from one position to another by the draws of a list, one after the other. -/
inductive Spends : RandomTape → List Draw → RandomTape → Prop where
  | nil (t : RandomTape) : Spends t [] t
  | cons {t t' : RandomTape} {x : Draw} {xs : List Draw} (hx : x.bytes = t.window t.drawn x.size)
    (hxs : Spends (t.advance x.size) xs t') : Spends t (x :: xs) t'

/-- A draw at a position of the tape. -/
structure Window where
  start : Nat
  draw : Draw
  deriving DecidableEq, Repr

/-- The position behind a window. -/
def Window.stop (w : Window) : Nat := w.start + w.draw.size

/-- The windows of draws that are made one after the other, from a position on. -/
def windows : Nat → List Draw → List Window
  | _, [] => []
  | start, x :: xs => ⟨start, x⟩ :: windows (start + x.size) xs

section

variable {t t' t'' : RandomTape} {xs ys : List Draw} {x : Draw} {start : Nat} {w : Window}

/-- The next bytes of the tape can be drawn as a data key. -/
theorem spends_dataKey {n : Nat} (h : Spends (t.advance n) xs t') :
    Spends t (.dataKey (t.window t.drawn n) :: xs) t' := by
  have hsize : (dataKey (t.window t.drawn n)).size = n := RandomTape.length_window _ _ _
  refine .cons ?_ ?_
  · rw [hsize]
    rfl
  · rwa [hsize]

theorem Spends.append (h : Spends t xs t') (h' : Spends t' ys t'') : Spends t (xs ++ ys) t'' := by
  induction h with
  | nil t => exact h'
  | cons hx _ ih => exact .cons hx (ih h')

/-- The tape has moved by what was drawn, and its bytes are the same. -/
theorem Spends.tape_eq (h : Spends t xs t') : t' = t.advance (total xs) := by
  induction h with
  | nil t => rfl
  | cons hx _ ih => rw [ih, RandomTape.advance_advance, total]

/-- The bytes of each draw are those of its window. -/
theorem Spends.bytes_eq (h : Spends t xs t') :
    ∀ w ∈ windows t.drawn xs, w.draw.bytes = t.window w.start w.draw.size := by
  induction h with
  | nil t => exact fun _ hw => absurd hw List.not_mem_nil
  | cons hx _ ih =>
    intro w hw
    rcases List.mem_cons.mp hw with rfl | hw
    · exact hx
    · exact ih w hw

theorem windows_append (start : Nat) (xs ys : List Draw) :
    windows start (xs ++ ys) = windows start xs ++ windows (start + total xs) ys := by
  induction xs generalizing start with
  | nil => rfl
  | cons x xs ih =>
    rw [List.cons_append, windows, ih, windows, List.cons_append, total, Nat.add_assoc]

/-- Windows begin where the tape stands. -/
theorem le_start_of_mem_windows (h : w ∈ windows start xs) : start ≤ w.start := by
  induction xs generalizing start with
  | nil => exact absurd h List.not_mem_nil
  | cons x xs ih =>
    rcases List.mem_cons.mp h with rfl | h
    · exact Nat.le_refl _
    · exact Nat.le_trans (Nat.le_add_right _ _) (ih h)

/-- **No byte is drawn twice**: each window stops before the next ones start. -/
theorem pairwise_windows (start : Nat) (xs : List Draw) :
    (windows start xs).Pairwise fun v w => v.stop ≤ w.start := by
  induction xs generalizing start with
  | nil => exact .nil
  | cons x xs ih => exact .cons (fun w hw => le_start_of_mem_windows hw) (ih _)

end

/-! ## AES-GCM -/

namespace Gcm

/-- What an encryption draws: its nonce, if the key has the right length. -/
def draws (aad key data : Bytes) (tape : RandomTape) : List Draw :=
  if key.length = keySize then
    [.nonce (encryptWith (blockOf (Aes.roundKeys key)) aad (tape.window tape.drawn nonceSize) data)]
  else []

variable {aad key data out : Bytes} {tape : RandomTape}

theorem spends_encrypt (aad key data : Bytes) (tape : RandomTape) :
    Spends tape (draws aad key data tape) ((cipher aad).encrypt key data tape).2 := by
  unfold draws
  by_cases hkey : key.length = keySize
  · have hnonce := RandomTape.length_window tape tape.drawn nonceSize
    rw [if_pos hkey, encrypt_of_length hkey]
    refine .cons ?_ (.nil _)
    show List.take nonceSize (encryptWith _ _ _ _) = _
    unfold encryptWith
    rw [List.append_assoc, List.take_left' hnonce]
    rfl
  · rw [if_neg hkey, encrypt_of_not_length hkey]
    exact .nil _

/-- An encryption gives an output exactly if a nonce was drawn for it. -/
theorem encrypt_eq_ok_iff :
    ((cipher aad).encrypt key data tape).1 = .ok out ↔ draws aad key data tape = [.nonce out] := by
  unfold draws
  by_cases hkey : key.length = keySize
  · rw [if_pos hkey, encrypt_of_length hkey]
    simp
  · rw [if_neg hkey, encrypt_of_not_length hkey]
    simp

end Gcm

/-! ## Encryption under a reference -/

namespace RecordCipher

variable {c : RecordCipher} {r : KeyRef} {key data payload out b : Bytes} {a : Activity}

theorem tape_encrypt_of_unresolved (hk : (c.keys r).key = none) (data : Bytes) (a : Activity) :
    ((c.encrypt r data).exec a).2.tape = a.tape := by
  rw [encrypt_of_unresolved hk]
  rfl

/-- Of an encryption under a reference, only the cipher moves the tape. -/
theorem tape_encrypt_of_resolved (hk : (c.keys r).key = some key) (data : Bytes) (a : Activity) :
    ((c.encrypt r data).exec a).2.tape = (c.cipher.encrypt key data a.tape).2 := by
  rw [encrypt_of_resolved hk]
  rcases c.cipher.encrypt key data a.tape with ⟨e | out, tape⟩
  · rfl
  · rfl

theorem encrypt_eq_ok_iff_of_resolved (hk : (c.keys r).key = some key) :
    ((c.encrypt r data).exec a).1 = .ok out ↔ (c.cipher.encrypt key data a.tape).1 = .ok out := by
  rw [encrypt_of_resolved hk]
  rcases c.cipher.encrypt key data a.tape with ⟨e | out', tape⟩
  · simp
  · simp

/-- Framing moves no tape. An output that does not fit into a frame has cost its nonce all the
same. -/
theorem tape_encode_some (h : r.isEmpty = false) (payload : Bytes) (a : Activity) :
    ((c.encode (some r) payload).exec a).2.tape = ((c.encrypt r payload).exec a).2.tape := by
  rw [encode_some c h]
  rcases (c.encrypt r payload).exec a with ⟨e | out, a'⟩
  · rfl
  · simp only
    split
    · rfl
    · rfl

/-- Decryption draws nothing, whatever the cipher. -/
theorem tape_decrypt (c : RecordCipher) (r : KeyRef) (data : Bytes) (a : Activity) :
    ((c.decrypt r data).exec a).2.tape = a.tape := by
  cases hk : (c.keys r).key with
  | none =>
    rw [decrypt_of_unresolved hk]
    rfl
  | some key =>
    rw [decrypt_of_resolved hk]
    cases c.cipher.decrypt key data with
    | error e => rfl
    | ok out => rfl

theorem tape_decode (c : RecordCipher) (b : Bytes) (a : Activity) :
    ((c.decode b).exec a).2.tape = a.tape := by
  cases hd : Envelope.decode b with
  | error e => rw [decode_of_error c hd]
  | ok env =>
    cases env with
    | raw body =>
      rw [decode_of_clear c hd rfl]
      rfl
    | plain body =>
      rw [decode_of_clear c hd rfl]
      rfl
    | «sealed» r ciphertext =>
      rw [decode_of_sealed c hd]
      exact tape_decrypt c r ciphertext a

end RecordCipher

/-- Keys, and AES-GCM with additional data. -/
structure GcmCipher where
  keys : KeyProvider
  aad : Bytes

namespace GcmCipher

/-- The record cipher itself. -/
def recordCipher (c : GcmCipher) : RecordCipher := ⟨c.keys, Gcm.cipher c.aad⟩

/-- What an encryption under a reference draws: nothing, if no key answers to the reference, else
what the encryption with that key draws. -/
def encryptionDraws (c : GcmCipher) (r : KeyRef) (data : Bytes) (tape : RandomTape) : List Draw :=
  match (c.keys r).key with
  | none => []
  | some key => Gcm.draws c.aad key data tape

/-- What putting a payload into an envelope draws: nothing, if there is no reference or an empty
one, else what the encryption draws. -/
def envelopeDraws (c : GcmCipher) (ref : Option KeyRef) (payload : Bytes) (tape : RandomTape) :
    List Draw :=
  match ref with
  | none => []
  | some r => if r.isEmpty then [] else c.encryptionDraws r payload tape

variable {c : GcmCipher} {r : KeyRef} {key data payload out b : Bytes} {tape : RandomTape}
  {a : Activity}

theorem encryptionDraws_of_unresolved (hk : (c.keys r).key = none) (data : Bytes)
    (tape : RandomTape) : c.encryptionDraws r data tape = [] := by
  unfold encryptionDraws
  rw [hk]

theorem encryptionDraws_of_resolved (hk : (c.keys r).key = some key) (data : Bytes)
    (tape : RandomTape) : c.encryptionDraws r data tape = Gcm.draws c.aad key data tape := by
  unfold encryptionDraws
  rw [hk]

theorem envelopeDraws_of_empty (h : r.isEmpty = true) (payload : Bytes) (tape : RandomTape) :
    c.envelopeDraws (some r) payload tape = [] := if_pos h

theorem envelopeDraws_some (h : r.isEmpty = false) (payload : Bytes) (tape : RandomTape) :
    c.envelopeDraws (some r) payload tape = c.encryptionDraws r payload tape :=
  if_neg (by rw [h]; exact Bool.false_ne_true)

theorem spends_encrypt (c : GcmCipher) (r : KeyRef) (data : Bytes) (a : Activity) :
    Spends a.tape (c.encryptionDraws r data a.tape)
      ((c.recordCipher.encrypt r data).exec a).2.tape := by
  cases hk : (c.keys r).key with
  | none =>
    rw [encryptionDraws_of_unresolved hk, RecordCipher.tape_encrypt_of_unresolved hk]
    exact .nil _
  | some key =>
    rw [encryptionDraws_of_resolved hk, RecordCipher.tape_encrypt_of_resolved hk]
    exact Gcm.spends_encrypt c.aad key data a.tape

theorem encrypt_eq_ok_iff : ((c.recordCipher.encrypt r data).exec a).1 = .ok out ↔
    c.encryptionDraws r data a.tape = [.nonce out] := by
  cases hk : (c.keys r).key with
  | none =>
    rw [encryptionDraws_of_unresolved hk, RecordCipher.encrypt_of_unresolved hk]
    simp
  | some key =>
    rw [encryptionDraws_of_resolved hk, ← Gcm.encrypt_eq_ok_iff]
    exact RecordCipher.encrypt_eq_ok_iff_of_resolved hk

theorem spends_encode (c : GcmCipher) (ref : Option KeyRef) (payload : Bytes) (a : Activity) :
    Spends a.tape (c.envelopeDraws ref payload a.tape)
      ((c.recordCipher.encode ref payload).exec a).2.tape := by
  cases ref with
  | none => exact .nil _
  | some r =>
    cases hempty : r.isEmpty with
    | true =>
      rw [envelopeDraws_of_empty hempty, RecordCipher.encode_of_empty _ hempty]
      exact .nil _
    | false =>
      rw [envelopeDraws_some hempty, RecordCipher.tape_encode_some hempty]
      exact c.spends_encrypt r payload a

/-- What is given under a reference is a frame around the output that a nonce was drawn for. -/
theorem framed_of_encode (h : ((c.recordCipher.encode (some r) payload).exec a).1 = .ok b) :
    ∃ out, c.envelopeDraws (some r) payload a.tape = [.nonce out] ∧
      b = Envelope.frame r.bytes out := by
  obtain ⟨hne, -, key, out, tape, hk, hencrypt, rfl⟩ :=
    RecordCipher.encode_ok_some (Prod.ext h rfl)
  refine ⟨out, ?_, rfl⟩
  rw [envelopeDraws_some hne, encryptionDraws_of_resolved hk, ← Gcm.encrypt_eq_ok_iff]
  exact congrArg Prod.fst hencrypt

end GcmCipher

end SealedRecords
