import SealedRecords.Envelope

/-!
# The wire format read in both directions

`Envelope.decode` is a cascade of length tests; `encodePlain` and `encodeSealed`
append bytes. This file ties the two together through one description of the
bytes of a frame, `frame`: the magic, the length of the reference in four
bytes, the reference, the body.

> `decode_eq_raw_iff`, `decode_eq_plain_iff`, `decode_eq_sealed_iff`,
> `decode_eq_error_iff`: what each of the four answers of the reader says about
> the bytes that were read, and nothing else gives that answer.

The four together leave no byte string over, and the two in the middle say that
a frame that can be read is the one that the writer writes. Plain and sealed
frames cannot be confused because the declared length is the length of the
reference, and a sealed frame never has an empty one.
-/

namespace SealedRecords

namespace Bytes

/-! ## Words -/

/-- Four bytes denote a number that fits a word. -/
theorem ofWord_lt {w : Bytes} (h : w.length = 4) : ofWord w < 4294967296 := by
  match w, h with
  | [a, b, c, d], _ =>
    have ha := a.toNat_lt
    have hb := b.toNat_lt
    have hc := c.toNat_lt
    have hd := d.toNat_lt
    show (((0 * 256 + a.toNat) * 256 + b.toNat) * 256 + c.toNat) * 256 + d.toNat < 4294967296
    omega

/-- Four bytes are the word of the number that they denote. -/
theorem toWord_ofWord {w : Bytes} (h : w.length = 4) : toWord (ofWord w) = w := by
  match w, h with
  | [a, b, c, d], _ =>
    have ha := a.toNat_lt
    have hb := b.toNat_lt
    have hc := c.toNat_lt
    have hd := d.toNat_lt
    have hn : ofWord [a, b, c, d]
        = a.toNat * 16777216 + b.toNat * 65536 + c.toNat * 256 + d.toNat := by
      show (((0 * 256 + a.toNat) * 256 + b.toNat) * 256 + c.toNat) * 256 + d.toNat = _
      omega
    rw [hn]
    simp only [toWord, List.cons.injEq, and_true]
    refine ⟨?_, ?_, ?_, ?_⟩ <;>
      (apply UInt8.toNat_inj.mp; rw [UInt8.toNat_ofNat']; omega)

end Bytes

namespace Envelope

/-! ## The bytes of a frame -/

/-- The bytes of the frame that carries a reference, which may be empty, and a body. -/
def frame (ref body : Bytes) : Bytes := magic ++ Bytes.toWord ref.length ++ ref ++ body

/-- The length of the reference that the bytes behind the magic declare. -/
def declaredSize (b : Bytes) : Nat := Bytes.ofWord ((b.drop magic.length).take 4)

/-- The number of bytes that a frame needs, as far as its beginning tells. -/
def neededSize (b : Bytes) : Nat :=
  if b.length < headerSize then headerSize else headerSize + declaredSize b

theorem neededSize_of_short {b : Bytes} (h : b.length < headerSize) : neededSize b = headerSize :=
  if_pos h

theorem neededSize_of_header {b : Bytes} (h : headerSize ≤ b.length) :
    neededSize b = headerSize + declaredSize b :=
  if_neg (Nat.not_lt.mpr h)

theorem length_frame (ref body : Bytes) :
    (frame ref body).length = headerSize + ref.length + body.length := by
  simp only [frame, List.length_append, Bytes.length_toWord]
  rfl

/-- A frame is longer than what is in it. -/
theorem length_lt_frame (ref body : Bytes) : body.length < (frame ref body).length := by
  have hpos : 0 < headerSize := by decide
  rw [length_frame]
  omega

/-- A frame around a body is not a payload that is no longer than the body. -/
theorem frame_ne_of_length_le {ref body payload : Bytes} (h : payload.length ≤ body.length) :
    frame ref body ≠ payload := by
  intro heq
  have hlt := length_lt_frame ref body
  rw [heq] at hlt
  exact Nat.not_lt.mpr h hlt

theorem magic_prefix_frame (ref body : Bytes) : magic <+: frame ref body := by
  simp only [frame, List.append_assoc]
  exact List.prefix_append _ _

theorem hasMagic_iff {b : Bytes} : hasMagic b = true ↔ magic <+: b :=
  List.isPrefixOf_iff_prefix

theorem not_isEmpty_iff {r : KeyRef} : r.isEmpty = false ↔ r.bytes ≠ [] := by
  simp [KeyRef.isEmpty]

/-! ## Writing -/

theorem encodePlain_eq (payload dst : Bytes) :
    encodePlain payload dst = ((), dst ++ frame [] payload) := by
  show ((), dst ++ magic ++ Bytes.toWord 0 ++ payload) = _
  simp [frame]

theorem encodeSealed_of_empty {r : KeyRef} (h : r.isEmpty = true) (ciphertext dst : Bytes) :
    encodeSealed r ciphertext dst = (.error .emptyKeyRef, dst) := by
  unfold encodeSealed
  rw [if_pos h]
  rfl

theorem encodeSealed_of_large {r : KeyRef} (h : r.isEmpty = false) (hs : maxKeyRefSize < r.size)
    (ciphertext dst : Bytes) :
    encodeSealed r ciphertext dst = (.error (.keyRefTooLarge r.size), dst) := by
  unfold encodeSealed
  rw [if_neg (by simp [h]), if_pos hs]
  rfl

theorem encodeSealed_of_fits {r : KeyRef} (h : r.isEmpty = false) (hs : r.size ≤ maxKeyRefSize)
    (ciphertext dst : Bytes) :
    encodeSealed r ciphertext dst = (.ok (), dst ++ frame r.bytes ciphertext) := by
  unfold encodeSealed
  rw [if_neg (by simp [h]), if_neg (by omega)]
  show (Except.ok (), dst ++ magic ++ Bytes.toWord r.bytes.length ++ r.bytes ++ ciphertext) = _
  simp [frame]

/-! ## Reading -/

theorem decode_of_not_magic {b : Bytes} (h : ¬ magic <+: b) : decode b = .ok (.raw b) := by
  unfold decode
  rw [if_neg (fun hm => h (hasMagic_iff.mp hm))]

theorem decode_of_short {b : Bytes} (hm : magic <+: b) (hs : b.length < headerSize) :
    decode b = .error (.malformed headerSize b.length) := by
  unfold decode
  rw [if_pos (hasMagic_iff.mpr hm), if_pos hs]

/-- Input that starts with the magic and has a whole header splits into magic, length and rest. -/
theorem exists_header {b : Bytes} (hm : magic <+: b) (hs : headerSize ≤ b.length) :
    ∃ w rest, w.length = 4 ∧ b = magic ++ w ++ rest := by
  obtain ⟨tail, rfl⟩ := hm
  have ht : 4 ≤ tail.length := by
    rw [List.length_append] at hs
    exact Nat.le_of_add_le_add_left hs
  refine ⟨tail.take 4, tail.drop 4, by simp [ht], ?_⟩
  rw [List.append_assoc, List.take_append_drop]

theorem declaredSize_header {w : Bytes} (hw : w.length = 4) (rest : Bytes) :
    declaredSize (magic ++ w ++ rest) = Bytes.ofWord w := by
  unfold declaredSize
  rw [List.append_assoc, List.drop_left, ← hw, List.take_left]

theorem drop_header {w : Bytes} (hw : w.length = 4) (rest : Bytes) :
    (magic ++ w ++ rest).drop headerSize = rest :=
  List.drop_left' (by rw [List.length_append, hw]; rfl)

/-- Behind the head of a frame stands the reference, and then the body. -/
theorem drop_frame (ref body : Bytes) : (frame ref body).drop headerSize = ref ++ body := by
  unfold frame
  rw [List.append_assoc _ ref body]
  exact drop_header (Bytes.length_toWord _) (ref ++ body)

theorem reference_of_frame (ref body : Bytes) :
    ((frame ref body).drop headerSize).take ref.length = ref := by
  rw [drop_frame, List.take_left]

theorem body_of_frame (ref body : Bytes) :
    (frame ref body).drop (headerSize + ref.length) = body := by
  rw [← List.drop_drop, drop_frame, List.drop_left]

/-- What is read behind a whole header, by the length that it declares. -/
theorem decode_header {w : Bytes} (hw : w.length = 4) (rest : Bytes) :
    decode (magic ++ w ++ rest) =
      if Bytes.ofWord w = 0 then .ok (.plain rest)
      else if rest.length < Bytes.ofWord w then
        .error (.malformed (headerSize + Bytes.ofWord w) (magic ++ w ++ rest).length)
      else .ok (.sealed ⟨rest.take (Bytes.ofWord w)⟩ (rest.drop (Bytes.ofWord w))) := by
  have hm : magic <+: magic ++ w ++ rest := by
    rw [List.append_assoc]
    exact List.prefix_append _ _
  have hs : ¬ (magic ++ w ++ rest).length < headerSize := by
    rw [List.length_append, List.length_append, hw]
    exact Nat.not_lt.mpr (Nat.le_add_right _ _)
  have hd := declaredSize_header hw rest
  unfold declaredSize at hd
  unfold decode
  rw [if_pos (hasMagic_iff.mpr hm), if_neg hs]
  simp only [hd, drop_header hw]

theorem decode_frame_nil (body : Bytes) : decode (frame [] body) = .ok (.plain body) := by
  have h0 : Bytes.ofWord (Bytes.toWord 0) = 0 := Bytes.ofWord_toWord (by decide)
  show decode (magic ++ Bytes.toWord 0 ++ [] ++ body) = _
  rw [List.append_nil, decode_header (Bytes.length_toWord 0), if_pos h0]

theorem decode_frame {ref : Bytes} (hne : ref ≠ []) (hs : ref.length ≤ maxKeyRefSize)
    (body : Bytes) : decode (frame ref body) = .ok (.sealed ⟨ref⟩ body) := by
  have hw : Bytes.ofWord (Bytes.toWord ref.length) = ref.length :=
    Bytes.ofWord_toWord (Nat.lt_succ_of_le hs)
  have hpos : ref.length ≠ 0 := fun h => hne (List.length_eq_zero_iff.mp h)
  unfold frame
  rw [List.append_assoc, decode_header (Bytes.length_toWord _), hw, if_neg hpos,
    if_neg (by simp), List.take_left, List.drop_left]

/-! ## What an answer says about the input -/

/-- Every input is unframed, cut short, or a frame. -/
theorem frame_cases (b : Bytes) :
    ¬ magic <+: b ∨ (magic <+: b ∧ b.length < neededSize b) ∨
      ∃ ref body, ref.length ≤ maxKeyRefSize ∧ b = frame ref body := by
  by_cases hm : magic <+: b
  · right
    rcases Nat.lt_or_ge b.length headerSize with hs | hs
    · left
      exact ⟨hm, by rw [neededSize_of_short hs]; exact hs⟩
    · obtain ⟨w, rest, hw, rfl⟩ := exists_header hm hs
      have hlen : (magic ++ w ++ rest).length = headerSize + rest.length := by
        rw [List.length_append, List.length_append, hw]; rfl
      rcases Nat.lt_or_ge rest.length (Bytes.ofWord w) with hr | hr
      · left
        refine ⟨hm, ?_⟩
        rw [neededSize_of_header hs, declaredSize_header hw, hlen]
        omega
      · right
        -- the declared length is available, so it is the length of the reference
        have htake : (rest.take (Bytes.ofWord w)).length = Bytes.ofWord w := by
          rw [List.length_take]; omega
        refine ⟨rest.take (Bytes.ofWord w), rest.drop (Bytes.ofWord w), ?_, ?_⟩
        · rw [htake]
          exact Nat.le_of_lt_succ (Bytes.ofWord_lt hw)
        · unfold frame
          rw [htake, Bytes.toWord_ofWord hw, List.append_assoc _ _ (List.drop _ _),
            List.take_append_drop]
  · exact Or.inl hm

/-- A frame that lacks bytes is refused with the number of bytes that it needs. -/
theorem decode_of_lacking {b : Bytes} (hm : magic <+: b) (hl : b.length < neededSize b) :
    decode b = .error (.malformed (neededSize b) b.length) := by
  rcases Nat.lt_or_ge b.length headerSize with hs | hs
  · rw [decode_of_short hm hs, neededSize_of_short hs]
  · obtain ⟨w, rest, hw, rfl⟩ := exists_header hm hs
    rw [neededSize_of_header hs, declaredSize_header hw] at hl ⊢
    have hlen : (magic ++ w ++ rest).length = headerSize + rest.length := by
      rw [List.length_append, List.length_append, hw]; rfl
    rw [decode_header hw, if_neg (by omega), if_pos (by omega)]

theorem decode_eq_raw_iff {b body : Bytes} :
    decode b = .ok (.raw body) ↔ ¬ magic <+: b ∧ body = b := by
  rcases frame_cases b with hm | ⟨hm, hl⟩ | ⟨ref, rest, hs, rfl⟩
  · rw [decode_of_not_magic hm]
    simp [hm, eq_comm]
  · rw [decode_of_lacking hm hl]
    simp [hm]
  · by_cases hne : ref = []
    · subst hne
      simp [decode_frame_nil, magic_prefix_frame]
    · simp [decode_frame hne hs, magic_prefix_frame]

theorem decode_eq_error_iff {b : Bytes} {e : EnvelopeError} :
    decode b = .error e ↔
      magic <+: b ∧ b.length < neededSize b ∧ e = .malformed (neededSize b) b.length := by
  constructor
  · intro h
    rcases frame_cases b with hm | ⟨hm, hl⟩ | ⟨ref, rest, hs, rfl⟩
    · rw [decode_of_not_magic hm] at h
      simp at h
    · rw [decode_of_lacking hm hl, Except.error.injEq] at h
      exact ⟨hm, hl, h.symm⟩
    · by_cases hne : ref = []
      · subst hne
        simp [decode_frame_nil] at h
      · simp [decode_frame hne hs] at h
  · rintro ⟨hm, hl, rfl⟩
    exact decode_of_lacking hm hl

theorem decode_eq_plain_iff {b body : Bytes} :
    decode b = .ok (.plain body) ↔ b = frame [] body := by
  constructor
  · intro h
    rcases frame_cases b with hm | ⟨hm, hl⟩ | ⟨ref, rest, hs, rfl⟩
    · simp [decode_of_not_magic hm] at h
    · simp [decode_of_lacking hm hl] at h
    · by_cases hne : ref = []
      · subst hne
        rw [decode_frame_nil] at h
        injection h with h
        injection h with h
        rw [h]
      · simp [decode_frame hne hs] at h
  · rintro rfl
    exact decode_frame_nil body

theorem decode_eq_sealed_iff {b ciphertext : Bytes} {r : KeyRef} :
    decode b = .ok (.sealed r ciphertext) ↔
      r.isEmpty = false ∧ r.size ≤ maxKeyRefSize ∧ b = frame r.bytes ciphertext := by
  constructor
  · intro h
    rcases frame_cases b with hm | ⟨hm, hl⟩ | ⟨ref, rest, hs, rfl⟩
    · simp [decode_of_not_magic hm] at h
    · simp [decode_of_lacking hm hl] at h
    · by_cases hne : ref = []
      · subst hne
        simp [decode_frame_nil] at h
      · rw [decode_frame hne hs] at h
        injection h with h
        injection h with hr hc
        subst hr hc
        exact ⟨not_isEmpty_iff.mpr hne, hs, rfl⟩
  · rintro ⟨hne, hs, rfl⟩
    exact decode_frame (not_isEmpty_iff.mp hne) hs ciphertext

/-- What reads as sealed is no frame in clear. -/
theorem ne_encodePlain_of_sealed {b ciphertext : Bytes} {r : KeyRef}
    (h : decode b = .ok (.sealed r ciphertext)) (clear : Bytes) :
    b ≠ (encodePlain clear []).2 := by
  intro heq
  rw [heq, encodePlain_eq, List.nil_append, decode_frame_nil] at h
  cases h

/-- The size that an envelope states is the size of the input that it was read from. -/
theorem wireSize_of_decode {b : Bytes} {env : Envelope} (h : decode b = .ok env) :
    env.wireSize = b.length := by
  cases env with
  | raw body =>
    obtain ⟨-, rfl⟩ := decode_eq_raw_iff.mp h
    rfl
  | plain body =>
    rw [decode_eq_plain_iff.mp h, length_frame]
    rfl
  | «sealed» r ciphertext =>
    obtain ⟨-, -, rfl⟩ := decode_eq_sealed_iff.mp h
    rw [length_frame]
    rfl

/-! ## The two directions together -/

/-- The input is a payload without a frame. -/
def IsUnframed (b : Bytes) : Prop := ¬ magic <+: b ∧ decode b = .ok (.raw b)

/-- The input is a whole frame, and writing what was read gives it back. -/
def IsFrame (b : Bytes) : Prop :=
  (∃ body, decode b = .ok (.plain body) ∧ encodePlain body [] = ((), b)) ∨
    ∃ r ciphertext, r.isEmpty = false ∧ decode b = .ok (.sealed r ciphertext) ∧
      encodeSealed r ciphertext [] = (.ok (), b)

/-- The input is the beginning of a frame, refused with the number of bytes that the frame
needs: a header, or what the header declares. -/
def IsCutShort (b : Bytes) : Prop :=
  magic <+: b ∧ ∃ needed, decode b = .error (.malformed needed b.length) ∧ b.length < needed ∧
    ((b.length < headerSize ∧ needed = headerSize) ∨
      (headerSize ≤ b.length ∧ b.length - headerSize < declaredSize b ∧
        needed = headerSize + declaredSize b))

theorem isUnframed_of_not_magic {b : Bytes} (h : ¬ magic <+: b) : IsUnframed b :=
  ⟨h, decode_of_not_magic h⟩

theorem isCutShort_of_lacking {b : Bytes} (hm : magic <+: b) (hl : b.length < neededSize b) :
    IsCutShort b := by
  refine ⟨hm, neededSize b, decode_of_lacking hm hl, hl, ?_⟩
  rcases Nat.lt_or_ge b.length headerSize with hs | hs
  · exact Or.inl ⟨hs, neededSize_of_short hs⟩
  · rw [neededSize_of_header hs] at hl ⊢
    exact Or.inr ⟨hs, by omega, rfl⟩

theorem isFrame_frame {ref : Bytes} (hs : ref.length ≤ maxKeyRefSize) (body : Bytes) :
    IsFrame (frame ref body) := by
  by_cases hne : ref = []
  · subst hne
    exact Or.inl ⟨body, decode_frame_nil body, encodePlain_eq body []⟩
  · have he : KeyRef.isEmpty ⟨ref⟩ = false := not_isEmpty_iff.mpr hne
    exact Or.inr ⟨⟨ref⟩, body, he, decode_frame hne hs body, encodeSealed_of_fits he hs body []⟩

/-- **The wire format is a bijection.** Every byte string is exactly one of: a payload without
a frame, a frame that the writer gives back, the beginning of a frame. In the other direction a
writer appends one frame to whatever the buffer holds, the frame reads as what was written, and
an empty reference is refused with the buffer as it was. The stated size is the real one. -/
theorem wireFormat_bijective :
    (∀ b : Bytes, (IsUnframed b ∨ IsFrame b ∨ IsCutShort b) ∧
      ¬ (IsUnframed b ∧ IsFrame b) ∧ ¬ (IsUnframed b ∧ IsCutShort b) ∧
      ¬ (IsFrame b ∧ IsCutShort b)) ∧
    (∀ payload dst : Bytes, ∃ f : Bytes, encodePlain payload dst = ((), dst ++ f) ∧
      f = magic ++ Bytes.toWord 0 ++ payload ∧ decode f = .ok (.plain payload)) ∧
    (∀ (r : KeyRef) (ciphertext dst : Bytes), r.isEmpty = false → r.size ≤ maxKeyRefSize →
      ∃ f : Bytes, encodeSealed r ciphertext dst = (.ok (), dst ++ f) ∧
        f = magic ++ Bytes.toWord r.size ++ r.bytes ++ ciphertext ∧
        decode f = .ok (.sealed r ciphertext)) ∧
    (∀ (r : KeyRef) (ciphertext dst : Bytes), r.isEmpty = true →
      encodeSealed r ciphertext dst = (.error .emptyKeyRef, dst)) ∧
    ∀ (b : Bytes) (env : Envelope), decode b = .ok env → env.wireSize = b.length := by
  refine ⟨fun b => ⟨?_, ?_, ?_, ?_⟩, fun payload dst => ?_, fun r ciphertext dst hne hs => ?_,
    fun r ciphertext dst he => encodeSealed_of_empty he ciphertext dst,
    fun b env h => wireSize_of_decode h⟩
  · rcases frame_cases b with hm | ⟨hm, hl⟩ | ⟨ref, rest, hs, rfl⟩
    · exact Or.inl (isUnframed_of_not_magic hm)
    · exact Or.inr (Or.inr (isCutShort_of_lacking hm hl))
    · exact Or.inr (Or.inl (isFrame_frame hs rest))
  -- the three kinds exclude each other by the magic or by the answer of the reader
  · rintro ⟨⟨-, hraw⟩, ⟨body, hb, -⟩ | ⟨r, ciphertext, -, hb, -⟩⟩
    · simp [hraw] at hb
    · simp [hraw] at hb
  · rintro ⟨⟨hn, -⟩, ⟨hm, -⟩⟩
    exact hn hm
  · rintro ⟨⟨body, hb, -⟩ | ⟨r, ciphertext, -, hb, -⟩, -, needed, hc, -⟩
    · simp [hb] at hc
    · simp [hb] at hc
  · exact ⟨frame [] payload, encodePlain_eq payload dst, by simp [frame],
      decode_frame_nil payload⟩
  · exact ⟨frame r.bytes ciphertext, encodeSealed_of_fits hne hs ciphertext dst, rfl,
      decode_frame (not_isEmpty_iff.mp hne) hs ciphertext⟩

/-- A reference of two bytes, appended to a buffer that holds one byte already. -/
theorem wireFormat_bijective_sealed :
    KeyRef.isEmpty ⟨[0x4B, 0x31]⟩ = false ∧ KeyRef.size ⟨[0x4B, 0x31]⟩ ≤ maxKeyRefSize ∧
    encodeSealed ⟨[0x4B, 0x31]⟩ [7] [9] = (.ok (), [9] ++ (magic ++ [0, 0, 0, 2, 0x4B, 0x31, 7])) ∧
    decode (magic ++ [0, 0, 0, 2, 0x4B, 0x31, 7]) = .ok (.sealed ⟨[0x4B, 0x31]⟩ [7]) ∧
    Envelope.wireSize (.sealed ⟨[0x4B, 0x31]⟩ [7]) = 13 := by
  have hne : KeyRef.isEmpty ⟨[0x4B, 0x31]⟩ = false := rfl
  have hs : KeyRef.size ⟨[0x4B, 0x31]⟩ ≤ maxKeyRefSize := by decide
  obtain ⟨f, hf, rfl, hd⟩ := wireFormat_bijective.2.2.1 ⟨[0x4B, 0x31]⟩ [7] [9] hne hs
  exact ⟨hne, hs, hf, hd, wireFormat_bijective.2.2.2.2 _ _ hd⟩

end Envelope

end SealedRecords
