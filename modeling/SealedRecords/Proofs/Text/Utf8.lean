import SealedRecords.Text.Utf8

/-!
# Reading and writing UTF-8

`Utf8.pieces` cuts bytes from the left and `Utf8.encode` writes one character
after the other. The two are inverse: each character is written in the one way
that is read as that character, so

> `decode_eq_ok_iff`: bytes read as a text exactly if they are what is written
> for the text.

> `longestText_of_decode`: bytes that are no text are read up to the end of the
> longest text that they begin with, and the fault tells its length.

Lenient reading tells less, because U+FFFD may stand for bytes that are no text.
Where it does not occur nothing was replaced, `encode_lossy`.
-/

namespace SealedRecords.Utf8

open SealedRecords

/-! ## The bytes of one character -/

theorem toNat_val_ofNat {n : Nat} (h : n.isValidChar) : (Char.ofNat n).val.toNat = n := by
  rw [Char.ofNat, dif_pos h]
  rfl

theorem isTail_iff {b : UInt8} : isTail b = true ↔ 128 ≤ b.toNat ∧ b.toNat ≤ 191 := by
  simp [isTail, UInt8.le_iff_toNat_le]

theorem isSecondOfThree_iff {a b : UInt8} : isSecondOfThree a b = true ↔
    (128 ≤ b.toNat ∧ b.toNat ≤ 191) ∧ (a.toNat = 224 → 160 ≤ b.toNat) ∧
      (a.toNat = 237 → b.toNat ≤ 159) := by
  unfold isSecondOfThree
  by_cases h₁ : a = 0xE0
  · rw [if_pos h₁, h₁]
    simp [UInt8.le_iff_toNat_le]
    omega
  · have h₁' : a.toNat ≠ 224 := fun h => h₁ (UInt8.toNat_inj.mp h)
    rw [if_neg h₁]
    by_cases h₂ : a = 0xED
    · rw [if_pos h₂, h₂]
      simp [UInt8.le_iff_toNat_le]
      omega
    · have h₂' : a.toNat ≠ 237 := fun h => h₂ (UInt8.toNat_inj.mp h)
      rw [if_neg h₂, isTail_iff]
      omega

theorem isSecondOfFour_iff {a b : UInt8} : isSecondOfFour a b = true ↔
    (128 ≤ b.toNat ∧ b.toNat ≤ 191) ∧ (a.toNat = 240 → 144 ≤ b.toNat) ∧
      (a.toNat = 244 → b.toNat ≤ 143) := by
  unfold isSecondOfFour
  by_cases h₁ : a = 0xF0
  · rw [if_pos h₁, h₁]
    simp [UInt8.le_iff_toNat_le]
    omega
  · have h₁' : a.toNat ≠ 240 := fun h => h₁ (UInt8.toNat_inj.mp h)
    rw [if_neg h₁]
    by_cases h₂ : a = 0xF4
    · rw [if_pos h₂, h₂]
      simp [UInt8.le_iff_toNat_le]
      omega
    · have h₂' : a.toNat ≠ 244 := fun h => h₂ (UInt8.toNat_inj.mp h)
      rw [if_neg h₂, isTail_iff]
      omega

theorem encodeChar_ascii {a : UInt8} (h : a.toNat < 128) :
    String.utf8EncodeChar (Char.ofNat a.toNat) = [a] := by
  have hv : (Char.ofNat a.toNat).val.toNat = a.toNat := toNat_val_ofNat (Or.inl (by omega))
  simp only [String.utf8EncodeChar, hv]
  rw [if_pos (by omega), UInt8.ofNat_toNat]

theorem encodeChar_scalar2 {a b : UInt8} (ha : 194 ≤ a.toNat ∧ a.toNat ≤ 223)
    (hb : isTail b = true) : String.utf8EncodeChar (scalar2 a b) = [a, b] := by
  rw [isTail_iff] at hb
  have hv : (scalar2 a b).val.toNat = (a.toNat - 192) * 64 + (b.toNat - 128) :=
    toNat_val_ofNat (Or.inl (by omega))
  simp only [String.utf8EncodeChar, hv]
  rw [if_neg (by omega), if_pos (by omega)]
  simp only [List.cons.injEq, and_true]
  refine ⟨?_, ?_⟩ <;> (apply UInt8.toNat_inj.mp; rw [UInt8.toNat_ofNat']; omega)

theorem encodeChar_scalar3 {a b c : UInt8} (ha : 224 ≤ a.toNat ∧ a.toNat ≤ 239)
    (hb : isSecondOfThree a b = true) (hc : isTail c = true) :
    String.utf8EncodeChar (scalar3 a b c) = [a, b, c] := by
  rw [isSecondOfThree_iff] at hb
  rw [isTail_iff] at hc
  have hv : (scalar3 a b c).val.toNat
      = (a.toNat - 224) * 4096 + (b.toNat - 128) * 64 + (c.toNat - 128) := by
    -- the second byte keeps the character out of the range of the surrogates
    apply toNat_val_ofNat
    rcases Nat.lt_or_ge a.toNat 238 with h | h
    · exact Or.inl (by omega)
    · exact Or.inr ⟨by omega, by omega⟩
  simp only [String.utf8EncodeChar, hv]
  rw [if_neg (by omega), if_neg (by omega), if_pos (by omega)]
  simp only [List.cons.injEq, and_true]
  refine ⟨?_, ?_, ?_⟩ <;> (apply UInt8.toNat_inj.mp; rw [UInt8.toNat_ofNat']; omega)

theorem encodeChar_scalar4 {a b c d : UInt8} (ha : 240 ≤ a.toNat ∧ a.toNat ≤ 244)
    (hb : isSecondOfFour a b = true) (hc : isTail c = true) (hd : isTail d = true) :
    String.utf8EncodeChar (scalar4 a b c d) = [a, b, c, d] := by
  rw [isSecondOfFour_iff] at hb
  rw [isTail_iff] at hc hd
  have hv : (scalar4 a b c d).val.toNat
      = (a.toNat - 240) * 262144 + (b.toNat - 128) * 4096 + (c.toNat - 128) * 64
        + (d.toNat - 128) :=
    toNat_val_ofNat (Or.inr ⟨by omega, by omega⟩)
  simp only [String.utf8EncodeChar, hv]
  rw [if_neg (by omega), if_neg (by omega), if_neg (by omega)]
  simp only [List.cons.injEq, and_true]
  refine ⟨?_, ?_, ?_, ?_⟩ <;> (apply UInt8.toNat_inj.mp; rw [UInt8.toNat_ofNat']; omega)

/-! ## Reading what was written -/

section

variable {a b c d : UInt8}

theorem pieces_ascii (ha : a.toNat < 128) (rest : Bytes) :
    pieces (a :: rest) = .char (Char.ofNat a.toNat) :: pieces rest := by
  rw [pieces.eq_def]
  simp only [if_pos (show a < 0x80 from UInt8.lt_iff_toNat_lt.mpr ha)]

theorem pieces_two (ha : 194 ≤ a.toNat ∧ a.toNat ≤ 223) (hb : isTail b = true) (rest : Bytes) :
    pieces (a :: b :: rest) = .char (scalar2 a b) :: pieces rest := by
  have h₁ : ¬ a < 0x80 := by simp [UInt8.lt_iff_toNat_lt]; omega
  have h₂ : (0xC2 ≤ a && a ≤ 0xDF) = true := by simp [UInt8.le_iff_toNat_le]; omega
  rw [pieces.eq_def]
  simp only [if_neg h₁, if_pos h₂, if_pos hb]

theorem pieces_three (ha : 224 ≤ a.toNat ∧ a.toNat ≤ 239) (hb : isSecondOfThree a b = true)
    (hc : isTail c = true) (rest : Bytes) :
    pieces (a :: b :: c :: rest) = .char (scalar3 a b c) :: pieces rest := by
  have h₁ : ¬ a < 0x80 := by simp [UInt8.lt_iff_toNat_lt]; omega
  have h₂ : ¬ (0xC2 ≤ a && a ≤ 0xDF) = true := by simp [UInt8.le_iff_toNat_le]; omega
  have h₃ : (0xE0 ≤ a && a ≤ 0xEF) = true := by simp [UInt8.le_iff_toNat_le]; omega
  rw [pieces.eq_def]
  simp only [if_neg h₁, if_neg h₂, if_pos h₃, if_pos hb, if_pos hc]

theorem pieces_four (ha : 240 ≤ a.toNat ∧ a.toNat ≤ 244) (hb : isSecondOfFour a b = true)
    (hc : isTail c = true) (hd : isTail d = true) (rest : Bytes) :
    pieces (a :: b :: c :: d :: rest) = .char (scalar4 a b c d) :: pieces rest := by
  have h₁ : ¬ a < 0x80 := by simp [UInt8.lt_iff_toNat_lt]; omega
  have h₂ : ¬ (0xC2 ≤ a && a ≤ 0xDF) = true := by simp [UInt8.le_iff_toNat_le]; omega
  have h₃ : ¬ (0xE0 ≤ a && a ≤ 0xEF) = true := by simp [UInt8.le_iff_toNat_le]; omega
  have h₄ : (0xF0 ≤ a && a ≤ 0xF4) = true := by simp [UInt8.le_iff_toNat_le]; omega
  rw [pieces.eq_def]
  simp only [if_neg h₁, if_neg h₂, if_neg h₃, if_pos h₄, if_pos hb, if_pos hc, if_pos hd]

end

/-- A written character is read as that character, whatever follows. -/
theorem pieces_encodeChar (x : Char) (rest : Bytes) :
    pieces (String.utf8EncodeChar x ++ rest) = .char x :: pieces rest := by
  have hx : Char.ofNat x.val.toNat = x := Char.ofNat_toNat x
  have hvalid : x.val.toNat.isValidChar := x.valid
  unfold Nat.isValidChar at hvalid
  generalize hn : x.val.toNat = n at hx hvalid
  simp only [String.utf8EncodeChar, hn]
  -- the bytes are those of one of the four widths, and that width reads `n` back
  split
  · have h : (UInt8.ofNat n).toNat = n := by
      rw [UInt8.toNat_ofNat']
      omega
    rw [List.singleton_append, pieces_ascii (by omega), h, hx]
  · split
    · rw [List.cons_append, List.singleton_append,
        pieces_two (by simp only [UInt8.toNat_ofNat']; omega)
          (isTail_iff.mpr (by simp only [UInt8.toNat_ofNat']; omega)), scalar2,
        show (_ + _ : Nat) = n by simp only [UInt8.toNat_ofNat']; omega, hx]
    · split
      · rw [List.cons_append, List.cons_append, List.singleton_append,
          pieces_three (by simp only [UInt8.toNat_ofNat']; omega)
            (isSecondOfThree_iff.mpr (by simp only [UInt8.toNat_ofNat']; omega))
            (isTail_iff.mpr (by simp only [UInt8.toNat_ofNat']; omega)), scalar3,
          show (_ + _ : Nat) = n by simp only [UInt8.toNat_ofNat']; omega, hx]
      · rw [List.cons_append, List.cons_append, List.cons_append, List.singleton_append,
          pieces_four (by simp only [UInt8.toNat_ofNat']; omega)
            (isSecondOfFour_iff.mpr (by simp only [UInt8.toNat_ofNat']; omega))
            (isTail_iff.mpr (by simp only [UInt8.toNat_ofNat']; omega))
            (isTail_iff.mpr (by simp only [UInt8.toNat_ofNat']; omega)), scalar4,
          show (_ + _ : Nat) = n by simp only [UInt8.toNat_ofNat']; omega, hx]

/-! ## Writing what was read -/

theorem lead_iff {lo hi a : UInt8} :
    (lo ≤ a && a ≤ hi) = true ↔ lo.toNat ≤ a.toNat ∧ a.toNat ≤ hi.toNat := by
  simp [UInt8.le_iff_toNat_le]

/-- The first piece of bytes is the character whose bytes stand at the front, or no character. -/
theorem first_piece (a : UInt8) (r : Bytes) : ∃ p ps, pieces (a :: r) = p :: ps ∧
    ((∃ x rest, a :: r = String.utf8EncodeChar x ++ rest) ∨ ∀ x, p ≠ .char x) := by
  rw [pieces.eq_def]
  simp only
  split
  · next ha =>
    refine ⟨_, _, rfl, Or.inl ⟨Char.ofNat a.toNat, r, ?_⟩⟩
    rw [encodeChar_ascii (UInt8.lt_iff_toNat_lt.mp ha), List.singleton_append]
  · split
    · next ha =>
      split
      · exact ⟨_, _, rfl, Or.inr (by simp)⟩
      · split
        · next b r₁ hb =>
          refine ⟨_, _, rfl, Or.inl ⟨scalar2 a b, r₁, ?_⟩⟩
          rw [encodeChar_scalar2 (lead_iff.mp ha) hb]
          rfl
        · exact ⟨_, _, rfl, Or.inr (by simp)⟩
    · split
      · next ha =>
        split
        · exact ⟨_, _, rfl, Or.inr (by simp)⟩
        · split
          · next b r₁ hb =>
            split
            · exact ⟨_, _, rfl, Or.inr (by simp)⟩
            · split
              · next c r₂ hc =>
                refine ⟨_, _, rfl, Or.inl ⟨scalar3 a b c, r₂, ?_⟩⟩
                rw [encodeChar_scalar3 (lead_iff.mp ha) hb hc]
                rfl
              · exact ⟨_, _, rfl, Or.inr (by simp)⟩
          · exact ⟨_, _, rfl, Or.inr (by simp)⟩
      · split
        · next ha =>
          split
          · exact ⟨_, _, rfl, Or.inr (by simp)⟩
          · split
            · next b r₁ hb =>
              split
              · exact ⟨_, _, rfl, Or.inr (by simp)⟩
              · split
                · next c r₂ hc =>
                  split
                  · exact ⟨_, _, rfl, Or.inr (by simp)⟩
                  · split
                    · next d r₃ hd =>
                      refine ⟨_, _, rfl, Or.inl ⟨scalar4 a b c d, r₃, ?_⟩⟩
                      rw [encodeChar_scalar4 (lead_iff.mp ha) hb hc hd]
                      rfl
                    · exact ⟨_, _, rfl, Or.inr (by simp)⟩
                · exact ⟨_, _, rfl, Or.inr (by simp)⟩
            · exact ⟨_, _, rfl, Or.inr (by simp)⟩
        · exact ⟨_, _, rfl, Or.inr (by simp)⟩

/-- Written characters are read one after the other, whatever follows them. -/
theorem pieces_append (cs : List Char) (rest : Bytes) :
    pieces (cs.flatMap String.utf8EncodeChar ++ rest) = cs.map .char ++ pieces rest := by
  induction cs with
  | nil => rfl
  | cons c cs ih =>
    rw [List.flatMap_cons, List.append_assoc, pieces_encodeChar, ih, List.map_cons,
      List.cons_append]

/-- Bytes whose first pieces are characters begin with those characters, written one after the
other. -/
theorem exists_of_pieces {b : Bytes} {cs : List Char} {ps : List Piece}
    (h : pieces b = cs.map .char ++ ps) :
    ∃ rest, b = cs.flatMap String.utf8EncodeChar ++ rest ∧ pieces rest = ps := by
  induction cs generalizing b with
  | nil => exact ⟨b, rfl, h⟩
  | cons c cs ih =>
    cases b with
    | nil => cases h
    | cons a r =>
      obtain ⟨p, qs, hp, ⟨x, rest, hx⟩ | hn⟩ := first_piece a r
      · rw [hx, pieces_encodeChar, List.map_cons, List.cons_append, List.cons.injEq,
          Piece.char.injEq] at h
        obtain ⟨rest, hrest, hps⟩ := ih h.2
        refine ⟨rest, ?_, hps⟩
        rw [hx, h.1, hrest, List.flatMap_cons, List.append_assoc]
      · rw [hp, List.map_cons, List.cons_append, List.cons.injEq] at h
        exact absurd h.1 (hn c)

theorem pieces_eq_nil_iff {b : Bytes} : pieces b = [] ↔ b = [] := by
  cases b with
  | nil => exact iff_of_true rfl rfl
  | cons a r =>
    obtain ⟨p, ps, hp, -⟩ := first_piece a r
    rw [hp]
    exact iff_of_false (List.cons_ne_nil p ps) (List.cons_ne_nil a r)

/-- Bytes all of whose pieces are characters are those characters, written one after the other. -/
theorem pieces_eq_map_iff {b : Bytes} {cs : List Char} :
    pieces b = cs.map .char ↔ b = cs.flatMap String.utf8EncodeChar := by
  constructor
  · intro h
    rw [← List.append_nil (cs.map _)] at h
    obtain ⟨rest, hb, hrest⟩ := exists_of_pieces h
    rw [hb, pieces_eq_nil_iff.mp hrest, List.append_nil]
  · intro h
    have hcs := pieces_append cs []
    rw [List.append_nil, pieces_eq_nil_iff.mpr rfl, List.append_nil] at hcs
    rw [h, hcs]

theorem chars_eq_ok_iff {i : Nat} {ps : List Piece} {cs : List Char} :
    chars i ps = .ok cs ↔ ps = cs.map .char := by
  induction ps generalizing i cs with
  | nil => cases cs <;> simp [chars]
  | cons p ps ih =>
    cases p with
    | char c =>
      simp only [chars]
      cases cs with
      | nil => cases h : chars (i + c.utf8Size) ps <;> simp [Except.map]
      | cons x xs =>
        rw [List.map_cons, List.cons.injEq, Piece.char.injEq, ← ih (i := i + c.utf8Size)]
        cases h : chars (i + c.utf8Size) ps <;> simp [Except.map]
    | invalid n => cases cs <;> simp [chars]
    | incomplete => cases cs <;> simp [chars]

/-- Bytes read as a text exactly if they are what is written for it. -/
theorem decode_eq_ok_iff {b : Bytes} {s : String} : decode b = .ok s ↔ b = encode s := by
  have h : decode b = .ok s ↔ chars 0 (pieces b) = .ok s.toList := by
    unfold decode
    cases chars 0 (pieces b) with
    | error e => simp [Except.map]
    | ok cs =>
      simp only [Except.map, Except.ok.injEq]
      exact ⟨fun h => by rw [← h, String.toList_ofList], fun h => by rw [h, String.ofList_toList]⟩
  rw [h, chars_eq_ok_iff, pieces_eq_map_iff]
  rfl

@[simp] theorem decode_encode (s : String) : decode (encode s) = .ok s :=
  decode_eq_ok_iff.mpr rfl

theorem encode_injective {s t : String} (h : encode s = encode t) : s = t := by
  have hs := decode_encode s
  rw [h, decode_encode] at hs
  exact (Except.ok.inj hs).symm

theorem encode_append (s t : String) : encode (s ++ t) = encode s ++ encode t := by
  simp [encode]

/-! ## Where reading stops -/

/-- The longest text that the bytes begin with takes `n` of them. -/
structure LongestText (b : Bytes) (n : Nat) : Prop where
  exists_text : ∃ s, encode s <+: b ∧ (encode s).length = n
  longest : ∀ s, encode s <+: b → (encode s).length ≤ n

theorem eq_error_of_map {x : Except Fault α} {f : α → β} {e : Fault} (h : x.map f = .error e) :
    x = .error e := by
  cases x with
  | ok a => cases h
  | error e' => exact congrArg Except.error (Except.error.inj h)

/-- A fault is about the first piece that is no character, and tells how many bytes the characters
in front of it take. -/
theorem exists_of_chars_eq_error {i : Nat} {ps : List Piece} {e : Fault}
    (h : chars i ps = .error e) : ∃ (cs : List Char) (p : Piece) (rest : List Piece),
      ps = cs.map .char ++ p :: rest ∧ (∀ x, p ≠ .char x) ∧
      e.index = i + (cs.flatMap String.utf8EncodeChar).length := by
  induction ps generalizing i with
  | nil => cases h
  | cons p ps ih =>
    cases p with
    | char c =>
      have hrest : chars (i + c.utf8Size) ps = .error e := eq_error_of_map h
      obtain ⟨cs, p, rest, hps, hp, hindex⟩ := ih hrest
      refine ⟨c :: cs, p, rest, ?_, hp, ?_⟩
      · rw [hps, List.map_cons, List.cons_append]
      · rw [hindex, List.flatMap_cons, List.length_append, String.length_utf8EncodeChar]
        omega
    | invalid n =>
      have he : Fault.mk i (some n) = e := Except.error.inj h
      refine ⟨[], .invalid n, ps, rfl, by simp, ?_⟩
      rw [← he]
      rfl
    | incomplete =>
      have he : Fault.mk i none = e := Except.error.inj h
      refine ⟨[], .incomplete, ps, rfl, by simp, ?_⟩
      rw [← he]
      rfl

/-- Where pieces go on behind the characters `cs` with one that is no character, all characters that
they begin with are among `cs`. -/
theorem prefix_of_pieces_eq {cs ds : List Char} {p : Piece} (hp : ∀ x, p ≠ .char x)
    {ps qs : List Piece} (h : cs.map .char ++ p :: ps = ds.map .char ++ qs) : ds <+: cs := by
  induction ds generalizing cs with
  | nil => exact List.nil_prefix
  | cons d ds ih =>
    cases cs with
    | nil => exact absurd (List.cons.inj h).1 (hp d)
    | cons c cs =>
      obtain ⟨hc, hrest⟩ := List.cons.inj h
      rw [Piece.char.inj hc]
      exact List.cons_prefix_cons.mpr ⟨rfl, ih hrest⟩

/-- Reading stops behind the longest text that the bytes begin with. -/
theorem longestText_of_decode {b : Bytes} {e : Fault} (h : decode b = .error e) :
    LongestText b e.index := by
  have hchars : chars 0 (pieces b) = .error e := eq_error_of_map h
  obtain ⟨cs, p, ps, hpieces, hp, hindex⟩ := exists_of_chars_eq_error hchars
  obtain ⟨rest, hb, -⟩ := exists_of_pieces hpieces
  constructor
  · refine ⟨String.ofList cs, ⟨rest, ?_⟩, ?_⟩
    · rw [hb, encode, String.toList_ofList]
    · rw [hindex, encode, String.toList_ofList, Nat.zero_add]
  · intro s hs
    obtain ⟨tail, htail⟩ := hs
    -- the same pieces begin with the characters of `s`, and so no later than `p` these end
    have hsame : cs.map .char ++ p :: ps = s.toList.map .char ++ pieces tail := by
      rw [← hpieces, ← htail]
      exact pieces_append s.toList tail
    obtain ⟨more, hmore⟩ := prefix_of_pieces_eq hp hsame
    rw [hindex, ← hmore, List.flatMap_append, List.length_append]
    show (encode s).length ≤ 0 + ((encode s).length + _)
    omega

/-! ## Lenient reading -/

theorem lossy_encode (s : String) : lossy (encode s) = s := by
  have h : pieces (encode s) = s.toList.map .char := pieces_eq_map_iff.mpr rfl
  simp [lossy, h, Function.comp_def]

/-- Where the replacement character does not occur, nothing was replaced. -/
theorem encode_lossy {b : Bytes} (h : replacement ∉ (lossy b).toList) : encode (lossy b) = b := by
  have hps : pieces b = (lossy b).toList.map .char := by
    simp only [lossy, String.toList_ofList, List.mem_map, not_exists, not_and,
      List.map_map] at h ⊢
    refine (List.map_id _).symm.trans (List.map_congr_left fun p hp => ?_)
    cases p with
    | char c => rfl
    | invalid n => exact absurd rfl (h _ hp)
    | incomplete => exact absurd rfl (h _ hp)
  exact (pieces_eq_map_iff.mp hps).symm

end SealedRecords.Utf8
