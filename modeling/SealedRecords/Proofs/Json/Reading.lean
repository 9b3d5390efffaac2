import SealedRecords.Json.Reader
import SealedRecords.Proofs.Text.Hex

/-!
# Reading what was written

A reader is described by the bytes that it takes off the front of its input:
`Reads x b rest a` says that `x` reads `b` as `a`, wherever `b` stands, and leaves
`rest`. What follows may matter, because a number ends only where something else
begins; the position that is kept for faults does not.

The descriptions of two readers are put together along `>>=`, so a text of JSON
is read piece by piece, in the order in which it is written:

> `reads_text`: a quoted text is read as the text, whatever characters it has.

> `reads_number`: the digits of a whole number of 64 bits are read as the number.
-/

namespace SealedRecords.Json

open SealedRecords Reader

/-- What a reader gives on a cursor, and the cursor that it leaves. -/
def Reader.exec (x : Reader α) (c : Cursor) : Except Fault α × Cursor := x.run.run c

/-- A reader reads the bytes `b` as `a` if `rest` follows them, and stops there. -/
def Reads (x : Reader α) (b rest : Bytes) (a : α) : Prop :=
  ∀ c : Cursor, c.rest = b ++ rest → ∃ c', x.exec c = (.ok a, c') ∧ c'.rest = rest

namespace Reads

variable {x : Reader α} {f : α → Reader β} {a : α} {v : β} {b b' rest : Bytes}

theorem pure (a : α) (rest : Bytes) : Reads (Pure.pure a) [] rest a := fun c hc => ⟨c, rfl, hc⟩

theorem bind (hx : Reads x b (b' ++ rest) a) (hf : Reads (f a) b' rest v) :
    Reads (x >>= f) (b ++ b') rest v := by
  intro c hc
  rw [List.append_assoc] at hc
  obtain ⟨c₁, hx, hc₁⟩ := hx c hc
  obtain ⟨c₂, hf, hc₂⟩ := hf c₁ hc₁
  refine ⟨c₂, ?_, hc₂⟩
  show (ExceptT.bindCont f (x.exec c).1).run (x.exec c).2 = _
  rw [hx]
  exact hf

/-- A reader that takes nothing off is followed by one that takes off everything. -/
theorem bind_look (hx : Reads x [] (b ++ rest) a) (hf : Reads (f a) b rest v) :
    Reads (x >>= f) b rest v := bind hx hf

/-- A reader that takes everything off is followed by one that takes off nothing. -/
theorem bind_last (hx : Reads x b rest a) (hf : Reads (f a) [] rest v) :
    Reads (x >>= f) b rest v := by
  have h := bind hx hf
  rwa [List.append_nil] at h

theorem bind_return {g : α → β} (hx : Reads x b rest a) :
    Reads (x >>= fun a => Pure.pure (g a)) b rest (g a) := hx.bind_last (pure _ _)

end Reads

/-! ## Single bytes -/

theorem reads_next (b : UInt8) (rest : Bytes) : Reads next [b] rest (some b) := by
  rintro ⟨_, line, column⟩ rfl
  refine ⟨Cursor.after ⟨b :: rest, line, column⟩ b rest, rfl, ?_⟩
  unfold Cursor.after
  split <;> rfl

theorem reads_skip (b : UInt8) (rest : Bytes) : Reads skip [b] rest () :=
  (reads_next b rest).bind_return

theorem reads_left (rest : Bytes) : Reads left [] rest rest.length := by
  rintro c rfl
  exact ⟨c, rfl, rfl⟩

theorem reads_peek (rest : Bytes) : Reads peek [] rest rest.head? := by
  rintro c rfl
  exact ⟨c, rfl, rfl⟩

/-- Only blanks are skipped. -/
theorem rest_afterBlanks {blanks : Bytes} (h : ∀ b ∈ blanks, isBlank b = true) {rest : Bytes}
    (hrest : ∀ b ∈ rest.head?, isBlank b = false) (c : Cursor) :
    (afterBlanks c (blanks ++ rest)).rest = rest := by
  induction blanks generalizing c with
  | nil =>
    cases rest with
    | nil => rfl
    | cons b rest =>
      have hb := hrest b rfl
      simp only [List.nil_append, afterBlanks, hb, Bool.false_eq_true, if_false]
  | cons b blanks ih =>
    have hb := h b List.mem_cons_self
    simp only [List.cons_append, afterBlanks, hb, if_true]
    exact ih (fun b hb => h b (List.mem_cons_of_mem _ hb)) _

theorem reads_peekToken {blanks rest : Bytes} (h : ∀ b ∈ blanks, isBlank b = true)
    (hrest : ∀ b ∈ rest.head?, isBlank b = false) : Reads peekToken blanks rest rest.head? := by
  intro c hc
  have hafter := rest_afterBlanks h hrest c
  refine ⟨afterBlanks c (blanks ++ rest), ?_, hafter⟩
  show (Except.ok (afterBlanks c c.rest).rest.head?, afterBlanks c c.rest) = _
  rw [hc, hafter]

/-- At a byte that is no blank, nothing is skipped. -/
theorem reads_token {b : UInt8} (hb : isBlank b = false) (rest : Bytes) :
    Reads peekToken [] (b :: rest) (some b) :=
  reads_peekToken (fun _ h => absurd h List.not_mem_nil) fun x hx => by
    obtain rfl : b = x := Option.some.inj hx
    exact hb

theorem reads_finish {blanks : Bytes} (h : ∀ b ∈ blanks, isBlank b = true) :
    Reads finish blanks [] () := by
  have htoken : Reads peekToken blanks [] none :=
    reads_peekToken h fun b hb => absurd hb (Option.not_mem_none b)
  unfold finish
  exact htoken.bind_last (Reads.pure () [])

/-- A reader that stops before blanks at the end of its input has read all of it. -/
theorem readAll_of_reads {x : Reader α} {b blanks : Bytes} {a : α} (hx : Reads x b blanks a)
    (h : ∀ b ∈ blanks, isBlank b = true) : readAll x (b ++ blanks) = .ok a := by
  have hfinish : Reads (finish >>= fun _ => Pure.pure a) blanks [] a :=
    (reads_finish h).bind_return
  rw [← List.append_nil blanks] at hx
  have hall : Reads (do let a ← x; finish; return a) (b ++ blanks) [] a := Reads.bind hx hfinish
  obtain ⟨c, hrun, -⟩ := hall { rest := b ++ blanks } (List.append_nil _).symm
  exact congrArg Prod.fst hrun

/-! ## Texts -/

theorem reads_nextInText (b : UInt8) (rest : Bytes) : Reads nextInText [b] rest b := by
  unfold nextInText
  exact (reads_next b rest).bind_last (Reads.pure b rest)

/-- A byte that stands for itself in a text. -/
def Plain (b : UInt8) : Prop := b ≠ 0x22 ∧ b ≠ 0x5C ∧ ¬ b < 0x20

section

variable {n : Nat} {before b rest : Bytes} {s : String}

theorem reads_textBody_end (h : Utf8.decode before.reverse = .ok s) :
    Reads (textBody (n + 1) before) [0x22] rest s := by
  unfold textBody
  refine (reads_nextInText 0x22 rest).bind_last ?_
  show Reads (gathered before.reverse) [] rest s
  unfold gathered
  rw [h]
  exact Reads.pure s rest

theorem reads_textBody_plain {x : UInt8} (hx : Plain x)
    (h : Reads (textBody n (x :: before)) b rest s) :
    Reads (textBody (n + 1) before) (x :: b) rest s := by
  unfold textBody
  refine (reads_nextInText x (b ++ rest)).bind ?_
  obtain ⟨hquote, hbackslash, hcontrol⟩ := hx
  split
  · exact absurd rfl hquote
  · exact absurd rfl hbackslash
  · rw [if_neg hcontrol]
    exact h

theorem reads_textBody_escape {e : Bytes} {c : Char} (hc : Reads escapedChar e (b ++ rest) c)
    (h : Reads (textBody n ((String.utf8EncodeChar c).reverse ++ before)) b rest s) :
    Reads (textBody (n + 1) before) (0x5C :: (e ++ b)) rest s := by
  unfold textBody
  refine (reads_nextInText 0x5C (e ++ b ++ rest)).bind (hc.bind ?_)
  have hsingleton : Utf8.encode (String.singleton c) = String.utf8EncodeChar c := by
    unfold Utf8.encode
    simp
  rw [hsingleton]
  exact h

/-- Bytes that stand for themselves are gathered one by one. -/
theorem reads_textBody_plains {bs : Bytes} (hbs : ∀ x ∈ bs, Plain x) (n : Nat) (before : Bytes)
    (h : Reads (textBody n (bs.reverse ++ before)) b rest s) :
    Reads (textBody (n + bs.length) before) (bs ++ b) rest s := by
  induction bs generalizing before with
  | nil => exact h
  | cons x bs ih =>
    have hrest : Reads (textBody n (bs.reverse ++ (x :: before))) b rest s := by
      rwa [List.reverse_cons, List.append_assoc] at h
    exact reads_textBody_plain (hbs x List.mem_cons_self)
      (ih (fun y hy => hbs y (List.mem_cons_of_mem _ hy)) _ hrest)

end

/-! ### Escapes -/

theorem reads_nextBytes (bs rest : Bytes) : Reads (nextBytes bs.length) bs rest bs := by
  induction bs with
  | nil => exact Reads.pure [] rest
  | cons b bs ih =>
    show Reads (nextBytes (bs.length + 1)) ([b] ++ bs) rest (b :: bs)
    unfold nextBytes
    exact (reads_next b (bs ++ rest)).bind ih.bind_return

theorem reads_hexEscape {digits bytes : Bytes} (hlength : digits.length = 4)
    (h : Hex.decodePairs 0 digits = .ok bytes) (rest : Bytes) :
    Reads hexEscape digits rest (Bytes.ofWord bytes) := by
  have hread := reads_nextBytes digits rest
  rw [hlength] at hread
  unfold hexEscape
  refine hread.bind_last ?_
  have hlong : ¬ digits.length < 4 := by omega
  rw [if_neg hlong, h]
  exact Reads.pure _ rest

/-- The characters that are escaped by a backslash and one more byte. -/
def shortEscapes : List (UInt8 × Char) :=
  [(0x22, '"'), (0x5C, '\\'), (0x6E, '\n'), (0x72, '\r'), (0x74, '\t'), (0x62, Char.ofNat 8),
    (0x66, Char.ofNat 12)]

theorem reads_shortEscape {p : UInt8 × Char} (hp : p ∈ shortEscapes) (rest : Bytes) :
    Reads escapedChar [p.1] rest p.2 := by
  simp only [shortEscapes, List.mem_cons, List.not_mem_nil, or_false] at hp
  unfold escapedChar
  refine (reads_nextInText p.1 rest).bind_last ?_
  rcases hp with rfl | rfl | rfl | rfl | rfl | rfl | rfl <;> exact Reads.pure _ rest

/-- How a character is written: by a short escape, by its number, or as it is. -/
theorem escape_cases (c : Char) :
    (∃ x, (x, c) ∈ shortEscapes ∧ Utf8.encode (JsonValue.escape c) = [0x5C, x]) ∨
    (c.toNat < 0x20 ∧ JsonValue.escape c = "\\u00" ++ Hex.encode [UInt8.ofNat c.toNat]) ∨
    (c ≠ '"' ∧ c ≠ '\\' ∧ ¬ c.toNat < 0x20 ∧ JsonValue.escape c = String.singleton c) := by
  have hchar : ∀ {k : Nat}, c.toNat = k → c = Char.ofNat k := by
    rintro _ rfl
    exact (Char.ofNat_toNat c).symm
  unfold JsonValue.escape
  split
  · next h => exact Or.inl ⟨0x22, h ▸ by decide, rfl⟩
  split
  · next h => exact Or.inl ⟨0x5C, h ▸ by decide, rfl⟩
  split
  · next h => exact Or.inl ⟨0x6E, h ▸ by decide, rfl⟩
  split
  · next h => exact Or.inl ⟨0x72, h ▸ by decide, rfl⟩
  split
  · next h => exact Or.inl ⟨0x74, h ▸ by decide, rfl⟩
  split
  · next h => exact Or.inl ⟨0x62, hchar h ▸ by decide, rfl⟩
  split
  · next h => exact Or.inl ⟨0x66, hchar h ▸ by decide, rfl⟩
  split
  · next h => exact Or.inr (Or.inl ⟨h, rfl⟩)
  · next hquote hbackslash _ _ _ _ _ hcontrol =>
    exact Or.inr (Or.inr ⟨hquote, hbackslash, hcontrol, rfl⟩)

/-- A character is written in bytes that are not ASCII, or in one byte of its own number. -/
theorem toNat_of_mem_encodeChar {c : Char} {x : UInt8} (hx : x ∈ String.utf8EncodeChar c) :
    128 ≤ x.toNat ∨ x.toNat = c.toNat := by
  have hc : c.val.toNat = c.toNat := rfl
  have hvalid : c.toNat.isValidChar := c.valid
  unfold Nat.isValidChar at hvalid
  simp only [String.utf8EncodeChar, hc] at hx
  by_cases h₁ : c.toNat ≤ 127
  · simp only [h₁, if_true, List.mem_singleton] at hx
    right
    rw [hx, UInt8.toNat_ofNat']
    omega
  · left
    -- every byte of the longer forms has a fixed part of at least 128
    by_cases h₂ : c.toNat ≤ 2047
    · simp only [h₁, h₂, if_true, if_false, List.mem_cons, List.not_mem_nil, or_false] at hx
      rcases hx with rfl | rfl <;> simp only [UInt8.toNat_ofNat'] <;> omega
    · by_cases h₃ : c.toNat ≤ 65535
      · simp only [h₁, h₂, h₃, if_true, if_false, List.mem_cons, List.not_mem_nil, or_false] at hx
        rcases hx with rfl | rfl | rfl <;> simp only [UInt8.toNat_ofNat'] <;> omega
      · simp only [h₁, h₂, h₃, if_false, List.mem_cons, List.not_mem_nil, or_false] at hx
        rcases hx with rfl | rfl | rfl | rfl <;> simp only [UInt8.toNat_ofNat'] <;> omega

theorem plain_of_mem_encodeChar {c : Char} (hquote : c ≠ '"') (hbackslash : c ≠ '\\')
    (hcontrol : ¬ c.toNat < 0x20) {x : UInt8} (hx : x ∈ String.utf8EncodeChar c) : Plain x := by
  have hchar : ∀ {d : Char}, c.toNat = d.toNat → c = d := fun h => Char.toNat_inj.mp h
  have hx := toNat_of_mem_encodeChar hx
  refine ⟨?_, ?_, ?_⟩
  · rintro rfl
    exact hx.elim (by decide) fun h => hquote (hchar h.symm)
  · rintro rfl
    exact hx.elim (by decide) fun h => hbackslash (hchar h.symm)
  · rw [UInt8.lt_iff_toNat_lt]
    show ¬ x.toNat < 32
    omega

/-- A written character is gathered, in as many steps as bytes were written at most. -/
theorem reads_textBody_char (c : Char) :
    ∃ k ≤ (Utf8.encode (JsonValue.escape c)).length, ∀ {n before b rest s},
      Reads (textBody n ((String.utf8EncodeChar c).reverse ++ before)) b rest s →
      Reads (textBody (n + k) before) (Utf8.encode (JsonValue.escape c) ++ b) rest s := by
  rcases escape_cases c with ⟨x, hx, heq⟩ | ⟨hc, heq⟩ | ⟨hquote, hbackslash, hcontrol, heq⟩
  · rw [heq]
    refine ⟨1, by simp, fun {n before b rest s} h => ?_⟩
    exact reads_textBody_escape (reads_shortEscape hx (b ++ rest)) h
  · -- the four digits spell the number of the character
    let y := UInt8.ofNat c.toNat
    have hy : y.toNat = c.toNat := by
      show (UInt8.ofNat c.toNat).toNat = _
      rw [UInt8.toNat_ofNat']
      omega
    let digits := ('0' :: '0' :: Hex.encodeChars [y]).flatMap String.utf8EncodeChar
    have hspells : Hex.Spells [0, y] ('0' :: '0' :: Hex.encodeChars [y]) :=
      .cons (Or.inl (by decide)) (Or.inl (by decide)) (Hex.spells_encodeChars [y])
    have hbytes : Utf8.encode (JsonValue.escape c) = 0x5C :: 0x75 :: digits := by
      rw [heq, Utf8.encode_append]
      show [0x5C, 0x75, 0x30, 0x30] ++ (String.ofList (Hex.encodeChars [y])).toList.flatMap _ = _
      rw [String.toList_ofList]
      rfl
    have hread : ∀ rest, Reads escapedChar (0x75 :: digits) rest c := by
      intro rest
      unfold escapedChar
      refine (reads_nextInText 0x75 (digits ++ rest)).bind ?_
      refine (reads_hexEscape hspells.length_bytes (Hex.decodePairs_of_spells hspells 0)
        rest).bind_last ?_
      have hword : Bytes.ofWord [0, y] = c.toNat := by
        show (0 * 256 + 0) * 256 + y.toNat = c.toNat
        omega
      have hlow : (0xDC00 ≤ c.toNat && c.toNat ≤ 0xDFFF) = false := by
        rw [Bool.and_eq_false_iff]
        exact Or.inl (decide_eq_false (by omega))
      have hhigh : (0xD800 ≤ c.toNat && c.toNat ≤ 0xDBFF) = false := by
        rw [Bool.and_eq_false_iff]
        exact Or.inl (decide_eq_false (by omega))
      rw [hword]
      simp only [hlow, hhigh, Bool.false_eq_true, if_false]
      rw [show Char.ofNat c.toNat = c from Char.ofNat_toNat c]
      exact Reads.pure c rest
    rw [hbytes]
    exact ⟨1, by simp, fun {n before b rest s} h => reads_textBody_escape (hread (b ++ rest)) h⟩
  · have hbytes : Utf8.encode (JsonValue.escape c) = String.utf8EncodeChar c := by
      rw [heq]
      unfold Utf8.encode
      simp
    rw [hbytes]
    refine ⟨(String.utf8EncodeChar c).length, Nat.le_refl _, fun {n before b rest s} h => ?_⟩
    exact reads_textBody_plains
      (fun x hx => plain_of_mem_encodeChar hquote hbackslash hcontrol hx) n before h

/-- The text that is left, up to its closing quote. -/
theorem reads_textBody (cs : List Char) {n : Nat} {before rest : Bytes} {s : String}
    (hn : (cs.flatMap fun c => Utf8.encode (JsonValue.escape c)).length < n)
    (hs : Utf8.decode (before.reverse ++ cs.flatMap String.utf8EncodeChar) = .ok s) :
    Reads (textBody n before)
      ((cs.flatMap fun c => Utf8.encode (JsonValue.escape c)) ++ [0x22]) rest s := by
  induction cs generalizing n before with
  | nil =>
    obtain ⟨m, rfl⟩ : ∃ m, n = m + 1 := ⟨n - 1, by omega⟩
    rw [List.flatMap_nil, List.append_nil] at hs
    exact reads_textBody_end hs
  | cons c cs ih =>
    obtain ⟨k, hk, hchar⟩ := reads_textBody_char c
    rw [List.flatMap_cons, List.length_append] at hn
    obtain ⟨m, rfl⟩ : ∃ m, n = m + k := ⟨n - k, by omega⟩
    rw [List.flatMap_cons, List.append_assoc]
    refine hchar (ih (by omega) ?_)
    rw [List.reverse_append, List.reverse_reverse, List.append_assoc]
    exact hs

/-- A quoted text is read as the text, whatever characters it has. -/
theorem reads_text (s : String) (rest : Bytes) :
    Reads text ((s.toList.flatMap fun c => Utf8.encode (JsonValue.escape c)) ++ [0x22]) rest s := by
  unfold text
  refine (reads_left _).bind_look (reads_textBody s.toList ?_ (Utf8.decode_encode s))
  simp only [List.length_append, List.length_singleton]
  omega

/-! ## Whole numbers -/

/-- Whether a number ends in front of these bytes. -/
def EndsNumber (rest : Bytes) : Prop :=
  ∀ b ∈ rest.head?, isDigit b = false ∧ b ≠ 0x2E ∧ b ≠ 0x65 ∧ b ≠ 0x45

/-- A digit is written in one byte, which is a digit of the same value. -/
theorem encodeChar_digit {c : Char} (hc : c.isDigit = true) :
    ∃ b, String.utf8EncodeChar c = [b] ∧ isDigit b = true ∧ digitValue b = c.toNat - 48 := by
  have hrange : 48 ≤ c.toNat ∧ c.toNat ≤ 57 := by
    simpa [Char.isDigit, UInt32.le_iff_toNat_le] using hc
  have hb : (UInt8.ofNat c.toNat).toNat = c.toNat := by
    rw [UInt8.toNat_ofNat']
    omega
  refine ⟨UInt8.ofNat c.toNat, ?_, ?_, ?_⟩
  · have hc : Char.ofNat c.toNat = c := Char.ofNat_toNat c
    have hencode := Utf8.encodeChar_ascii (a := UInt8.ofNat c.toNat) (by omega)
    rwa [hb, hc] at hencode
  · unfold isDigit
    rw [Bool.and_eq_true, decide_eq_true_eq, decide_eq_true_eq, UInt8.le_iff_toNat_le,
      UInt8.le_iff_toNat_le, hb]
    exact hrange
  · unfold digitValue
    rw [hb]

theorem reads_afterWhole {rest : Bytes} (hend : EndsNumber rest) (n : Nat) :
    Reads (afterWhole true n) [] rest (.integer n) := by
  unfold afterWhole
  refine (reads_peek rest).bind_look ?_
  cases rest with
  | nil => exact Reads.pure _ []
  | cons b rest =>
    obtain ⟨-, hpoint, hlower, hupper⟩ := hend b rfl
    rw [List.head?_cons]
    split
    · next h => exact absurd (Option.some.inj h) hpoint
    · next h => exact absurd (Option.some.inj h) hlower
    · next h => exact absurd (Option.some.inj h) hupper
    · exact Reads.pure _ (b :: rest)

/-- The digits that are left are read to the end of the number, if it fits 64 bits. -/
theorem reads_wholeDigits {ds : List Char} (hds : ∀ c ∈ ds, c.isDigit = true) {k n : Nat}
    (hk : (ds.flatMap String.utf8EncodeChar).length ≤ k)
    (hmax : Nat.ofDigitChars 10 ds n ≤ maxSignificand) {rest : Bytes} (hend : EndsNumber rest) :
    Reads (wholeDigits k true n) (ds.flatMap String.utf8EncodeChar) rest
      (.integer (Nat.ofDigitChars 10 ds n)) := by
  induction ds generalizing k n with
  | nil =>
    rw [Nat.ofDigitChars_nil, List.flatMap_nil]
    cases k with
    | zero => exact reads_afterWhole hend n
    | succ k =>
      unfold wholeDigits
      refine (reads_peek rest).bind_look ?_
      cases rest with
      | nil => exact reads_afterWhole hend n
      | cons b rest =>
        simp only [List.head?_cons, (hend b rfl).1, Bool.false_eq_true, if_false]
        exact reads_afterWhole hend n
  | cons c ds ih =>
    obtain ⟨b, hb, hdigit, hvalue⟩ := encodeChar_digit (hds c List.mem_cons_self)
    rw [List.flatMap_cons, hb, List.length_append, List.length_singleton] at hk
    obtain ⟨k, rfl⟩ : ∃ m, k = m + 1 := ⟨k - 1, by omega⟩
    rw [Nat.ofDigitChars_cons] at hmax ⊢
    have hnext : 10 * n + (c.toNat - '0'.toNat) = n * 10 + digitValue b := by
      rw [hvalue, Nat.mul_comm]
      rfl
    rw [hnext] at hmax ⊢
    -- the number only grows as more digits are read
    have hfits : ¬ maxSignificand < n * 10 + digitValue b := by
      rw [Nat.ofDigitChars_eq_ofDigitChars_zero] at hmax
      have hgrow := Nat.le_mul_of_pos_left (n * 10 + digitValue b)
        (Nat.pow_pos (n := ds.length) (show 0 < 10 by decide))
      omega
    have hrest := ih (fun c hc => hds c (List.mem_cons_of_mem _ hc))
      (show (ds.flatMap String.utf8EncodeChar).length ≤ k by omega) hmax
    unfold wholeDigits
    rw [List.flatMap_cons, hb]
    refine (reads_peek _).bind_look ?_
    simp only [List.cons_append, List.head?_cons, hdigit, if_true,
      if_neg hfits]
    exact (reads_skip b _).bind hrest

theorem head_toDigits {n : Nat} (hn : 0 < n) : (Nat.toDigits 10 n).head? ≠ some '0' := by
  induction n using Nat.strongRecOn with
  | ind n ih =>
    by_cases hsmall : n < 10
    · rw [Nat.toDigits_of_lt_base hsmall]
      have : ∀ m < 10, 0 < m → [Nat.digitChar m].head? ≠ some '0' := by decide
      exact this n hsmall hn
    · have hlarge : 10 ≤ n := Nat.le_of_not_lt hsmall
      rw [Nat.toDigits_of_base_le (by decide) hlarge]
      have hne : Nat.toDigits 10 (n / 10) ≠ [] := Nat.toDigits_ne_nil
      have hhead := ih (n / 10) (by omega) (by omega)
      cases hds : Nat.toDigits 10 (n / 10) with
      | nil => exact absurd hds hne
      | cons d ds =>
        rw [hds] at hhead
        exact hhead

/-- The digits of a whole number of 64 bits are read as the number. -/
theorem reads_number {n : Nat} (hn : n ≤ maxSignificand) {rest : Bytes} (hend : EndsNumber rest) :
    Reads (number true) (Utf8.encode n.repr) rest (.integer n) := by
  have hds : ∀ c ∈ Nat.toDigits 10 n, c.isDigit = true := fun c hc =>
    Nat.isDigit_of_mem_toDigits (by decide) (by decide) hc
  have hvalue : Nat.ofDigitChars 10 (Nat.toDigits 10 n) 0 = n :=
    Nat.ofDigitChars_toDigits (by decide) (by decide)
  have hbytes : Utf8.encode n.repr = (Nat.toDigits 10 n).flatMap String.utf8EncodeChar := by
    unfold Utf8.encode
    rw [Nat.toList_repr]
  rw [hbytes]
  unfold number
  by_cases hzero : n = 0
  · subst hzero
    rw [Nat.toDigits_zero]
    refine (reads_next 0x30 rest).bind_last ?_
    simp only [if_true]
    refine (reads_peek rest).bind_look ?_
    cases rest with
    | nil => exact reads_afterWhole hend 0
    | cons b rest =>
      simp only [List.head?_cons, (hend b rfl).1, Bool.false_eq_true, if_false]
      exact reads_afterWhole hend 0
  · have hhead := head_toDigits (Nat.pos_of_ne_zero hzero)
    cases hlist : Nat.toDigits 10 n with
    | nil => exact absurd hlist Nat.toDigits_ne_nil
    | cons c ds =>
      rw [hlist] at hds hvalue hhead
      obtain ⟨b, hb, hdigit, hfirst⟩ := encodeChar_digit (hds c List.mem_cons_self)
      have hrange : 48 ≤ c.toNat := by
        have hc := hds c List.mem_cons_self
        simp only [Char.isDigit, ge_iff_le, Bool.and_eq_true, decide_eq_true_eq,
          UInt32.le_iff_toNat_le] at hc
        exact hc.1
      have hne : b ≠ 48 := by
        rintro rfl
        have hc : c.toNat - 48 = 0 := hfirst.symm
        have hc : c = '0' := Char.toNat_inj.mp (show c.toNat = 48 by omega)
        exact hhead (congrArg some hc)
      have hvalue : Nat.ofDigitChars 10 ds (digitValue b) = n := by
        rw [Nat.ofDigitChars_cons, Nat.mul_zero, Nat.zero_add] at hvalue
        rwa [hfirst]
      have hrest := reads_wholeDigits (fun c hc => hds c (List.mem_cons_of_mem _ hc))
        (Nat.le_add_right _ rest.length) (hvalue ▸ hn) hend
      rw [hvalue, ← List.length_append] at hrest
      rw [List.flatMap_cons, hb]
      refine (reads_next b _).bind ?_
      simp only [if_neg hne, hdigit, if_true]
      exact (reads_left _).bind_look hrest

end SealedRecords.Json
