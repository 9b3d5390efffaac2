import SealedRecords.Text.Hex
import SealedRecords.Proofs.Text.Utf8

/-!
# Hexadecimal texts and the bytes they spell

A byte is spelled by two digits, each in either case, and blanks may stand around
the digits of a text. `Spells` and `Hex.Written` say this without mention of the
reader, which looks at the parity of the number of digits first and then at one
digit after the other.

> `decodeTrimmed_eq_ok_iff`: a text is read as `b` exactly if it is `b` written
> in hexadecimal, with blanks around it or not.

> `decode_eq_error_iff`: everything else is refused, for an odd number of bytes or
> else for the first byte that is no digit.
-/

namespace SealedRecords

namespace Blank

theorem dropWhile_blanks {l : List Char} (h : ∀ c ∈ l, isBlank c = true) (m : List Char) :
    (l ++ m).dropWhile isBlank = m.dropWhile isBlank := by
  induction l with
  | nil => rfl
  | cons c l ih =>
    rw [List.cons_append, List.dropWhile_cons_of_pos (h c List.mem_cons_self)]
    exact ih fun c hc => h c (List.mem_cons_of_mem _ hc)

/-- Only blanks are removed by a trim. -/
theorem exists_trimChars (cs : List Char) : ∃ l r, cs = l ++ trimChars cs ++ r ∧
    (∀ c ∈ l, isBlank c = true) ∧ ∀ c ∈ r, isBlank c = true := by
  let rest := cs.dropWhile isBlank
  refine ⟨cs.takeWhile isBlank, (rest.reverse.takeWhile isBlank).reverse, ?_, ?_, ?_⟩
  · have hrest : trimChars cs ++ (rest.reverse.takeWhile isBlank).reverse = rest := by
      rw [trimChars, ← List.reverse_append, List.takeWhile_append_dropWhile, List.reverse_reverse]
    rw [List.append_assoc, hrest, List.takeWhile_append_dropWhile]
  · intro c hc
    exact List.all_eq_true.mp List.all_takeWhile c hc
  · intro c hc
    exact List.all_eq_true.mp List.all_takeWhile c (List.mem_reverse.mp hc)

variable {cs m : List Char}

/-- `m` is what stands between the blanks at both ends of `cs`: there are only blanks around it, and
it neither begins nor ends with one. -/
structure Trims (cs m : List Char) : Prop where
  around : ∃ l r, cs = l ++ m ++ r ∧ (∀ c ∈ l, isBlank c = true) ∧ ∀ c ∈ r, isBlank c = true
  first : ∀ c ∈ m.head?, isBlank c = false
  last : ∀ c ∈ m.getLast?, isBlank c = false

theorem dropWhile_of_head? (h : ∀ c ∈ m.head?, isBlank c = false) : m.dropWhile isBlank = m := by
  cases m with
  | nil => rfl
  | cons c m =>
    have hc : isBlank c = false := h c rfl
    rw [List.dropWhile_cons_of_neg (by simp [hc])]

theorem head?_dropWhile (cs : List Char) :
    ∀ c ∈ (cs.dropWhile isBlank).head?, isBlank c = false := by
  intro c hc
  have hstop := List.head?_dropWhile_not isBlank cs
  rw [Option.mem_def.mp hc] at hstop
  exact hstop

/-- What a trim leaves is what stands between the blanks. -/
theorem trims_iff : Trims cs m ↔ m = trimChars cs := by
  constructor
  · intro h
    obtain ⟨l, r, rfl, hl, hr⟩ := h.around
    have hr' : ∀ c ∈ r.reverse, isBlank c = true := fun c hc => hr c (List.mem_reverse.mp hc)
    rw [trimChars, List.append_assoc, dropWhile_blanks hl]
    cases m with
    | nil =>
      rw [List.nil_append, ← List.append_nil r, dropWhile_blanks hr]
      rfl
    | cons c m =>
      have hlast : ∀ d ∈ (c :: m).reverse.head?, isBlank d = false := by
        rw [List.head?_reverse]
        exact h.last
      rw [dropWhile_of_head? (m := c :: m ++ r) h.first, List.reverse_append, dropWhile_blanks hr',
        dropWhile_of_head? hlast, List.reverse_reverse]
  · intro h
    subst h
    refine ⟨exists_trimChars cs, ?_, ?_⟩
    · -- what is left begins as it did before the blanks behind it were removed
      intro c hc
      have hprefix : trimChars cs <+: cs.dropWhile isBlank := by
        have hsuffix := List.dropWhile_suffix isBlank (l := (cs.dropWhile isBlank).reverse)
        rw [← List.reverse_prefix, List.reverse_reverse] at hsuffix
        exact hsuffix
      obtain ⟨r, hr⟩ := hprefix
      refine head?_dropWhile cs c ?_
      rw [← hr, List.head?_append, Option.mem_def.mp hc]
      rfl
    · unfold trimChars
      rw [List.getLast?_reverse]
      exact head?_dropWhile _

/-- Blanks around a text without blanks are removed by a trim, and nothing else. -/
theorem trimChars_of_blanks {l m r : List Char} (hl : ∀ c ∈ l, isBlank c = true)
    (hm : ∀ c ∈ m, isBlank c = false) (hr : ∀ c ∈ r, isBlank c = true) :
    trimChars (l ++ m ++ r) = m := by
  refine (trims_iff.mp ⟨⟨l, r, rfl, hl, hr⟩, ?_, ?_⟩).symm
  · intro c hc
    exact hm c (List.mem_of_mem_head? hc)
  · intro c hc
    exact hm c (List.mem_of_getLast? hc)

end Blank

namespace Hex

/-! ## Digits -/

/-- A character is the digit of a number below sixteen, in lower or in upper case. -/
def IsDigit (c : Char) (n : Nat) : Prop :=
  (n < 10 ∧ c.toNat = '0'.toNat + n) ∨
    (n < 6 + 10 ∧ 10 ≤ n ∧ (c.toNat = 'a'.toNat + (n - 10) ∨ c.toNat = 'A'.toNat + (n - 10)))

theorem IsDigit.lt {c : Char} {n : Nat} (h : IsDigit c n) : n < 16 ∧ c.toNat < 128 := by
  rcases h with ⟨h, hc⟩ | ⟨h, h', hc | hc⟩ <;>
    simp only [Char.reduceToNat] at hc <;> omega

theorem value?_eq_some_iff {b v : UInt8} :
    value? b = some v ↔ IsDigit (Char.ofNat b.toNat) v.toNat := by
  have hb := b.toNat_lt
  have hv := v.toNat_lt
  have hc : (Char.ofNat b.toNat).toNat = b.toNat := Utf8.toNat_val_ofNat (Or.inl (by omega))
  have hsub : ∀ k : UInt8, k ≤ b → (some (b - k) = some v ↔ b.toNat = k.toNat + v.toNat) := by
    intro k hk
    rw [Option.some.injEq, ← UInt8.toNat_inj, UInt8.toNat_sub_of_le _ _ hk]
    have := UInt8.le_iff_toNat_le.mp hk
    omega
  simp only [IsDigit, hc, Char.reduceToNat, value?, Utf8.lead_iff]
  split
  · next h =>
    rw [hsub 48 (UInt8.le_iff_toNat_le.mpr h.1)]
    simp only [UInt8.reduceToNat] at h ⊢
    omega
  · split
    · next h =>
      rw [hsub 87 (UInt8.le_iff_toNat_le.mpr (Nat.le_trans (by decide) h.1))]
      simp only [UInt8.reduceToNat] at h ⊢
      omega
    · split
      · next h =>
        rw [hsub 55 (UInt8.le_iff_toNat_le.mpr (Nat.le_trans (by decide) h.1))]
        simp only [UInt8.reduceToNat] at h ⊢
        omega
      · next h₁ h₂ h₃ =>
        simp only [UInt8.reduceToNat] at h₁ h₂ h₃
        simp only [reduceCtorEq, false_iff]
        omega

/-- A digit is written as one byte, whose value it is. -/
theorem encodeChar_of_isDigit {c : Char} {n : Nat} (h : IsDigit c n) :
    ∃ a, String.utf8EncodeChar c = [a] ∧ value? a = some (UInt8.ofNat n) := by
  have hlt := h.lt
  have ha : (UInt8.ofNat c.toNat).toNat = c.toNat := by
    rw [UInt8.toNat_ofNat']
    omega
  have hc : Char.ofNat (UInt8.ofNat c.toNat).toNat = c := by
    rw [ha, Char.ofNat_toNat]
  refine ⟨UInt8.ofNat c.toNat, ?_, ?_⟩
  · have := Utf8.encodeChar_ascii (a := UInt8.ofNat c.toNat) (by omega)
    rwa [hc] at this
  · have hn : (UInt8.ofNat n).toNat = n := by
      rw [UInt8.toNat_ofNat']
      omega
    rw [value?_eq_some_iff, hc, hn]
    exact h

theorem not_isBlank_of_isDigit {c : Char} {n : Nat} (h : IsDigit c n) :
    Blank.isBlank c = false := by
  simp only [IsDigit, Char.reduceToNat] at h
  simp [Blank.isBlank]
  omega

/-! ## Pairs of digits -/

/-- The characters are the digits of the bytes, two for each byte, the higher half first. -/
inductive Spells : Bytes → List Char → Prop
  | nil : Spells [] []
  | cons {x : UInt8} {h l : Char} {b : Bytes} {cs : List Char} : IsDigit h (x.toNat / 16) →
      IsDigit l (x.toNat % 16) → Spells b cs → Spells (x :: b) (h :: l :: cs)

namespace Spells

variable {b : Bytes} {cs : List Char}

theorem isDigit (h : Spells b cs) : ∀ c ∈ cs, ∃ n, IsDigit c n := by
  induction h with
  | nil => simp
  | cons hh hl _ ih =>
    intro c hc
    simp only [List.mem_cons] at hc
    rcases hc with rfl | rfl | hc
    · exact ⟨_, hh⟩
    · exact ⟨_, hl⟩
    · exact ih c hc

theorem not_isBlank (h : Spells b cs) : ∀ c ∈ cs, Blank.isBlank c = false := by
  intro c hc
  obtain ⟨n, hn⟩ := h.isDigit c hc
  exact not_isBlank_of_isDigit hn

/-- Digits are one byte each. -/
theorem length_bytes (h : Spells b cs) :
    (cs.flatMap String.utf8EncodeChar).length = 2 * b.length := by
  induction h with
  | nil => rfl
  | cons hh hl _ ih =>
    obtain ⟨a₁, e₁, -⟩ := encodeChar_of_isDigit hh
    obtain ⟨a₂, e₂, -⟩ := encodeChar_of_isDigit hl
    simp only [List.flatMap_cons, e₁, e₂, List.length_append, ih, List.length_cons, List.length_nil]
    omega

end Spells

theorem decodePairs_of_spells {b : Bytes} {cs : List Char} (h : Spells b cs) (i : Nat) :
    decodePairs i (cs.flatMap String.utf8EncodeChar) = .ok b := by
  induction h generalizing i with
  | nil => rfl
  | @cons x hi lo b cs hh hl _ ih =>
    obtain ⟨a₁, e₁, v₁⟩ := encodeChar_of_isDigit hh
    obtain ⟨a₂, e₂, v₂⟩ := encodeChar_of_isDigit hl
    have hx : UInt8.ofNat (x.toNat / 16) * 16 + UInt8.ofNat (x.toNat % 16) = x := by
      have := x.toNat_lt
      apply UInt8.toNat_inj.mp
      simp only [UInt8.toNat_add, UInt8.toNat_mul, UInt8.toNat_ofNat', UInt8.reduceToNat]
      omega
    simp only [List.flatMap_cons, e₁, e₂, List.singleton_append, decodePairs, v₁, v₂, ih, hx]
    rfl

theorem spells_of_decodePairs {i : Nat} {d b : Bytes} (h : decodePairs i d = .ok b) :
    ∃ cs, Spells b cs ∧ d = cs.flatMap String.utf8EncodeChar := by
  induction i, d using decodePairs.induct generalizing b with
  | case1 i =>
    obtain rfl : [] = b := Except.ok.inj h
    exact ⟨[], .nil, rfl⟩
  | case2 i a => cases h
  | case3 i a a' r hv => simp [decodePairs, hv] at h
  | case4 i a a' r x hv hv' => simp [decodePairs, hv, hv'] at h
  | case5 i a a' r x y hy hx ih =>
    simp only [decodePairs, hx, hy] at h
    cases hr : decodePairs (i + 2) r with
    | error e => simp [hr, Except.map] at h
    | ok b' =>
      obtain rfl : (x * 16 + y) :: b' = b := by simpa [hr, Except.map] using h
      obtain ⟨cs, hcs, hd⟩ := ih hr
      rw [value?_eq_some_iff] at hx hy
      have hbyte : (x * 16 + y).toNat = x.toNat * 16 + y.toNat := by
        have := hx.lt.1
        have := hy.lt.1
        simp only [UInt8.toNat_add, UInt8.toNat_mul, UInt8.reduceToNat]
        omega
      -- the two values are the halves of the byte
      have hhi : (x * 16 + y).toNat / 16 = x.toNat := by
        have := hy.lt.1
        omega
      have hlo : (x * 16 + y).toNat % 16 = y.toNat := by
        have := hy.lt.1
        omega
      have hlt : ∀ {u : UInt8} {n : Nat}, IsDigit (Char.ofNat u.toNat) n → u.toNat < 128 := by
        intro u n hu
        have hc : (Char.ofNat u.toNat).toNat = u.toNat :=
          Utf8.toNat_val_ofNat (Or.inl (by have := u.toNat_lt; omega))
        rw [← hc]
        exact hu.lt.2
      refine ⟨Char.ofNat a.toNat :: Char.ofNat a'.toNat :: cs, .cons ?_ ?_ hcs, ?_⟩
      · rwa [hhi]
      · rwa [hlo]
      · rw [List.flatMap_cons, List.flatMap_cons, Utf8.encodeChar_ascii (hlt hx),
          Utf8.encodeChar_ascii (hlt hy), ← hd]
        rfl

/-! ## Texts -/

/-- A text is `b` written in hexadecimal, with or without blanks around the digits. -/
def Written (b : Bytes) (s : String) : Prop :=
  ∃ l m r, s.toList = l ++ m ++ r ∧ (∀ c ∈ l, Blank.isBlank c = true) ∧
    (∀ c ∈ r, Blank.isBlank c = true) ∧ Spells b m

/-- Characters are read as `b` exactly if they spell `b`. -/
theorem decode_chars_eq_ok_iff {cs : List Char} {b : Bytes} :
    decode (cs.flatMap String.utf8EncodeChar) = .ok b ↔ Spells b cs := by
  constructor
  · intro h
    rw [decode] at h
    split at h
    · cases h
    · obtain ⟨cs', hcs', he⟩ := spells_of_decodePairs h
      have : String.ofList cs = String.ofList cs' :=
        Utf8.encode_injective (by simpa [Utf8.encode] using he)
      rwa [String.ofList_inj.mp this]
  · intro h
    rw [decode, if_neg (by rw [h.length_bytes]; omega)]
    exact decodePairs_of_spells h 0

/-- A text is read as `b` exactly if it is `b` written in hexadecimal. -/
theorem decodeTrimmed_eq_ok_iff {s : String} {b : Bytes} :
    decodeTrimmed s = .ok b ↔ Written b s := by
  rw [decodeTrimmed, Utf8.encode, Blank.trim, String.toList_ofList, decode_chars_eq_ok_iff]
  constructor
  · intro h
    obtain ⟨l, r, hs, hl, hr⟩ := Blank.exists_trimChars s.toList
    exact ⟨l, _, r, hs, hl, hr, h⟩
  · rintro ⟨l, m, r, hs, hl, hr, h⟩
    rwa [hs, Blank.trimChars_of_blanks hl h.not_isBlank hr]

/-- There is at most one byte sequence that a text spells. -/
theorem Written.unique {b b' : Bytes} {s : String} (h : Written b s) (h' : Written b' s) :
    b = b' := by
  rw [← decodeTrimmed_eq_ok_iff] at h h'
  exact Except.ok.inj (h.symm.trans h')

/-! ## Bytes that are refused -/

section

variable {a b : UInt8} {d : Bytes} {i k : Nat} {e : Fault}

/-- A byte is a digit, in lower or in upper case. -/
def IsDigitByte (b : UInt8) : Prop := ∃ n, IsDigit (Char.ofNat b.toNat) n

theorem isDigitByte_of_value? {v : UInt8} (h : value? b = some v) : IsDigitByte b :=
  ⟨v.toNat, value?_eq_some_iff.mp h⟩

theorem value?_eq_none_iff : value? b = none ↔ ¬ IsDigitByte b := by
  constructor
  · intro h hdigit
    obtain ⟨n, hn⟩ := hdigit
    have hval : value? b = some (UInt8.ofNat n) := by
      have hnat : (UInt8.ofNat n).toNat = n := by
        have := hn.lt.1
        rw [UInt8.toNat_ofNat']
        omega
      rw [value?_eq_some_iff, hnat]
      exact hn
    rw [h] at hval
    cases hval
  · intro h
    cases hv : value? b with
    | none => rfl
    | some v => exact absurd (isDigitByte_of_value? hv) h

/-- `b` is the first byte that is no digit, and `i` bytes stand before it. -/
def FirstNonDigit (d : Bytes) (b : UInt8) (i : Nat) : Prop :=
  ∃ digits rest, d = digits ++ b :: rest ∧ digits.length = i ∧ (∀ c ∈ digits, IsDigitByte c) ∧
    ¬ IsDigitByte b

theorem not_firstNonDigit_nil : ¬ FirstNonDigit [] b i := by
  intro h
  obtain ⟨digits, rest, hd, -⟩ := h
  simp at hd

theorem firstNonDigit_cons_of_not (h : ¬ IsDigitByte a) :
    FirstNonDigit (a :: d) b i ↔ b = a ∧ i = 0 := by
  constructor
  · intro hfirst
    obtain ⟨digits, rest, hd, hi, hdigits, -⟩ := hfirst
    cases digits with
    | nil =>
      obtain ⟨hab, -⟩ := List.cons.inj hd
      exact ⟨hab.symm, hi.symm⟩
    | cons c digits =>
      obtain ⟨rfl, -⟩ := List.cons.inj hd
      exact absurd (hdigits a List.mem_cons_self) h
  · intro hat
    obtain ⟨rfl, rfl⟩ := hat
    exact ⟨[], d, rfl, rfl, nofun, h⟩

theorem firstNonDigit_cons_of_digit (h : IsDigitByte a) :
    FirstNonDigit (a :: d) b i ↔ ∃ k, FirstNonDigit d b k ∧ i = k + 1 := by
  constructor
  · intro hfirst
    obtain ⟨digits, rest, hd, rfl, hdigits, hb⟩ := hfirst
    cases digits with
    | nil =>
      obtain ⟨rfl, -⟩ := List.cons.inj hd
      exact absurd h hb
    | cons c digits =>
      obtain ⟨-, hd⟩ := List.cons.inj hd
      exact ⟨digits.length, ⟨digits, rest, hd, rfl, (List.forall_mem_cons.mp hdigits).2, hb⟩, rfl⟩
  · intro hfirst
    obtain ⟨k, ⟨digits, rest, rfl, rfl, hdigits, hb⟩, rfl⟩ := hfirst
    exact ⟨a :: digits, rest, rfl, rfl, List.forall_mem_cons.mpr ⟨h, hdigits⟩, hb⟩

/-- Pairs of digits are read up to the first byte that is none, which is reported with the offset at
which it stands. -/
theorem decodePairs_eq_error_iff (heven : d.length % 2 = 0) : decodePairs i d = .error e ↔
    ∃ b k, FirstNonDigit d b k ∧ e = .invalidDigit b (i + k) := by
  induction i, d using decodePairs.induct generalizing e with
  | case1 i => simp [decodePairs, not_firstNonDigit_nil]
  | case2 i a => simp at heven
  | case3 i a a' r hv =>
    have ha := value?_eq_none_iff.mp hv
    have hread : decodePairs i (a :: a' :: r) = .error (.invalidDigit a i) := by
      simp only [decodePairs, hv]
    rw [hread]
    simp only [firstNonDigit_cons_of_not ha]
    constructor
    · intro h
      exact ⟨a, 0, ⟨rfl, rfl⟩, (Except.error.inj h).symm⟩
    · intro h
      obtain ⟨b, k, ⟨rfl, rfl⟩, rfl⟩ := h
      rfl
  | case4 i a a' r x hv' hv =>
    have ha := isDigitByte_of_value? hv
    have ha' := value?_eq_none_iff.mp hv'
    have hread : decodePairs i (a :: a' :: r) = .error (.invalidDigit a' (i + 1)) := by
      simp only [decodePairs, hv, hv']
    rw [hread]
    simp only [firstNonDigit_cons_of_digit ha, firstNonDigit_cons_of_not ha']
    constructor
    · intro h
      exact ⟨a', 1, ⟨0, ⟨rfl, rfl⟩, rfl⟩, (Except.error.inj h).symm⟩
    · intro h
      obtain ⟨b, k, ⟨k', ⟨rfl, rfl⟩, rfl⟩, rfl⟩ := h
      rfl
  | case5 i a a' r x y hy hx ih =>
    have ha := isDigitByte_of_value? hx
    have ha' := isDigitByte_of_value? hy
    have hr : r.length % 2 = 0 := by
      simp only [List.length_cons] at heven
      omega
    have hrest : decodePairs i (a :: a' :: r) = .error e ↔ decodePairs (i + 2) r = .error e := by
      simp only [decodePairs, hx, hy]
      cases decodePairs (i + 2) r <;> simp [Except.map]
    rw [hrest, ih hr]
    simp only [firstNonDigit_cons_of_digit ha, firstNonDigit_cons_of_digit ha']
    constructor
    · intro h
      obtain ⟨b, k, hfirst, rfl⟩ := h
      exact ⟨b, k + 1 + 1, ⟨k + 1, ⟨k, hfirst, rfl⟩, rfl⟩, by congr 1; omega⟩
    · intro h
      obtain ⟨b, k, ⟨k', ⟨k'', hfirst, rfl⟩, rfl⟩, rfl⟩ := h
      exact ⟨b, k'', hfirst, by congr 1; omega⟩

/-- Bytes are refused because of their number, or else because of the first one that is no digit. -/
theorem decode_eq_error_iff : decode d = .error e ↔
    (d.length % 2 = 1 ∧ e = .oddLength) ∨
      (d.length % 2 = 0 ∧ ∃ b i, FirstNonDigit d b i ∧ e = .invalidDigit b i) := by
  unfold decode
  by_cases hodd : d.length % 2 = 1
  · rw [if_pos hodd]
    simp [hodd, eq_comm]
  · have heven : d.length % 2 = 0 := by omega
    rw [if_neg hodd, decodePairs_eq_error_iff heven]
    simp [heven]

end

/-! ## Writing -/

theorem isDigit_digit {n : UInt8} (h : n.toNat < 16) : IsDigit (digit n) n.toNat := by
  unfold digit IsDigit
  by_cases h' : n.toNat < 10
  · rw [if_pos (UInt8.lt_iff_toNat_lt.mpr h')]
    left
    refine ⟨h', ?_⟩
    rw [show (Char.ofNat (48 + n.toNat)).toNat = 48 + n.toNat from
      Utf8.toNat_val_ofNat (Or.inl (by omega))]
    rfl
  · rw [if_neg (fun hn => h' (UInt8.lt_iff_toNat_lt.mp hn))]
    right
    refine ⟨h, by omega, Or.inl ?_⟩
    rw [show (Char.ofNat (87 + n.toNat)).toNat = 87 + n.toNat from
      Utf8.toNat_val_ofNat (Or.inl (by omega)), show 'a'.toNat = 97 from rfl]
    omega

theorem spells_encodeChars (b : Bytes) : Spells b (encodeChars b) := by
  induction b with
  | nil => exact .nil
  | cons x b ih =>
    have hx := x.toNat_lt
    have hhi : (x / 16).toNat = x.toNat / 16 := UInt8.toNat_div ..
    have hlo : (x % 16).toNat = x.toNat % 16 := UInt8.toNat_mod ..
    refine .cons ?_ ?_ ih
    · rw [← hhi]
      exact isDigit_digit (by omega)
    · rw [← hlo]
      exact isDigit_digit (by omega)

/-- The written form of bytes, followed by blanks or not, spells them. -/
theorem written_encode_append (b : Bytes) {t : String}
    (ht : ∀ c ∈ t.toList, Blank.isBlank c = true) : Written b (encode b ++ t) := by
  refine ⟨[], encodeChars b, t.toList, ?_, by simp, ht, spells_encodeChars b⟩
  simp [encode]

theorem written_encode (b : Bytes) : Written b (encode b) :=
  ⟨[], encodeChars b, [], by simp [encode], by simp, by simp, spells_encodeChars b⟩

/-- A line with the written form of bytes spells them. -/
theorem written_line (b : Bytes) : Written b (encode b ++ "\n") := by
  refine written_encode_append b fun c hc => ?_
  obtain rfl : c = '\n' := by simpa using hc
  rfl

theorem encode_injective {b b' : Bytes} (h : encode b = encode b') : b = b' := by
  have hb := written_encode b
  rw [h] at hb
  exact hb.unique (written_encode b')

theorem length_encode_bytes (b : Bytes) : (Utf8.encode (encode b)).length = 2 * b.length := by
  rw [Utf8.encode, encode, String.toList_ofList]
  exact (spells_encodeChars b).length_bytes

/-! ## Without capitals -/

section

variable {b : Bytes} {cs : List Char} {c : Char} {n : Nat}

theorem isUpper_eq_false_iff : c.isUpper = false ↔ c.toNat < 65 ∨ 90 < c.toNat := by
  show decide (c.val ≥ 65 ∧ c.val ≤ 90) = false ↔ _
  rw [decide_eq_false_iff_not]
  simp only [ge_iff_le, UInt32.le_iff_toNat_le]
  show ¬ (65 ≤ c.toNat ∧ c.toNat ≤ 90) ↔ _
  omega

/-- There is one digit for a number that is not in upper case. -/
theorem IsDigit.eq_digit (h : IsDigit c n) (hlower : c.isUpper = false) :
    c = digit (UInt8.ofNat n) := by
  have hlt := h.lt.1
  have hn : (UInt8.ofNat n).toNat = n := by
    rw [UInt8.toNat_ofNat']
    omega
  have hcode : c.toNat = if n < 10 then 48 + n else 87 + n := by
    rw [isUpper_eq_false_iff] at hlower
    simp only [IsDigit, Char.reduceToNat] at h
    split <;> omega
  have hsmall : UInt8.ofNat n < 10 ↔ n < 10 := by
    rw [UInt8.lt_iff_toNat_lt, hn]
    rfl
  rw [digit, hn]
  simp only [hsmall, ← hcode, Char.ofNat_toNat]

theorem isUpper_digit {n : UInt8} (h : n.toNat < 16) : (digit n).isUpper = false := by
  have hcode : (digit n).toNat = if n < 10 then 48 + n.toNat else 87 + n.toNat := by
    unfold digit
    refine Utf8.toNat_val_ofNat (Or.inl ?_)
    split <;> omega
  have hsmall : n < 10 ↔ n.toNat < 10 := UInt8.lt_iff_toNat_lt
  rw [isUpper_eq_false_iff, hcode]
  simp only [hsmall]
  split <;> omega

/-- What is written for bytes is the one spelling of them without capitals. -/
theorem spells_lower_iff : (Spells b cs ∧ ∀ c ∈ cs, c.isUpper = false) ↔ cs = encodeChars b := by
  constructor
  · intro h
    obtain ⟨hspells, hlower⟩ := h
    induction hspells with
    | nil => rfl
    | @cons x hi lo b cs hhi hlo _ ih =>
      simp only [List.forall_mem_cons] at hlower
      obtain ⟨hhigh, hlow, hrest⟩ := hlower
      have hdiv : UInt8.ofNat (x.toNat / 16) = x / 16 := by
        show UInt8.ofNat (x.toNat / (16 : UInt8).toNat) = x / 16
        rw [← UInt8.toNat_div, UInt8.ofNat_toNat]
      have hmod : UInt8.ofNat (x.toNat % 16) = x % 16 := by
        show UInt8.ofNat (x.toNat % (16 : UInt8).toNat) = x % 16
        rw [← UInt8.toNat_mod, UInt8.ofNat_toNat]
      rw [hhi.eq_digit hhigh, hlo.eq_digit hlow, ih hrest, hdiv, hmod]
      rfl
  · intro h
    subst h
    refine ⟨spells_encodeChars b, ?_⟩
    intro c hc
    obtain ⟨x, -, hx⟩ := List.mem_flatMap.mp hc
    have hbyte := x.toNat_lt
    simp only [List.mem_cons, List.not_mem_nil, or_false] at hx
    rcases hx with rfl | rfl
    · exact isUpper_digit (by rw [UInt8.toNat_div]; simp; omega)
    · exact isUpper_digit (by rw [UInt8.toNat_mod]; simp; omega)

end

end Hex

end SealedRecords
