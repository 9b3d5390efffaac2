import SealedRecords.Proofs.Text.Clean

/-!
# References as texts

A reference is any sequence of bytes, and it reaches people as a text. Where its bytes
are a text without control characters it is that text; any other reference is put in
hexadecimal. Both ways tell the bytes, since UTF-8 has one form for each text and
lower-case hexadecimal one for each sequence of bytes:

> `text?_eq_some_iff`: a reference reads as a text exactly if it is the UTF-8 form of it.

> `isHexOf_iff`: there is one reference that is the hexadecimal form of another.

So what is shown is without control characters, `clean_display`, and it leaves open at
most whether it is the reference itself or the hexadecimal form of another one,
`display_eq_iff`.
-/

namespace SealedRecords

namespace KeyRef

variable {r a b : KeyRef} {s : String}

/-! ## Reading -/

/-- A reference reads as a text exactly if it is the UTF-8 form of it. -/
theorem text?_eq_some_iff : r.text? = some s ↔ r.bytes = Utf8.encode s := by
  rw [← Utf8.decode_eq_ok_iff, text?]
  cases Utf8.decode r.bytes <;> simp [Except.toOption]

@[simp] theorem text?_ofText (s : String) : (ofText s).text? = some s :=
  text?_eq_some_iff.mpr rfl

theorem eq_ofText_iff : r = ofText s ↔ r.bytes = Utf8.encode s := by
  constructor
  · intro h
    rw [h]
    rfl
  · intro h
    cases r
    exact congrArg KeyRef.mk h

theorem text?_eq_none_iff : r.text? = none ↔ ∀ s, r.bytes ≠ Utf8.encode s := by
  rw [Option.eq_none_iff_forall_not_mem]
  exact forall_congr' fun s => not_congr text?_eq_some_iff

/-! ## Showing -/

/-- A reference is not fit to be shown as it is: it is no text, or one with a control character. -/
def Unprintable (r : KeyRef) : Prop :=
  (∀ s, r.bytes ≠ Utf8.encode s) ∨
    ∃ s, r.bytes = Utf8.encode s ∧ ∃ c ∈ s.toList, IsControlCode c.toNat

/-- A reference is the ASCII text `0x` followed by another one in lower-case hexadecimal. -/
def IsHexOf (b a : KeyRef) : Prop :=
  ∃ digits : String, b.bytes = Utf8.encode ("0x" ++ digits) ∧ Hex.Spells a.bytes digits.toList ∧
    ∀ c ∈ digits.toList, c.isUpper = false

/-- There is one reference that is the hexadecimal form of another. -/
theorem isHexOf_iff : b.IsHexOf a ↔ b = ofText a.hexText := by
  rw [eq_ofText_iff]
  constructor
  · intro h
    obtain ⟨digits, hb, hdigits⟩ := h
    have hwritten : digits = Hex.encode a.bytes := by
      rw [Hex.encode, ← Hex.spells_lower_iff.mp hdigits, String.ofList_toList]
    rw [hb, hwritten]
    rfl
  · intro h
    refine ⟨Hex.encode a.bytes, h, ?_⟩
    rw [Hex.spells_lower_iff, Hex.encode, String.toList_ofList]

theorem clean_hexText (r : KeyRef) : Clean r.hexText :=
  Clean.append (by decide) (Clean.hex r.bytes)

theorem hexText_injective (h : a.hexText = b.hexText) : a = b := by
  have hdigits : Hex.encode a.bytes = Hex.encode b.bytes := by
    have hchars := congrArg String.toList h
    simp only [hexText, String.toList_append] at hchars
    exact String.toList_inj.mp (List.append_cancel_left hchars)
  have hbytes := Hex.encode_injective hdigits
  cases a
  cases b
  exact congrArg KeyRef.mk hbytes

/-- A reference is shown in hexadecimal if it is not fit to be shown as it is, and else as
it is. -/
theorem display_cases (r : KeyRef) :
    (r.Unprintable ∧ r.display = r.hexText) ∨
      ∃ s, r = ofText s ∧ Clean s ∧ r.display = s := by
  cases htext : r.text? with
  | none =>
    left
    refine ⟨Or.inl (text?_eq_none_iff.mp htext), ?_⟩
    simp [display, htext]
  | some s =>
    have hbytes := text?_eq_some_iff.mp htext
    cases hcontrol : s.toList.any isControl with
    | true =>
      left
      obtain ⟨c, hc, hcode⟩ := List.any_eq_true.mp hcontrol
      refine ⟨Or.inr ⟨s, hbytes, c, hc, isControl_iff.mp hcode⟩, ?_⟩
      simp only [display, htext, hcontrol, if_true]
    | false =>
      right
      refine ⟨s, eq_ofText_iff.mpr hbytes, any_isControl_eq_false_iff.mp hcontrol, ?_⟩
      simp [display, htext, hcontrol]

/-- A text without control characters is fit to be shown as it is. -/
theorem not_unprintable_ofText (hs : Clean s) : ¬ (ofText s).Unprintable := by
  intro h
  rcases h with hnone | ⟨t, ht, c, hc, hcode⟩
  · exact hnone s rfl
  · obtain rfl := Utf8.encode_injective ht
    exact hs c hc hcode

theorem display_ofText (hs : Clean s) : (ofText s).display = s := by
  simp [display, any_isControl_eq_false_iff.mpr hs]

theorem Unprintable.display (h : r.Unprintable) : r.display = r.hexText := by
  rcases r.display_cases with ⟨-, hhex⟩ | ⟨s, rfl, hs, -⟩
  · exact hhex
  · exact absurd h (not_unprintable_ofText hs)

/-- What is shown has no control character, whatever the bytes are. -/
theorem clean_display (r : KeyRef) : Clean r.display := by
  rcases r.display_cases with ⟨-, hhex⟩ | ⟨s, -, hs, hshown⟩
  · rw [hhex]
    exact clean_hexText r
  · rw [hshown]
    exact hs

/-- A reference that is the hexadecimal form of one that is not fit to be shown is shown as
that one is. -/
theorem Unprintable.display_eq (ha : a.Unprintable) (hb : b.IsHexOf a) : a.display = b.display := by
  rw [isHexOf_iff.mp hb, ha.display, display_ofText (clean_hexText a)]

/-- Two references that are shown alike are the same, or one is not fit to be shown and the
other is its hexadecimal form. -/
theorem display_eq_iff (hne : a ≠ b) :
    a.display = b.display ↔
      (a.Unprintable ∧ b.IsHexOf a) ∨ (b.Unprintable ∧ a.IsHexOf b) := by
  constructor
  · intro h
    rcases a.display_cases with ⟨ha, hahex⟩ | ⟨s, has, -, hashown⟩ <;>
      rcases b.display_cases with ⟨hb, hbhex⟩ | ⟨t, hbt, -, hbshown⟩
    · -- both in hexadecimal, so they have the same bytes
      exact absurd (hexText_injective (by rw [← hahex, h, hbhex])) hne
    · exact Or.inl ⟨ha, isHexOf_iff.mpr (by rw [hbt, ← hbshown, ← h, hahex])⟩
    · exact Or.inr ⟨hb, isHexOf_iff.mpr (by rw [has, ← hashown, h, hbhex])⟩
    · -- both as they are, so they are the same text
      exact absurd (by rw [has, hbt, ← hashown, ← hbshown, h]) hne
  · intro h
    rcases h with ⟨ha, hb⟩ | ⟨hb, ha⟩
    · exact ha.display_eq hb
    · exact (hb.display_eq ha).symm

end KeyRef

end SealedRecords
