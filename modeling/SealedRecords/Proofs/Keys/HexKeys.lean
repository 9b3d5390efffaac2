import SealedRecords.Proofs.Keys.Insertions

/-!
# Keys that are given in hexadecimal

A key can be given as a text. Then three checks stand in a row, on the digits, on the
name and on the length, and the first that fails is the one that is reported. Blanks
are removed before the digits are looked at, and digits are counted in bytes, so a
character beyond ASCII counts as several.

`HexRefusal` lists the reasons in that order, each with what has to hold for those
before it not to apply:

> `insertHex_eq_error_iff`: a text is refused for the first reason that applies.

> `insertHex_exact`: this, together with what is accepted and what becomes of the
> store.
-/

namespace SealedRecords

namespace KeyStore

variable {s s' : KeyStore} {config : KeyStoreConfig} {name text digits : String} {key : Bytes}
  {e : KeyStoreError}

/-- The first reason for which a key is refused whose text is `digits`, blanks around it left
out. -/
inductive HexRefusal (config : KeyStoreConfig) (name digits : String) : KeyStoreError → Prop
  /-- The text has an odd number of bytes. -/
  | oddLength (odd : (Utf8.encode digits).length % 2 = 1) :
    HexRefusal config name digits (.invalidHex name .oddLength)
  /-- A byte of the text is no digit, and it is the first. -/
  | invalidDigit (byte : UInt8) (index : Nat) (even : (Utf8.encode digits).length % 2 = 0)
    (first : Hex.FirstNonDigit (Utf8.encode digits) byte index) :
    HexRefusal config name digits (.invalidHex name (.invalidDigit byte index))
  /-- The text spells a key, and its name is none that a key may have. -/
  | invalidName (key : Bytes) (spelled : Hex.Spells key digits.toList)
    (unnamed : ¬ IsKeyName name) : HexRefusal config name digits (.invalidName name)
  /-- The text spells a key for a name, and the key has not the length that is asked for, or no
  byte if none is. -/
  | invalidKeyLength (key : Bytes) (spelled : Hex.Spells key digits.toList)
    (named : IsKeyName name) (unacceptable : ¬ config.Accepts key) :
    HexRefusal config name digits
      (.invalidKeyLength name (config.keyLength.getD 1) key.length)

/-! ## What is reported -/

/-- The name is checked before the key. -/
theorem insert_eq_error_iff : s.insert name key = .error e ↔
    (¬ IsKeyName name ∧ e = .invalidName name) ∨
      (IsKeyName name ∧ ¬ s.config.Accepts key ∧
        e = .invalidKeyLength name (s.config.keyLength.getD 1) key.length) := by
  unfold insert
  rw [← isName_iff, ← expectedLength_eq_iff]
  by_cases hname : isName name = true
  · by_cases hlength : key.length = expectedLength s.config key
    · simp [hname, ← hlength]
    · -- without a configured length only the empty key is refused, and one byte is expected
      have hexpected : expectedLength s.config key = s.config.keyLength.getD 1 := by
        unfold expectedLength at hlength ⊢
        cases hconfig : s.config.keyLength with
        | some n => rfl
        | none =>
          rw [hconfig, Option.getD_none] at hlength
          rw [Option.getD_none, Option.getD_none]
          omega
      rw [hexpected] at hlength ⊢
      simp [hname, hlength, eq_comm]
  · simp [hname, eq_comm]

theorem insertHex_eq (htrim : Blank.Trims text.toList digits.toList) : s.insertHex name text =
    match Hex.decode (Utf8.encode digits) with
    | .error e => .error (.invalidHex name e)
    | .ok key => s.insert name key := by
  have hread : Hex.decodeTrimmed text = Hex.decode (Utf8.encode digits) := by
    rw [Hex.decodeTrimmed, Blank.trim, ← Blank.trims_iff.mp htrim, String.ofList_toList]
  cases hdecode : Hex.decode (Utf8.encode digits) with
  | error fault => simp only [insertHex, hread, hdecode]
  | ok key => simp only [insertHex, hread, hdecode]

/-- A text is refused for the first reason that applies. -/
theorem insertHex_eq_error_iff (htrim : Blank.Trims text.toList digits.toList) :
    s.insertHex name text = .error e ↔ HexRefusal s.config name digits e := by
  have hread : ∀ key, Hex.decode (Utf8.encode digits) = .ok key ↔ Hex.Spells key digits.toList :=
    fun key => Hex.decode_chars_eq_ok_iff
  rw [insertHex_eq htrim]
  constructor
  · intro h
    cases hdecode : Hex.decode (Utf8.encode digits) with
    | error fault =>
      rw [hdecode] at h
      obtain rfl : .invalidHex name fault = e := Except.error.inj h
      rcases Hex.decode_eq_error_iff.mp hdecode with ⟨hodd, rfl⟩ | ⟨heven, b, i, hfirst, rfl⟩
      · exact .oddLength hodd
      · exact .invalidDigit b i heven hfirst
    | ok key =>
      rw [hdecode] at h
      rcases insert_eq_error_iff.mp h with ⟨hname, rfl⟩ | ⟨hname, haccepts, rfl⟩
      · exact .invalidName key ((hread key).mp hdecode) hname
      · exact .invalidKeyLength key ((hread key).mp hdecode) hname haccepts
  · intro h
    cases h with
    | oddLength odd => rw [Hex.decode_eq_error_iff.mpr (Or.inl ⟨odd, rfl⟩)]
    | invalidDigit byte index even first =>
      rw [Hex.decode_eq_error_iff.mpr (Or.inr ⟨even, byte, index, first, rfl⟩)]
    | invalidName key spelled unnamed =>
      rw [(hread key).mpr spelled]
      exact insert_eq_error_iff.mpr (Or.inl ⟨unnamed, rfl⟩)
    | invalidKeyLength key spelled named unacceptable =>
      rw [(hread key).mpr spelled]
      exact insert_eq_error_iff.mpr (Or.inr ⟨named, unacceptable, rfl⟩)

/-! ## What becomes of the store -/

theorem exec_insertHexInPlace_eq_error_iff (htrim : Blank.Trims text.toList digits.toList) :
    (insertHexInPlace name text).exec s = (.error e, s') ↔
      s' = s ∧ HexRefusal s.config name digits e := by
  rw [exec_insertHexInPlace, ← insertHex_eq_error_iff htrim]
  cases s.insertHex name text with
  | error e' => simp [settle, eq_comm, and_comm]
  | ok t => simp [settle]

/-- A key is added exactly if the text spells it and the store takes it. -/
theorem exec_insertHexInPlace_eq_ok_iff (htrim : Blank.Trims text.toList digits.toList) :
    (insertHexInPlace name text).exec s = (.ok (), s') ↔
      ∃ key, Hex.Spells key digits.toList ∧ (insertInPlace name key).exec s = (.ok (), s') := by
  have hread : ∀ key, Hex.decode (Utf8.encode digits) = .ok key ↔ Hex.Spells key digits.toList :=
    fun key => Hex.decode_chars_eq_ok_iff
  simp only [exec_insertHexInPlace, exec_insertInPlace, insertHex_eq htrim, ← hread]
  cases Hex.decode (Utf8.encode digits) with
  | error fault => simp [settle]
  | ok key => simp

theorem exec_insertInPlace_eq_ok_iff : (insertInPlace name key).exec s = (.ok (), s') ↔
    s.insert name key = .ok s' := by
  rw [exec_insertInPlace]
  cases s.insert name key with
  | error e => simp [settle]
  | ok t => simp [settle]

/-- A text and what a trim leaves of it. -/
theorem trims_trim (text : String) : Blank.Trims text.toList (Blank.trim text).toList := by
  rw [Blank.trims_iff, Blank.trim, String.toList_ofList]

/-- However a key is written, it is added as if it had been given itself. -/
theorem exec_insertHexInPlace_of_written (h : (insertInPlace name key).exec s = (.ok (), s'))
    (hwritten : Hex.Written key text) : (insertHexInPlace name text).exec s = (.ok (), s') := by
  obtain ⟨l, m, r, htext, hl, hr, hspells⟩ := hwritten
  refine (exec_insertHexInPlace_eq_ok_iff (trims_trim text)).mpr ⟨key, ?_, h⟩
  rw [Blank.trim, String.toList_ofList, htext,
    Blank.trimChars_of_blanks hl hspells.not_isBlank hr]
  exact hspells

/-- **A key in hexadecimal is accepted exactly if it is one, and refused for the first reason that
applies.** Whatever the store, the name and the text: the text without the blanks around it is
settled, and a key is added exactly if that spells it, with two digits of either case for each byte,
and the name and the length are acceptable. Then it stands under the name, and all else is as it
was. In any other case the store is as it was, and the error is the first that applies of: an odd
number of bytes, the first byte that is no digit with its offset, the name, the length of the
decoded key. So every spelling of a key that can be added, with any blanks around it, adds the key
like the key itself. -/
theorem insertHex_exact (s : KeyStore) (name text : String) :
    (∃ digits : String, Blank.Trims text.toList digits.toList) ∧
    (∀ digits : String, Blank.Trims text.toList digits.toList →
      (∀ key, (∃ s', (insertHexInPlace name text).exec s = (.ok (), s') ∧ s'.config = s.config ∧
          ∀ n, s'.get? n = if n = name then some key else s.get? n) ↔
        Hex.Spells key digits.toList ∧ IsKeyName name ∧ s.config.Accepts key) ∧
      ∀ e s', (insertHexInPlace name text).exec s = (.error e, s') ↔
        s' = s ∧ HexRefusal s.config name digits e) ∧
    ∀ key s', (insertInPlace name key).exec s = (.ok (), s') → ∀ spelling,
      Hex.Written key spelling → (insertHexInPlace name spelling).exec s = (.ok (), s') := by
  refine ⟨⟨_, trims_trim text⟩, ?_, ?_⟩
  · intro digits htrim
    refine ⟨?_, fun e s' => exec_insertHexInPlace_eq_error_iff htrim⟩
    intro key
    constructor
    · intro h
      obtain ⟨s', hadded, -, hget⟩ := h
      obtain ⟨key', hspells, hinsert⟩ := (exec_insertHexInPlace_eq_ok_iff htrim).mp hadded
      have hinto := exec_insertInPlace_eq_ok_iff.mp hinsert
      obtain ⟨hname, haccepts, -⟩ := insert_eq_ok_iff.mp hinto
      -- what is found under the name is what the text spells
      have hfound : s'.get? name = some key := by
        rw [hget, if_pos rfl]
      rw [get?_of_insert hinto, if_pos rfl] at hfound
      obtain rfl : key' = key := Option.some.inj hfound
      exact ⟨hspells, hname, haccepts⟩
    · intro h
      obtain ⟨hspells, hname, haccepts⟩ := h
      have hinto := insert_eq_ok_iff.mpr ⟨hname, haccepts, rfl⟩
      refine ⟨_, (exec_insertHexInPlace_eq_ok_iff htrim).mpr
        ⟨key, hspells, exec_insertInPlace_eq_ok_iff.mpr hinto⟩, config_of_insert hinto, ?_⟩
      intro n
      rw [get?_of_insert hinto]
      simp only [eq_comm]
  · intro key s' hadded spelling hwritten
    exact exec_insertHexInPlace_of_written hadded hwritten

/-- One byte in mixed case between a no-break space and an em space, two bytes of one character that
is no digit, and a bad name that is reported for want of anything before it. -/
theorem insertHex_exact_mixedCase :
    let s : KeyStore := { config := { keyLength := some 1 } }
    let text := String.ofList [Char.ofNat 0xA0, 'a', 'B', Char.ofNat 0x2003]
    let accent := String.ofList [' ', Char.ofNat 0xE9]
    (∃ s', (insertHexInPlace "k" text).exec s = (.ok (), s') ∧ s'.config = s.config ∧
      ∀ n, s'.get? n = if n = "k" then some [0xAB] else s.get? n) ∧
    (insertHexInPlace "../k" accent).exec s =
      (.error (.invalidHex "../k" (.invalidDigit 0xC3 0)), s) ∧
    (insertHexInPlace "../k" "abcd").exec s = (.error (.invalidName "../k"), s) ∧
    (insertHexInPlace "k" "abcd").exec s = (.error (.invalidKeyLength "k" 1 2), s) ∧
    (insertHexInPlace "k" "Ab ").exec s = (.ok (), { s with keys := [("k", [0xAB])] }) := by
  intro s text accent
  have hname : IsKeyName "k" := isName_iff.mp (by decide)
  have hbad : ¬ IsKeyName "../k" := fun h => absurd (isName_iff.mpr h) (by decide)
  have htrim : Blank.Trims text.toList "aB".toList := Blank.trims_iff.mpr (by decide)
  have htrimAccent : Blank.Trims accent.toList (String.singleton (Char.ofNat 0xE9)).toList :=
    Blank.trims_iff.mpr (by decide)
  have htrimPlain : Blank.Trims "abcd".toList "abcd".toList := Blank.trims_iff.mpr (by decide)
  have hspells : Hex.Spells [0xAB] "aB".toList := Hex.decode_chars_eq_ok_iff.mp (by decide)
  have htwo : Hex.Spells [0xAB, 0xCD] "abcd".toList := Hex.decode_chars_eq_ok_iff.mp (by decide)
  have hfirst : Hex.FirstNonDigit (Utf8.encode (String.singleton (Char.ofNat 0xE9))) 0xC3 0 :=
    ⟨[], [0xA9], by decide, rfl, nofun, Hex.value?_eq_none_iff.mp (by decide)⟩
  have hlength : ¬ s.config.Accepts [0xAB, 0xCD] := show ¬ 2 = 1 by decide
  obtain ⟨-, hmixed, hsame⟩ := insertHex_exact s "k" text
  obtain ⟨-, haccent, -⟩ := insertHex_exact s "../k" accent
  obtain ⟨-, hplain, -⟩ := insertHex_exact s "../k" "abcd"
  obtain ⟨-, hlong, -⟩ := insertHex_exact s "k" "abcd"
  refine ⟨?_, ?_, ?_, ?_, ?_⟩
  · exact ((hmixed "aB" htrim).1 [0xAB]).mpr ⟨hspells, hname, rfl⟩
  · exact ((haccent _ htrimAccent).2 _ s).mpr ⟨rfl, .invalidDigit 0xC3 0 (by decide) hfirst⟩
  · exact ((hplain _ htrimPlain).2 _ s).mpr ⟨rfl, .invalidName _ htwo hbad⟩
  · exact ((hlong _ htrimPlain).2 _ s).mpr ⟨rfl, .invalidKeyLength _ htwo hname hlength⟩
  · have hwritten : Hex.Written [0xAB] "Ab " := Hex.decodeTrimmed_eq_ok_iff.mp (by decide)
    exact hsame [0xAB] _ (exec_insertInPlace_eq_ok_iff.mpr
      (insert_eq_ok_iff.mpr ⟨hname, rfl, rfl⟩)) "Ab " hwritten

end KeyStore

end SealedRecords
