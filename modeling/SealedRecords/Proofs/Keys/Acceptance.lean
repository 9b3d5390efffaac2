import Mathlib
import SealedRecords.Keys.Store
import SealedRecords.Proofs.Keys.NameMaps
import SealedRecords.Proofs.Text.Hex

/-!
# What a key store accepts

Names and keys are checked by tests on characters and lengths. Here the tests are
put as conditions, `IsKeyName` and `KeyStoreConfig.Accepts`, and every way into
the store is described by them:

> `insert_eq_ok_iff`, `insertHex_eq_ok_iff`: a key is taken exactly if its name
> and its length are acceptable, and then it stands under its name and everything
> else is as before.

`Sound` is what this makes of a store: names in order, all of them acceptable.
-/

namespace SealedRecords

/-- A key has the length that is asked for, or at least one byte if none is. -/
def KeyStoreConfig.Accepts (config : KeyStoreConfig) (key : Bytes) : Prop :=
  match config.keyLength with
  | some n => key.length = n
  | none => key ≠ []

namespace KeyStore

variable {s s' : KeyStore} {name n text : String} {key : Bytes}

/-- A text is not empty and made of ASCII letters, digits, `.`, `_` and `-`. -/
def IsKeyName (name : String) : Prop :=
  name ≠ "" ∧ ∀ c ∈ name.toList, c.isAlphanum = true ∨ c = '.' ∨ c = '_' ∨ c = '-'

theorem isNameChar_iff {c : Char} :
    isNameChar c = true ↔ c.isAlphanum = true ∨ c = '.' ∨ c = '_' ∨ c = '-' := by
  simp only [isNameChar, Char.isAlphanum, Char.isAlpha, Char.isUpper, Char.isLower, Char.isDigit,
    Char.le_def, Bool.or_eq_true, Bool.and_eq_true, decide_eq_true_eq, beq_iff_eq, ge_iff_le]
  grind

theorem isName_iff : isName name = true ↔ IsKeyName name := by
  simp only [isName, IsKeyName, Bool.and_eq_true, Bool.not_eq_true', List.all_eq_true,
    isNameChar_iff]
  rw [← Bool.not_eq_true, String.isEmpty_iff]

/-- The characters of a name are ASCII. -/
theorem IsKeyName.ascii (h : IsKeyName name) : ∀ c ∈ name.toList, c.toNat < 128 := by
  intro c hc
  rcases h.2 c hc with h | rfl | rfl | rfl
  · simp only [Char.isAlphanum, Char.isAlpha, Char.isUpper, Char.isLower, Char.isDigit,
      Bool.or_eq_true, Bool.and_eq_true, decide_eq_true_eq, ge_iff_le,
      UInt32.le_iff_toNat_le] at h
    show c.val.toNat < 128
    change ((65 ≤ c.val.toNat ∧ c.val.toNat ≤ 90) ∨ (97 ≤ c.val.toNat ∧ c.val.toNat ≤ 122)) ∨
      (48 ≤ c.val.toNat ∧ c.val.toNat ≤ 57) at h
    omega
  · decide
  · decide
  · decide

/-- What is written for bytes in hexadecimal may name a key. -/
theorem isKeyName_encode {b : Bytes} (hb : b ≠ []) : IsKeyName (Hex.encode b) := by
  refine ⟨fun h => ?_, fun c hc => Or.inl ?_⟩
  · have hnil : Hex.encode b = Hex.encode [] := h
    exact hb (Hex.encode_injective hnil)
  · rw [Hex.encode, String.toList_ofList] at hc
    obtain ⟨n, hdigit⟩ := (Hex.spells_encodeChars b).isDigit c hc
    simp only [Hex.IsDigit, Char.reduceToNat] at hdigit
    simp only [Char.isAlphanum, Char.isAlpha, Char.isUpper, Char.isLower, Char.isDigit,
      Bool.or_eq_true, Bool.and_eq_true, decide_eq_true_eq, ge_iff_le, UInt32.le_iff_toNat_le]
    show ((65 ≤ c.toNat ∧ c.toNat ≤ 90) ∨ (97 ≤ c.toNat ∧ c.toNat ≤ 122)) ∨
      (48 ≤ c.toNat ∧ c.toNat ≤ 57)
    omega

theorem expectedLength_eq_iff {config : KeyStoreConfig} :
    key.length = expectedLength config key ↔ config.Accepts key := by
  unfold expectedLength KeyStoreConfig.Accepts
  cases config.keyLength with
  | some n => rfl
  | none =>
    simp only [Option.getD_none, ne_eq, ← List.length_eq_zero_iff]
    omega

/-! ## Ways into the store -/

/-- A key is taken exactly if its name and its length are acceptable. -/
theorem insert_eq_ok_iff : s.insert name key = .ok s' ↔
    IsKeyName name ∧ s.config.Accepts key ∧
      s' = { s with keys := NameMap.put name key s.keys } := by
  unfold insert
  rw [← isName_iff, ← expectedLength_eq_iff]
  by_cases hn : isName name = true
  · by_cases hl : key.length = expectedLength s.config key
    · simp [hn, ← hl, eq_comm]
    · simp [hn, hl]
  · simp [hn]

theorem insertHex_eq_ok_iff : s.insertHex name text = .ok s' ↔
    ∃ key, Hex.Written key text ∧ s.insert name key = .ok s' := by
  unfold insertHex
  simp only [← Hex.decodeTrimmed_eq_ok_iff]
  cases Hex.decodeTrimmed text with
  | error e => simp
  | ok key => simp

/-! ## Sound stores -/

/-- The names of a store ascend, and all that it holds is acceptable. -/
structure Sound (s : KeyStore) : Prop where
  ascending : NameMap.Ascending s.keys
  name_of_get? : ∀ {name key}, s.get? name = some key → IsKeyName name
  accepts_of_get? : ∀ {name key}, s.get? name = some key → s.config.Accepts key

theorem sound_empty (config : KeyStoreConfig) : Sound { config := config } :=
  ⟨List.Pairwise.nil, nofun, nofun⟩

theorem get?_of_insert (h : s.insert name key = .ok s') (n : String) :
    s'.get? n = if name = n then some key else s.get? n := by
  obtain ⟨-, -, rfl⟩ := insert_eq_ok_iff.mp h
  exact NameMap.get?_put name key s.keys n

theorem Sound.of_insert (hs : Sound s) (h : s.insert name key = .ok s') : Sound s' := by
  have hget := get?_of_insert h
  obtain ⟨hname, haccepts, rfl⟩ := insert_eq_ok_iff.mp h
  refine ⟨hs.ascending.put name key, fun {n v} hv => ?_, fun {n v} hv => ?_⟩
  · rw [hget] at hv
    split at hv
    · next heq => exact heq ▸ hname
    · exact hs.name_of_get? hv
  · rw [hget] at hv
    split at hv
    · rwa [← Option.some.inj hv]
    · exact hs.accepts_of_get? hv

/-- Two sound stores with one configuration that answer alike are the same. -/
theorem Sound.ext (hs : Sound s) (hs' : Sound s') (hconfig : s.config = s'.config)
    (hget : ∀ n, s.get? n = s'.get? n) : s = s' := by
  obtain ⟨config, keys⟩ := s
  obtain ⟨config', keys'⟩ := s'
  obtain rfl : config = config' := hconfig
  exact congrArg (KeyStore.mk config) (hs.ascending.ext hs'.ascending hget)

end KeyStore

end SealedRecords
