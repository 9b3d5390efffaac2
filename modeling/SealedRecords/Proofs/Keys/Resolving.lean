import SealedRecords.Keys.Naming
import SealedRecords.Proofs.Keys.Insertions
import SealedRecords.Proofs.Text.References

/-!
# References and the names that they resolve through

A producer turns the name of a key into a reference, and a consumer turns the reference
into the name again. The bytes in between come with the envelope, so the consumer may be
handed any bytes at all.

> `key_provider_eq_some_iff`: a key is found for exactly those bytes that are the UTF-8
> form of its name.

> `ResolvesThrough.unique`: no two references lead to one name.

> `references_resolve`: both directions together, for the stores that a run of insertions
> makes.
-/

namespace SealedRecords

namespace KeyStore

variable {s : KeyStore} {r r' : KeyRef} {n : String} {key : Bytes}

/-! ## From references to names -/

/-- What is found for a reference that reads as a text is what stands under the text. -/
theorem provider_of_text? (h : r.text? = some n) : s.provider r = { key := s.get? n } := by
  simp only [provider, h]

/-- A reference that is no text has no key, and that is reported. -/
theorem provider_of_not_text (h : ∀ n, r.bytes ≠ Utf8.encode n) :
    s.provider r = { key := none, notes := [.unnamedReference r] } := by
  simp only [provider, KeyRef.text?_eq_none_iff.mpr h]

/-- The key under a reference is the one of the name that the reference spells. -/
theorem key_provider_eq_some_iff : (s.provider r).key = some key ↔
    ∃ name, r.bytes = Utf8.encode name ∧ s.get? name = some key := by
  simp only [← KeyRef.text?_eq_some_iff]
  cases htext : r.text? with
  | none => simp [provider, htext]
  | some name => simp [provider, htext]

/-- A reference is read as a name, and there is a key under the name. -/
def ResolvesThrough (s : KeyStore) (r : KeyRef) (n : String) : Prop :=
  r.text? = some n ∧ s.contains n = true

/-- There is one way to write a name as a reference. -/
theorem ResolvesThrough.unique (h : s.ResolvesThrough r n) (h' : s.ResolvesThrough r' n) :
    r = r' := by
  have hr : r = KeyRef.ofText n := KeyRef.eq_ofText_iff.mpr (KeyRef.text?_eq_some_iff.mp h.1)
  have hr' : r' = KeyRef.ofText n := KeyRef.eq_ofText_iff.mpr (KeyRef.text?_eq_some_iff.mp h'.1)
  rw [hr, hr']

/-! ## From names to references -/

/-- A name that an extractor gives becomes the reference that leads back to it. -/
theorem provider_ofText (s : KeyStore) (n : String) :
    s.provider (KeyRef.ofText n) = { key := s.get? n } :=
  provider_of_text? (KeyRef.text?_ofText n)

/-- **References resolve through the names that they spell.** Whatever calls a store was filled by,
and whatever bytes a reference has: it resolves to a key exactly if it is the UTF-8 form of a name
under which the store has the key, and that is the key of the last call under the name that was not
refused. No two references resolve through one name, and bytes that are not UTF-8 have no key. The
other way round, if a record has a name, its reference resolves to what stands under the name, and
without a name there is no reference. -/
theorem references_resolve (config : KeyStoreConfig) (calls : List Insertion)
    (record : List Entry) (s : KeyStore)
    (hrun : performAll { config := config } calls = (record, s)) :
    (∀ n key, n ∈ s.names ∧ s.get? n = some key ↔ Stands record n key) ∧
    (∀ r key, (s.provider r).key = some key ↔
      ∃ n ∈ s.names, r.bytes = Utf8.encode n ∧ s.get? n = some key) ∧
    (∀ r r' n, s.ResolvesThrough r n → s.ResolvesThrough r' n → r = r') ∧
    (∀ r, (∀ n, r.bytes ≠ Utf8.encode n) →
      s.provider r = { key := none, notes := [.unnamedReference r] }) ∧
    ∀ (α : Type) (name : String → α → Option String) (topic : String) (recordKey : α)
      (tape : RandomTape),
      (∀ n, name topic recordKey = some n →
        ∃ r, (Extractor.ofNames name topic recordKey).run tape = (.ok (some r), tape) ∧
          s.provider r = { key := s.get? n }) ∧
      (name topic recordKey = none →
        (Extractor.ofNames name topic recordKey).run tape = (.ok none, tape)) := by
  obtain rfl : (performAll { config := config } calls).1 = record := congrArg Prod.fst hrun
  obtain rfl : (performAll { config := config } calls).2 = s := congrArg Prod.snd hrun
  have hregistered : ∀ {n key}, (performAll { config := config } calls).2.get? n = some key →
      n ∈ (performAll { config := config } calls).2.names := fun hget =>
    mem_names_iff_contains.mpr (contains_iff.mpr ⟨_, hget⟩)
  refine ⟨?_, ?_, fun r r' n => ResolvesThrough.unique, fun r => provider_of_not_text, ?_⟩
  · intro n key
    -- there was nothing before the run
    have hempty : ({ config := config } : KeyStore).get? n ≠ some key := nofun
    have hstands := get?_performAll { config := config } calls n key
    simp only [hempty, false_and, or_false] at hstands
    rw [← hstands]
    exact ⟨And.right, fun hget => ⟨hregistered hget, hget⟩⟩
  · intro r key
    rw [key_provider_eq_some_iff]
    constructor
    · intro h
      obtain ⟨n, hbytes, hget⟩ := h
      exact ⟨n, hregistered hget, hbytes, hget⟩
    · intro h
      obtain ⟨n, -, hbytes, hget⟩ := h
      exact ⟨n, hbytes, hget⟩
  · intro α name topic recordKey tape
    have hextract : (Extractor.ofNames name topic recordKey).run tape =
        (.ok ((name topic recordKey).map KeyRef.ofText), tape) := rfl
    constructor
    · intro n hn
      refine ⟨KeyRef.ofText n, ?_, provider_ofText _ n⟩
      rw [hextract, hn]
      rfl
    · intro hn
      rw [hextract, hn]
      rfl

/-- The name `é` may not be the name of a key, and the bytes `C1 A1` are an overlong form of `a`:
neither resolves, while the key of `a` that replaced another one does. -/
theorem references_resolve_replaced :
    ∃ record s, performAll { config := { keyLength := some 1 } }
        [.plain "a" [1], .plain "é" [2], .hex "a" "03"] = (record, s) ∧
      (s.provider ⟨[0x61]⟩).key = some [3] ∧ (s.provider (KeyRef.ofText "é")).key = none ∧
      s.provider ⟨[0xC1, 0xA1]⟩ = { key := none, notes := [.unnamedReference ⟨[0xC1, 0xA1]⟩] } := by
  obtain ⟨-, hresolve, -, hnone, -⟩ := references_resolve { keyLength := some 1 }
    [.plain "a" [1], .plain "é" [2], .hex "a" "03"] _ _ rfl
  refine ⟨_, _, rfl, ?_, by decide, ?_⟩
  · exact (hresolve ⟨[0x61]⟩ [3]).mpr ⟨"a", by decide, by decide, by decide⟩
  · exact hnone _ (KeyRef.text?_eq_none_iff.mp (by decide))

end KeyStore

end SealedRecords
