import SealedRecords.Proofs.Keys.HexKeys
import SealedRecords.Proofs.Keys.Loading

/-!
# Where the loading of a directory stops

A listing is read entry by entry, and the first entry that is refused decides what is
reported for the whole directory: what stands behind it is not looked at.

> `loadEntries_cons`: a listing is its first entry and then the rest.

> `loadEntries_eq_error_iff`: a refusal is that of an entry in front of which
> everything was taken.

One reason is of interest by itself, since it is told apart from the others later on: a
file that holds a key, under a name that no key may have.

> `ofDirectory_eq_invalidName_iff`: when this is the reason.
-/

namespace SealedRecords

namespace KeyStore

variable {s s' : KeyStore} {config : KeyStoreConfig} {dir file name stem : String} {count : Nat}
  {content : Bytes} {e : DirEntry} {es entries : List DirEntry} {err : KeyStoreError}

/-- A listing is its first entry and then the rest, with what the first entry left. -/
theorem loadEntries_cons (s : KeyStore) (dir : String) (count : Nat) (e : DirEntry)
    (es : List DirEntry) : (loadEntries s dir count (e :: es)).1 =
      match (loadEntries s dir count [e]).1 with
      | .ok s' => (loadEntries s' dir (count + (keyFiles [e]).length) es).1
      | .error err => .error err := by
  cases hk : keyName? (Utf8.lossy e.name) with
  | none => simp [loadEntries, keyFiles, hk]
  | some stem =>
    cases hkind : e.kind with
    | other | unreachable cause | «symlink» => simp [loadEntries, keyFiles, hk, hkind]
    | closedFile cause =>
      simp only [loadEntries, hk, hkind]
      split <;> rfl
    | file content =>
      simp only [loadEntries, keyFiles, hk, hkind]
      split
      · rfl
      · cases s.loadFile dir (Utf8.lossy e.name) stem content <;> simp [hk, hkind]

theorem length_keyFiles_cons (e : DirEntry) (es : List DirEntry) :
    (keyFiles (e :: es)).length = (keyFiles [e]).length + (keyFiles es).length := by
  rw [← List.length_append, keyFiles, keyFiles, keyFiles, ← List.filterMap_append]
  rfl

/-- A refusal is that of an entry in front of which everything was taken. -/
theorem loadEntries_eq_error_iff : (loadEntries s dir count es).1 = .error err ↔
    ∃ before e after s₁, es = before ++ e :: after ∧
      (loadEntries s dir count before).1 = .ok s₁ ∧
      (loadEntries s₁ dir (count + (keyFiles before).length) [e]).1 = .error err := by
  induction es generalizing s count with
  | nil => simp [loadEntries]
  | cons e es ih =>
    rw [loadEntries_cons]
    cases hfirst : (loadEntries s dir count [e]).1 with
    | error err' =>
      constructor
      · intro h
        exact ⟨[], e, es, s, rfl, rfl, hfirst.trans h⟩
      · intro h
        obtain ⟨before, e', after, s₁, hes, hbefore, hrefused⟩ := h
        cases before with
        | nil =>
          obtain ⟨rfl, -⟩ := List.cons.inj hes
          obtain rfl : s = s₁ := Except.ok.inj hbefore
          exact hfirst.symm.trans hrefused
        | cons first before =>
          obtain ⟨rfl, -⟩ := List.cons.inj hes
          rw [loadEntries_cons, hfirst] at hbefore
          cases hbefore
    | ok s' =>
      show (loadEntries s' dir (count + (keyFiles [e]).length) es).1 = .error err ↔ _
      rw [ih]
      constructor
      · intro h
        obtain ⟨before, e', after, s₁, hes, hbefore, hrefused⟩ := h
        refine ⟨e :: before, e', after, s₁, congrArg (e :: ·) hes, ?_, ?_⟩
        · rw [loadEntries_cons, hfirst]
          exact hbefore
        · rw [length_keyFiles_cons, ← Nat.add_assoc]
          exact hrefused
      · intro h
        obtain ⟨before, e', after, s₁, hes, hbefore, hrefused⟩ := h
        cases before with
        | nil =>
          obtain ⟨rfl, -⟩ := List.cons.inj hes
          obtain rfl : s = s₁ := Except.ok.inj hbefore
          cases hfirst.symm.trans hrefused
        | cons first before =>
          obtain ⟨rfl, rfl⟩ := List.cons.inj hes
          rw [loadEntries_cons, hfirst] at hbefore
          rw [length_keyFiles_cons, ← Nat.add_assoc] at hrefused
          exact ⟨before, e', after, s₁, rfl, hbefore, hrefused⟩

/-! ## Names that no key may have -/

theorem insertHex_eq_invalidName_iff {text : String} :
    s.insertHex stem text = .error (.invalidName name) ↔
      name = stem ∧ (∃ key, Hex.Written key text) ∧ ¬ IsKeyName stem := by
  unfold insertHex
  simp only [← Hex.decodeTrimmed_eq_ok_iff]
  cases Hex.decodeTrimmed text with
  | error fault => simp
  | ok key =>
    show s.insert stem key = .error (.invalidName name) ↔ _
    rw [insert_eq_error_iff]
    simp [and_comm]

theorem loadFile_eq_invalidName_iff :
    s.loadFile dir file stem content = .error (.invalidName name) ↔
      name = stem ∧ content.length ≤ s.config.maxFileSize ∧ (∃ key, HoldsKey content key) ∧
        ¬ IsKeyName stem := by
  unfold loadFile
  split
  case isTrue hsize =>
    simp
    omega
  case isFalse hsize =>
    have hsize : content.length ≤ s.config.maxFileSize := by omega
    cases htext : Utf8.decode content with
    | error fault =>
      have hnone : ¬ ∃ key, HoldsKey content key := by
        intro h
        obtain ⟨key, text, hcontent, -⟩ := h
        rw [Utf8.decode_eq_ok_iff.mpr hcontent] at htext
        cases htext
      simp [hnone]
    | ok text =>
      have hcontent := Utf8.decode_eq_ok_iff.mp htext
      have hholds : (∃ key, HoldsKey content key) ↔ ∃ key, Hex.Written key text := by
        refine exists_congr fun key => ?_
        constructor
        · intro h
          obtain ⟨text', hcontent', hwritten⟩ := h
          rwa [Utf8.encode_injective (hcontent.symm.trans hcontent')]
        · intro h
          exact ⟨text, hcontent, h⟩
      show s.insertHex stem text = .error (.invalidName name) ↔ _
      rw [insertHex_eq_invalidName_iff, hholds]
      simp [hsize]

/-- One entry is refused for its name if it is a file, comes within the number of keys, is not too
large and holds a key. -/
theorem loadEntry_eq_invalidName_iff :
    (loadEntries s dir count [e]).1 = .error (.invalidName stem) ↔
      ∃ content, e.Names stem ∧ e.kind = .file content ∧ count < s.config.maxKeys ∧
        content.length ≤ s.config.maxFileSize ∧ (∃ key, HoldsKey content key) ∧
        ¬ IsKeyName stem := by
  cases hk : keyName? (Utf8.lossy e.name) with
  | none => simp [loadEntries, names_iff, hk]
  | some name =>
    cases hkind : e.kind with
    | other | unreachable cause | «symlink» => simp [loadEntries, hk, hkind]
    | closedFile cause =>
      simp only [loadEntries, hk, hkind]
      split <;> simp
    | file content =>
      simp only [loadEntries, names_iff, hk, hkind]
      split
      case isTrue hmax =>
        simp
        omega
      case isFalse hmax =>
        have hroom : count < s.config.maxKeys := by omega
        have hload :
            s.loadFile dir (Utf8.lossy e.name) name content = .error (.invalidName stem) ↔ _ :=
          loadFile_eq_invalidName_iff
        have hentry : (stem = name ∧ content.length ≤ s.config.maxFileSize ∧
              (∃ key, HoldsKey content key) ∧ ¬ IsKeyName name) ↔
            ∃ content', some name = some stem ∧ EntryKind.file content = .file content' ∧
              count < s.config.maxKeys ∧ content'.length ≤ s.config.maxFileSize ∧
              (∃ key, HoldsKey content' key) ∧ ¬ IsKeyName stem := by
          constructor
          · intro h
            obtain ⟨rfl, hsize, hkey, hname⟩ := h
            exact ⟨content, rfl, rfl, hroom, hsize, hkey, hname⟩
          · intro h
            obtain ⟨content', hstem, hcontent, -, hsize, hkey, hname⟩ := h
            cases hstem
            cases hcontent
            exact ⟨rfl, hsize, hkey, hname⟩
        rw [← hentry, ← hload]
        cases s.loadFile dir (Utf8.lossy e.name) name content <;> simp

/-- Everything in a listing up to some file can be taken, and there is room for one key more. The
file holds a key, of whatever length, and what it is called is no name for a key. -/
def StopsAtName (config : KeyStoreConfig) (entries : List DirEntry) (stem : String) : Prop :=
  ∃ before e after content, entries = before ++ e :: after ∧ Loadable config before ∧
    (keyFiles before).length < config.maxKeys ∧ e.Names stem ∧ e.kind = .file content ∧
    content.length ≤ config.maxFileSize ∧ (∃ key, HoldsKey content key) ∧ ¬ IsKeyName stem

/-- A directory is refused for a name exactly if its listing stops there. -/
theorem ofDirectory_eq_invalidName_iff :
    (ofDirectory config dir (.ok entries)).1 = .error (.invalidName stem) ↔
      StopsAtName config entries stem := by
  show (loadEntries { config := config } dir 0 entries).1 = _ ↔ _
  rw [loadEntries_eq_error_iff]
  constructor
  · intro h
    obtain ⟨before, e, after, s₁, rfl, hbefore, hrefused⟩ := h
    have hbefore : (ofDirectory config dir (.ok before)).1 = .ok s₁ := hbefore
    obtain ⟨hload, rfl⟩ := ofDirectory_eq_ok_iff.mp hbefore
    rw [Nat.zero_add, loadEntry_eq_invalidName_iff] at hrefused
    obtain ⟨content, hstem, hkind, hroom, hsize, hkey, hname⟩ := hrefused
    exact ⟨before, e, after, content, rfl, hload, hroom, hstem, hkind, hsize, hkey, hname⟩
  · intro h
    obtain ⟨before, e, after, content, rfl, hload, hroom, hstem, hkind, hsize, hkey, hname⟩ := h
    refine ⟨before, e, after, _, rfl, ofDirectory_eq_ok_iff.mpr ⟨hload, rfl⟩, ?_⟩
    rw [Nat.zero_add, loadEntry_eq_invalidName_iff]
    exact ⟨content, hstem, hkind, hroom, hsize, hkey, hname⟩

end KeyStore

end SealedRecords
