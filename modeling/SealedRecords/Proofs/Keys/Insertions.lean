import SealedRecords.Proofs.Keys.Acceptance

/-!
# Insertions, one after the other

A key store lives in one place, and keys are added to it where it is. Here an
insertion is run like that: `StoreM` keeps what was changed before a refusal, so
it is a fact about the order of the checks, and no matter of course, that a
refused key leaves the store as it was.

> `exec_perform`: an insertion in place gives what `insert` and `insertHex` give,
> and a refused one gives the store back.

A run makes insertions one after the other, whatever becomes of each. `performAll`
keeps a record of it, and the store at the end is read off the record:

> `sound_performAll`: names in order and acceptable, keys of the right length.

> `get?_performAll`: under a name there is the key of the last insertion that was
> not refused, or what was there before the run.

Keys that come embedded are a run that ends at the first refusal,
`insertAll_eq_ok_iff` and `insertAll_eq_error_iff`.
-/

namespace SealedRecords

/-- A change of a key store that may be refused. What was changed before a refusal stays changed. -/
abbrev StoreM := ExceptT KeyStoreError (StateM KeyStore)

namespace StoreM

/-- What a change ends with on a store, and the store that it leaves. -/
def exec (x : StoreM α) (s : KeyStore) : Except KeyStoreError α × KeyStore := x.run.run s

theorem exec_bind (x : StoreM α) (f : α → StoreM β) (s : KeyStore) :
    (x >>= f).exec s =
      match x.exec s with
      | (.ok a, s') => (f a).exec s'
      | (.error e, s') => (.error e, s') := by
  show (ExceptT.bindCont f (x.exec s).1).run (x.exec s).2 = _
  rcases x.exec s with ⟨e | a, s'⟩
  · rfl
  · rfl

end StoreM

namespace KeyStore

/-! ## Insertions in place -/

/-- Refuses a text that may not name a key. -/
def checkName (name : String) : StoreM Unit :=
  if isName name then pure () else throw (.invalidName name)

/-- Refuses a key that has another length than the store asks for. -/
def checkKey (name : String) (key : Bytes) : StoreM Unit := do
  let expected := expectedLength (← get).config key
  if key.length = expected then pure ()
  else throw (.invalidKeyLength name expected key.length)

/-- Adds a key to a store where it is, or replaces the one under the same name. -/
def insertInPlace (name : String) (key : Bytes) : StoreM Unit := do
  checkName name
  checkKey name key
  modify fun s => { s with keys := NameMap.put name key s.keys }

/-- Adds a key that is given in hexadecimal to a store where it is. -/
def insertHexInPlace (name text : String) : StoreM Unit :=
  match Hex.decodeTrimmed text with
  | .error e => throw (.invalidHex name e)
  | .ok key => insertInPlace name key

/-- A call that adds a key. -/
inductive Insertion where
  | plain (name : String) (key : Bytes)
  | hex (name text : String)
  deriving DecidableEq, Repr

namespace Insertion

/-- The name under which a key is to be added. -/
def name : Insertion → String
  | plain name _ => name
  | hex name _ => name

/-- The key that a call is to add. -/
def Offers (key : Bytes) : Insertion → Prop
  | plain _ k => k = key
  | hex _ text => Hex.Written key text

/-- The store with the key of a call added. -/
def into (s : KeyStore) : Insertion → Except KeyStoreError KeyStore
  | plain name key => s.insert name key
  | hex name text => s.insertHex name text

/-- A call on a store where it is. -/
def perform : Insertion → StoreM Unit
  | plain name key => insertInPlace name key
  | hex name text => insertHexInPlace name text

/-- A call offers at most one key. -/
theorem Offers.unique {key key' : Bytes} {call : Insertion} (h : call.Offers key)
    (h' : call.Offers key') : key = key' := by
  cases call with
  | plain name k => exact h.symm.trans h'
  | hex name text => exact Hex.Written.unique h h'

end Insertion

/-- A store that takes what came of a call, and stays as it is if nothing did. -/
def settle (s : KeyStore) : Except KeyStoreError KeyStore → Except KeyStoreError Unit × KeyStore
  | .ok s' => (.ok (), s')
  | .error e => (.error e, s)

variable {s s' : KeyStore} {name n text : String} {key : Bytes} {call : Insertion}
  {calls : List Insertion} {e : KeyStoreError}

theorem exec_checkName (name : String) (s : KeyStore) : (checkName name).exec s =
    (if isName name then .ok () else .error (.invalidName name), s) := by
  unfold checkName
  split
  · rfl
  · rfl

theorem exec_checkKey (name : String) (key : Bytes) (s : KeyStore) : (checkKey name key).exec s =
    (if key.length = expectedLength s.config key then .ok ()
      else .error (.invalidKeyLength name (expectedLength s.config key) key.length), s) := by
  show (if key.length = expectedLength s.config key then (pure () : StoreM Unit)
    else throw (.invalidKeyLength name (expectedLength s.config key) key.length)).exec s = _
  split
  · rfl
  · rfl

/-- The checks come before the change, so a refused key leaves the store as it was. -/
theorem exec_insertInPlace (name : String) (key : Bytes) (s : KeyStore) :
    (insertInPlace name key).exec s = settle s (s.insert name key) := by
  unfold insertInPlace insert
  simp only [StoreM.exec_bind, exec_checkName]
  by_cases hname : isName name = true
  · simp only [if_pos hname, exec_checkKey]
    by_cases hlength : key.length = expectedLength s.config key
    · simp only [if_pos hlength]
      rfl
    · simp only [if_neg hlength]
      rfl
  · simp only [if_neg hname]
    rfl

theorem exec_insertHexInPlace (name text : String) (s : KeyStore) :
    (insertHexInPlace name text).exec s = settle s (s.insertHex name text) := by
  unfold insertHexInPlace insertHex
  cases Hex.decodeTrimmed text with
  | error e => rfl
  | ok key => exact exec_insertInPlace name key s

theorem exec_perform (call : Insertion) (s : KeyStore) :
    call.perform.exec s = settle s (call.into s) := by
  cases call with
  | plain name key => exact exec_insertInPlace name key s
  | hex name text => exact exec_insertHexInPlace name text s

theorem into_eq_ok_iff :
    call.into s = .ok s' ↔ ∃ key, call.Offers key ∧ s.insert call.name key = .ok s' := by
  cases call with
  | plain name key =>
    show s.insert name key = .ok s' ↔ ∃ k, key = k ∧ s.insert name k = .ok s'
    simp only [exists_eq_left']
  | hex name text =>
    show s.insertHex name text = .ok s' ↔ ∃ k, Hex.Written k text ∧ s.insert name k = .ok s'
    exact insertHex_eq_ok_iff

/-- **A call either is refused and changes nothing, or adds the key that it offers.** -/
theorem exec_perform_cases (call : Insertion) (s : KeyStore) :
    (∃ e, call.perform.exec s = (.error e, s)) ∨
      ∃ key s', call.Offers key ∧ s.insert call.name key = .ok s' ∧
        call.perform.exec s = (.ok (), s') := by
  rw [exec_perform]
  cases h : call.into s with
  | error e => exact Or.inl ⟨e, rfl⟩
  | ok s' =>
    obtain ⟨key, hkey, hinsert⟩ := into_eq_ok_iff.mp h
    exact Or.inr ⟨key, s', hkey, hinsert, rfl⟩

theorem config_of_insert (h : s.insert name key = .ok s') : s'.config = s.config := by
  obtain ⟨-, -, rfl⟩ := insert_eq_ok_iff.mp h
  rfl

/-- Whether a call succeeds depends on what it offers and on the configuration, and on nothing that
the store holds. -/
theorem perform_ok_iff : (call.perform.exec s).1 = .ok () ↔
    IsKeyName call.name ∧ ∃ key, call.Offers key ∧ s.config.Accepts key := by
  constructor
  · intro h
    rcases exec_perform_cases call s with ⟨e, hcall⟩ | ⟨key, s', hkey, hinsert, -⟩
    · rw [hcall] at h
      cases h
    · obtain ⟨hname, haccepts, -⟩ := insert_eq_ok_iff.mp hinsert
      exact ⟨hname, key, hkey, haccepts⟩
  · intro h
    obtain ⟨hname, key, hkey, haccepts⟩ := h
    have hinto : call.into s = .ok { s with keys := NameMap.put call.name key s.keys } :=
      into_eq_ok_iff.mpr ⟨key, hkey, insert_eq_ok_iff.mpr ⟨hname, haccepts, rfl⟩⟩
    rw [exec_perform, hinto]
    rfl

/-! ## Runs -/

/-- A call of a run, and what it ended with. -/
abbrev Entry := Insertion × Except KeyStoreError Unit

/-- Makes calls one after the other, whatever becomes of each, and keeps a record. -/
def performAll (s : KeyStore) : List Insertion → List Entry × KeyStore
  | [] => ([], s)
  | call :: calls =>
    let (result, s') := call.perform.exec s
    let (record, final) := performAll s' calls
    ((call, result) :: record, final)

/-- An entry tells that a key was added under a name. -/
def Entry.Adds (n : String) (entry : Entry) : Prop := entry.1.name = n ∧ entry.2 = .ok ()

/-- The last entry that adds something under a name offers this key. -/
def Stands (record : List Entry) (n : String) (key : Bytes) : Prop :=
  ∃ before call after, record = before ++ (call, .ok ()) :: after ∧ call.name = n ∧
    call.Offers key ∧ ∀ entry ∈ after, ¬ Entry.Adds n entry

theorem performAll_cons (s : KeyStore) (call : Insertion) (calls : List Insertion) :
    performAll s (call :: calls) =
      ((call, (call.perform.exec s).1) :: (performAll (call.perform.exec s).2 calls).1,
        (performAll (call.perform.exec s).2 calls).2) := rfl

/-- The record has the calls of the run, in order. -/
theorem calls_performAll (s : KeyStore) (calls : List Insertion) :
    (performAll s calls).1.map Prod.fst = calls := by
  induction calls generalizing s with
  | nil => rfl
  | cons call calls ih => rw [performAll_cons, List.map_cons, ih]

/-- What holds of a store and is kept by every insertion holds after a run. -/
theorem performAll_preserves (P : KeyStore → Prop)
    (hstep : ∀ {s s' name key}, s.insert name key = .ok s' → P s → P s') (hs : P s) :
    P (performAll s calls).2 := by
  induction calls generalizing s with
  | nil => exact hs
  | cons call calls ih =>
    rw [performAll_cons]
    rcases exec_perform_cases call s with ⟨e, hcall⟩ | ⟨key, s', -, hinsert, hcall⟩
    · rw [hcall]
      exact ih hs
    · rw [hcall]
      exact ih (hstep hinsert hs)

theorem sound_performAll (hs : Sound s) (calls : List Insertion) :
    Sound (performAll s calls).2 :=
  performAll_preserves Sound (fun hinsert hs => hs.of_insert hinsert) hs

theorem config_performAll (s : KeyStore) (calls : List Insertion) :
    (performAll s calls).2.config = s.config :=
  performAll_preserves (fun t => t.config = s.config)
    (fun hinsert ht => (config_of_insert hinsert).trans ht) rfl

theorem stands_cons {entry : Entry} {record : List Entry} :
    Stands (entry :: record) n key ↔ Stands record n key ∨
      (entry.Adds n ∧ entry.1.Offers key ∧ ∀ later ∈ record, ¬ Entry.Adds n later) := by
  constructor
  · intro h
    obtain ⟨before, call, after, hrecord, hname, hkey, hlast⟩ := h
    cases before with
    | nil =>
      obtain ⟨rfl, rfl⟩ := List.cons.inj hrecord
      exact Or.inr ⟨⟨hname, rfl⟩, hkey, hlast⟩
    | cons first before =>
      obtain ⟨rfl, rfl⟩ := List.cons.inj hrecord
      exact Or.inl ⟨before, call, after, rfl, hname, hkey, hlast⟩
  · intro h
    rcases h with ⟨before, call, after, rfl, hname, hkey, hlast⟩ | ⟨hadds, hkey, hlast⟩
    · exact ⟨entry :: before, call, after, rfl, hname, hkey, hlast⟩
    · obtain ⟨call, result⟩ := entry
      obtain ⟨hname, rfl⟩ := hadds
      exact ⟨[], call, record, rfl, hname, hkey, hlast⟩

/-- What one call does to a look-up. -/
theorem get?_perform (call : Insertion) (s : KeyStore) (n : String) (key : Bytes) :
    (call.perform.exec s).2.get? n = some key ↔
      (Entry.Adds n (call, (call.perform.exec s).1) ∧ call.Offers key) ∨
      (¬ Entry.Adds n (call, (call.perform.exec s).1) ∧ s.get? n = some key) := by
  rcases exec_perform_cases call s with ⟨e, hcall⟩ | ⟨offered, s', hoffered, hinsert, hcall⟩
  · have hadds : ¬ Entry.Adds n (call, .error e) := fun h => nomatch h.2
    rw [hcall]
    simp only [hadds, false_and, not_false_eq_true, true_and, false_or]
  · rw [hcall]
    show s'.get? n = some key ↔ _
    rw [get?_of_insert hinsert]
    by_cases hname : call.name = n
    · have hadds : Entry.Adds n (call, .ok ()) := ⟨hname, rfl⟩
      simp only [hname, if_true, hadds, true_and, not_true_eq_false, false_and, or_false]
      constructor
      · intro h
        exact Option.some.inj h ▸ hoffered
      · intro h
        exact congrArg some (hoffered.unique h)
    · have hadds : ¬ Entry.Adds n (call, .ok ()) := fun h => hname h.1
      simp only [if_neg hname, hadds, false_and, not_false_eq_true, true_and, false_or]

/-- **Under a name there is the key of the last insertion that was not refused**, or what was there
before the run if all of them were. -/
theorem get?_performAll (s : KeyStore) (calls : List Insertion) (n : String) (key : Bytes) :
    (performAll s calls).2.get? n = some key ↔ Stands (performAll s calls).1 n key ∨
      (s.get? n = some key ∧ ∀ entry ∈ (performAll s calls).1, ¬ Entry.Adds n entry) := by
  induction calls generalizing s with
  | nil =>
    have hnone : ¬ Stands [] n key := by
      intro h
      obtain ⟨before, call, after, hrecord, -⟩ := h
      exact List.cons_ne_nil _ _ (List.append_eq_nil_iff.mp hrecord.symm).2
    simp only [performAll, hnone, false_or, List.not_mem_nil, false_implies, implies_true, and_true]
  | cons call calls ih =>
    rw [performAll_cons, stands_cons]
    simp only [ih, get?_perform, List.forall_mem_cons]
    grind

/-! ## Runs that end at a refusal -/

theorem insertAll_cons (s : KeyStore) (name text : String) (keys : List (String × String)) :
    s.insertAll ((name, text) :: keys) =
      match (Insertion.hex name text).perform.exec s with
      | (.ok (), s') => s'.insertAll keys
      | (.error e, _) => .error e := by
  have hcall : (Insertion.hex name text).perform.exec s = settle s (s.insertHex name text) :=
    exec_insertHexInPlace name text s
  rw [hcall, insertAll]
  cases s.insertHex name text with
  | error e => rfl
  | ok s' => rfl

/-- The calls that embedded keys stand for. -/
def embeddedCalls (keys : List (String × String)) : List Insertion :=
  keys.map fun key => .hex key.1 key.2

theorem insertAll_eq_ok_iff {keys : List (String × String)} : s.insertAll keys = .ok s' ↔
    (∀ entry ∈ (performAll s (embeddedCalls keys)).1, entry.2 = .ok ()) ∧
      s' = (performAll s (embeddedCalls keys)).2 := by
  induction keys generalizing s with
  | nil => simp [insertAll, embeddedCalls, performAll, eq_comm]
  | cons key keys ih =>
    obtain ⟨name, text⟩ := key
    rw [insertAll_cons]
    show _ ↔ (∀ entry ∈ (performAll s (.hex name text :: embeddedCalls keys)).1, _) ∧ _ =
      (performAll s (.hex name text :: embeddedCalls keys)).2
    rw [performAll_cons]
    rcases (Insertion.hex name text).perform.exec s with ⟨e | ⟨⟩, t⟩
    · simp
    · simp [ih]

theorem insertAll_eq_error_iff {keys : List (String × String)} : s.insertAll keys = .error e ↔
    ∃ before call after,
      (performAll s (embeddedCalls keys)).1 = before ++ (call, .error e) :: after ∧
        ∀ entry ∈ before, entry.2 = .ok () := by
  induction keys generalizing s with
  | nil => simp [insertAll, embeddedCalls, performAll]
  | cons key keys ih =>
    obtain ⟨name, text⟩ := key
    rw [insertAll_cons]
    show _ ↔ ∃ before call after,
      (performAll s (.hex name text :: embeddedCalls keys)).1 = _ ∧ _
    rw [performAll_cons]
    rcases (Insertion.hex name text).perform.exec s with ⟨e' | ⟨⟩, t⟩
    · constructor
      · intro h
        obtain rfl : e' = e := Except.error.inj h
        exact ⟨[], _, _, rfl, nofun⟩
      · intro h
        obtain ⟨before, call, after, hrecord, hbefore⟩ := h
        cases before with
        | nil =>
          obtain ⟨hhead, -⟩ := List.cons.inj hrecord
          exact congrArg _ (Except.error.inj (congrArg Prod.snd hhead))
        | cons first before =>
          obtain ⟨rfl, -⟩ := List.cons.inj hrecord
          exact nomatch hbefore _ List.mem_cons_self
    · show t.insertAll keys = .error e ↔ _
      rw [ih]
      constructor
      · intro h
        obtain ⟨before, call, after, hrecord, hbefore⟩ := h
        refine ⟨(.hex name text, .ok ()) :: before, call, after, ?_, ?_⟩
        · exact congrArg _ hrecord
        · exact List.forall_mem_cons.mpr ⟨rfl, hbefore⟩
      · intro h
        obtain ⟨before, call, after, hrecord, hbefore⟩ := h
        cases before with
        | nil => exact nomatch hrecord
        | cons first before =>
          obtain ⟨-, hrest⟩ := List.cons.inj hrecord
          refine ⟨before, call, after, hrest, ?_⟩
          intro entry hentry
          exact hbefore entry (List.mem_cons_of_mem _ hentry)

/-! ## Stores that are filled by insertions -/

/-- The names of a sound store ascend in the order of their bytes. -/
theorem Sound.names_ascending (hs : Sound s) :
    s.names.Pairwise fun a b => Utf8.encode a < Utf8.encode b := by
  refine List.pairwise_map.mpr (hs.ascending.imp ?_)
  intro p q hbefore
  exact Bytes.before_iff.mp hbefore

theorem mem_names_iff_contains : n ∈ s.names ↔ s.contains n = true :=
  NameMap.mem_names_iff

theorem contains_iff : s.contains n = true ↔ ∃ key, s.get? n = some key :=
  Option.isSome_iff_exists

/-- **Every run of insertions leaves a sound store, and every one of them is atomic.** Whatever
calls are made on an empty store, refused ones among them: the configuration is the one it began
with, all names are key names and all keys acceptable, the names ascend in the order of their bytes
and are those under which there is a key, and that key is the one of the last call under the name
that was not refused. The next call succeeds exactly if its name and its key are acceptable. If it
fails the store is as it was, and if it succeeds the configuration and all other names are. Embedded
keys make the store of the run of their insertions if none of these is refused, and give the error
of the first one that is otherwise. -/
theorem insertions_atomic :
    (∀ (config : KeyStoreConfig) (calls : List Insertion) (record : List Entry) (s : KeyStore),
      performAll { config := config } calls = (record, s) →
        record.map Prod.fst = calls ∧ s.config = config ∧
        (∀ n ∈ s.names, IsKeyName n) ∧
        (∀ n key, s.get? n = some key → config.Accepts key) ∧
        (s.names.Pairwise fun a b => Utf8.encode a < Utf8.encode b) ∧
        s.names.length = s.size ∧
        (∀ n, (n ∈ s.names ↔ s.contains n = true) ∧
          (s.contains n = true ↔ ∃ key, s.get? n = some key)) ∧
        (∀ n key, s.get? n = some key ↔ Stands record n key) ∧
        ∀ (call : Insertion) (result : Except KeyStoreError Unit) (s' : KeyStore),
          call.perform.exec s = (result, s') →
            (result = .ok () ↔ IsKeyName call.name ∧ ∃ key, call.Offers key ∧ config.Accepts key) ∧
            (∀ e, result = .error e → s' = s) ∧
            (result = .ok () → s'.config = config ∧ ∀ n, n ≠ call.name → s'.get? n = s.get? n)) ∧
    ∀ (keys : List (String × String)) (record : List Entry) (final : KeyStore),
      performAll {} (embeddedCalls keys) = (record, final) →
        (∀ s, ofEmbedded keys = .ok s ↔ (∀ entry ∈ record, entry.2 = .ok ()) ∧ s = final) ∧
        ∀ e, ofEmbedded keys = .error e ↔ ∃ before call after,
          record = before ++ (call, .error e) :: after ∧ ∀ entry ∈ before, entry.2 = .ok () := by
  constructor
  · intro config calls record s hrun
    obtain rfl : (performAll { config := config } calls).1 = record := congrArg Prod.fst hrun
    obtain rfl : (performAll { config := config } calls).2 = s := congrArg Prod.snd hrun
    have hsound := sound_performAll (sound_empty config) calls
    have hconfig : (performAll { config := config } calls).2.config = config :=
      config_performAll { config := config } calls
    refine ⟨calls_performAll _ calls, hconfig, ?_, ?_, hsound.names_ascending,
      List.length_map .., ?_, ?_, ?_⟩
    · intro n hn
      obtain ⟨key, hkey⟩ := contains_iff.mp (mem_names_iff_contains.mp hn)
      exact hsound.name_of_get? hkey
    · intro n key hkey
      exact hconfig ▸ hsound.accepts_of_get? hkey
    · intro n
      exact ⟨mem_names_iff_contains, contains_iff⟩
    · intro n key
      -- there was nothing before the run
      have hempty : ({ config := config } : KeyStore).get? n ≠ some key := nofun
      rw [get?_performAll]
      simp only [hempty, false_and, or_false]
    · intro call result s' hcall
      have hok : (call.perform.exec (performAll { config := config } calls).2).1 = .ok () ↔ _ :=
        perform_ok_iff
      rw [hcall, hconfig] at hok
      rcases exec_perform_cases call (performAll { config := config } calls).2 with
        ⟨e, hrefused⟩ | ⟨key, t, -, hinsert, hadded⟩
      · obtain ⟨rfl, rfl⟩ := Prod.mk.inj (hcall.symm.trans hrefused)
        exact ⟨hok, fun _ _ => rfl, nofun⟩
      · obtain ⟨rfl, rfl⟩ := Prod.mk.inj (hcall.symm.trans hadded)
        refine ⟨hok, nofun, fun _ => ⟨(config_of_insert hinsert).trans hconfig, ?_⟩⟩
        intro n hn
        rw [get?_of_insert hinsert, if_neg (Ne.symm hn)]
  · intro keys record final hrun
    obtain rfl : (performAll {} (embeddedCalls keys)).1 = record := congrArg Prod.fst hrun
    obtain rfl : (performAll {} (embeddedCalls keys)).2 = final := congrArg Prod.snd hrun
    exact ⟨fun s => insertAll_eq_ok_iff, fun e => insertAll_eq_error_iff⟩

/-- A key that is replaced, a name and a length that are refused, and a text that is no
hexadecimal. -/
theorem insertions_atomic_replaced :
    let config : KeyStoreConfig := { keyLength := some 1 }
    let calls : List Insertion := [.plain "b" [1], .hex "a" " 02 ", .plain "../b" [3],
      .hex "b" "0405", .hex "b" "zz", .hex "b" "06"]
    ∃ record s, performAll { config := config } calls = (record, s) ∧
      record.map (fun entry => entry.2.isOk) = [true, true, false, false, false, true] ∧
      s.names = ["a", "b"] ∧ (s.names.Pairwise fun a b => Utf8.encode a < Utf8.encode b) ∧
      s.get? "b" = some [6] ∧ Stands record "b" [6] ∧
      ∀ s', (Insertion.plain "b" []).perform.exec s =
        (.error (.invalidKeyLength "b" 1 0), s') → s' = s := by
  intro config calls
  obtain ⟨hruns, -⟩ := insertions_atomic
  obtain ⟨-, -, -, -, hascending, -, -, hget, hcall⟩ := hruns config calls _ _ rfl
  have hb : (performAll { config := config } calls).2.get? "b" = some [6] := by decide
  refine ⟨_, _, rfl, by decide, by decide, hascending, hb, (hget "b" [6]).mp hb, ?_⟩
  intro s' hs'
  obtain ⟨-, hfailed, -⟩ := hcall (.plain "b" []) _ s' hs'
  exact hfailed _ rfl

end KeyStore

end SealedRecords
