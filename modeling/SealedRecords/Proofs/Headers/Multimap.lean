import Mathlib.Data.List.Induction
import SealedRecords.Headers

/-!
# Headers as an ordered multimap

Headers are one list that grows at its end and loses all entries of a name at once.
What can be seen of it by name is settled by the calls that were made: the entries of
a name are what was added under it since the name was last removed, in the order of
the calls. A call under another name, whatever it does, is of no account.

> `all_apply`: what one call does to the entries of a name.

> `all_afterChanges`: the entries of a name after any calls, by induction on the
> calls with the latest one taken off.

A lookup gives the last of these entries, `last?_eq_getLast?`, so an entry without
a value stands in front of every older reference.
-/

namespace SealedRecords.Headers

/-! ## Calls and what they add -/

/-- A call that changes headers. -/
inductive Change where
  | add (name : String) (value : Option Bytes)
  | addKeyRef (ref : Option KeyRef)
  | remove (name : String)
  deriving DecidableEq, Repr

namespace Change

/-- The headers after a call. -/
def apply (h : Headers) : Change → Headers
  | add name value => h.add name value
  | addKeyRef ref => h.addKeyRef ref
  | remove name => h.remove name

/-- What a call adds under a name: one value, which may be absent, or nothing. -/
def valuesUnder (name : String) : Change → List (Option Bytes)
  | add n value => if n = name then [value] else []
  | addKeyRef ref => if keyRefName = name then [ref.map KeyRef.bytes] else []
  | remove _ => []

end Change

/-- The headers after calls on empty ones, the first call first. -/
def afterChanges (changes : List Change) : Headers := changes.foldl Change.apply {}

/-- The calls behind the last removal of a name, and all of them if it was never removed. -/
def sinceRemoval (name : String) (changes : List Change) : List Change :=
  (changes.reverse.takeWhile fun c => c ≠ .remove name).reverse

/-- What was added under a name since its last removal, the oldest first. -/
def addedSince (name : String) (changes : List Change) : List (Option Bytes) :=
  (sinceRemoval name changes).flatMap (Change.valuesUnder name)

theorem afterChanges_concat (changes : List Change) (c : Change) :
    afterChanges (changes ++ [c]) = c.apply (afterChanges changes) := by
  unfold afterChanges
  rw [List.foldl_append]
  rfl

theorem addedSince_concat (name : String) (changes : List Change) (c : Change) :
    addedSince name (changes ++ [c]) =
      if c = .remove name then [] else addedSince name changes ++ c.valuesUnder name := by
  unfold addedSince sinceRemoval
  -- the calls are looked through from the latest one, which is `c`
  rw [List.reverse_append, List.reverse_singleton, List.singleton_append, List.takeWhile_cons]
  by_cases hc : c = .remove name
  · simp [hc]
  · simp [hc]

/-! ## The entries of a name -/

variable {name other : String}

theorem all_add (h : Headers) (other : String) (value : Option Bytes) (name : String) :
    (h.add other value).all name =
      h.all name ++ ((Change.add other value).valuesUnder name).map (Header.mk name) := by
  unfold all add Change.valuesUnder
  rw [List.filter_append]
  by_cases hn : other = name
  · simp [hn]
  · simp [hn]

theorem all_remove_self (h : Headers) (name : String) : (h.remove name).all name = [] := by
  unfold all remove
  rw [List.filter_filter, List.filter_eq_nil_iff]
  intro e _
  by_cases he : e.name = name
  · simp [he]
  · simp [he]

/-- Whatever is looked for among the entries of other names is found as before a removal. -/
theorem filter_remove {p : Header → Bool} (hp : ∀ e, p e = true → e.name ≠ name) (h : Headers) :
    (h.remove name).entries.filter p = h.entries.filter p := by
  unfold remove
  rw [List.filter_filter]
  refine List.filter_congr ?_
  intro e _
  cases hpe : p e with
  | false => rfl
  | true => simp [hp e hpe]

/-- Removing a name leaves the entries of all other names where they are. -/
theorem others_remove (h : Headers) (name : String) :
    ((h.remove name).entries.filter fun e => e.name ≠ name)
      = h.entries.filter fun e => e.name ≠ name :=
  filter_remove (fun _ he => of_decide_eq_true he) h

theorem all_remove_of_ne (hne : other ≠ name) (h : Headers) :
    (h.remove other).all name = h.all name := by
  refine filter_remove ?_ h
  intro e he
  rw [eq_of_beq he]
  exact Ne.symm hne

/-- A call that removes a name leaves it without entries. Any other call leaves the entries of the
name and puts what it adds behind them. -/
theorem all_apply (h : Headers) (c : Change) (name : String) :
    (c.apply h).all name =
      if c = .remove name then [] else h.all name ++ (c.valuesUnder name).map (Header.mk name) := by
  cases c with
  | add other value =>
    rw [if_neg (by simp)]
    exact all_add h other value name
  | addKeyRef ref =>
    rw [if_neg (by simp)]
    exact all_add h keyRefName (ref.map KeyRef.bytes) name
  | remove other =>
    show (h.remove other).all name = _
    by_cases hn : other = name
    · rw [if_pos (congrArg Change.remove hn), hn, all_remove_self]
    · rw [if_neg (fun e => hn (Change.remove.inj e)), all_remove_of_ne hn]
      exact (List.append_nil _).symm

/-- The entries of a name are what was added under it since its last removal. -/
theorem all_afterChanges (changes : List Change) (name : String) :
    (afterChanges changes).all name = (addedSince name changes).map (Header.mk name) := by
  induction changes using List.reverseRecOn with
  | nil => rfl
  | append_singleton changes c ih =>
    rw [afterChanges_concat, all_apply, addedSince_concat, ih]
    by_cases hc : c = .remove name
    · rw [if_pos hc, if_pos hc, List.map_nil]
    · rw [if_neg hc, if_neg hc, List.map_append]

/-! ## The last entry -/

theorem last?_eq_getLast? (h : Headers) (name : String) :
    h.last? name = (h.all name).getLast? := List.getLast?_filter.symm

theorem last?_afterChanges (changes : List Change) (name : String) :
    (afterChanges changes).last? name =
      (addedSince name changes).getLast?.map (Header.mk name) := by
  rw [last?_eq_getLast?, all_afterChanges, List.getLast?_map]

/-- The reference of the headers is the value that was added last under its name, if that value is
present. -/
theorem keyRef?_afterChanges (changes : List Change) :
    (afterChanges changes).keyRef? =
      (addedSince keyRefName changes).getLast?.bind fun v => v.map KeyRef.mk := by
  unfold keyRef?
  rw [last?_afterChanges]
  cases (addedSince keyRefName changes).getLast? <;> rfl

theorem keyRef?_eq_some_iff (changes : List Change) (r : KeyRef) :
    (afterChanges changes).keyRef? = some r ↔
      (addedSince keyRefName changes).getLast? = some (some r.bytes) := by
  rw [keyRef?_afterChanges]
  cases (addedSince keyRefName changes).getLast? with
  | none => simp
  | some v =>
    cases v with
    | none => simp
    | some b =>
      cases r
      simp

theorem keyRef?_eq_none_iff (changes : List Change) :
    (afterChanges changes).keyRef? = none ↔
      (addedSince keyRefName changes).getLast? = none ∨
        (addedSince keyRefName changes).getLast? = some none := by
  rw [keyRef?_afterChanges]
  cases (addedSince keyRefName changes).getLast? with
  | none => simp
  | some v => cases v <;> simp

/-- The headers tell the reference that was added last. -/
theorem keyRef?_addKeyRef (h : Headers) (r : Option KeyRef) : (h.addKeyRef r).keyRef? = r := by
  have hvalues : (Change.add keyRefName (r.map KeyRef.bytes)).valuesUnder keyRefName
      = [r.map KeyRef.bytes] := by
    unfold Change.valuesUnder
    exact if_pos rfl
  unfold keyRef? addKeyRef
  rw [last?_eq_getLast?, all_add, hvalues, List.map_singleton, List.getLast?_concat]
  cases r <;> rfl

/-- **Headers are an ordered multimap.** After any calls on empty headers the entries of a name are
exactly what was added under it since it was last removed, the oldest first, and a lookup gives the
last of them. Removing the name takes all of these entries away and leaves all others as they are,
in their order. The headers tell the reference that was added last since references were last
removed, if that entry has a value: an entry without one says that there is no reference, whatever
was added before it. -/
theorem entries_follow_changes (changes : List Change) (name : String) :
    (afterChanges changes).all name = (addedSince name changes).map (Header.mk name) ∧
    (afterChanges changes).last? name
      = ((addedSince name changes).map (Header.mk name)).getLast? ∧
    ((afterChanges changes).remove name).all name = [] ∧
    (((afterChanges changes).remove name).entries.filter fun e => e.name ≠ name)
      = ((afterChanges changes).entries.filter fun e => e.name ≠ name) ∧
    (∀ r, (afterChanges changes).keyRef? = some r ↔
      (addedSince keyRefName changes).getLast? = some (some r.bytes)) ∧
    ((afterChanges changes).keyRef? = none ↔
      (addedSince keyRefName changes).getLast? = none ∨
        (addedSince keyRefName changes).getLast? = some none) := by
  have hlast : (afterChanges changes).last? name
      = ((addedSince name changes).map (Header.mk name)).getLast? := by
    rw [last?_afterChanges, List.getLast?_map]
  exact ⟨all_afterChanges changes name, hlast, all_remove_self _ name, others_remove _ name,
    keyRef?_eq_some_iff changes, keyRef?_eq_none_iff changes⟩

example : (afterChanges [.addKeyRef (some ⟨[0x4B]⟩), .add "trace" none, .remove "seen",
    .add keyRefName none, .add "trace" (some [])]).keyRef? = none := by decide

end SealedRecords.Headers
