import SealedRecords.FileTree

/-!
# Listings of directories

What a listing of a directory says about the tree: there is one entry for each
node one name below the directory, and the node decides what the entry is, unless
the path of the entry is too long to be looked at.
-/

namespace SealedRecords.FileTree

variable {t : FileTree} {p : Place} {path name : Bytes} {e : DirEntry} {entries : List DirEntry}

/-- What an entry of the directory at a path turns out to be. -/
def seenAs (path name : Bytes) (n : Node) : EntryKind :=
  if pathLimit ≤ (entryPath path name).length then .unreachable .nameTooLong else entryKind n

theorem eq_append_iff {q : Place} : q = p ++ [name] ↔ q.getLast? = some name ∧ q.dropLast = p := by
  constructor
  · rintro rfl
    exact ⟨List.getLast?_concat, List.dropLast_concat⟩
  · rintro ⟨hlast, rfl⟩
    obtain ⟨above, rfl⟩ := List.getLast?_eq_some_iff.mp hlast
    rw [List.dropLast_concat]

/-- What a node gives to the listing of the directory at a place. -/
def entryOf (p : Place) (path : Bytes) (e : Place × Node) : Option DirEntry :=
  match e.1.getLast? with
  | some name =>
    if e.1.dropLast = p then
      if pathLimit ≤ (entryPath path name).length then some ⟨name, .unreachable .nameTooLong⟩
      else some ⟨name, entryKind e.2⟩
    else none
  | none => none

theorem entriesAt_eq (t : FileTree) (p : Place) (path : Bytes) :
    t.entriesAt p path = t.nodes.filterMap (entryOf p path) := rfl

theorem entryOf_eq_some_iff {q : Place} {n : Node} : entryOf p path (q, n) = some e ↔
    q = p ++ [e.name] ∧ e.kind = seenAs path e.name n := by
  unfold entryOf seenAs
  constructor
  · intro he
    simp only at he
    split at he
    · next name hlast =>
      split at he
      · next hparent =>
        split at he
        all_goals
          next hlong =>
            obtain rfl := Option.some.inj he
            refine ⟨eq_append_iff.mpr ⟨hlast, hparent⟩, ?_⟩
            simp only [hlong, if_true, if_false]
      · cases he
    · cases he
  · rintro ⟨rfl, hkind⟩
    obtain ⟨name, kind⟩ := e
    simp only [List.getLast?_concat, List.dropLast_concat, if_true]
    simp only at hkind
    rw [hkind]
    split
    · rfl
    · rfl

theorem mem_entriesAt_iff : e ∈ t.entriesAt p path ↔
    ∃ n, (p ++ [e.name], n) ∈ t.nodes ∧ e.kind = seenAs path e.name n := by
  rw [entriesAt_eq, List.mem_filterMap]
  constructor
  · rintro ⟨⟨q, n⟩, hmem, he⟩
    obtain ⟨rfl, hkind⟩ := entryOf_eq_some_iff.mp he
    exact ⟨n, hmem, hkind⟩
  · rintro ⟨n, hmem, hkind⟩
    exact ⟨_, hmem, entryOf_eq_some_iff.mpr ⟨rfl, hkind⟩⟩

/-- Nodes at different places give entries with different names. -/
theorem names_entriesAt_nodup (h : (t.nodes.map Prod.fst).Nodup) (p : Place) (path : Bytes) :
    ((t.entriesAt p path).map DirEntry.name).Nodup := by
  have hplaces := List.pairwise_map.mp h
  refine List.pairwise_map.mpr (List.pairwise_filterMap.mpr (hplaces.imp ?_))
  rintro ⟨q, n⟩ ⟨q', n'⟩ hne e he e' he' hname
  have hq := (entryOf_eq_some_iff.mp he).1
  have hq' := (entryOf_eq_some_iff.mp he').1
  rw [hname] at hq
  exact hne (hq.trans hq'.symm)

/-- A node that is put below a directory is one more entry of it, or takes the place of the entry
of its name. -/
theorem entriesAt_put (t : FileTree) (p : Place) (path name : Bytes) (n : Node) :
    (t.put (p ++ [name]) n).entriesAt p path
      = (t.entriesAt p path).filter (fun e => e.name != name) ++ [⟨name, seenAs path name n⟩] := by
  have hentry : entryOf p path (p ++ [name], n) = some ⟨name, seenAs path name n⟩ :=
    entryOf_eq_some_iff.mpr ⟨rfl, rfl⟩
  have hnew : [(p ++ [name], n)].filterMap (entryOf p path) = [⟨name, seenAs path name n⟩] := by
    rw [List.filterMap_cons_some hentry, List.filterMap_nil]
  rw [entriesAt_eq, entriesAt_eq]
  unfold put
  rw [List.filterMap_append, hnew, List.filterMap_filter, List.filter_filterMap]
  congr 2
  funext x
  obtain ⟨q, n'⟩ := x
  cases he : entryOf p path (q, n') with
  | none => simp
  | some e =>
    obtain ⟨rfl, -⟩ := entryOf_eq_some_iff.mp he
    by_cases hname : e.name = name
    · simp [hname, Option.filter]
    · simp [hname, Option.filter]

theorem listDirectory_eq_ok_iff : t.listDirectory path = .ok entries ↔
    ∃ p, t.resolve .existing path = .ok p ∧ t.get? p = some .directory ∧
      entries = t.entriesAt p path := by
  unfold listDirectory
  cases t.resolve .existing path with
  | error e => simp [bind, Except.bind]
  | ok p =>
    simp only [bind, Except.bind, Except.ok.injEq, exists_eq_left']
    cases t.get? p with
    | none => simp [throw, throwThe, MonadExceptOf.throw]
    | some n => cases n <;> simp [throw, throwThe, MonadExceptOf.throw, pure, Except.pure, eq_comm]

/-- The name of a file that can be looked at is shorter than a path may be. -/
theorem length_name_lt (h : t.listDirectory path = .ok entries) (he : e ∈ entries)
    {content : Bytes} (hkind : e.kind = .file content) : e.name.length < pathLimit := by
  obtain ⟨p, -, -, rfl⟩ := listDirectory_eq_ok_iff.mp h
  obtain ⟨n, -, hseen⟩ := mem_entriesAt_iff.mp he
  rw [hkind] at hseen
  unfold seenAs at hseen
  split at hseen
  · cases hseen
  · next hshort =>
    have hpath : e.name.length ≤ (entryPath path e.name).length := by
      unfold entryPath
      split
      · rw [List.length_append]
        omega
      · rw [List.length_append]
        omega
    omega

end SealedRecords.FileTree
