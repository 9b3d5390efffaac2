import SealedRecords.Proofs.Files.Directories

/-!
# Writing a file in a tree

A file is opened first and written then, and both can be the end of it. `Filled` is
what a tree has come to with a file open and some content in it: opening leaves a
file that is empty, `openFile_eq_ok_iff`, and each write adds to what is there,
`Filled.append`.

Whatever the content, the tree is another one at a single place. Below a directory
that place is the entry of the file's name, unless a symbolic link stands there and
an old file may be replaced:

> `Filled.written`: the place, and what the path leads to afterwards.

> `listDirectory_of_put`: a file that was written in a directory is one more entry,
> or takes the place of the entry of its name.
-/

namespace SealedRecords.FileTree

open SealedRecords

section

variable {t t' : FileTree} {n m : Nat} {here p q : Place} {path name start content : Bytes}
  {cs : List Bytes} {aim : Aim} {fresh : Bool} {mode : Nat} {node node' : Node}

/-! ## The path of an entry -/

/-- The path of an entry leads to its place, if the walk can get there and finds no link. -/
theorem walkLinks_entryPath (hdir : DirectoryAt t path p) (hname : name ≠ [])
    (hsep : separator ∉ name) (aim : Aim) : ∃ m,
    t.walkLinks aim maxLinks (startAt t.workingDirectory (entryPath path name))
      (components (entryPath path name)) = t.walkLinks aim m p [name] := by
  obtain ⟨m, hleads⟩ := hdir.leads
  obtain ⟨cs, hcs, hsteps⟩ := components_entryPath path hname hsep
  have hstart : startAt t.workingDirectory (entryPath path name)
      = startAt t.workingDirectory path := by
    unfold startAt
    rw [isAbsolute_entryPath hdir.ne_nil]
  rw [hcs, hstart]
  exact ⟨m, walkLinks_append hleads (goesOn_of_mem (List.mem_singleton.mpr rfl) hname aim) hsteps⟩

/-- A name by which a directory can hold a file. -/
structure IsFileName (name : Bytes) : Prop where
  leadsOn : leadsOn name = true
  ne_dotDot : name ≠ dotDot
  separator : separator ∉ name

theorem IsFileName.ne_nil (h : IsFileName name) : name ≠ [] := by
  rintro rfl
  cases h.leadsOn

/-- Where no link stands, the path of an entry leads to the entry, whatever it is looked up for. -/
theorem resolve_entryPath_iff (hdir : DirectoryAt t path p) (hname : IsFileName name)
    (hlink : ∀ target, t.get? (p ++ [name]) ≠ some (.symlink target)) :
    t.resolve aim (entryPath path name) = .ok q ↔
      (entryPath path name).length < pathLimit ∧ name.length ≤ maxName ∧ q = p ++ [name] := by
  obtain ⟨m, hwalk⟩ := walkLinks_entryPath hdir hname.ne_nil hname.separator aim
  have hpath : entryPath path name ≠ [] := by
    obtain ⟨pre, hpre, -⟩ := exists_entryPath path name
    rw [hpre]
    exact List.append_ne_nil_of_right_ne_nil _ (List.cons_ne_nil _ _)
  have hrefused : aim.refusesEnd [] = false := by cases aim <;> rfl
  rw [resolve_eq_ok_iff, hwalk, and_iff_right hpath]
  refine and_congr_right fun _ => ?_
  rw [walkLinks_entry hname.leadsOn hname.ne_dotDot, hrefused, if_neg Bool.false_ne_true]
  by_cases hlong : maxName < name.length
  · simp [hlong, Nat.not_le.mpr hlong]
  · rw [if_neg hlong, and_iff_right (Nat.le_of_not_lt hlong)]
    have hend : aim.isEnd [] = true := rfl
    cases hnode : t.get? (p ++ [name]) with
    | none => simp [hend, eq_comm]
    | some node =>
      cases node with
      | directory => simp [eq_comm]
      | file content mode => simp [hend, eq_comm]
      | «symlink» target => exact absurd hnode (hlink target)

/-- What a path for a file is looked up for. -/
def fileAim (fresh : Bool) : Aim := if fresh then .newFile else .file

theorem isEnd_fileAim (fresh : Bool) (rest : List Bytes) :
    (fileAim fresh).isEnd rest = rest.isEmpty := by
  cases fresh <;> exact Bool.or_false _

/-! ## Opening and writing -/

/-- What stands at a place is what was put there last. -/
theorem put_put (t : FileTree) (p : Place) (node node' : Node) :
    (t.put p node).put p node' = t.put p node' := by
  unfold put
  simp [List.filter_append, List.filter_filter]

theorem append_put (hq : q ≠ []) (start content : Bytes) :
    (t.put q (.file start mode)).append q content = t.put q (.file (start ++ content) mode) := by
  unfold append
  simp only [get?_put_self hq, put_put]

/-- A file is open at the place `q` to which a path leads, and has the content: nothing was there
before, or an old file that may be replaced. -/
def Filled (t : FileTree) (path : Bytes) (fresh : Bool) (mode : Nat) (content : Bytes) (q : Place)
    (t' : FileTree) : Prop :=
  t.resolve (fileAim fresh) path = .ok q ∧ ∃ mode', t' = t.put q (.file content mode') ∧
    (t.get? q = none ∧ mode' = mode ∨ fresh = false ∧ ∃ old, t.get? q = some (.file old mode'))

/-- Opening leaves a file with nothing in it. -/
theorem openFile_eq_ok_iff :
    t.openFile path fresh mode = .ok (q, t') ↔ Filled t path fresh mode [] q t' := by
  unfold openFile Filled fileAim
  cases t.resolve (if fresh = true then .newFile else .file) path with
  | error e => simp [bind, Except.bind]
  | ok p =>
    simp only [bind, Except.bind, Except.ok.injEq]
    constructor
    · intro h
      cases hp : t.get? p with
      | none =>
        rw [hp] at h
        cases h
        exact ⟨rfl, mode, rfl, Or.inl ⟨hp, rfl⟩⟩
      | some node =>
        cases fresh with
        | true =>
          rw [hp] at h
          cases h
        | false =>
          rw [hp] at h
          cases node with
          | file old mode' =>
            cases h
            exact ⟨rfl, mode', rfl, Or.inr ⟨rfl, old, hp⟩⟩
          | directory => cases h
          | «symlink» target => cases h
    · rintro ⟨rfl, mode', rfl, ⟨hp, rfl⟩ | ⟨rfl, old, hp⟩⟩
      · rw [hp]
        rfl
      · rw [hp]
        rfl

/-- At a place there is nothing, or a file. -/
def Writable (t : FileTree) (q : Place) : Prop :=
  ∀ node, t.get? q = some node → ∃ content mode, node = .file content mode

theorem writable_iff :
    t.Writable q ↔ t.get? q = none ∨ ∃ content mode, t.get? q = some (.file content mode) := by
  unfold Writable
  cases t.get? q <;> simp

theorem Writable.ne_nil (h : t.Writable q) : q ≠ [] := by
  rintro rfl
  obtain ⟨_, _, hnode⟩ := h _ get?_nil
  cases hnode

/-- No directory and no symbolic link is there. -/
theorem Writable.ne (h : t.Writable q) {node : Node} (hp : t.get? p = some node)
    (hnode : ∀ content mode, node ≠ .file content mode) : p ≠ q := by
  rintro rfl
  obtain ⟨content, mode, rfl⟩ := h node hp
  exact hnode _ _ rfl

/-- A file that is written there changes no directory and no symbolic link. -/
theorem Writable.kept (h : t.Writable q) (content : Bytes) (mode : Nat) (p : Place) (node : Node)
    (hp : t.get? p = some node) (hnode : ∀ content mode, node ≠ .file content mode) :
    (t.put q (.file content mode)).get? p = some node := by
  rw [get?_put_of_ne (h.ne hp hnode), hp]

theorem Filled.writable (h : Filled t path fresh mode content q t') : t.Writable q := by
  obtain ⟨-, mode', -, hbefore⟩ := h
  rcases hbefore with ⟨hnone, -⟩ | ⟨-, old, hold⟩
  · exact writable_iff.mpr (Or.inl hnone)
  · exact writable_iff.mpr (Or.inr ⟨old, mode', hold⟩)

/-- A write adds to what is there. -/
theorem Filled.append (h : Filled t path fresh mode start q t') (content : Bytes) :
    Filled t path fresh mode (start ++ content) q (t'.append q content) := by
  have hne := h.writable.ne_nil
  obtain ⟨hresolve, mode', rfl, hbefore⟩ := h
  exact ⟨hresolve, mode', append_put hne start content, hbefore⟩

/-- A file that was written in a directory is at the place of its name, if no link stands there. -/
theorem Filled.put_entry (h : Filled t (entryPath path name) fresh mode content q t')
    (hdir : DirectoryAt t path p) (hname : IsFileName name)
    (hlink : ∀ target, t.get? (p ++ [name]) ≠ some (.symlink target)) :
    (entryPath path name).length < pathLimit ∧ t.get? (p ++ [name]) ≠ some .directory ∧
      ∃ mode, t' = t.put (p ++ [name]) (.file content mode) := by
  obtain ⟨hresolve, mode', rfl, hbefore⟩ := h
  obtain ⟨hshort, -, rfl⟩ := (resolve_entryPath_iff hdir hname hlink).mp hresolve
  refine ⟨hshort, fun hdirectory => ?_, mode', rfl⟩
  rw [hdirectory] at hbefore
  rcases hbefore with ⟨hnone, -⟩ | ⟨-, old, hold⟩
  · cases hnone
  · cases hold

/-- Where nothing stands a file can be opened, if its name and its path are not too long. -/
theorem openFile_of_vacant (hdir : DirectoryAt t path p) (hname : IsFileName name)
    (hvacant : t.get? (p ++ [name]) = none) (hshort : (entryPath path name).length < pathLimit)
    (hlength : name.length ≤ maxName) (fresh : Bool) (mode : Nat) :
    t.openFile (entryPath path name) fresh mode
      = .ok (p ++ [name], t.put (p ++ [name]) (.file [] mode)) := by
  have hlink : ∀ target, t.get? (p ++ [name]) ≠ some (.symlink target) := by
    intro target
    rw [hvacant]
    exact Option.some_ne_none _ |>.symm
  have hresolve : t.resolve (fileAim fresh) (entryPath path name) = .ok (p ++ [name]) :=
    (resolve_entryPath_iff hdir hname hlink).mpr ⟨hshort, hlength, rfl⟩
  exact openFile_eq_ok_iff.mpr ⟨hresolve, mode, rfl, Or.inl ⟨hvacant, rfl⟩⟩

/-- **A file that was written in a directory is one more entry of it**, or takes the place of the
entry of its name. -/
theorem listDirectory_of_put (hdir : DirectoryAt t path p)
    (hlink : ∀ target, t.get? (p ++ [name]) ≠ some (.symlink target))
    (hdirectory : t.get? (p ++ [name]) ≠ some .directory)
    (hshort : (entryPath path name).length < pathLimit) (mode : Nat) (content : Bytes) :
    (t.put (p ++ [name]) (.file content mode)).listDirectory path
      = .ok ((t.entriesAt p path).filter (fun e => e.name != name) ++ [⟨name, .file content⟩]) := by
  have hwritable : t.Writable (p ++ [name]) := by
    intro node hnode
    cases node with
    | file content mode => exact ⟨content, mode, rfl⟩
    | directory => exact absurd hnode hdirectory
    | «symlink» target => exact absurd hnode (hlink target)
  have hkeep := hwritable.kept content mode
  have hdir' : DirectoryAt (t.put (p ++ [name]) (.file content mode)) path p := by
    obtain ⟨m, hleads⟩ := hdir.leads
    exact ⟨hdir.ne_nil, hdir.short, ⟨m, hleads.mono hkeep⟩, hkeep _ _ hdir.directory nofun⟩
  have hseen : seenAs path name (.file content mode) = .file content := by
    unfold seenAs
    rw [if_neg (Nat.not_le.mpr hshort)]
    rfl
  rw [← hseen, ← entriesAt_put]
  exact listDirectory_eq_ok_iff_directoryAt.mpr ⟨p, hdir', rfl⟩

/-! ## The place that is written -/

/-- After a file was written at the end of a walk, the walk for something that is there ends at
it. -/
theorem walkLinks_of_put (h : Walks t (fileAim fresh) n here cs q) (hq : t.Writable q) :
    (t.put q (.file content mode)).walkLinks .existing n here cs = .ok q := by
  induction h with
  | nil => exact walkLinks_nil
  | stay hc _ ih =>
    rw [walkLinks_stay hc]
    exact ih hq
  | up _ ih =>
    rw [walkLinks_dotDot]
    exact ih hq
  | down hc hnode _ ih =>
    rw [walkLinks_of_isEntry hc rfl, hq.kept _ _ _ _ hnode nofun]
    exact ih hq
  | link hc hnode _ _ ih =>
    rw [walkLinks_of_isEntry hc rfl, hq.kept _ _ _ _ hnode nofun]
    simp only [Aim.follows, Bool.not_true, Bool.and_false, Bool.false_eq_true, if_false]
    exact ih hq
  | stop hc _ hend =>
    rw [isEnd_fileAim, List.isEmpty_iff] at hend
    rw [hend, walkLinks_of_isEntry hc rfl, get?_put_self hq.ne_nil]
    rfl

/-- The walk of a file in a directory ends at the entry of its name, unless a symbolic link stands
there that is followed. -/
theorem eq_or_symlink_of_resolve (hdir : DirectoryAt t path p) (hname : IsFileName name)
    (h : t.resolve (fileAim fresh) (entryPath path name) = .ok q) :
    q = p ++ [name] ∨ fresh = false ∧ ∃ target, t.get? (p ++ [name]) = some (.symlink target) := by
  obtain ⟨m, hwalk⟩ := walkLinks_entryPath hdir hname.ne_nil hname.separator (fileAim fresh)
  obtain ⟨-, -, hq⟩ := resolve_eq_ok_iff.mp h
  rw [hwalk, walkLinks_entry hname.leadsOn hname.ne_dotDot, isEnd_fileAim] at hq
  split at hq
  · cases hq
  · split at hq
    · cases hq
    · split at hq
      · exact Or.inl (Except.ok.inj hq).symm
      · rw [walkLinks_nil] at hq
        exact Or.inl (Except.ok.inj hq).symm
      · exact Or.inl (Except.ok.inj hq).symm
      · next target hlink =>
        cases fresh with
        | true => exact Or.inl (Except.ok.inj hq).symm
        | false => exact Or.inr ⟨rfl, target, hlink⟩

/-- A file of a directory was written at a place. -/
structure Written (t t' : FileTree) (path name : Bytes) (fresh : Bool) (content : Bytes)
    (q : Place) : Prop where
  elsewhere : ∀ p, p ≠ q → t'.get? p = t.get? p
  workingDirectory : t'.workingDirectory = t.workingDirectory
  /-- The path leads to the place. -/
  leads : t'.resolve .existing (entryPath path name) = .ok q
  holds : ∃ mode, t'.get? q = some (.file content mode)
  /-- Nothing was there before, or a file that might be replaced. -/
  before : t.get? q = none ∨ fresh = false ∧ ∃ old mode, t.get? q = some (.file old mode)
  /-- The place is the entry of the name in the directory, or a symbolic link stands there and is
  followed. -/
  entry : ∃ p, DirectoryAt t' path p ∧
    (q = p ++ [name] ∨ fresh = false ∧ ∃ target, t'.get? (p ++ [name]) = some (.symlink target))

theorem Written.writable (h : Written t t' path name fresh content q) : t.Writable q :=
  writable_iff.mpr (h.before.imp_right And.right)

/-- Directories and symbolic links are as they were. -/
theorem Written.kept (h : Written t t' path name fresh content q) (p : Place) (node : Node)
    (hp : t.get? p = some node) (hnode : ∀ content mode, node ≠ .file content mode) :
    t'.get? p = some node := by
  rw [h.elsewhere p (h.writable.ne hp hnode), hp]

/-- If the file had to be a new one, everything is as it was. -/
theorem Written.kept_of_fresh (h : Written t t' path name true content q) (p : Place)
    (node : Node) (hp : t.get? p = some node) : t'.get? p = some node := by
  have hne : p ≠ q := by
    rintro rfl
    rcases h.before with hnone | ⟨hfresh, -⟩
    · rw [hnone] at hp
      cases hp
    · cases hfresh
  rw [h.elsewhere p hne, hp]

/-- **Writing a file of a directory changes one place**, to which its path leads afterwards. -/
theorem Filled.written (h : Filled t (entryPath path name) fresh mode content q t')
    (hdir : DirectoryAt t path p) (hname : IsFileName name) :
    Written t t' path name fresh content q := by
  have hq := h.writable
  obtain ⟨hresolve, mode', rfl, hbefore⟩ := h
  have hkept := hq.kept content mode'
  obtain ⟨hpath, hshort, hwalk⟩ := resolve_eq_ok_iff.mp hresolve
  refine ⟨fun p hp => get?_put_of_ne hp, rfl, ?_, ⟨mode', get?_put_self hq.ne_nil⟩, ?_, p, ?_, ?_⟩
  · exact resolve_eq_ok_iff.mpr
      ⟨hpath, hshort, walkLinks_of_put (walks_of_walkLinks hwalk) hq⟩
  · rcases hbefore with ⟨hnone, -⟩ | ⟨hfresh, old, hold⟩
    · exact Or.inl hnone
    · exact Or.inr ⟨hfresh, old, mode', hold⟩
  · obtain ⟨m, hleads⟩ := hdir.leads
    exact ⟨hdir.ne_nil, hdir.short, ⟨m, hleads.mono hkept⟩, hkept _ _ hdir.directory nofun⟩
  · rcases eq_or_symlink_of_resolve hdir hname hresolve with heq | ⟨hfresh, target, hlink⟩
    · exact Or.inl heq
    · exact Or.inr ⟨hfresh, target, hkept _ _ hlink nofun⟩

end

end SealedRecords.FileTree
