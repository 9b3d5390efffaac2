import SealedRecords.Proofs.Files.Writing

/-!
# What a host changes

The trees of files of this library know nothing of rights, devices or quotas. A
real host has more reasons to refuse an operation, and `Host.OnTree` leaves them
open: what is asked changes nothing, and a directory is made or a file opened as on
the tree, or not at all. A write can stop half way, and what it has written till
then stays. What follows holds on every such host.

Making a directory with what is missing on the way to it adds directories on the
way and touches nothing else, also if it fails half way:

> `grown_makeDirectories`: the tree afterwards is a `Grown` one.

It changes nothing where the directory is there already,
`makeDirectories_of_reaches`. Where it is not, and its path leads back up only on
the part that is there, it is empty afterwards, `listDirectory_of_makeDirectories`.
-/

namespace SealedRecords

/-- What is written to an opened file is added to the file at a place. If the write fails, nothing
or a beginning of it is. -/
def Host.WritesAt (host : Host (StateM FileTree)) (file : host.Handle) (q : Place) : Prop :=
  ∀ content t, host.write file content t = (.ok (), t.append q content) ∨
    ∃ e, host.write file content t = (.error e, t) ∨
      ∃ n, host.write file content t = (.error e, t.append q (content.take n))

/-- Making directories asks a host for nothing but directories. -/
theorem Host.makeDirectories_congr {m : Type → Type} [Monad m] (host host' : Host m)
    (hmake : host'.makeDirectory = host.makeDirectory)
    (hask : host'.isDirectory = host.isDirectory) (n : Nat) (path : String) :
    host'.makeDirectories n path = host.makeDirectories n path := by
  induction n generalizing path with
  | zero => rfl
  | succ n ih => simp only [Host.makeDirectories, hmake, hask, ih]

/-- A host whose system is a tree of files: what is asked and what is printed changes nothing, a
directory is made and a file is opened as on the tree or, for whatever reason, not at all, and an
opened file is written to its end or, for whatever reason, not. -/
structure Host.OnTree (host : Host (StateM FileTree)) : Prop where
  readInput : ∀ t, (host.readInput t).2 = t
  fileContent : ∀ path t, (host.fileContent path t).2 = t
  listDirectory : ∀ path t, (host.listDirectory path t).2 = t
  isDirectory : ∀ path t, (host.isDirectory path t).2 = t
  directory_of_isDirectory : ∀ path t, (host.isDirectory path t).1 = true →
    t.isDirectory (Utf8.encode path) = true
  makeDirectory : ∀ path t, (∃ e, host.makeDirectory path t = (.error e, t)) ∨
    ∃ t', t.makeDirectory (Utf8.encode path) = .ok t' ∧ host.makeDirectory path t = (.ok (), t')
  openFile : ∀ path fresh mode t, (∃ e, host.openFile path fresh mode t = (.error e, t)) ∨
    ∃ file q t', t.openFile (Utf8.encode path) fresh mode = .ok (q, t') ∧
      host.openFile path fresh mode t = (.ok file, t') ∧ host.WritesAt file q
  print : ∀ output t, (host.print output t).2 = t

/-- The host without room for another byte: files can be opened, and nothing can be written. -/
def Host.withoutRoom {m : Type → Type} [Monad m] (host : Host m) : Host m :=
  { host with write := fun _ _ => return .error (.other "No space left on device (os error 28)") }

/-- The host with a standard output that nobody reads any more. -/
def Host.withoutOutput {m : Type → Type} [Monad m] (host : Host m) : Host m :=
  { host with print := fun _ => return .error (.other "Broken pipe (os error 32)") }

theorem Host.makeDirectories_withoutRoom {m : Type → Type} [Monad m] (host : Host m) (n : Nat)
    (path : String) : host.withoutRoom.makeDirectories n path = host.makeDirectories n path :=
  makeDirectories_congr host host.withoutRoom rfl rfl n path

theorem Host.makeDirectories_withoutOutput {m : Type → Type} [Monad m] (host : Host m) (n : Nat)
    (path : String) : host.withoutOutput.makeDirectories n path = host.makeDirectories n path :=
  makeDirectories_congr host host.withoutOutput rfl rfl n path

namespace Host.OnTree

variable {host : Host (StateM FileTree)}

theorem withoutRoom (h : host.OnTree) : host.withoutRoom.OnTree :=
  { h with
    openFile := by
      intro path fresh mode t
      rcases h.openFile path fresh mode t with hfail | ⟨file, q, t', htree, hopen, -⟩
      · exact Or.inl hfail
      · exact Or.inr ⟨file, q, t', htree, hopen, fun _ _ => Or.inr ⟨_, Or.inl rfl⟩⟩ }

theorem withoutOutput (h : host.OnTree) : host.withoutOutput.OnTree :=
  { h with print := fun _ _ => rfl }

end Host.OnTree

namespace FileTree

theorem host_makeDirectory_of_error {t : FileTree} {path : String} {e : OsError}
    (h : t.makeDirectory (Utf8.encode path) = .error e) (input : Bytes) :
    (host input).makeDirectory path t = (.error e, t) := by
  show change (fun t => t.makeDirectory (Utf8.encode path)) t = _
  unfold change
  simp only [h]

theorem host_makeDirectory_of_ok {t t' : FileTree} {path : String}
    (h : t.makeDirectory (Utf8.encode path) = .ok t') (input : Bytes) :
    (host input).makeDirectory path t = (.ok (), t') := by
  show change (fun t => t.makeDirectory (Utf8.encode path)) t = _
  unfold change
  simp only [h]

theorem host_openFile_of_ok {t t' : FileTree} {q : Place} {path : String} {fresh : Bool}
    {mode : Nat} (h : t.openFile (Utf8.encode path) fresh mode = .ok (q, t')) (input : Bytes) :
    (host input).openFile path fresh mode t = (.ok q, t') := by
  simp only [host, h]

/-- A tree is a host that refuses nothing but what the tree makes impossible. -/
theorem onTree_host (input : Bytes) : (host input).OnTree where
  readInput := fun _ => rfl
  fileContent := fun _ _ => rfl
  listDirectory := fun _ _ => rfl
  isDirectory := fun _ _ => rfl
  directory_of_isDirectory := fun _ _ h => h
  makeDirectory := by
    intro path t
    cases hmake : t.makeDirectory (Utf8.encode path) with
    | error e => exact Or.inl ⟨e, host_makeDirectory_of_error hmake input⟩
    | ok t' => exact Or.inr ⟨t', rfl, host_makeDirectory_of_ok hmake input⟩
  openFile := by
    intro path fresh mode t
    cases hopen : t.openFile (Utf8.encode path) fresh mode with
    | error e => exact Or.inl ⟨e, by simp only [host, hopen]⟩
    | ok opened =>
      obtain ⟨q, t'⟩ := opened
      exact Or.inr ⟨q, q, t', rfl, host_openFile_of_ok hopen input, fun _ _ => Or.inl rfl⟩
  print := fun _ _ => rfl

section

variable {t t' t'' : FileTree} {p : Place} {path above content : Bytes} {mode : Nat}

/-! ## Growing trees -/

/-- A place on the way to a path: the first steps of the path lead there. -/
def OnTheWay (t : FileTree) (path : Bytes) (p : Place) : Prop :=
  ∃ front n, front <+: steps (components path) ∧
    Leads t maxLinks (startAt t.workingDirectory path) front p n

/-- Directories have been made on the way to a path, and everything else is as it was. -/
structure Grown (path : Bytes) (t t' : FileTree) : Prop where
  workingDirectory : t'.workingDirectory = t.workingDirectory
  kept : ∀ p node, t.get? p = some node → t'.get? p = some node
  made : ∀ p, t.get? p = none → t'.get? p ≠ none →
    t'.get? p = some .directory ∧ OnTheWay t' path p

theorem Grown.refl (path : Bytes) (t : FileTree) : Grown path t t where
  workingDirectory := rfl
  kept := fun _ _ h => h
  made := fun _ hnone hsome => absurd hnone hsome

/-- What is on the way stays there if no directory and no symbolic link is taken away. -/
theorem OnTheWay.mono (h : OnTheWay t path p) (hwd : t'.workingDirectory = t.workingDirectory)
    (hkept : ∀ p node, t.get? p = some node → (∀ content mode, node ≠ .file content mode) →
      t'.get? p = some node) : OnTheWay t' path p := by
  obtain ⟨front, n, hfront, hleads⟩ := h
  refine ⟨front, n, hfront, ?_⟩
  rw [hwd]
  exact hleads.mono hkept

theorem Grown.trans (h : Grown path t t') (h' : Grown path t' t'') : Grown path t t'' where
  workingDirectory := h'.workingDirectory.trans h.workingDirectory
  kept := fun p node hp => h'.kept p node (h.kept p node hp)
  made := by
    intro p hnone hsome
    by_cases hp : t'.get? p = none
    · exact h'.made p hp hsome
    · obtain ⟨hdir, hway⟩ := h.made p hnone hp
      exact ⟨h'.kept p _ hdir,
        hway.mono h'.workingDirectory fun p node hp _ => h'.kept p node hp⟩

/-- Only new places are other than they were. -/
theorem Grown.changed (h : Grown path t t') (hp : t'.get? p ≠ t.get? p) :
    t.get? p = none ∧ t'.get? p = some .directory ∧ OnTheWay t' path p := by
  cases hnode : t.get? p with
  | some node =>
    rw [h.kept p node hnode, hnode] at hp
    exact absurd rfl hp
  | none =>
    rw [hnode] at hp
    exact ⟨rfl, h.made p hnode hp⟩

/-- Among the new places there are no files. -/
theorem Grown.file_iff (h : Grown path t t') :
    t'.get? p = some (.file content mode) ↔ t.get? p = some (.file content mode) := by
  by_cases hp : t'.get? p = t.get? p
  · rw [hp]
  · obtain ⟨hnone, hdir, -⟩ := h.changed hp
    rw [hnone, hdir]
    simp

/-- What is on the way to the directory above is on the way to the path. -/
theorem Grown.below (h : Grown above t t')
    (hsteps : steps (components above) <+: steps (components path))
    (habsolute : isAbsolute path = isAbsolute above) : Grown path t t' where
  workingDirectory := h.workingDirectory
  kept := h.kept
  made := by
    intro p hnone hsome
    obtain ⟨hdir, front, n, hfront, hleads⟩ := h.made p hnone hsome
    refine ⟨hdir, front, n, hfront.trans hsteps, ?_⟩
    unfold startAt at hleads ⊢
    rwa [habsolute]

theorem grown_makeDirectory (h : t.makeDirectory path = .ok t') : Grown path t t' := by
  obtain ⟨p, hp, rfl, hdir⟩ := directoryAt_of_makeDirectory h
  refine ⟨rfl, fun q node hq => get?_put_of_vacant hp hq _, fun q hnone hsome => ?_⟩
  -- only one place is new
  by_cases hq : q = p
  · subst hq
    obtain ⟨m, hleads⟩ := hdir.leads
    exact ⟨hdir.directory, _, m, List.prefix_rfl, hleads⟩
  · rw [get?_put_of_ne hq] at hsome
    exact absurd hnone hsome

end

/-! ## Making directories on a host -/

/-- How an attempt to make one directory can end: it is made, or nothing has changed, and then the
attempt ended well only if the directory was there. -/
def Attempted (path : String) (t : FileTree) (r : Except OsError Unit × FileTree) : Prop :=
  (∃ t', t.makeDirectory (Utf8.encode path) = .ok t' ∧ r = (.ok (), t')) ∨
    r.2 = t ∧ (r.1 = .ok () → t.isDirectory (Utf8.encode path) = true)

section

variable {host : Host (StateM FileTree)} {t t' : FileTree} {n : Nat} {p : Place} {path : String}
  {input : Bytes} {r : Except OsError Unit × FileTree}

theorem isEmpty_eq_false (hne : path ≠ "") : path.isEmpty = false := by
  rw [← Bool.not_eq_true, String.isEmpty_iff]
  exact hne

theorem DirectoryAt.path_ne_empty (h : DirectoryAt t (Utf8.encode path) p) : path ≠ "" := by
  rintro rfl
  exact h.ne_nil rfl

theorem run_bind (x : StateM FileTree α) (f : α → StateM FileTree β) (t : FileTree) :
    (x >>= f) t = f (x t).1 (x t).2 := rfl

theorem Attempted.grown (h : Attempted path t r) : Grown (Utf8.encode path) t r.2 := by
  rcases h with ⟨t', hmake, rfl⟩ | ⟨hsame, -⟩
  · exact grown_makeDirectory hmake
  · rw [hsame]
    exact .refl _ _

theorem Attempted.wellFormed (h : Attempted path t r) (ht : t.WellFormed) : r.2.WellFormed := by
  rcases h with ⟨t', hmake, rfl⟩ | ⟨hsame, -⟩
  · exact ht.makeDirectory hmake
  · rw [hsame]
    exact ht

/-- Where the path leads somewhere an attempt has no effect. -/
theorem Attempted.eq_of_reaches (h : Attempted path t r) (ht : t.WellFormed)
    (hreaches : Reaches t (Utf8.encode path)) : r.2 = t := by
  rcases h with ⟨t', hmake, rfl⟩ | ⟨hsame, -⟩
  · exact absurd hmake (hreaches.makeDirectory_ne_ok ht)
  · exact hsame

theorem Attempted.isDirectory (h : Attempted path t r) (hok : r.1 = .ok ()) :
    r.2.isDirectory (Utf8.encode path) = true := by
  rcases h with ⟨t', hmake, rfl⟩ | ⟨hsame, hthere⟩
  · obtain ⟨p, -, -, hdir⟩ := directoryAt_of_makeDirectory hmake
    exact isDirectory_iff.mpr ⟨p, hdir⟩
  · rw [hsame]
    exact hthere hok

theorem attempted_of_failed {e : OsError} (h : r = (.error e, t)) : Attempted path t r := by
  subst h
  refine Or.inr ⟨rfl, fun hok => ?_⟩
  cases hok

section

variable (hhost : host.OnTree)

include hhost

omit hhost in
theorem makeDirectories_empty (n : Nat) (t : FileTree) :
    host.makeDirectories n "" t = (.ok (), t) := by
  cases n <;> rfl

/-- A directory that could not be made may be there already. -/
theorem attempted_of_error (path : String) (e : OsError) (t : FileTree) :
    Attempted path t ((do if ← host.isDirectory path then return .ok () else return .error e :
      StateM FileTree (Except OsError Unit)) t) := by
  have hsame := hhost.isDirectory path t
  have hthere := hhost.directory_of_isDirectory path t
  rw [run_bind]
  generalize host.isDirectory path t = answer at hsame hthere ⊢
  obtain ⟨there, t₁⟩ := answer
  obtain rfl : t₁ = t := hsame
  cases there with
  | false => exact attempted_of_failed rfl
  | true => exact Or.inr ⟨rfl, fun _ => hthere rfl⟩

/-- How making a directory with what is missing on the way can end: with an attempt to make it, in
the tree as it is or after the directory above was made, or where that one could not be made. -/
theorem makeDirectories_ends (hne : path ≠ "") (n : Nat) (t : FileTree) :
    Attempted path t (host.makeDirectories (n + 1) path t) ∨
    ∃ above answer t₁, Host.parent? path = some above ∧
      host.makeDirectories n above t = (answer, t₁) ∧
      ((∃ e, host.makeDirectories (n + 1) path t = (.error e, t₁)) ∨
        answer = .ok () ∧ Attempted path t₁ (host.makeDirectories (n + 1) path t)) := by
  rw [Host.makeDirectories, isEmpty_eq_false hne, if_neg Bool.false_ne_true, run_bind]
  rcases hhost.makeDirectory path t with ⟨e, hmake⟩ | ⟨t', htree, hmake⟩
  · rw [hmake]
    cases e with
    | notFound =>
      cases habove : Host.parent? path with
      | none => exact Or.inl (attempted_of_failed rfl)
      | some above =>
        refine Or.inr ⟨above, _, _, rfl, rfl, ?_⟩
        simp only [run_bind]
        rcases host.makeDirectories n above t with ⟨⟨e⟩ | ⟨⟩, t₁⟩
        · exact Or.inl ⟨e, rfl⟩
        · refine Or.inr ⟨rfl, ?_⟩
          simp only [run_bind]
          rcases hhost.makeDirectory path t₁ with ⟨e, hmake⟩ | ⟨t', htree, hmake⟩
          · rw [hmake]
            exact attempted_of_error hhost path e t₁
          · rw [hmake]
            exact Or.inl ⟨t', htree, rfl⟩
    | _ => exact Or.inl (attempted_of_error hhost path _ t)
  · rw [hmake]
    exact Or.inl (Or.inl ⟨t', htree, rfl⟩)

/-- **Making directories makes nothing but directories on the way**, also if it fails half way. -/
theorem grown_makeDirectories (n : Nat) (path : String) (t : FileTree) :
    Grown (Utf8.encode path) t (host.makeDirectories n path t).2 := by
  induction n generalizing path with
  | zero => exact .refl _ _
  | succ n ih =>
    by_cases hne : path = ""
    · rw [hne, makeDirectories_empty]
      exact .refl _ _
    · rcases makeDirectories_ends hhost hne n t with hend | ⟨above, answer, t₁, habove, hon, hend⟩
      · exact hend.grown
      · have hway : Grown (Utf8.encode path) t t₁ := by
          have hgrown := ih above
          rw [hon] at hgrown
          by_cases hroot : above = ""
          · rw [hroot, makeDirectories_empty] at hon
            cases hon
            exact .refl _ _
          · obtain ⟨c, -, hsteps, habsolute⟩ := steps_of_parent? habove hroot
            exact hgrown.below (hsteps ▸ List.prefix_append _ _) habsolute
        rcases hend with ⟨e, hfail⟩ | ⟨-, hend⟩
        · rw [hfail]
          exact hway
        · exact hway.trans hend.grown

/-- If making directories ends well, the directory is there. -/
theorem isDirectory_of_makeDirectories (hne : path ≠ "")
    (h : host.makeDirectories (n + 1) path t = (.ok (), t')) :
    t'.isDirectory (Utf8.encode path) = true := by
  rcases makeDirectories_ends hhost hne n t with hend | ⟨_, _, _, -, -, ⟨e, hfail⟩ | ⟨-, hend⟩⟩
  · rw [h] at hend
    exact hend.isDirectory rfl
  · rw [h] at hfail
    cases hfail
  · rw [h] at hend
    exact hend.isDirectory rfl

theorem WellFormed.makeDirectories (ht : t.WellFormed)
    (h : host.makeDirectories n path t = (.ok (), t')) : t'.WellFormed := by
  induction n generalizing path t' with
  | zero =>
    cases h
    exact ht
  | succ n ih =>
    by_cases hne : path = ""
    · rw [hne, makeDirectories_empty] at h
      cases h
      exact ht
    · rcases makeDirectories_ends hhost hne n t with hend | ⟨above, _, t₁, -, hon, hend⟩
      · rw [h] at hend
        exact hend.wellFormed ht
      · rcases hend with ⟨e, hfail⟩ | ⟨rfl, hend⟩
        · rw [h] at hfail
          cases hfail
        · rw [h] at hend
          exact hend.wellFormed (ih hon)

/-- **Where the path leads somewhere already nothing is made.** -/
theorem makeDirectories_of_reaches (ht : t.WellFormed) (hreaches : Reaches t (Utf8.encode path))
    (n : Nat) : (host.makeDirectories n path t).2 = t := by
  induction n generalizing path with
  | zero => rfl
  | succ n ih =>
    by_cases hne : path = ""
    · rw [hne, makeDirectories_empty]
    · rcases makeDirectories_ends hhost hne n t with hend | ⟨above, answer, t₁, habove, hon, hend⟩
      · exact hend.eq_of_reaches ht hreaches
      · have hsame : t₁ = t := by
          by_cases hroot : above = ""
          · rw [hroot, makeDirectories_empty] at hon
            exact (Prod.mk.inj hon).2.symm
          · obtain ⟨c, -, hsteps, habsolute⟩ := steps_of_parent? habove hroot
            have hstay := ih (hreaches.above hsteps habsolute)
            rwa [hon] at hstay
        subst hsame
        rcases hend with ⟨e, hfail⟩ | ⟨-, hend⟩
        · rw [hfail]
        · exact hend.eq_of_reaches ht hreaches

/-- If the ups of a path resolve, then either nothing happened or its directory is new. -/
theorem unchanged_or_childless (ht : t.WellFormed) (hup : UpsResolve t (Utf8.encode path))
    (hnew : t.isDirectory (Utf8.encode path) = false)
    (h : host.makeDirectories n path t = (.ok (), t')) :
    t' = t ∨ ∃ p, DirectoryAt t' (Utf8.encode path) p ∧ ∀ c node, (p ++ [c], node) ∉ t'.nodes := by
  induction n generalizing path t' with
  | zero => exact Or.inl (Prod.mk.inj h).2.symm
  | succ n ih =>
    by_cases hne : path = ""
    · rw [hne, makeDirectories_empty] at h
      exact Or.inl (Prod.mk.inj h).2.symm
    · rcases makeDirectories_ends hhost hne n t with hend | ⟨above, _, t₁, habove, hon, hend⟩
      · rw [h] at hend
        rcases hend with ⟨t₂, hmake, hsame⟩ | ⟨hsame, -⟩
        · cases hsame
          exact Or.inr (childless_of_makeDirectory ht hmake)
        · exact Or.inl hsame
      · rw [h] at hend
        rcases hend with ⟨e, hfail⟩ | ⟨rfl, ⟨t₂, hmake, hsame⟩ | ⟨rfl, hthere⟩⟩
        · cases hfail
        · cases hsame
          exact Or.inr (childless_of_makeDirectory (ht.makeDirectories hhost hon) hmake)
        · left
          by_cases hroot : above = ""
          · rw [hroot, makeDirectories_empty] at hon
            exact (Prod.mk.inj hon).2.symm
          · obtain ⟨c, -, hsteps, habsolute⟩ := steps_of_parent? habove hroot
            obtain ⟨p, hp⟩ := isDirectory_iff.mp (hthere rfl)
            obtain ⟨hup, hc⟩ := hup.above ht hnew hp.ne_nil hp.short hsteps habsolute
            cases hdir : t.isDirectory (Utf8.encode above) with
            | true =>
              obtain ⟨q, hq⟩ := isDirectory_iff.mp hdir
              have hstay := makeDirectories_of_reaches hhost ht hq.reaches n
              rwa [hon] at hstay
            | false =>
              refine (ih hup hdir hon).resolve_right ?_
              -- a new directory has no entry that the path could lead to
              rintro ⟨q, hq, hchildless⟩
              exact not_directoryAt_below hq hchildless hsteps habsolute hc hp

/-- **A directory that was not there is empty once it is made**, if the ups of its path resolve. -/
theorem listDirectory_of_makeDirectories (ht : t.WellFormed) (hne : path ≠ "")
    (hup : UpsResolve t (Utf8.encode path))
    (hnew : t.isDirectory (Utf8.encode path) = false)
    (h : host.makeDirectories (n + 1) path t = (.ok (), t')) :
    t'.listDirectory (Utf8.encode path) = .ok [] := by
  rcases unchanged_or_childless hhost ht hup hnew h with rfl | ⟨p, hdir, hchildless⟩
  · rw [isDirectory_of_makeDirectories hhost hne h] at hnew
    cases hnew
  · exact listDirectory_eq_ok_iff_directoryAt.mpr
      ⟨p, hdir, (entriesAt_of_childless hchildless).symm⟩

end

/-! ## Making directories on a tree -/

theorem host_isDirectory_of_directoryAt (h : DirectoryAt t (Utf8.encode path) p) (input : Bytes) :
    (FileTree.host input).isDirectory path t = (true, t) := by
  show (t.isDirectory (Utf8.encode path), t) = _
  rw [isDirectory_iff.mpr ⟨p, h⟩]

/-- One directory that is missing is made. -/
theorem makeDirectories_of_ok (hne : path ≠ "") (h : t.makeDirectory (Utf8.encode path) = .ok t')
    (n : Nat) (input : Bytes) :
    (FileTree.host input).makeDirectories (n + 1) path t = (.ok (), t') := by
  rw [Host.makeDirectories, isEmpty_eq_false hne, if_neg Bool.false_ne_true, run_bind,
    host_makeDirectory_of_ok h input]
  rfl

/-- A directory that is there already is left as it is. -/
theorem makeDirectories_of_directoryAt (h : DirectoryAt t (Utf8.encode path) p) (n : Nat)
    (input : Bytes) : (FileTree.host input).makeDirectories n path t = (.ok (), t) := by
  have hmake := host_makeDirectory_of_error (makeDirectory_of_directoryAt h) input
  have hask := host_isDirectory_of_directoryAt h input
  cases n with
  | zero => rfl
  | succ n =>
    rw [Host.makeDirectories, isEmpty_eq_false h.path_ne_empty, if_neg Bool.false_ne_true,
      run_bind, hmake]
    simp only [run_bind, hask]
    rfl

/-- A directory that is there once the one above is made is left as it is. -/
theorem makeDirectories_of_above {above : String}
    (hmissing : t.makeDirectory (Utf8.encode path) = .error .notFound)
    (habove : Host.parent? path = some above)
    (hon : (FileTree.host input).makeDirectories n above t = (.ok (), t'))
    (h : DirectoryAt t' (Utf8.encode path) p) :
    (FileTree.host input).makeDirectories (n + 1) path t = (.ok (), t') := by
  have hmake := host_makeDirectory_of_error (makeDirectory_of_directoryAt h) input
  have hask := host_isDirectory_of_directoryAt h input
  rw [Host.makeDirectories, isEmpty_eq_false h.path_ne_empty, if_neg Bool.false_ne_true,
    run_bind, host_makeDirectory_of_error hmissing input, habove]
  simp only [run_bind, hon, hmake, hask]
  rfl

end

end FileTree

end SealedRecords
