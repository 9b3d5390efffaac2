import SealedRecords.Proofs.Files.Listing
import SealedRecords.Proofs.Files.Paths

/-!
# Directories of a tree

A tree is well formed if every node lies in a directory, and making a directory
keeps it so. A directory can be made where a path leads to nothing, and there is
nothing in it then:

> `childless_of_makeDirectory`: a directory that was made is empty.

A path that leads back up behind something missing can get to a directory that was
there before, once the missing part is made. `UpsResolve` tells the paths with which
this cannot happen.
-/

namespace SealedRecords.FileTree

open SealedRecords

section

variable {t t' : FileTree} {aim : Aim} {n : Nat} {here p q : Place} {cs : List Bytes}
  {node : Node} {c path : Bytes}

/-! ## Well-formed trees -/

/-- Each place is listed once, what is listed lies in a directory, and the working directory is
one. -/
structure WellFormed (t : FileTree) : Prop where
  distinct : (t.nodes.map Prod.fst).Nodup
  parent : ∀ e ∈ t.nodes, t.get? e.1.dropLast = some .directory
  working : t.get? t.workingDirectory = some .directory

theorem mem_nodes_of_get? (h : t.get? p = some node) (hp : p ≠ []) : (p, node) ∈ t.nodes := by
  rw [get?_of_ne_nil hp, Option.map_eq_some_iff] at h
  obtain ⟨e, hfind, rfl⟩ := h
  have hplace : e.1 = p := by simpa using List.find?_some hfind
  rw [← hplace]
  exact List.mem_of_find?_eq_some hfind

theorem get?_startAt (hhere : t.get? here = some .directory) :
    t.get? (startAt here path) = some .directory := by
  unfold startAt
  split
  · rfl
  · exact hhere

namespace WellFormed

theorem parent_of_get? (ht : t.WellFormed) (h : t.get? p = some node) :
    t.get? p.dropLast = some .directory := by
  by_cases hp : p = []
  · rw [hp]
    rfl
  · exact ht.parent _ (mem_nodes_of_get? h hp)

/-- Nothing lies below a place that holds no directory. -/
theorem childless (ht : t.WellFormed) (h : t.get? p ≠ some .directory) :
    (p ++ [c], node) ∉ t.nodes := by
  intro hmem
  have hparent := ht.parent _ hmem
  rw [List.dropLast_concat] at hparent
  exact h hparent

theorem put (ht : t.WellFormed) (hparent : t.get? p.dropLast = some .directory)
    (h : t.get? p ≠ some .directory) (node : Node) : (t.put p node).WellFormed := by
  have hkeep : ∀ {q}, t.get? q = some .directory → (t.put p node).get? q = some .directory := by
    intro q hq
    have hne : q ≠ p := by
      rintro rfl
      exact h hq
    rw [get?_put_of_ne hne, hq]
  refine ⟨?_, ?_, hkeep ht.working⟩
  · unfold FileTree.put
    rw [List.map_append, List.nodup_append]
    refine ⟨(List.filter_sublist.map Prod.fst).nodup ht.distinct, by simp, ?_⟩
    intro q hq r hr
    obtain ⟨e, he, rfl⟩ := List.mem_map.mp hq
    obtain rfl : r = p := List.mem_singleton.mp hr
    simpa using (List.mem_filter.mp he).2
  · intro e he
    rcases List.mem_append.mp he with he | he
    · exact hkeep (ht.parent e (List.mem_filter.mp he).1)
    · obtain rfl := List.mem_singleton.mp he
      exact hkeep hparent

/-- From a directory steps lead to a directory. -/
theorem directory_of_leads (ht : t.WellFormed) (h : Leads t n here ss p m)
    (hhere : t.get? here = some .directory) : t.get? p = some .directory := by
  induction h with
  | here => exact hhere
  | up _ ih => exact ih (ht.parent_of_get? hhere)
  | down _ hnode _ ih => exact ih hnode
  | link _ _ _ ih => exact ih (get?_startAt hhere)

/-- Where a walk ends there is a directory to hold what it found. -/
theorem parent_of_walks (ht : t.WellFormed) (h : Walks t aim n here cs p)
    (hhere : t.get? here = some .directory) : t.get? p.dropLast = some .directory := by
  induction h with
  | nil => exact ht.parent_of_get? hhere
  | stay _ _ ih => exact ih hhere
  | up _ ih => exact ih (ht.parent_of_get? hhere)
  | down _ hnode _ ih => exact ih hnode
  | link _ _ _ _ ih => exact ih (get?_startAt hhere)
  | stop =>
    rw [List.dropLast_concat]
    exact hhere

end WellFormed

/-! ## Directories at paths -/

theorem resolve_eq_ok_iff : t.resolve aim path = .ok p ↔ path ≠ [] ∧ path.length < pathLimit ∧
    t.walkLinks aim maxLinks (startAt t.workingDirectory path) (components path) = .ok p := by
  unfold resolve startAt
  by_cases hempty : path = []
  · simp [hempty]
  · by_cases hlong : pathLimit ≤ path.length
    · simp [hempty, hlong, Nat.not_lt.mpr hlong]
    · simp [hempty, hlong, Nat.lt_of_not_le hlong]

/-- A path leads to the directory at a place. -/
structure DirectoryAt (t : FileTree) (path : Bytes) (p : Place) : Prop where
  ne_nil : path ≠ []
  short : path.length < pathLimit
  leads : ∃ m, Leads t maxLinks (startAt t.workingDirectory path) (steps (components path)) p m
  directory : t.get? p = some .directory

theorem directoryAt_iff :
    DirectoryAt t path p ↔ t.resolve .existing path = .ok p ∧ t.get? p = some .directory := by
  rw [resolve_eq_ok_iff]
  constructor
  · rintro ⟨hne, hshort, ⟨m, hleads⟩, hp⟩
    have hwalk := walkLinks_append hleads (goesOn_existing []) rfl
    rw [List.append_nil, walkLinks_nil] at hwalk
    exact ⟨⟨hne, hshort, hwalk⟩, hp⟩
  · rintro ⟨⟨hne, hshort, hwalk⟩, hp⟩
    exact ⟨hne, hshort, leads_of_walks (walks_of_walkLinks hwalk) hp, hp⟩

theorem isDirectory_iff : t.isDirectory path = true ↔ ∃ p, DirectoryAt t path p := by
  simp only [directoryAt_iff]
  unfold isDirectory
  cases t.resolve .existing path with
  | error e => simp
  | ok p => simp

theorem listDirectory_eq_ok_iff_directoryAt {entries : List DirEntry} :
    t.listDirectory path = .ok entries ↔
      ∃ p, DirectoryAt t path p ∧ entries = t.entriesAt p path := by
  rw [listDirectory_eq_ok_iff]
  simp only [directoryAt_iff, and_assoc]

/-! ## Making one directory -/

theorem makeDirectory_of_directoryAt (h : DirectoryAt t path p) :
    t.makeDirectory path = .error .alreadyExists := by
  obtain ⟨m, hleads⟩ := h.leads
  have hp : t.get? p ≠ none := by
    rw [h.directory]
    exact Option.some_ne_none _
  obtain ⟨q, hwalk, hq⟩ := exists_node_of_leads hleads hp rfl
  have hresolve : t.resolve .newDirectory path = .ok q :=
    resolve_eq_ok_iff.mpr ⟨h.ne_nil, h.short, hwalk⟩
  obtain ⟨node, hnode⟩ := Option.ne_none_iff_exists'.mp hq
  unfold makeDirectory
  simp only [hresolve, bind, Except.bind, hnode]
  rfl

theorem makeDirectory_eq_ok_iff : t.makeDirectory path = .ok t' ↔
    ∃ p, t.resolve .newDirectory path = .ok p ∧ t.get? p = none ∧ t' = t.put p .directory := by
  unfold makeDirectory
  cases t.resolve .newDirectory path with
  | error e => simp [bind, Except.bind]
  | ok p =>
    simp only [bind, Except.bind, Except.ok.injEq, exists_eq_left']
    cases t.get? p with
    | none => simp [pure, Except.pure, eq_comm]
    | some node => simp [throw, throwThe, MonadExceptOf.throw]

theorem WellFormed.makeDirectory (ht : t.WellFormed) (h : t.makeDirectory path = .ok t') :
    t'.WellFormed := by
  obtain ⟨p, hresolve, hp, rfl⟩ := makeDirectory_eq_ok_iff.mp h
  obtain ⟨-, -, hwalk⟩ := resolve_eq_ok_iff.mp hresolve
  have hstart : t.get? (startAt t.workingDirectory path) = some .directory :=
    get?_startAt ht.working
  have hnew : t.get? p ≠ some .directory := by
    rw [hp]
    exact Option.some_ne_none _ |>.symm
  exact ht.put (ht.parent_of_walks (walks_of_walkLinks hwalk) hstart) hnew _

/-- What was put where nothing was leaves everything else. -/
theorem get?_put_of_vacant (hp : t.get? p = none) (hq : t.get? q = some node) (node' : Node) :
    (t.put p node').get? q = some node := by
  have hne : q ≠ p := by
    rintro rfl
    rw [hp] at hq
    cases hq
  rw [get?_put_of_ne hne, hq]

/-- The walk that found room for a directory leads to it once it is made. -/
theorem leads_of_walks_vacant (h : Walks t .newDirectory n here cs p) (hp : t.get? p = none) :
    ∃ m, Leads (t.put p .directory) n here (steps cs) p m := by
  induction h with
  | nil => exact ⟨_, .here⟩
  | stay hc _ ih =>
    rw [steps_cons_of_stay hc]
    exact ih hp
  | up _ ih =>
    obtain ⟨m, ih⟩ := ih hp
    exact ⟨m, .up ih⟩
  | down hc hnode _ ih =>
    obtain ⟨m, ih⟩ := ih hp
    rw [steps_cons_of_leadsOn hc.leadsOn]
    exact ⟨m, .down hc (get?_put_of_vacant hp hnode _) ih⟩
  | link hc hnode _ _ ih =>
    obtain ⟨m, ih⟩ := ih hp
    rw [steps_append] at ih
    rw [steps_cons_of_leadsOn hc.leadsOn]
    exact ⟨m, .link hc (get?_put_of_vacant hp hnode _) ih⟩
  -- the walk stopped where nothing was; now the directory is there, and it is where the path ends
  | @stop c here rest n hc _ hend =>
    have hrest : steps rest = [] := by
      refine steps_of_all_isEmpty ?_
      rcases Bool.or_eq_true_iff.mp hend with hnil | hempty
      · rw [List.isEmpty_iff.mp hnil]
        rfl
      · exact (Bool.and_eq_true_iff.mp hempty).2
    rw [steps_cons_of_leadsOn hc.leadsOn, hrest]
    exact ⟨_, .down hc (get?_put_self (ne_nil_of_vacant hp)) .here⟩

theorem directoryAt_of_makeDirectory (h : t.makeDirectory path = .ok t') :
    ∃ p, t.get? p = none ∧ t' = t.put p .directory ∧ DirectoryAt t' path p := by
  obtain ⟨p, hresolve, hp, rfl⟩ := makeDirectory_eq_ok_iff.mp h
  obtain ⟨hne, hshort, hwalk⟩ := resolve_eq_ok_iff.mp hresolve
  exact ⟨p, hp, rfl, hne, hshort, leads_of_walks_vacant (walks_of_walkLinks hwalk) hp,
    get?_put_self (ne_nil_of_vacant hp)⟩

theorem entriesAt_of_childless (h : ∀ c node, (p ++ [c], node) ∉ t.nodes) :
    t.entriesAt p path = [] := by
  rw [List.eq_nil_iff_forall_not_mem]
  intro e he
  obtain ⟨node, hmem, -⟩ := mem_entriesAt_iff.mp he
  exact h _ _ hmem

/-- **A directory that was made is empty.** -/
theorem childless_of_makeDirectory (ht : t.WellFormed) (h : t.makeDirectory path = .ok t') :
    ∃ p, DirectoryAt t' path p ∧ ∀ c node, (p ++ [c], node) ∉ t'.nodes := by
  obtain ⟨p, hp, rfl, hdir⟩ := directoryAt_of_makeDirectory h
  refine ⟨p, hdir, fun c node hmem => ?_⟩
  have hnew : t.get? p ≠ some .directory := by
    rw [hp]
    exact Option.some_ne_none _ |>.symm
  rcases List.mem_append.mp hmem with hmem | hmem
  · exact ht.childless hnew (List.mem_filter.mp hmem).1
  · have hplace : p ++ [c] = p := (Prod.mk.inj (List.mem_singleton.mp hmem)).1
    exact List.cons_ne_nil c [] (List.append_right_eq_self.mp hplace)

end

/-! ## Paths that lead back up -/

section

variable {t t' : FileTree} {p q : Place} {a b c path up : Bytes}

/-- What a path asks for is there: all of its steps lead to some place. -/
def Reaches (t : FileTree) (path : Bytes) : Prop :=
  ∃ p n, Leads t maxLinks (startAt t.workingDirectory path) (steps (components path)) p n

theorem DirectoryAt.reaches (h : DirectoryAt t path p) : Reaches t path :=
  ⟨p, h.leads⟩

/-- The steps of the path above lead somewhere, too. -/
theorem Reaches.above (h : Reaches t path)
    (hsteps : steps (components path) = steps (components up) ++ [c])
    (habsolute : isAbsolute path = isAbsolute up) : Reaches t up := by
  obtain ⟨p, n, hleads⟩ := h
  rw [hsteps] at hleads
  obtain ⟨q, m, hfirst, -⟩ := hleads.of_append
  refine ⟨q, m, ?_⟩
  unfold startAt at hfirst ⊢
  rwa [habsolute] at hfirst

/-- Where a path leads somewhere no directory can be made. -/
theorem Reaches.makeDirectory_ne_ok (ht : t.WellFormed) (h : Reaches t path) :
    t.makeDirectory path ≠ .ok t' := by
  intro hmake
  obtain ⟨p, n, hleads⟩ := h
  have hthere : t.get? p ≠ none := by
    rw [ht.directory_of_leads hleads (get?_startAt ht.working)]
    exact Option.some_ne_none _
  obtain ⟨q, hresolve, hvacant, -⟩ := makeDirectory_eq_ok_iff.mp hmake
  obtain ⟨-, -, hwalk⟩ := resolve_eq_ok_iff.mp hresolve
  obtain ⟨q', hwalk', hq'⟩ := exists_node_of_leads hleads hthere rfl
  obtain rfl : q = q' := Except.ok.inj (hwalk.symm.trans hwalk')
  exact hq' hvacant

/-- Below a directory without entries a path leads to no directory. -/
theorem not_directoryAt_below (ha : DirectoryAt t a q)
    (hchildless : ∀ c node, (q ++ [c], node) ∉ t.nodes)
    (hsteps : steps (components b) = steps (components a) ++ [c])
    (habsolute : isAbsolute b = isAbsolute a) (hc : c ≠ dotDot) : ¬ DirectoryAt t b p := by
  intro hb
  obtain ⟨m, hleads⟩ := hb.leads
  obtain ⟨k, hleads_a⟩ := ha.leads
  have hstart : startAt t.workingDirectory b = startAt t.workingDirectory a := by
    unfold startAt
    rw [habsolute]
  rw [hsteps, hstart] at hleads
  obtain ⟨q', k', hfirst, hlast⟩ := hleads.of_append
  obtain ⟨rfl, rfl⟩ := hfirst.unique hleads_a
  have hnode : ∀ node, t.get? (q' ++ [c]) ≠ some node := fun node h =>
    hchildless c node
      (mem_nodes_of_get? h (List.append_ne_nil_of_right_ne_nil _ (List.cons_ne_nil _ _)))
  cases hlast with
  | up => exact hc rfl
  | down _ h => exact hnode _ h
  | link _ h => exact hnode _ h

/-- A path leads back up only on the part of it that is there: what it has up to its last `..`
leads to a directory. -/
def UpsResolve (t : FileTree) (path : Bytes) : Prop :=
  ∃ there missing, steps (components path) = there ++ missing ∧ dotDot ∉ missing ∧
    ∃ p n, Leads t maxLinks (startAt t.workingDirectory path) there p n

theorem upsResolve_of_not_mem (t : FileTree) (h : dotDot ∉ components path) :
    UpsResolve t path :=
  ⟨[], steps (components path), rfl, fun hmem => h (List.mem_filter.mp hmem).1, _, _, .here⟩

/-- The last step to a directory that is missing does not lead up, if the ups of its path resolve,
and then the ups of the path above resolve, too. -/
theorem UpsResolve.above (ht : t.WellFormed)
    (h : UpsResolve t path) (hnew : t.isDirectory path = false) (hne : path ≠ [])
    (hshort : path.length < pathLimit)
    (hsteps : steps (components path) = steps (components up) ++ [c])
    (habsolute : isAbsolute path = isAbsolute up) : UpsResolve t up ∧ c ≠ dotDot := by
  obtain ⟨there, missing, hparts, hdown, p, n, hleads⟩ := h
  have hstart : startAt t.workingDirectory path = startAt t.workingDirectory up := by
    unfold startAt
    rw [habsolute]
  rcases List.eq_nil_or_concat missing with rfl | ⟨missing, d, rfl⟩
  · rw [List.append_nil] at hparts
    have hdir : DirectoryAt t path p :=
      ⟨hne, hshort, ⟨n, hparts ▸ hleads⟩, ht.directory_of_leads hleads (get?_startAt ht.working)⟩
    rw [isDirectory_iff.mpr ⟨p, hdir⟩] at hnew
    cases hnew
  · rw [List.concat_eq_append] at hparts hdown
    rw [hsteps, ← List.append_assoc] at hparts
    obtain ⟨habove, hlast⟩ := List.append_inj' hparts rfl
    obtain rfl : c = d := List.singleton_inj.mp hlast
    rw [List.mem_append, not_or] at hdown
    refine ⟨⟨there, missing, habove, hdown.1, p, n, hstart ▸ hleads⟩, ?_⟩
    rintro rfl
    exact hdown.2 (List.mem_singleton_self _)

end

end SealedRecords.FileTree
