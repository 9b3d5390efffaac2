import SealedRecords.FileTree

/-!
# Walking along paths

A path leads to a directory by way of directories and symbolic links only. That
is `Leads`, a relation on the components of a path that lead somewhere at all, and
it keeps the number of links that may still be followed. It is what the look-ups
for different aims have in common:

> `walkLinks_append`: behind a part of a path that leads to a directory, a walk
> for any aim goes on from there.

> `exists_node_of_leads`: where a path leads to something, a directory to be made
> finds something in its way.

How a walk can end otherwise is `Walks`, from which facts about the place that was
found are read off.
-/

namespace SealedRecords.FileTree

section

variable {t t' : FileTree} {aim : Aim} {n m k : Nat} {here p q : Place} {c target path : Bytes}
  {cs ds ss rest : List Bytes} {node : Node}

/-! ## Nodes at places -/

theorem get?_of_ne_nil (h : p ≠ []) :
    t.get? p = (t.nodes.find? fun e => e.1 == p).map Prod.snd := by
  unfold get?
  rw [if_neg (by rwa [List.isEmpty_iff])]

@[simp] theorem get?_nil : t.get? [] = some .directory := rfl

theorem ne_nil_of_vacant (h : t.get? p = none) : p ≠ [] := by
  rintro rfl
  rw [get?_nil] at h
  cases h

theorem get?_put_self (h : p ≠ []) : (t.put p node).get? p = some node := by
  have hnone : (t.nodes.filter fun e => e.1 != p).find? (fun e => e.1 == p) = none := by
    rw [List.find?_eq_none]
    intro e he
    simpa using (List.mem_filter.mp he).2
  rw [get?_of_ne_nil h]
  unfold put
  simp only [List.find?_append, hnone, Option.none_or]
  simp

theorem get?_put_of_ne (h : q ≠ p) : (t.put p node).get? q = t.get? q := by
  by_cases hq : q = []
  · rw [hq]
    rfl
  · rw [get?_of_ne_nil hq, get?_of_ne_nil hq]
    unfold put
    have hlast : (p == q) = false := beq_false_of_ne (Ne.symm h)
    have hkeep : ∀ l : List (Place × Node), (l.filter fun e => e.1 != p).find? (fun e => e.1 == q)
        = l.find? fun e => e.1 == q := by
      intro l
      rw [List.find?_filter]
      congr 1
      funext e
      by_cases he : e.1 = q
      · simp [he, h]
      · simp [he]
    rw [List.find?_append, hkeep]
    simp [hlast]

/-! ## Components -/

/-- The component that leads to the directory above. -/
def dotDot : Bytes := [0x2E, 0x2E]

/-- Whether a component leads away from a directory. The empty one and `.` do not. -/
def leadsOn (c : Bytes) : Bool := !(c.isEmpty || c = [0x2E])

/-- The components that lead away from a directory. -/
def steps (cs : List Bytes) : List Bytes := cs.filter leadsOn

@[simp] theorem steps_append : steps (cs ++ ds) = steps cs ++ steps ds := List.filter_append ..

theorem steps_cons_of_stay (h : leadsOn c = false) : steps (c :: cs) = steps cs :=
  List.filter_cons_of_neg (by rw [h]; exact Bool.false_ne_true)

theorem steps_cons_of_leadsOn (h : leadsOn c = true) : steps (c :: cs) = c :: steps cs :=
  List.filter_cons_of_pos h

theorem steps_of_all_isEmpty (h : cs.all List.isEmpty = true) : steps cs = [] := by
  unfold steps
  rw [List.filter_eq_nil_iff]
  intro c hc
  have hempty := List.all_eq_true.mp h c hc
  unfold leadsOn
  rw [hempty]
  exact Bool.false_ne_true

/-- Components whose first step is known begin with some that do not lead away. -/
theorem split_of_steps_cons (h : steps cs = c :: ss) : ∃ before after,
    cs = before ++ c :: after ∧ (∀ d ∈ before, leadsOn d = false) ∧ leadsOn c = true ∧
      steps after = ss := by
  obtain ⟨before, after, hcs, hbefore, hc, hafter⟩ := List.filter_eq_cons_iff.mp h
  refine ⟨before, after, hcs, fun d hd => ?_, hc, hafter⟩
  rw [← Bool.not_eq_true]
  exact hbefore d hd

/-- A component that names an entry of a directory. -/
structure IsEntry (c : Bytes) : Prop where
  leadsOn : leadsOn c = true
  ne_dotDot : c ≠ dotDot
  short : c.length ≤ maxName

theorem not_leadsOn_iff : leadsOn c = false ↔ c.isEmpty = true ∨ c = [0x2E] := by
  unfold leadsOn
  rw [Bool.not_eq_false', Bool.or_eq_true, decide_eq_true_iff]

/-! ## One step of a walk -/

/-- Where a walk along a path starts that is met in a directory. -/
def startAt (here : Place) (path : Bytes) : Place := if isAbsolute path then [] else here

/-- What a walk does behind a symbolic link. -/
def behindLink (t : FileTree) (aim : Aim) (n : Nat) (here : Place) (target : Bytes)
    (rest : List Bytes) : Except OsError Place :=
  match n with
  | 0 => .error .tooManyLinks
  | n + 1 => t.walkLinks aim n (startAt here target) (components target ++ rest)

theorem walkLinks_eq : t.walkLinks aim n = t.walk aim (t.behindLink aim n) := by
  cases n <;> rfl

@[simp] theorem walkLinks_nil : t.walkLinks aim n here [] = .ok here := by
  rw [walkLinks_eq, walk]

theorem walkLinks_stay (h : leadsOn c = false) :
    t.walkLinks aim n here (c :: rest) = t.walkLinks aim n here rest := by
  rw [walkLinks_eq, walk, if_pos (by simpa using not_leadsOn_iff.mp h)]

theorem walkLinks_dotDot :
    t.walkLinks aim n here (dotDot :: rest) = t.walkLinks aim n here.dropLast rest := by
  rw [walkLinks_eq]
  rfl

/-- At the name of an entry the node there decides, if the walk comes to look at it. -/
theorem walkLinks_entry (hc : leadsOn c = true) (hne : c ≠ dotDot) :
    t.walkLinks aim n here (c :: rest) =
      if aim.refusesEnd rest then .error .isADirectory
      else if maxName < c.length then .error .nameTooLong
      else
        match t.get? (here ++ [c]) with
        | none => if aim.isEnd rest then .ok (here ++ [c]) else .error .notFound
        | some .directory => t.walkLinks aim n (here ++ [c]) rest
        | some (.file _ _) => if aim.isEnd rest then .ok (here ++ [c]) else .error .notADirectory
        | some (.symlink target) =>
          if aim.isEnd rest && !aim.follows then .ok (here ++ [c])
          else t.behindLink aim n here target rest := by
  have hgo : ¬ (c.isEmpty || c = [0x2E]) = true := by
    rw [leadsOn, Bool.not_eq_true'] at hc
    rw [hc]
    exact Bool.false_ne_true
  have hup : c ≠ [0x2E, 0x2E] := hne
  rw [walkLinks_eq, walk, if_neg hgo]
  exact if_neg hup

theorem walkLinks_of_isEntry (hc : IsEntry c) (haim : aim.refusesEnd rest = false) :
    t.walkLinks aim n here (c :: rest) =
      match t.get? (here ++ [c]) with
      | none => if aim.isEnd rest then .ok (here ++ [c]) else .error .notFound
      | some .directory => t.walkLinks aim n (here ++ [c]) rest
      | some (.file _ _) => if aim.isEnd rest then .ok (here ++ [c]) else .error .notADirectory
      | some (.symlink target) =>
        if aim.isEnd rest && !aim.follows then .ok (here ++ [c])
        else t.behindLink aim n here target rest := by
  rw [walkLinks_entry hc.leadsOn hc.ne_dotDot, haim, if_neg Bool.false_ne_true,
    if_neg (Nat.not_lt.mpr hc.short)]

/-- Components that do not lead away change nothing. -/
theorem walkLinks_of_stay (h : ∀ c ∈ cs, leadsOn c = false) :
    t.walkLinks aim n here (cs ++ rest) = t.walkLinks aim n here rest := by
  induction cs with
  | nil => rfl
  | cons c cs ih =>
    rw [List.forall_mem_cons] at h
    rw [List.cons_append, walkLinks_stay h.1, ih h.2]

end

/-! ## How a walk ends -/

/-- A walk for an aim, from a directory along components through at most a number of symbolic
links, ends well at a place. -/
inductive Walks (t : FileTree) (aim : Aim) : Nat → Place → List Bytes → Place → Prop
  | nil : Walks t aim n here [] here
  | stay : leadsOn c = false → Walks t aim n here rest p → Walks t aim n here (c :: rest) p
  | up : Walks t aim n here.dropLast rest p → Walks t aim n here (dotDot :: rest) p
  | down : IsEntry c → t.get? (here ++ [c]) = some .directory →
      Walks t aim n (here ++ [c]) rest p → Walks t aim n here (c :: rest) p
  | link : IsEntry c → t.get? (here ++ [c]) = some (.symlink target) →
      (aim.isEnd rest && !aim.follows) = false →
      Walks t aim n (startAt here target) (components target ++ rest) p →
      Walks t aim (n + 1) here (c :: rest) p
  /-- The components end at an entry that is not gone into. -/
  | stop : IsEntry c → t.get? (here ++ [c]) ≠ some .directory → aim.isEnd rest = true →
      Walks t aim n here (c :: rest) (here ++ [c])

section

variable {t t' : FileTree} {aim : Aim} {n m k : Nat} {here p q : Place} {c target path : Bytes}
  {cs ds ss rest : List Bytes} {node : Node}

theorem walks_of_walkLinks (h : t.walkLinks aim n here cs = .ok p) : Walks t aim n here cs p := by
  -- a link takes one from the number of links, everything else one component
  induction n using Nat.strongRecOn generalizing here cs with
  | ind n ihn =>
    induction cs generalizing here with
    | nil =>
      rw [walkLinks_nil] at h
      obtain rfl := Except.ok.inj h
      exact .nil
    | cons c rest ih =>
      by_cases hc : leadsOn c = true
      · by_cases hne : c = dotDot
        · subst hne
          rw [walkLinks_dotDot] at h
          exact .up (ih h)
        · rw [walkLinks_entry hc hne] at h
          split at h
          · cases h
          · split at h
            · cases h
            · next hshort =>
              have hentry : IsEntry c := ⟨hc, hne, Nat.le_of_not_lt hshort⟩
              split at h
              · next hnode =>
                split at h
                · next hend =>
                  obtain rfl := Except.ok.inj h
                  exact .stop hentry (by simp [hnode]) hend
                · cases h
              · next hnode => exact .down hentry hnode (ih h)
              · next hnode =>
                split at h
                · next hend =>
                  obtain rfl := Except.ok.inj h
                  exact .stop hentry (by simp [hnode]) hend
                · cases h
              · next target hnode =>
                split at h
                · next hend =>
                  obtain rfl := Except.ok.inj h
                  exact .stop hentry (by simp [hnode]) (Bool.and_eq_true_iff.mp hend).1
                · next hgo =>
                  cases n with
                  | zero => cases h
                  | succ n =>
                    exact .link hentry hnode (Bool.not_eq_true _ ▸ hgo)
                      (ihn n (Nat.lt_succ_self n) h)
      · rw [Bool.not_eq_true] at hc
        rw [walkLinks_stay hc] at h
        exact .stay hc (ih h)

end

/-! ## Ways to directories -/

/-- From a directory a list of steps leads to a place, by way of directories and symbolic links
only. The numbers are those of the links that may be followed, at the start and at the end. -/
inductive Leads (t : FileTree) : Nat → Place → List Bytes → Place → Nat → Prop
  | here : Leads t n p [] p n
  | up : Leads t n here.dropLast ss p m → Leads t n here (dotDot :: ss) p m
  | down : IsEntry c → t.get? (here ++ [c]) = some .directory → Leads t n (here ++ [c]) ss p m →
      Leads t n here (c :: ss) p m
  | link : IsEntry c → t.get? (here ++ [c]) = some (.symlink target) →
      Leads t n (startAt here target) (steps (components target) ++ ss) p m →
      Leads t (n + 1) here (c :: ss) p m

section

variable {t t' : FileTree} {aim : Aim} {n m k : Nat} {here p q : Place} {c target path : Bytes}
  {cs ds ss rest : List Bytes} {node : Node}

theorem leads_of_walks (h : Walks t aim n here cs p) (hp : t.get? p = some .directory) :
    ∃ m, Leads t n here (steps cs) p m := by
  induction h with
  | nil => exact ⟨_, .here⟩
  | stay hc _ ih =>
    rw [steps_cons_of_stay hc]
    exact ih hp
  | up _ ih =>
    obtain ⟨m, ih⟩ := ih hp
    exact ⟨m, .up ih⟩
  | down hc hnode _ ih =>
    obtain ⟨m, ih⟩ := ih hp
    rw [steps_cons_of_leadsOn hc.leadsOn]
    exact ⟨m, .down hc hnode ih⟩
  | link hc hnode _ _ ih =>
    obtain ⟨m, ih⟩ := ih hp
    rw [steps_append] at ih
    rw [steps_cons_of_leadsOn hc.leadsOn]
    exact ⟨m, .link hc hnode ih⟩
  | stop _ hnode _ => exact absurd hp hnode

/-- Whether a walk for an aim goes through links and is not refused as long as these components
are to come. -/
def Aim.GoesOn (aim : Aim) (ds : List Bytes) : Prop :=
  ∀ rest, aim.refusesEnd (rest ++ ds) = false ∧ (aim.isEnd (rest ++ ds) && !aim.follows) = false

theorem goesOn_existing (ds : List Bytes) : Aim.existing.GoesOn ds := by
  intro rest
  exact ⟨rfl, Bool.and_false _⟩

theorem goesOn_of_mem (hc : c ∈ ds) (hne : c ≠ []) (aim : Aim) : aim.GoesOn ds := by
  intro rest
  have hempty : (rest ++ ds).all List.isEmpty = false := by
    rw [List.all_eq_false]
    exact ⟨c, List.mem_append_right _ hc, by rwa [List.isEmpty_iff]⟩
  have hnil : (rest ++ ds).isEmpty = false := by
    rw [List.isEmpty_eq_false_iff]
    exact List.ne_nil_of_mem (List.mem_append_right _ hc)
  unfold Aim.refusesEnd Aim.isEnd
  simp [hempty, hnil]

/-- **Behind a part that leads to a place, a walk for any aim goes on from there.** -/
theorem walkLinks_append (h : Leads t n here ss p m) (hds : aim.GoesOn ds) (hcs : steps cs = ss) :
    t.walkLinks aim n here (cs ++ ds) = t.walkLinks aim m p ds := by
  induction h generalizing cs with
  | here =>
    refine walkLinks_of_stay fun c hc => ?_
    rw [← Bool.not_eq_true]
    exact List.filter_eq_nil_iff.mp hcs c hc
  | up _ ih =>
    obtain ⟨before, after, rfl, hbefore, -, hafter⟩ := split_of_steps_cons hcs
    rw [List.append_assoc, walkLinks_of_stay hbefore, List.cons_append, walkLinks_dotDot, ih hafter]
  | down hc hnode _ ih =>
    obtain ⟨before, after, rfl, hbefore, -, hafter⟩ := split_of_steps_cons hcs
    rw [List.append_assoc, walkLinks_of_stay hbefore, List.cons_append,
      walkLinks_of_isEntry hc (hds after).1, hnode]
    exact ih hafter
  | @link _ _ target _ ss _ _ hc hnode _ ih =>
    obtain ⟨before, after, rfl, hbefore, -, hafter⟩ := split_of_steps_cons hcs
    rw [List.append_assoc, walkLinks_of_stay hbefore, List.cons_append,
      walkLinks_of_isEntry hc (hds after).1, hnode]
    simp only [(hds after).2, Bool.false_eq_true, if_false]
    have htarget : steps (components target ++ after) = steps (components target) ++ ss := by
      rw [steps_append, hafter]
    have ih := ih htarget
    rw [List.append_assoc] at ih
    exact ih

/-- Where steps lead to something, the walk of a directory to be made ends at something, perhaps
at a symbolic link in front of it. -/
theorem exists_node_of_leads (h : Leads t n here ss p m) (hp : t.get? p ≠ none)
    (hcs : steps cs = ss) :
    ∃ q, t.walkLinks .newDirectory n here cs = .ok q ∧ t.get? q ≠ none := by
  induction h generalizing cs with
  | here =>
    have hstay : ∀ c ∈ cs, leadsOn c = false := by
      intro c hc
      rw [← Bool.not_eq_true]
      exact List.filter_eq_nil_iff.mp hcs c hc
    rw [← List.append_nil cs, walkLinks_of_stay hstay]
    exact ⟨_, walkLinks_nil, hp⟩
  | up _ ih =>
    obtain ⟨before, after, rfl, hbefore, -, hafter⟩ := split_of_steps_cons hcs
    rw [walkLinks_of_stay hbefore, walkLinks_dotDot]
    exact ih hp hafter
  | down hc hnode _ ih =>
    obtain ⟨before, after, rfl, hbefore, -, hafter⟩ := split_of_steps_cons hcs
    rw [walkLinks_of_stay hbefore, walkLinks_of_isEntry hc rfl, hnode]
    exact ih hp hafter
  | @link _ _ target _ _ _ _ hc hnode _ ih =>
    obtain ⟨before, after, rfl, hbefore, -, hafter⟩ := split_of_steps_cons hcs
    rw [walkLinks_of_stay hbefore, walkLinks_of_isEntry hc rfl, hnode]
    simp only
    split
    · exact ⟨_, rfl, by simp [hnode]⟩
    · exact ih hp (by rw [steps_append, hafter])

/-- Steps lead to one place only. -/
theorem Leads.unique (h : Leads t n here ss p m) (h' : Leads t n here ss q k) : p = q ∧ m = k := by
  induction h with
  | here =>
    cases h'
    exact ⟨rfl, rfl⟩
  | up _ ih =>
    cases h' with
    | up h' => exact ih h'
    | down hc => exact absurd rfl hc.ne_dotDot
    | link hc => exact absurd rfl hc.ne_dotDot
  | down hc hnode _ ih =>
    cases h' with
    | up h' => exact absurd rfl hc.ne_dotDot
    | down _ _ h' => exact ih h'
    | link _ hnode' =>
      rw [hnode] at hnode'
      cases hnode'
  | link hc hnode _ ih =>
    cases h' with
    | up h' => exact absurd rfl hc.ne_dotDot
    | down _ hnode' =>
      rw [hnode] at hnode'
      cases hnode'
    | link _ hnode' h' =>
      rw [hnode] at hnode'
      cases hnode'
      exact ih h'

/-- A way can be broken at any of its steps. -/
theorem Leads.of_append {as bs : List Bytes} (h : Leads t n here (as ++ bs) p m) :
    ∃ q k, Leads t n here as q k ∧ Leads t k q bs p m := by
  generalize hss : as ++ bs = ss at h
  induction h generalizing as with
  | here =>
    obtain ⟨rfl, rfl⟩ := List.append_eq_nil_iff.mp hss
    exact ⟨_, _, .here, .here⟩
  | @up _ _ _ _ _ h ih =>
    cases as with
    | nil =>
      obtain rfl : bs = _ := hss
      exact ⟨_, _, .here, .up h⟩
    | cons c as =>
      rw [List.cons_append, List.cons.injEq] at hss
      obtain ⟨rfl, hss⟩ := hss
      obtain ⟨q, k, h₁, h₂⟩ := ih hss
      exact ⟨q, k, .up h₁, h₂⟩
  | down hc hnode h ih =>
    cases as with
    | nil =>
      obtain rfl : bs = _ := hss
      exact ⟨_, _, .here, .down hc hnode h⟩
    | cons c as =>
      rw [List.cons_append, List.cons.injEq] at hss
      obtain ⟨rfl, hss⟩ := hss
      obtain ⟨q, k, h₁, h₂⟩ := ih hss
      exact ⟨q, k, .down hc hnode h₁, h₂⟩
  | @link _ _ target _ ss _ _ hc hnode h ih =>
    cases as with
    | nil =>
      obtain rfl : bs = _ := hss
      exact ⟨_, _, .here, .link hc hnode h⟩
    | cons c as =>
      rw [List.cons_append, List.cons.injEq] at hss
      obtain ⟨rfl, hss⟩ := hss
      -- the steps of the target take the place of the link in the first part
      have htarget : (steps (components target) ++ as) ++ bs = steps (components target) ++ ss := by
        rw [List.append_assoc, hss]
      obtain ⟨q, k, h₁, h₂⟩ := ih htarget
      exact ⟨q, k, .link hc hnode h₁, h₂⟩

/-- A way stays where directories and symbolic links do. -/
theorem Leads.mono (h : Leads t n here ss p m)
    (hkeep : ∀ q node, t.get? q = some node → (∀ content mode, node ≠ .file content mode) →
      t'.get? q = some node) : Leads t' n here ss p m := by
  induction h with
  | here => exact .here
  | up _ ih => exact .up ih
  | down hc hnode _ ih => exact .down hc (hkeep _ _ hnode nofun) ih
  | link hc hnode _ ih => exact .link hc (hkeep _ _ hnode nofun) ih

end

end SealedRecords.FileTree
