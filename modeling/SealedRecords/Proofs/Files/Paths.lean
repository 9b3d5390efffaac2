import SealedRecords.Proofs.Files.Walking
import SealedRecords.Proofs.Text.Utf8

/-!
# Paths and their components

Paths are made and taken apart as texts, but looked up as bytes. As UTF-8 never
uses the byte of a separator for another character, the two agree on the
components:

> `encode_pathBelow`, `components_entryPath`: the path of an entry of a directory
> has one component more than the path of the directory.

> `steps_of_parent?`: the path above a path has one step less.
-/

namespace SealedRecords.FileTree

open SealedRecords

variable {a b path name : Bytes} {dir file s above : String}

/-! ## Splitting at separators -/

theorem split_ne_nil : split b ≠ [] := by
  cases b with
  | nil => exact List.cons_ne_nil _ _
  | cons x b =>
    rw [split]
    split
    · exact List.cons_ne_nil _ _
    · split
      · exact List.cons_ne_nil _ _
      · exact List.cons_ne_nil _ _

theorem split_append_separator : split (a ++ separator :: b) = split a ++ split b := by
  induction a with
  | nil =>
    show split (separator :: b) = [] :: split b
    rw [split, if_pos rfl]
  | cons x a ih =>
    rw [List.cons_append, split, split, ih]
    split
    · rfl
    · cases h : split a with
      | nil => exact absurd h split_ne_nil
      | cons c cs => rfl

theorem split_of_not_mem (h : separator ∉ a) : split a = [a] := by
  induction a with
  | nil => rfl
  | cons x a ih =>
    rw [List.mem_cons, not_or] at h
    rw [split, if_neg (Ne.symm h.1), ih h.2]

theorem steps_filter (cs : List Bytes) : steps (cs.filter fun c => !c.isEmpty) = steps cs := by
  unfold steps
  rw [List.filter_filter]
  refine List.filter_congr fun c _ => ?_
  cases hc : c.isEmpty <;> simp [leadsOn, hc]

/-- The empty components of a path are no steps. -/
theorem steps_components : steps (components path) = steps (split path) := by
  have hend : steps (if path.getLast? == some separator then [[]] else []) = [] := by
    split <;> rfl
  unfold components
  rw [steps_append, steps_filter, hend, List.append_nil]

/-! ## The path of an entry -/

theorem isAbsolute_append (h : a ≠ []) : isAbsolute (a ++ b) = isAbsolute a := by
  cases a with
  | nil => exact absurd rfl h
  | cons x a => rfl

theorem isAbsolute_entryPath (h : path ≠ []) :
    isAbsolute (entryPath path name) = isAbsolute path := by
  unfold entryPath
  split
  · exact isAbsolute_append h
  · rw [List.append_assoc]
    exact isAbsolute_append h

/-- In front of the name stands a path with the same steps and a separator. -/
theorem exists_entryPath (path name : Bytes) : ∃ pre,
    entryPath path name = pre ++ separator :: name ∧ steps (split pre) = steps (split path) := by
  unfold entryPath
  split
  · next hend =>
    obtain ⟨pre, rfl⟩ := List.getLast?_eq_some_iff.mp (eq_of_beq hend)
    refine ⟨pre, List.append_assoc .., ?_⟩
    rw [split_append_separator, steps_append]
    exact (List.append_nil _).symm
  · exact ⟨path, List.append_assoc .., rfl⟩

/-- The components of the path of an entry lead to the directory and end with the name. -/
theorem components_entryPath (path : Bytes) (hname : name ≠ []) (hsep : separator ∉ name) :
    ∃ cs, components (entryPath path name) = cs ++ [name] ∧ steps cs = steps (components path) := by
  obtain ⟨pre, hpath, hpre⟩ := exists_entryPath path name
  refine ⟨(split pre).filter fun c => !c.isEmpty, ?_, ?_⟩
  · have hlast : (entryPath path name).getLast? ≠ some separator := by
      intro h
      rw [hpath, List.append_cons, List.getLast?_append] at h
      cases hn : name.getLast? with
      | none => exact hname (List.getLast?_eq_none_iff.mp hn)
      | some x =>
        rw [hn, Option.some_or, Option.some.injEq] at h
        exact hsep (List.mem_of_getLast? (h ▸ hn))
    have hkeep : [name].filter (fun c => !c.isEmpty) = [name] :=
      List.filter_cons_of_pos (by simpa [List.isEmpty_iff] using hname)
    unfold components
    rw [beq_false_of_ne hlast, hpath, split_append_separator, split_of_not_mem hsep,
      List.filter_append, hkeep]
    simp
  · rw [steps_filter, hpre, steps_components]

/-! ## Paths as texts -/

/-- The byte of a separator is part of no other character. -/
theorem separator_mem_encodeChar_iff {c : Char} :
    separator ∈ String.utf8EncodeChar c ↔ c = '/' := by
  constructor
  · intro h
    have hbyte : ∀ {n : Nat}, separator = UInt8.ofNat n → n % 256 = 47 := by
      intro n hn
      rw [← UInt8.toNat_inj, UInt8.toNat_ofNat'] at hn
      exact hn.symm
    have hc : c.val.toNat = 47 := by
      simp only [String.utf8EncodeChar] at h
      split at h
      · have := hbyte (List.mem_singleton.mp h)
        omega
      · -- in longer sequences all bytes are above 127
        exfalso
        split at h
        · simp only [List.mem_cons, List.not_mem_nil, or_false] at h
          rcases h with h | h
          all_goals
            have hmod := hbyte h
            omega
        · split at h
          · simp only [List.mem_cons, List.not_mem_nil, or_false] at h
            rcases h with h | h | h
            all_goals
              have hmod := hbyte h
              omega
          · simp only [List.mem_cons, List.not_mem_nil, or_false] at h
            rcases h with h | h | h | h
            all_goals
              have hmod := hbyte h
              omega
    exact Char.ext (UInt32.toNat_inj.mp hc)
  · rintro rfl
    decide

theorem separator_mem_encode_iff : separator ∈ Utf8.encode s ↔ '/' ∈ s.toList := by
  simp [Utf8.encode, List.mem_flatMap, separator_mem_encodeChar_iff]

theorem encode_separator : Utf8.encode "/" = [separator] := rfl

theorem encode_ne_nil (h : s ≠ "") : Utf8.encode s ≠ [] := by
  intro hs
  exact h (Utf8.encode_injective hs)

theorem endsWith_iff : s.endsWith "/" = true ↔ (Utf8.encode s).getLast? = some separator := by
  rw [← String.endsWith_toSlice, String.Slice.endsWith_string_iff, String.copy_toSlice]
  constructor
  · rintro ⟨cs, hcs⟩
    have hs : s = String.ofList cs ++ "/" := by
      rw [← String.toList_inj, ← hcs]
      simp only [String.toList_append, String.toList_ofList]
    rw [hs, Utf8.encode_append, encode_separator]
    exact List.getLast?_concat
  · intro h
    rcases List.eq_nil_or_concat s.toList with hs | ⟨cs, c, hs⟩
    · rw [Utf8.encode, hs] at h
      cases h
    · have hc : (Utf8.encode s).getLast? = (String.utf8EncodeChar c).getLast? := by
        have hne : String.utf8EncodeChar c ≠ [] := String.utf8EncodeChar_ne_nil
        rw [Utf8.encode, hs, List.concat_eq_append, List.flatMap_append, List.getLast?_append,
          List.flatMap_singleton]
        cases hlast : (String.utf8EncodeChar c).getLast? with
        | none => exact absurd (List.getLast?_eq_none_iff.mp hlast) hne
        | some x => rfl
      rw [hc] at h
      obtain rfl := separator_mem_encodeChar_iff.mp (List.mem_of_getLast? h)
      rw [hs, List.concat_eq_append]
      exact List.suffix_append _ _

/-- The path at which a file below a directory is shown is that of an entry. -/
theorem encode_pathBelow (h : dir ≠ "") (file : String) :
    Utf8.encode (KeyStore.pathBelow dir file) = entryPath (Utf8.encode dir) (Utf8.encode file) := by
  have hempty : dir.isEmpty = false := by
    rw [← Bool.not_eq_true, String.isEmpty_iff]
    exact h
  unfold KeyStore.pathBelow entryPath
  rw [hempty, Bool.false_or]
  by_cases hend : dir.endsWith "/" = true
  · rw [if_pos hend, if_pos (beq_iff_eq.mpr (endsWith_iff.mp hend)), Utf8.encode_append]
  · rw [if_neg hend, if_neg (fun h => hend (endsWith_iff.mpr (beq_iff_eq.mp h))),
      Utf8.encode_append, Utf8.encode_append, encode_separator]

/-! ## The path above -/

/-- The steps along a path whose characters are given in reverse. -/
def stepsBack (cs : List Char) : List Bytes :=
  steps (split (Utf8.encode (String.ofList cs.reverse)))

theorem stepsBack_append {c : List Char} (hc : '/' ∉ c) (cs : List Char) :
    stepsBack (c ++ '/' :: cs) = stepsBack cs ++ steps [Utf8.encode (String.ofList c.reverse)] := by
  have hsep : separator ∉ Utf8.encode (String.ofList c.reverse) := by
    rw [separator_mem_encode_iff, String.toList_ofList, List.mem_reverse]
    exact hc
  have hsplit : String.ofList (c ++ '/' :: cs).reverse
      = String.ofList cs.reverse ++ ("/" ++ String.ofList c.reverse) := by
    rw [← String.toList_inj]
    simp
  unfold stepsBack
  rw [hsplit, Utf8.encode_append, Utf8.encode_append, encode_separator, List.singleton_append,
    split_append_separator, split_of_not_mem hsep, steps_append]

theorem stepsBack_separator (cs : List Char) : stepsBack ('/' :: cs) = stepsBack cs := by
  have h := stepsBack_append (c := []) List.not_mem_nil cs
  rw [List.nil_append] at h
  rw [h]
  exact List.append_nil _

/-- What is dropped at the end of a path is no step. -/
theorem stepsBack_dropTrailing (cs : List Char) :
    stepsBack (Host.dropTrailing cs) = stepsBack cs := by
  induction cs using Host.dropTrailing.induct with
  | case1 rest h =>
    rw [Host.dropTrailing, if_pos h, List.isEmpty_iff.mp h]
  | case2 rest h ih =>
    rw [Host.dropTrailing, if_neg h, ih, stepsBack_separator]
  | case3 rest ih =>
    have hdot := stepsBack_append (c := ['.']) (by decide) rest
    rw [List.singleton_append] at hdot
    rw [Host.dropTrailing, ih, stepsBack_separator, hdot]
    exact (List.append_nil _).symm
  | case4 cs h₁ h₂ =>
    rw [Host.dropTrailing]
    · exact h₁
    · exact h₂

theorem dropTrailing_suffix (cs : List Char) : Host.dropTrailing cs <:+ cs := by
  induction cs using Host.dropTrailing.induct with
  | case1 rest h =>
    have hsame : Host.dropTrailing ('/' :: rest) = '/' :: rest := by
      rw [Host.dropTrailing, if_pos h, List.isEmpty_iff.mp h]
    exact ⟨[], hsame⟩
  | case2 rest h ih =>
    rw [Host.dropTrailing, if_neg h]
    exact ih.trans (List.suffix_cons _ _)
  | case3 rest ih =>
    rw [Host.dropTrailing]
    exact ih.trans (List.suffix_cons _ _)
  | case4 cs h₁ h₂ =>
    have hsame : Host.dropTrailing cs = cs := by
      rw [Host.dropTrailing]
      · exact h₁
      · exact h₂
    exact ⟨[], hsame⟩

/-- Nothing is left at the end that could be dropped, but for the root. -/
theorem dropTrailing_ends (cs : List Char) :
    (∀ rest, Host.dropTrailing cs = '/' :: rest → rest = []) ∧
      ∀ rest, Host.dropTrailing cs ≠ '.' :: '/' :: rest := by
  induction cs using Host.dropTrailing.induct with
  | case1 rest h =>
    rw [Host.dropTrailing, if_pos h]
    exact ⟨fun _ h => (List.cons.inj h).2.symm, nofun⟩
  | case2 rest h ih =>
    rw [Host.dropTrailing, if_neg h]
    exact ih
  | case3 rest ih =>
    rw [Host.dropTrailing]
    exact ih
  | case4 cs h₁ h₂ =>
    rw [Host.dropTrailing]
    · exact ⟨fun rest h => absurd h (h₁ rest), fun rest h => h₂ rest h⟩
    · exact h₁
    · exact h₂

/-- Behind the path above stand separators and one component that says something. -/
theorem parts_of_parent? {s : String} (h : Host.parent? s = some above) (hne : above ≠ "") :
    ∃ c rest, ('/' ∉ c ∧ c ≠ [] ∧ c ≠ ['.']) ∧
      Host.dropTrailing s.toList.reverse = c ++ '/' :: rest ∧
      above = String.ofList (Host.dropTrailing ('/' :: rest)).reverse := by
  unfold Host.parent? at h
  simp only at h
  split at h
  · cases h
  · next hroot =>
    rw [Bool.or_eq_true, not_or, decide_eq_true_iff] at hroot
    obtain rfl := Option.some.inj h
    obtain ⟨hends, hdot⟩ := dropTrailing_ends s.toList.reverse
    generalize Host.dropTrailing s.toList.reverse = last at *
    have hc : '/' ∉ last.takeWhile (· != '/') := by
      intro hmem
      simpa using List.all_eq_true.mp List.all_takeWhile _ hmem
    have hparts := List.takeWhile_append_dropWhile (p := (· != '/')) (l := last)
    have hhead := List.head?_dropWhile_not (· != '/') last
    generalize last.takeWhile (· != '/') = c at *
    cases hdrop : last.dropWhile (· != '/') with
    | nil =>
      rw [hdrop] at hne
      exact absurd rfl hne
    | cons x rest =>
      rw [hdrop] at hparts hhead
      obtain rfl : x = '/' := by simpa using hhead
      refine ⟨c, rest, ⟨hc, ?_, ?_⟩, hparts.symm, rfl⟩
      · rintro rfl
        have hrest := hends rest hparts.symm
        subst hrest
        exact hroot.2 hparts.symm
      · rintro rfl
        exact hdot rest hparts.symm

/-- A path has one step more than the path above it, and starts where that does. -/
theorem steps_of_parent? {s : String} (h : Host.parent? s = some above) (hne : above ≠ "") :
    ∃ c, leadsOn c = true ∧ steps (components (Utf8.encode s))
        = steps (components (Utf8.encode above)) ++ [c] ∧
      isAbsolute (Utf8.encode s) = isAbsolute (Utf8.encode above) := by
  obtain ⟨c, rest, ⟨hc, hnil, hdot⟩, hlast, habove⟩ := parts_of_parent? h hne
  have hstep : leadsOn (Utf8.encode (String.ofList c.reverse)) = true := by
    rw [← Bool.not_eq_false, not_leadsOn_iff, List.isEmpty_iff]
    rintro (hempty | hempty)
    · have hs : String.ofList c.reverse = "" := Utf8.encode_injective hempty
      rw [← String.toList_inj, String.toList_ofList] at hs
      exact hnil (List.reverse_eq_nil_iff.mp hs)
    · have hs : String.ofList c.reverse = "." := Utf8.encode_injective (t := ".") hempty
      rw [← String.toList_inj, String.toList_ofList] at hs
      exact hdot (List.reverse_eq_cons_iff.mp hs)
  have hall : stepsBack s.toList.reverse = steps (components (Utf8.encode s)) := by
    rw [steps_components, stepsBack, List.reverse_reverse, String.ofList_toList]
  have hfirst : stepsBack ('/' :: rest) = steps (components (Utf8.encode above)) := by
    rw [steps_components, habove, ← stepsBack_dropTrailing]
    rfl
  refine ⟨_, hstep, ?_, ?_⟩
  · rw [← hall, ← stepsBack_dropTrailing, hlast, stepsBack_append hc, ← stepsBack_separator rest,
      hfirst, steps_cons_of_leadsOn hstep]
    rfl
  · -- what stands in front of the last component is the beginning of the path
    have hsuffix : (Host.dropTrailing ('/' :: rest)) <:+ s.toList.reverse := by
      refine (dropTrailing_suffix _).trans ((List.suffix_append c _).trans ?_)
      rw [← hlast]
      exact dropTrailing_suffix _
    obtain ⟨tail, htail⟩ := hsuffix
    have hs : s = above ++ String.ofList tail.reverse := by
      rw [← String.toList_inj, String.toList_append, habove, String.toList_ofList,
        String.toList_ofList, ← List.reverse_append, htail, List.reverse_reverse]
    rw [hs, Utf8.encode_append]
    exact isAbsolute_append (encode_ne_nil hne)

end SealedRecords.FileTree
