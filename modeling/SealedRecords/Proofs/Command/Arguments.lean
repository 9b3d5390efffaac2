import SealedRecords.Command.Arguments

/-!
# What a command line cannot say

An option is recorded only with a value that passes its check, whatever stands
around it on the command line. For the key directory this means that a command
never gets the empty path, be it from an option or from the environment,
`keyDirectory_ne_empty`.
-/

namespace SealedRecords.Command

open SealedRecords

variable {specs : List OptionSpec} {spec : OptionSpec} {stage : Stage}
  {given given' outer inner : Given} {words arguments : List String} {value : String}
  {result : Words × List String} {call : Invocation} {environment : String → Option String}

theorem eq_ok_of_bind {x : Except ε α} {f : α → Except ε β} {b : β} (h : x >>= f = .ok b) :
    ∃ a, x = .ok a ∧ f a = .ok b := by
  cases x with
  | error e => cases h
  | ok a => exact ⟨a, rfl, h⟩

/-- The key directories that were recorded are not empty. -/
def Given.NamesDirectory (given : Given) : Prop := ∀ path, ("key-dir", path) ∈ given → path ≠ ""

/-- Only a path is taken for the key directory. -/
def ChecksDirectory (specs : List OptionSpec) : Prop :=
  ∀ spec ∈ specs, spec.name = "key-dir" → spec.value = some isPath

theorem namesDirectory_nil : Given.NamesDirectory [] := by
  intro path h
  cases h

theorem Given.NamesDirectory.ne_empty (h : given.NamesDirectory)
    (hvalue : valueOf given "key-dir" = some value) : value ≠ "" := by
  obtain ⟨⟨name, path⟩, hfind, rfl⟩ := Option.map_eq_some_iff.mp hvalue
  obtain rfl : name = "key-dir" := by simpa using List.find?_some hfind
  exact h path (List.mem_of_find?_eq_some hfind)

/-! ## Recording options -/

theorem Given.NamesDirectory.give (hgiven : given.NamesDirectory)
    (hspec : spec.name = "key-dir" → spec.value = some isPath)
    (h : give given spec value = .ok given') : given'.NamesDirectory := by
  have hcons : (spec.name = "key-dir" → value ≠ "") →
      Given.NamesDirectory ((spec.name, value) :: given) := by
    intro hvalue path hmem
    rcases List.mem_cons.mp hmem with heq | hmem
    · obtain ⟨hname, rfl⟩ := Prod.mk.inj heq
      exact hvalue hname.symm
    · exact hgiven path hmem
  unfold Command.give at h
  split at h
  · cases h
  · split at h
    · next check hcheck =>
      split at h
      · next hpasses =>
        obtain rfl := Except.ok.inj h
        refine hcons fun hname => ?_
        obtain rfl : check = isPath := Option.some.inj (hcheck.symm.trans (hspec hname))
        rintro rfl
        exact absurd hpasses (by decide)
      · cases h
    · next hnone =>
      obtain rfl := Except.ok.inj h
      refine hcons fun hname => ?_
      rw [hspec hname] at hnone
      cases hnone

/-- Words add only options that were checked. -/
theorem Given.NamesDirectory.readWords (hgiven : given.NamesDirectory)
    (hspecs : ChecksDirectory specs)
    (h : readWords specs stage given arguments words = .ok result) :
    result.1.given.NamesDirectory := by
  fun_induction Command.readWords specs stage given arguments words with
  -- the end of the words, the separator and the name of the command
  | case1 | case4 | case17 =>
    obtain rfl := Except.ok.inj h
    exact hgiven
  -- an option, with its value behind an equals sign, in the next word or not at all
  | case8 _ _ _ _ _ _ _ _ hfind _ _ _ _ ih =>
    obtain ⟨given', hgive, h⟩ := eq_ok_of_bind h
    exact ih given' (hgiven.give (hspecs _ (List.mem_of_find?_eq_some hfind)) hgive) h
  | case10 _ _ _ _ _ _ _ _ hfind _ _ _ _ _ _ ih =>
    obtain ⟨given', hgive, h⟩ := eq_ok_of_bind h
    exact ih given' (hgiven.give (hspecs _ (List.mem_of_find?_eq_some hfind)) hgive) h
  | case13 _ _ _ _ _ _ _ hfind _ _ _ _ _ _ _ _ ih =>
    obtain ⟨given', hgive, h⟩ := eq_ok_of_bind h
    exact ih given' (hgiven.give (hspecs _ (List.mem_of_find?_eq_some hfind)) hgive) h
  -- an argument
  | case19 _ _ _ _ _ _ _ _ hstage _ ih =>
    rw [← hstage] at h
    exact ih hgiven h
  | _ => cases h

/-! ## Reading the command line -/

theorem checksDirectory_sharedOptions : ChecksDirectory sharedOptions := by
  intro spec hspec hname
  simp only [sharedOptions, List.mem_cons, List.not_mem_nil, or_false] at hspec
  rcases hspec with rfl | rfl | rfl | rfl | rfl
  all_goals first | rfl | exact absurd hname (by decide)

/-- No command has an option of its own for the key directory. -/
theorem checksDirectory_of_commandSpec? {name : String} {c : CommandSpec}
    (h : commandSpec? name = some c) : ChecksDirectory (sharedOptions ++ c.options) := by
  have hown : ∀ spec ∈ c.options, spec.name ≠ "key-dir" := by
    unfold commandSpec? at h
    split at h <;> cases h <;> simp
  intro spec hspec hname
  rcases List.mem_append.mp hspec with hspec | hspec
  · exact checksDirectory_sharedOptions spec hspec hname
  · exact absurd hname (hown spec hspec)

theorem keyDirectoryOf_ne_empty {setting : Option String} (houter : outer.NamesDirectory)
    (hinner : inner.NamesDirectory) {dir : String}
    (h : keyDirectoryOf outer inner setting = .ok (some dir)) : dir ≠ "" := by
  have hshared : ∀ {path}, sharedValue outer inner "key-dir" = some path → path ≠ "" := by
    intro path hpath
    rcases Option.or_eq_some_iff.mp hpath with hvalue | ⟨-, hvalue⟩
    · exact hinner.ne_empty hvalue
    · exact houter.ne_empty hvalue
  unfold keyDirectoryOf at h
  split at h
  · exact hshared (Except.ok.inj h)
  · next path =>
    split at h
    · cases h
    · next hpath =>
      rcases Option.or_eq_some_iff.mp (Except.ok.inj h) with hvalue | ⟨hnone, hvalue⟩
      · exact hshared hvalue
      · obtain rfl := Option.some.inj hvalue
        rintro rfl
        -- without an option the variable has to hold a path
        have hinner : valueOf inner "key-dir" = none := (Option.or_eq_none_iff.mp hnone).1
        rw [hinner] at hpath
        exact hpath (by simp)

/-- **The key directory of a command is never the empty path.** -/
theorem keyDirectory_ne_empty (h : readCommandLine words environment = .ok call) :
    call.options.keyDirectory ≠ some "" := by
  intro hempty
  unfold readCommandLine at h
  obtain ⟨⟨first, rest⟩, hfirst, h⟩ := eq_ok_of_bind h
  have houter := namesDirectory_nil.readWords checksDirectory_sharedOptions hfirst
  simp only at h houter
  split at h
  · cases h
  · next name hname =>
    split at h
    · cases h
    · next c hc =>
      obtain ⟨⟨second, _⟩, hsecond, h⟩ := eq_ok_of_bind h
      have hinner := namesDirectory_nil.readWords (checksDirectory_of_commandSpec? hc) hsecond
      obtain ⟨verb, -, h⟩ := eq_ok_of_bind h
      obtain ⟨keyDirectory, hdir, h⟩ := eq_ok_of_bind h
      obtain rfl := Except.ok.inj h
      obtain rfl : keyDirectory = some "" := hempty
      exact keyDirectoryOf_ne_empty houter hinner hdir rfl
  · cases h

end SealedRecords.Command
