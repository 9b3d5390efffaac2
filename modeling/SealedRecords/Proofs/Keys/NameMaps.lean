import SealedRecords.NameMap
import SealedRecords.Proofs.Text.Utf8

/-!
# Maps from names as maps

`NameMap.put` keeps the names in the order of their bytes, each once, and a
look-up sees only the value that was put last. So an ascending map is settled by
its look-ups, `Ascending.ext`, and the order in which different names were put
into it cannot be told.
-/

namespace SealedRecords

namespace Bytes

/-- The order of bytes is the lexicographic one. -/
theorem before_iff {a b : Bytes} : before a b = true ↔ a < b := by
  induction a generalizing b with
  | nil => cases b <;> simp [before]
  | cons x xs ih =>
    cases b with
    | nil => simp [before]
    | cons y ys => simp [before, List.cons_lt_cons_iff, ih]

theorem before_irrefl (a : Bytes) : before a a = false := by
  rw [Bool.eq_false_iff, ne_eq, before_iff]
  exact List.lt_irrefl a

theorem before_trans {a b c : Bytes} (h₁ : before a b = true) (h₂ : before b c = true) :
    before a c = true := by
  rw [before_iff] at h₁ h₂ ⊢
  exact List.lt_trans h₁ h₂

theorem before_of_not {a b : Bytes} (hne : a ≠ b) (h : before a b = false) :
    before b a = true := by
  rw [Bool.eq_false_iff, ne_eq, before_iff, List.not_lt] at h
  rw [before_iff]
  exact (List.le_iff_lt_or_eq.mp h).resolve_right (Ne.symm hne)

end Bytes

namespace NameMap

variable {α : Type} {m m' : List (String × α)} {name n : String} {value v : α}

/-! ## Looking up -/

theorem get?_cons (p : String × α) (m : List (String × α)) (n : String) :
    get? (p :: m) n = if p.1 = n then some p.2 else get? m n := by
  by_cases h : p.1 = n <;> simp [get?, h]

/-- A look-up sees the value that was put, and otherwise what it saw before. -/
theorem get?_put (name : String) (value : α) (m : List (String × α)) (n : String) :
    get? (put name value m) n = if name = n then some value else get? m n := by
  induction m with
  | nil => rw [put, get?_cons]
  | cons p m ih =>
    obtain ⟨n', v'⟩ := p
    rw [put]
    by_cases h : name = n'
    · subst h
      rw [if_pos rfl, get?_cons, get?_cons]
      by_cases hn : name = n <;> simp [hn]
    · rw [if_neg h]
      by_cases hb : Bytes.before (Utf8.encode name) (Utf8.encode n') = true
      · rw [if_pos hb, get?_cons]
      · rw [if_neg hb, get?_cons, ih, get?_cons]
        by_cases hn' : n' = n
        · rw [if_pos hn', if_pos hn', if_neg (fun hn => h (hn.trans hn'.symm))]
        · rw [if_neg hn', if_neg hn']

theorem get?_put_self (name : String) (value : α) (m : List (String × α)) :
    get? (put name value m) name = some value := by
  rw [get?_put, if_pos rfl]

theorem get?_put_of_ne (h : name ≠ n) (value : α) (m : List (String × α)) :
    get? (put name value m) n = get? m n := by
  rw [get?_put, if_neg h]

/-! ## The order of the names -/

/-- The names ascend in the order of their bytes, so each stands once. -/
def Ascending (m : List (String × α)) : Prop :=
  m.Pairwise fun p q => Bytes.before (Utf8.encode p.1) (Utf8.encode q.1) = true

theorem mem_put {p : String × α} (h : p ∈ put name value m) : p = (name, value) ∨ p ∈ m := by
  induction m with
  | nil => exact Or.inl (List.mem_singleton.mp h)
  | cons q m ih =>
    obtain ⟨n', v'⟩ := q
    rw [put] at h
    split at h
    · exact (List.mem_cons.mp h).imp id (List.mem_cons_of_mem _)
    · split at h
      · exact List.mem_cons.mp h
      · rcases List.mem_cons.mp h with h | h
        · exact Or.inr (h ▸ List.mem_cons_self)
        · exact (ih h).imp id (List.mem_cons_of_mem _)

/-- Putting keeps the order. -/
theorem Ascending.put (h : Ascending m) (name : String) (value : α) :
    Ascending (put name value m) := by
  induction m with
  | nil => exact List.pairwise_singleton ..
  | cons q m ih =>
    obtain ⟨n', v'⟩ := q
    obtain ⟨hq, hm⟩ := List.pairwise_cons.mp h
    rw [NameMap.put]
    split
    · next heq =>
      subst heq
      exact List.pairwise_cons.mpr ⟨hq, hm⟩
    · next hne =>
      split
      · next hb =>
        refine List.pairwise_cons.mpr ⟨fun p hp => ?_, h⟩
        rcases List.mem_cons.mp hp with rfl | hp
        · exact hb
        · exact Bytes.before_trans hb (hq p hp)
      · next hb =>
        refine List.pairwise_cons.mpr ⟨fun p hp => ?_, ih hm⟩
        rcases mem_put hp with rfl | hp
        · exact Bytes.before_of_not (fun h => hne (Utf8.encode_injective h))
            (Bool.eq_false_iff.mpr hb)
        · exact hq p hp

/-- Different entries of an ascending map have different names. -/
theorem Ascending.nodup_names (h : Ascending m) : (m.map Prod.fst).Nodup := by
  refine List.pairwise_map.mpr (h.imp fun {p q} hb heq => ?_)
  rw [heq, Bytes.before_irrefl] at hb
  cases hb

/-- The entries of an ascending map are what look-ups see. -/
theorem Ascending.mem_iff (h : Ascending m) : (n, v) ∈ m ↔ get? m n = some v := by
  induction m with
  | nil => simp [get?]
  | cons p m ih =>
    obtain ⟨hp, hm⟩ := List.pairwise_cons.mp h
    rw [get?_cons, List.mem_cons, ih hm]
    split
    · next heq =>
      -- the name of the first entry occurs nowhere behind it
      have hnone : get? m n ≠ some v := by
        intro hv
        have := hp _ ((ih hm).mpr hv)
        rw [heq, Bytes.before_irrefl] at this
        cases this
      obtain ⟨n', v'⟩ := p
      obtain rfl : n' = n := heq
      simp [hnone, eq_comm]
    · next hne =>
      have hne' : (n, v) ≠ p := fun h => hne (h ▸ rfl)
      simp [hne']

theorem mem_names_iff : n ∈ m.map Prod.fst ↔ (get? m n).isSome = true := by
  induction m with
  | nil => simp [get?]
  | cons p m ih =>
    rw [get?_cons, List.map_cons, List.mem_cons, ih]
    by_cases h : p.1 = n
    · simp [h]
    · simp [h, Ne.symm h]

/-- **An ascending map is settled by its look-ups.** -/
theorem Ascending.ext (h : Ascending m) (h' : Ascending m') (hget : ∀ n, get? m n = get? m' n) :
    m = m' := by
  have hnodup : ∀ {l : List (String × α)}, Ascending l → l.Nodup := by
    intro l hl
    exact (List.pairwise_map.mp hl.nodup_names).imp fun hne => fun heq =>
      hne (congrArg Prod.fst heq)
  have hperm : m.Perm m' := by
    rw [List.perm_ext_iff_of_nodup (hnodup h) (hnodup h')]
    rintro ⟨n, v⟩
    rw [h.mem_iff, h'.mem_iff, hget]
  refine List.Perm.eq_of_pairwise (fun p q _ _ hpq hqp => ?_) h h' hperm
  have := Bytes.before_trans hpq hqp
  rw [Bytes.before_irrefl] at this
  cases this

end NameMap

end SealedRecords
