import SealedRecords.Slots

/-!
# Slots as a table of cells

Read through `peek`, the slots are a table with one cell for each thread and
channel. This file says what each operation does to the table. Filling and
emptying touch one cell; a new channel and a drop on another thread touch none.

The one operation that removes entries nobody named is `prune`, inside a
publication. It removes entries of dropped channels only, so a cell of a live
channel never notices:

> `peek_publish_of_ne`: a publication leaves every other cell of a live channel
> as it was, on every thread.
-/

namespace SealedRecords

namespace Slots

variable {s : Slots} {t u : Thread} {c d : ChannelId}

/-- The test by which an operation picks a cell fails on every other cell. -/
theorem beq_cell_eq_false (h : ¬ (t = u ∧ c = d)) : (t == u && c == d) = false := by
  rw [Bool.and_eq_false_iff, beq_eq_false_iff_ne, beq_eq_false_iff_ne]
  by_cases ht : t = u
  · exact Or.inr fun hc => h ⟨ht, hc⟩
  · exact Or.inl ht

theorem peek_clear_self (s : Slots) (t : Thread) (c : ChannelId) :
    (s.clear t c).peek t c = none := by
  unfold peek clear
  rw [Option.map_eq_none_iff, List.find?_eq_none]
  intro e he
  have h := (List.mem_filter.mp he).2
  rw [Bool.not_eq_true'] at h
  rw [h]
  exact Bool.false_ne_true

theorem peek_clear_of_ne (s : Slots) (h : ¬ (u = t ∧ d = c)) :
    (s.clear t c).peek u d = s.peek u d := by
  unfold peek clear
  rw [List.find?_filter]
  congr 2
  funext e
  by_cases he : e.thread = u ∧ e.channel = d
  · -- an entry that is looked for is not one that was removed
    obtain ⟨rfl, rfl⟩ := he
    rw [beq_cell_eq_false h, Bool.not_false]
    simp only [true_and, Bool.decide_eq_true]
  · rw [beq_cell_eq_false he]
    simp only [Bool.false_eq_true, and_false, decide_false]

/-- Emptying a slot fills none. -/
theorem peek_clear_eq_none (h : s.peek u d = none) : (s.clear t c).peek u d = none := by
  by_cases hcell : u = t ∧ d = c
  · obtain ⟨rfl, rfl⟩ := hcell
    exact peek_clear_self s u d
  · rw [peek_clear_of_ne s hcell, h]

/-- A slot of a live channel survives pruning. -/
theorem peek_prune (s : Slots) (t u : Thread) (h : d ∈ s.live) :
    (s.prune t).peek u d = s.peek u d := by
  unfold peek prune
  rw [List.find?_filter]
  congr 2
  funext e
  by_cases he : e.channel = d
  · -- pruning keeps it because its channel is live
    subst he
    rw [List.contains_iff_mem.mpr h, Bool.or_true]
    simp only [true_and, Bool.decide_eq_true]
  · rw [beq_eq_false_iff_ne.mpr he, Bool.and_false]
    simp only [Bool.false_eq_true, and_false, decide_false]

theorem peek_publish_self (s : Slots) (t : Thread) (c : ChannelId) (ref : Option KeyRef) :
    (s.publish t c ref).peek t c = ref := by
  cases ref with
  | none => exact peek_clear_self s t c
  | some r =>
    have h := peek_clear_self (s.prune t) t c
    unfold peek at h
    rw [Option.map_eq_none_iff] at h
    show (List.find? _ (((s.prune t).clear t c).filled ++ [⟨t, c, r⟩])).map Slot.keyRef = some r
    rw [List.find?_append, h]
    simp

/-- A publication leaves every other cell of a live channel as it was. -/
theorem peek_publish_of_ne (s : Slots) (ref : Option KeyRef) (h : ¬ (u = t ∧ d = c))
    (hd : d ∈ s.live) : (s.publish t c ref).peek u d = s.peek u d := by
  cases ref with
  | none => exact peek_clear_of_ne s h
  | some r =>
    have hlast : List.find? (fun e : Slot => e.thread == u && e.channel == d) [⟨t, c, r⟩]
        = none := by
      rw [List.find?_singleton, beq_cell_eq_false fun h' => h ⟨h'.1.symm, h'.2.symm⟩]
      rfl
    show (List.find? _ (((s.prune t).clear t c).filled ++ [⟨t, c, r⟩])).map Slot.keyRef = _
    rw [List.find?_append, hlast, Option.or_none]
    show ((s.prune t).clear t c).peek u d = s.peek u d
    rw [peek_clear_of_ne _ h, peek_prune s t u hd]

theorem peek_create (s : Slots) (u : Thread) (d : ChannelId) :
    (Slots.create s).2.peek u d = s.peek u d := rfl

/-- Dropping a channel touches no cell of another one. -/
theorem peek_drop_of_ne (s : Slots) (t u : Thread) (h : d ≠ c) :
    (s.drop t c).peek u d = s.peek u d :=
  peek_clear_of_ne s fun h' => h h'.2

/-! ## The layers of a serializer -/

/-- The slots after a key side has computed a reference, or failed to. -/
def afterKey (s : Slots) (t : Thread) (c : ChannelId) : Except ε (Option KeyRef) → Slots
  | .error _ => s
  | .ok ref => s.publish t c ref

/-- The slots after a self-aware serializer has computed a reference, or failed to: what its outer
layer has published is taken out by its inner one. -/
def afterBoth (s : Slots) (t : Thread) (c : ChannelId) : Except ε (Option KeyRef) → Slots
  | .error _ => s
  | .ok ref => (s.publish t c ref).clear t c

variable {y : Except ε (Option KeyRef)}

theorem peek_afterKey_of_ne (s : Slots) (h : ¬ (u = t ∧ d = c)) (hd : d ∈ s.live) :
    (s.afterKey t c y).peek u d = s.peek u d := by
  cases y with
  | error e => rfl
  | ok ref => exact peek_publish_of_ne s ref h hd

theorem peek_afterBoth_of_ne (s : Slots) (h : ¬ (u = t ∧ d = c)) (hd : d ∈ s.live) :
    (s.afterBoth t c y).peek u d = s.peek u d := by
  cases y with
  | error e => rfl
  | ok ref => exact (peek_clear_of_ne _ h).trans (peek_publish_of_ne s ref h hd)

/-- A self-aware serializer leaves no slot filled that was empty, its own included. -/
theorem peek_afterBoth_eq_none (hd : d ∈ s.live) (h : s.peek u d = none) :
    (s.afterBoth t c y).peek u d = none := by
  cases y with
  | error e => exact h
  | ok ref =>
    by_cases hcell : u = t ∧ d = c
    · obtain ⟨rfl, rfl⟩ := hcell
      exact peek_clear_self _ u d
    · exact (peek_clear_of_ne _ hcell).trans ((peek_publish_of_ne s ref hcell hd).trans h)

theorem live_publish (s : Slots) (t : Thread) (c : ChannelId) (ref : Option KeyRef) :
    (s.publish t c ref).live = s.live := by
  cases ref <;> rfl

theorem live_afterKey (s : Slots) (t : Thread) (c : ChannelId) :
    (s.afterKey t c y).live = s.live := by
  cases y with
  | error e => rfl
  | ok ref => exact live_publish s t c ref

theorem live_afterBoth (s : Slots) (t : Thread) (c : ChannelId) :
    (s.afterBoth t c y).live = s.live := by
  cases y with
  | error e => rfl
  | ok ref => exact live_publish s t c ref

theorem next_publish (s : Slots) (t : Thread) (c : ChannelId) (ref : Option KeyRef) :
    (s.publish t c ref).next = s.next := by
  cases ref <;> rfl

theorem next_afterKey (s : Slots) (t : Thread) (c : ChannelId) :
    (s.afterKey t c y).next = s.next := by
  cases y with
  | error e => rfl
  | ok ref => exact next_publish s t c ref

theorem next_afterBoth (s : Slots) (t : Thread) (c : ChannelId) :
    (s.afterBoth t c y).next = s.next := by
  cases y with
  | error e => rfl
  | ok ref => exact next_publish s t c ref

/-! ## Numbers not yet given out -/

/-- Every number in use has been given out. -/
structure Bounded (s : Slots) : Prop where
  live_lt : ∀ c ∈ s.live, c < s.next
  filled_lt : ∀ e ∈ s.filled, e.channel < s.next

theorem bounded_empty : Bounded {} :=
  ⟨fun _ h => absurd h (List.not_mem_nil), fun _ h => absurd h (List.not_mem_nil)⟩

theorem Bounded.create (h : s.Bounded) : (Slots.create s).2.Bounded where
  live_lt := by
    intro c hc
    rcases List.mem_cons.mp hc with rfl | hc
    · exact Nat.lt_succ_self s.next
    · exact Nat.lt_succ_of_lt (h.live_lt c hc)
  filled_lt := fun e he => Nat.lt_succ_of_lt (h.filled_lt e he)

theorem Bounded.clear (h : s.Bounded) : (s.clear t c).Bounded :=
  ⟨h.live_lt, fun e he => h.filled_lt e (List.mem_filter.mp he).1⟩

theorem Bounded.publish (h : s.Bounded) (ref : Option KeyRef) (hc : c < s.next) :
    (s.publish t c ref).Bounded := by
  cases ref with
  | none => exact h.clear
  | some r =>
    have hp : (s.prune t).Bounded :=
      ⟨h.live_lt, fun e he => h.filled_lt e (List.mem_filter.mp he).1⟩
    refine ⟨h.live_lt, fun e he => ?_⟩
    rcases List.mem_append.mp he with he | he
    · exact hp.clear.filled_lt e he
    · rw [List.mem_singleton.mp he]
      exact hc

theorem Bounded.drop (h : s.Bounded) : (s.drop t c).Bounded :=
  ⟨fun d hd => h.live_lt d (List.mem_filter.mp hd).1, h.clear.filled_lt⟩

theorem Bounded.afterKey (h : s.Bounded) (hc : c < s.next) : (s.afterKey t c y).Bounded := by
  cases y with
  | error e => exact h
  | ok ref => exact h.publish ref hc

theorem Bounded.afterBoth (h : s.Bounded) (hc : c < s.next) : (s.afterBoth t c y).Bounded := by
  cases y with
  | error e => exact h
  | ok ref => exact (h.publish ref hc).clear

/-- The cells of a channel that does not exist yet are empty on every thread. -/
theorem Bounded.peek_next (h : s.Bounded) (t : Thread) : s.peek t s.next = none := by
  unfold peek
  rw [Option.map_eq_none_iff, List.find?_eq_none]
  intro e he hcell
  rw [Bool.and_eq_true, beq_iff_eq, beq_iff_eq] at hcell
  exact absurd hcell.2 (Nat.ne_of_lt (h.filled_lt e he))

end Slots

end SealedRecords
