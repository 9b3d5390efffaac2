import SealedRecords.Proofs.Slots.Cells

/-!
# Channels as an ideal table

What channels promise is a table with one cell for each thread and channel: a
publication sets the cell of its thread, taking clears it, and nothing else happens
to any cell. What they keep is one list of filled slots, from which they remove
entries of dropped channels when it suits them. `Refines` relates the two on the
channels that are live. Dropped channels may have left entries behind, which nobody
can look at, because a channel that was dropped is not called again and its number
is not given out again.

> `refines_step`: a call on a live channel is answered alike by the slots and by the
> table, and leaves them related.

What was found in a slot was put there, and so on the channel and the thread on which
it is found:

> `mem_filled_run`: the filled slots after a run were there before, or were published
> in it.
-/

namespace SealedRecords

namespace Slots

/-! ## Calls -/

/-- What a program does with channels. -/
inductive Call where
  | create
  | publish (t : Thread) (c : ChannelId) (ref : Option KeyRef)
  | take (t : Thread) (c : ChannelId)
  | peek (t : Thread) (c : ChannelId)
  | drop (t : Thread) (c : ChannelId)
  deriving DecidableEq, Repr

/-- What a call is answered with. -/
inductive Answer where
  | created (c : ChannelId)
  | found (ref : Option KeyRef)
  | done
  deriving DecidableEq, Repr

namespace Call

/-- The channel that a call is made on. A new channel is made on none. -/
def channel? : Call → Option ChannelId
  | create => none
  | publish _ c _ => some c
  | take _ c => some c
  | peek _ c => some c
  | drop _ c => some c

/-- A call is meant to change a cell. Dropping a channel takes its cells away on all threads. -/
def Touches : Call → Thread → ChannelId → Prop
  | create, _, _ => False
  | publish t c _, u, d => u = t ∧ d = c
  | take t c, u, d => u = t ∧ d = c
  | peek _ _, _, _ => False
  | drop _ c, _, d => d = c

/-- What a call does to the slots. -/
def step : Call → Slots → Answer × Slots
  | create, s => (.created (Slots.create s).1, (Slots.create s).2)
  | publish t c ref, s => (.done, s.publish t c ref)
  | take t c, s => (.found (Slots.take t c s).1, (Slots.take t c s).2)
  | peek t c, s => (.found (s.peek t c), s)
  | drop t c, s => (.done, s.drop t c)

end Call

/-- Makes one call after the other. -/
def runCalls (step : Call → σ → Answer × σ) : List Call → σ → List Answer × σ
  | [], s => ([], s)
  | call :: calls, s =>
    let (answer, s) := step call s
    let (answers, s) := runCalls step calls s
    (answer :: answers, s)

theorem runCalls_cons (step : Call → σ → Answer × σ) (call : Call) (calls : List Call) (s : σ) :
    runCalls step (call :: calls) s =
      ((step call s).1 :: (runCalls step calls (step call s).2).1,
        (runCalls step calls (step call s).2).2) := rfl

/-- The slots after a run of calls. -/
def afterCalls (calls : List Call) (s : Slots) : Slots := (runCalls Call.step calls s).2

/-! ## The table -/

/-- One cell for each thread and channel, and the channels that there are. -/
structure Table where
  next : ChannelId := 1
  live : List ChannelId := []
  cell : Thread → ChannelId → Option KeyRef := fun _ _ => none

namespace Table

/-- Sets one cell. -/
def set (m : Table) (t : Thread) (c : ChannelId) (ref : Option KeyRef) : Table :=
  { m with cell := fun u d => if u = t ∧ d = c then ref else m.cell u d }

theorem cell_set (m : Table) (t u : Thread) (c d : ChannelId) (ref : Option KeyRef) :
    (m.set t c ref).cell u d = if u = t ∧ d = c then ref else m.cell u d := rfl

/-- What a call should do. -/
def step : Call → Table → Answer × Table
  | .create, m => (.created m.next,
    { next := m.next + 1, live := m.next :: m.live,
      cell := fun u d => if d = m.next then none else m.cell u d })
  | .publish t c ref, m => (.done, m.set t c ref)
  | .take t c, m => (.found (m.cell t c), m.set t c none)
  | .peek t c, m => (.found (m.cell t c), m)
  | .drop _ c, m => (.done, { m with live := m.live.filter (· != c) })

/-- Calls can be made one after the other: each is made on a channel that there is. -/
def Allows : List Call → Table → Prop
  | [], _ => True
  | call :: calls, m => (∀ c ∈ call.channel?, c ∈ m.live) ∧ Allows calls (step call m).2

end Table

section

variable {s : Slots} {m : Table} {call : Call} {calls prior rest : List Call} {t u : Thread}
  {c d : ChannelId} {e : Slot} {r : KeyRef}

/-! ## Slots and table side by side -/

/-- The cells of the live channels are those of the table. -/
structure Refines (s : Slots) (m : Table) : Prop where
  bounded : s.Bounded
  next : m.next = s.next
  live : m.live = s.live
  cell : ∀ u d, d ∈ s.live → m.cell u d = s.peek u d

theorem refines_empty : Refines {} {} where
  bounded := bounded_empty
  next := rfl
  live := rfl
  cell := fun _ _ _ => rfl

/-- Setting a cell of the table keeps pace with a change of the slots that touches no other cell
of a live channel. -/
theorem Refines.set {s' : Slots} {ref : Option KeyRef} (h : Refines s m) (hbounded : s'.Bounded)
    (hnext : s'.next = s.next) (hlive : s'.live = s.live) (hself : s'.peek t c = ref)
    (hne : ∀ u d, d ∈ s.live → ¬ (u = t ∧ d = c) → s'.peek u d = s.peek u d) :
    Refines s' (m.set t c ref) where
  bounded := hbounded
  next := h.next.trans hnext.symm
  live := h.live.trans hlive.symm
  cell := by
    intro u d hd
    rw [hlive] at hd
    rw [Table.cell_set]
    by_cases hcell : u = t ∧ d = c
    · rw [if_pos hcell, hcell.1, hcell.2, hself]
    · rw [if_neg hcell, h.cell u d hd, hne u d hd hcell]

theorem Refines.create (h : Refines s m) :
    Refines (Slots.create s).2 (m.step .create).2 where
  bounded := h.bounded.create
  next := congrArg (· + 1) h.next
  live := by
    show m.next :: m.live = s.next :: s.live
    rw [h.next, h.live]
  cell := by
    intro u d hd
    show (if d = m.next then none else m.cell u d) = s.peek u d
    by_cases hnew : d = m.next
    · -- no slot has the number of the new channel
      rw [if_pos hnew, hnew, h.next, h.bounded.peek_next]
    · rw [if_neg hnew]
      rw [h.next] at hnew
      exact h.cell u d ((List.mem_cons.mp hd).resolve_left hnew)

theorem Refines.drop (h : Refines s m) (t : Thread) (c : ChannelId) :
    Refines (s.drop t c) (m.step (.drop t c)).2 where
  bounded := h.bounded.drop
  next := h.next
  live := by
    show m.live.filter (· != c) = s.live.filter (· != c)
    rw [h.live]
  cell := by
    intro u d hd
    obtain ⟨hlive, hne⟩ := List.mem_filter.mp hd
    rw [peek_drop_of_ne s t u (bne_iff_ne.mp hne)]
    exact h.cell u d hlive

/-- **A call is answered as the table answers it**, and slots and table stay related. -/
theorem refines_step (h : Refines s m) (hcall : ∀ c ∈ call.channel?, c ∈ m.live) :
    (call.step s).1 = (Table.step call m).1 ∧ Refines (call.step s).2 (Table.step call m).2 := by
  have hlive : ∀ {c}, c ∈ call.channel? → c ∈ s.live := by
    intro c hc
    rw [← h.live]
    exact hcall c hc
  -- pruning and dropping remove more than the table forgets, but nothing of a live channel
  cases call with
  | create => exact ⟨congrArg Answer.created h.next.symm, h.create⟩
  | publish t c ref =>
    have hc := h.bounded.live_lt c (hlive rfl)
    exact ⟨rfl, h.set (h.bounded.publish ref hc) (next_publish s t c ref) (live_publish s t c ref)
      (peek_publish_self s t c ref) fun u d hd hne => peek_publish_of_ne s ref hne hd⟩
  | take t c =>
    exact ⟨congrArg Answer.found (h.cell t c (hlive rfl)).symm,
      h.set h.bounded.clear rfl rfl (peek_clear_self s t c) fun u d _ hne => peek_clear_of_ne s hne⟩
  | peek t c => exact ⟨congrArg Answer.found (h.cell t c (hlive rfl)).symm, h⟩
  | drop t c => exact ⟨rfl, h.drop t c⟩

/-- The same for all calls of a run. -/
theorem refines_run (h : Refines s m) (hcalls : Table.Allows calls m) :
    (runCalls Call.step calls s).1 = (runCalls Table.step calls m).1 ∧
      Refines (afterCalls calls s) (runCalls Table.step calls m).2 := by
  induction calls generalizing s m with
  | nil => exact ⟨rfl, h⟩
  | cons call calls ih =>
    obtain ⟨hcall, hcalls⟩ := hcalls
    obtain ⟨hanswer, hnext⟩ := refines_step h hcall
    obtain ⟨hanswers, hlast⟩ := ih hnext hcalls
    refine ⟨?_, hlast⟩
    rw [runCalls_cons, runCalls_cons, hanswer, hanswers]

/-! ## Where a reference comes from -/

/-- A call changes no cell of a live channel that it is not meant to change. -/
theorem peek_step (h : ¬ call.Touches u d) (hd : d ∈ s.live) :
    (call.step s).2.peek u d = s.peek u d := by
  cases call with
  | create => rfl
  | publish t c ref => exact peek_publish_of_ne s ref h hd
  | take t c => exact peek_clear_of_ne s h
  | peek t c => rfl
  | drop t c => exact peek_drop_of_ne s t u h

/-- A filled slot is not another one that is cleared. -/
theorem mem_clear_iff : e ∈ (s.clear t c).filled ↔
    e ∈ s.filled ∧ ¬ (e.thread = t ∧ e.channel = c) := by
  unfold clear
  rw [List.mem_filter, Bool.not_eq_true', Bool.and_eq_false_iff, beq_eq_false_iff_ne,
    beq_eq_false_iff_ne, Decidable.not_and_iff_or_not]

/-- A slot is filled by a publication and by nothing else. -/
theorem mem_filled_step (h : e ∈ (call.step s).2.filled) :
    e ∈ s.filled ∨ call = .publish e.thread e.channel (some e.keyRef) := by
  cases call with
  | create => exact Or.inl h
  | publish t c ref =>
    cases ref with
    | none => exact Or.inl (mem_clear_iff.mp h).1
    | some r =>
      rcases List.mem_append.mp h with hold | hnew
      · exact Or.inl (List.mem_filter.mp (mem_clear_iff.mp hold).1).1
      · rw [List.mem_singleton.mp hnew]
        exact Or.inr rfl
  | take t c => exact Or.inl (mem_clear_iff.mp h).1
  | peek t c => exact Or.inl h
  | drop t c => exact Or.inl (mem_clear_iff.mp h).1

theorem mem_filled_run (h : e ∈ (afterCalls calls s).filled) :
    e ∈ s.filled ∨ .publish e.thread e.channel (some e.keyRef) ∈ calls := by
  induction calls generalizing s with
  | nil => exact Or.inl h
  | cons call calls ih =>
    rcases ih h with hstep | hlater
    · rcases mem_filled_step hstep with hold | rfl
      · exact Or.inl hold
      · exact Or.inr (List.mem_cons_self)
    · exact Or.inr (List.mem_cons_of_mem _ hlater)

/-- A reference that is found is in the slot of the call. -/
theorem mem_filled_of_found (h : (call.step s).1 = .found (some r)) :
    ∃ t c, (call = .take t c ∨ call = .peek t c) ∧ ⟨t, c, r⟩ ∈ s.filled := by
  have hpeek : ∀ {t c}, s.peek t c = some r → ⟨t, c, r⟩ ∈ s.filled := by
    intro t c hfound
    obtain ⟨⟨t', c', r'⟩, hfind, rfl⟩ := Option.map_eq_some_iff.mp hfound
    have hcell := List.find?_some hfind
    rw [Bool.and_eq_true, beq_iff_eq, beq_iff_eq] at hcell
    obtain ⟨rfl, rfl⟩ := hcell
    exact List.mem_of_find?_eq_some hfind
  cases call with
  | take t c => exact ⟨t, c, Or.inl rfl, hpeek (Answer.found.inj h)⟩
  | peek t c => exact ⟨t, c, Or.inr rfl, hpeek (Answer.found.inj h)⟩
  | _ => cases h

/-! ## Dropped channels -/

theorem runCalls_append (step : Call → σ → Answer × σ) (prior rest : List Call) (s : σ) :
    (runCalls step (prior ++ rest) s).2 = (runCalls step rest (runCalls step prior s).2).2 := by
  induction prior generalizing s with
  | nil => rfl
  | cons call prior ih => exact ih (step call s).2

theorem Table.allows_append : Table.Allows (prior ++ rest) m ↔
    Table.Allows prior m ∧ Table.Allows rest (runCalls Table.step prior m).2 := by
  induction prior generalizing m with
  | nil => exact ⟨fun h => ⟨trivial, h⟩, And.right⟩
  | cons call prior ih =>
    show _ ∧ Table.Allows (prior ++ rest) _ ↔ (_ ∧ Table.Allows prior _) ∧ _
    rw [ih, and_assoc]
    rfl

/-- A channel that was given out and is not there any more. -/
def Table.Gone (m : Table) (c : ChannelId) : Prop := c < m.next ∧ c ∉ m.live

theorem Table.Gone.step (h : m.Gone c) (call : Call) : (m.step call).2.Gone c := by
  obtain ⟨hold, hdead⟩ := h
  cases call with
  | create =>
    refine ⟨Nat.lt_succ_of_lt hold, fun hmem => ?_⟩
    rcases List.mem_cons.mp hmem with rfl | hlive
    · exact Nat.lt_irrefl _ hold
    · exact hdead hlive
  | drop t d => exact ⟨hold, fun hmem => hdead (List.mem_filter.mp hmem).1⟩
  | _ => exact ⟨hold, hdead⟩

/-- No call is made on a channel that is gone, now or later. -/
theorem Table.Gone.channel?_ne (h : m.Gone c) (hcalls : Table.Allows calls m) :
    ∀ call ∈ calls, call.channel? ≠ some c := by
  induction calls generalizing m with
  | nil => exact fun _ hmem => absurd hmem List.not_mem_nil
  | cons call calls ih =>
    obtain ⟨hcall, hcalls⟩ := hcalls
    rintro later hmem
    rcases List.mem_cons.mp hmem with rfl | hmem
    · exact fun hc => h.2 (hcall c hc)
    · exact ih (h.step call) hcalls later hmem

/-- Once a channel is dropped on a thread, the thread has no entry of it again. -/
theorem not_mem_of_dropped (h : Refines s m) (hcalls : Table.Allows (.drop t c :: rest) m)
    (he : e ∈ (afterCalls (.drop t c :: rest) s).filled) :
    ¬ (e.thread = t ∧ e.channel = c) := by
  rintro ⟨rfl, rfl⟩
  obtain ⟨hcall, hrest⟩ := hcalls
  have hlive : e.channel ∈ s.live := by
    rw [← h.live]
    exact hcall _ rfl
  have hgone : (m.step (.drop e.thread e.channel)).2.Gone e.channel := by
    refine ⟨?_, fun hmem => ?_⟩
    · show e.channel < m.next
      rw [h.next]
      exact h.bounded.live_lt _ hlive
    · exact bne_iff_ne.mp (List.mem_filter.mp hmem).2 rfl
  have he : e ∈ (afterCalls rest (s.drop e.thread e.channel)).filled := he
  -- an entry that is there in the end was left by the drop, or published on a channel that is gone
  rcases mem_filled_run he with hleft | hlater
  · exact (mem_clear_iff.mp hleft).2 ⟨rfl, rfl⟩
  · exact hgone.channel?_ne hrest _ hlater rfl

/-- **Channels are an ideal table of cells.** Take any run of calls, on any threads, each on a
channel that was made before and not dropped. All answers are those of the table. On the way, no
call changes the cell of a live channel that it is not meant to change, a new channel is empty on
every thread, and what is found was published before through the same channel and on the same
thread. Once a channel is dropped on a thread, no slot of that thread is filled for it any more. -/
theorem calls_answered_by_table (calls : List Call) (hcalls : Table.Allows calls {}) :
    (runCalls Call.step calls {}).1 = (runCalls Table.step calls {}).1 ∧
    ∀ prior call rest, calls = prior ++ call :: rest →
      let s := afterCalls prior {}
      let answer := (call.step s).1
      let s' := (call.step s).2
      (∀ u d, d ∈ s.live → ¬ call.Touches u d → s'.peek u d = s.peek u d) ∧
      (∀ u c, answer = .created c → s'.peek u c = none) ∧
      (∀ r, answer = .found (some r) → ∃ t c, (call = .take t c ∨ call = .peek t c) ∧
        .publish t c (some r) ∈ prior) ∧
      ∀ t c, call = .drop t c → ∀ e ∈ (afterCalls calls {}).filled,
        ¬ (e.thread = t ∧ e.channel = c) := by
  refine ⟨(refines_run refines_empty hcalls).1, ?_⟩
  rintro prior call rest rfl
  obtain ⟨hprior, hlater⟩ := Table.allows_append.mp hcalls
  have hrefines := (refines_run refines_empty hprior).2
  refine ⟨fun u d hd hcell => peek_step hcell hd, fun u c hnew => ?_, fun r hfound => ?_, ?_⟩
  · cases call with
    | create =>
      obtain rfl := Answer.created.inj hnew
      exact hrefines.bounded.peek_next u
    | _ => cases hnew
  · obtain ⟨t, c, hcall, hmem⟩ := mem_filled_of_found hfound
    rcases mem_filled_run hmem with hempty | hpublished
    · exact absurd hempty List.not_mem_nil
    · exact ⟨t, c, hcall, hpublished⟩
  · rintro t c rfl e he
    unfold afterCalls at he
    rw [runCalls_append] at he
    exact not_mem_of_dropped hrefines hlater he

/-- A channel is dropped on another thread than the one on which a reference is pending, and the
next publication on that thread prunes the entry that is left. -/
theorem calls_answered_by_table_pruned :
    let calls : List Call := [.create, .create, .publish .main 1 (some ⟨[0x41]⟩),
      .publish (.worker "w") 1 (some ⟨[0x42]⟩), .drop (.worker "w") 1,
      .publish .main 2 (some ⟨[0x43]⟩), .take .main 2, .peek .main 2]
    (runCalls Call.step calls {}).1 = [.created 1, .created 2, .done, .done, .done, .done,
      .found (some ⟨[0x43]⟩), .found none] ∧
    ∀ e ∈ (afterCalls calls {}).filled, ¬ (e.thread = .worker "w" ∧ e.channel = 1) := by
  intro calls
  have hcalls : Table.Allows calls {} := by
    refine ⟨nofun, nofun, ?_, ?_, ?_, ?_, ?_, ?_, trivial⟩
    all_goals rintro c ⟨⟩
    all_goals decide
  obtain ⟨hanswers, hsteps⟩ := calls_answered_by_table calls hcalls
  have hdropped := (hsteps (calls.take 4) (.drop (.worker "w") 1) (calls.drop 5) rfl).2.2.2
  exact ⟨hanswers.trans rfl, hdropped _ _ rfl⟩

end

end Slots

end SealedRecords
