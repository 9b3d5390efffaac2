import SealedRecords.Proofs.Slots.Table

/-!
# What dropped channels leave behind

A channel that is dropped empties its slot on the dropping thread. Its entries on
other threads stay, and nobody can look at them through the channel any more. They
are to go with the next publication on their thread. A publication with a reference
does remove them; one without a reference empties its own cell and looks at no other
entry, so it leaves them where they are.

> `dead_step`: which entries of dropped channels there are after a call, by those
> before it.

> `dead_run`: an entry of a dropped channel was left by a drop on another thread, and
> nothing was published with a reference on its thread since.

> `publish_prunes_iff`: what a publication leaves on its thread, in every state that
> calls lead to.
-/

namespace SealedRecords

namespace Slots

/-- A filled slot whose channel is not there any more. -/
def Dead (s : Slots) (e : Slot) : Prop := e ∈ s.filled ∧ e.channel ∉ s.live

instance (s : Slots) (e : Slot) : Decidable (s.Dead e) := inferInstanceAs (Decidable (_ ∧ _))

namespace Call

/-- A call publishes a reference on a thread. -/
def PublishesOn : Call → Thread → Prop
  | publish t _ (some _), u => t = u
  | _, _ => False

/-- A call drops the channel of a filled slot on another thread than that of the slot. -/
def Abandons : Call → Slot → Prop
  | drop t c, e => e.channel = c ∧ e.thread ≠ t
  | _, _ => False

end Call

variable {s : Slots} {m : Table} {call : Call} {calls : List Call} {t : Thread} {c : ChannelId}
  {e : Slot} {r : KeyRef}

/-! ## What one call does -/

theorem mem_prune_iff :
    e ∈ (s.prune t).filled ↔ e ∈ s.filled ∧ (e.thread ≠ t ∨ e.channel ∈ s.live) := by
  unfold prune
  rw [List.mem_filter, Bool.or_eq_true, bne_iff_ne, List.contains_iff_mem]

theorem mem_publish_some_iff : e ∈ (s.publish t c (some r)).filled ↔
    (e ∈ (s.prune t).filled ∧ ¬ (e.thread = t ∧ e.channel = c)) ∨ e = ⟨t, c, r⟩ := by
  show e ∈ ((s.prune t).clear t c).filled ++ [⟨t, c, r⟩] ↔ _
  rw [List.mem_append, mem_clear_iff, List.mem_singleton]

/-- A new channel does not bring one back: its number was not in use. -/
theorem dead_create (h : s.Bounded) : (Slots.create s).2.Dead e ↔ s.Dead e := by
  constructor
  · rintro ⟨hmem, hdead⟩
    exact ⟨hmem, fun hlive => hdead (List.mem_cons_of_mem _ hlive)⟩
  · rintro ⟨hmem, hdead⟩
    refine ⟨hmem, fun hlive => ?_⟩
    rcases List.mem_cons.mp hlive with hnew | hlive
    · exact Nat.lt_irrefl _ (hnew ▸ h.filled_lt e hmem)
    · exact hdead hlive

/-- Emptying the cell of a live channel removes no entry of a dropped one. -/
theorem dead_clear (hc : c ∈ s.live) : (s.clear t c).Dead e ↔ s.Dead e := by
  constructor
  · rintro ⟨hmem, hdead⟩
    exact ⟨(mem_clear_iff.mp hmem).1, hdead⟩
  · rintro ⟨hmem, hdead⟩
    exact ⟨mem_clear_iff.mpr ⟨hmem, fun hcell => hdead (hcell.2 ▸ hc)⟩, hdead⟩

/-- A publication with a reference removes the entries of dropped channels on its thread. -/
theorem dead_publish_some (hc : c ∈ s.live) :
    (s.publish t c (some r)).Dead e ↔ s.Dead e ∧ e.thread ≠ t := by
  constructor
  · rintro ⟨hmem, hdead⟩
    rcases mem_publish_some_iff.mp hmem with ⟨hold, -⟩ | rfl
    · obtain ⟨hold, hkept⟩ := mem_prune_iff.mp hold
      exact ⟨⟨hold, hdead⟩, hkept.resolve_right hdead⟩
    · exact absurd hc hdead
  · rintro ⟨⟨hmem, hdead⟩, ht⟩
    have hkept := mem_prune_iff.mpr ⟨hmem, Or.inl ht⟩
    exact ⟨mem_publish_some_iff.mpr (Or.inl ⟨hkept, fun hcell => ht hcell.1⟩), hdead⟩

/-- A drop leaves the entries of its channel on the other threads. -/
theorem dead_drop (hc : c ∈ s.live) :
    (s.drop t c).Dead e ↔ s.Dead e ∨ (e ∈ s.filled ∧ e.channel = c ∧ e.thread ≠ t) := by
  have hlive : e.channel ∈ (s.drop t c).live ↔ e.channel ∈ s.live ∧ e.channel ≠ c := by
    show e.channel ∈ s.live.filter (· != c) ↔ _
    rw [List.mem_filter, bne_iff_ne]
  constructor
  · rintro ⟨hmem, hdead⟩
    obtain ⟨hold, hcell⟩ := mem_clear_iff.mp hmem
    by_cases hchannel : e.channel = c
    · exact Or.inr ⟨hold, hchannel, fun ht => hcell ⟨ht, hchannel⟩⟩
    · exact Or.inl ⟨hold, fun h => hdead (hlive.mpr ⟨h, hchannel⟩)⟩
  · rintro (⟨hmem, hdead⟩ | ⟨hmem, hchannel, ht⟩)
    · have hcell : ¬ (e.thread = t ∧ e.channel = c) := fun hcell => hdead (hcell.2 ▸ hc)
      exact ⟨mem_clear_iff.mpr ⟨hmem, hcell⟩, fun h => hdead (hlive.mp h).1⟩
    · exact ⟨mem_clear_iff.mpr ⟨hmem, fun hcell => ht hcell.1⟩, fun h => (hlive.mp h).2 hchannel⟩

/-- The entries of dropped channels after a call: those before it that it does not prune, and
those that it leaves behind itself. -/
theorem dead_step (h : s.Bounded) (hcall : ∀ c ∈ call.channel?, c ∈ s.live) :
    (call.step s).2.Dead e ↔
      (s.Dead e ∧ ¬ call.PublishesOn e.thread) ∨ (e ∈ s.filled ∧ call.Abandons e) := by
  -- most calls neither prune nor abandon
  have hneither : (s.Dead e ∧ ¬ False) ∨ (e ∈ s.filled ∧ False) ↔ s.Dead e := by simp
  cases call with
  | create => exact (dead_create h).trans hneither.symm
  | publish t c ref =>
    have hc : c ∈ s.live := hcall c rfl
    cases ref with
    | none => exact (dead_clear hc).trans hneither.symm
    | some r =>
      simp only [Call.PublishesOn, Call.Abandons, and_false, or_false, eq_comm (a := t)]
      exact dead_publish_some hc
  | take t c => exact (dead_clear (hcall c rfl)).trans hneither.symm
  | peek t c => exact hneither.symm
  | drop t c =>
    simp only [Call.PublishesOn, Call.Abandons, not_false_eq_true, and_true]
    exact dead_drop (hcall c rfl)

/-! ## What a run does -/

/-- Some call of a run left an entry behind, and nothing was published with a reference on the
thread of the entry since. -/
def LeftBehind (calls : List Call) (s : Slots) (e : Slot) : Prop :=
  ∃ prior t rest, calls = prior ++ .drop t e.channel :: rest ∧ e.thread ≠ t ∧
    e ∈ (afterCalls prior s).filled ∧ ∀ call ∈ rest, ¬ call.PublishesOn e.thread

/-- The first call of a run left the entry behind, or a later one did. -/
theorem leftBehind_cons_iff : LeftBehind (call :: calls) s e ↔
    (e ∈ s.filled ∧ call.Abandons e ∧ ∀ later ∈ calls, ¬ later.PublishesOn e.thread) ∨
      LeftBehind calls (call.step s).2 e := by
  constructor
  · rintro ⟨prior, t, rest, hcalls, ht, hmem, hrest⟩
    cases prior with
    | nil =>
      obtain ⟨rfl, rfl⟩ := List.cons.inj hcalls
      exact Or.inl ⟨hmem, ⟨rfl, ht⟩, hrest⟩
    | cons first prior =>
      obtain ⟨rfl, rfl⟩ := List.cons.inj hcalls
      exact Or.inr ⟨prior, t, rest, rfl, ht, hmem, hrest⟩
  · rintro (⟨hmem, habandons, hrest⟩ | ⟨prior, t, rest, rfl, ht, hmem, hrest⟩)
    · cases call with
      | drop t c =>
        obtain ⟨rfl, ht⟩ := habandons
        exact ⟨[], t, calls, rfl, ht, hmem, hrest⟩
      | _ => exact habandons.elim
    · exact ⟨call :: prior, t, rest, rfl, ht, hmem, hrest⟩

/-- The entries of dropped channels after a run: those before it, if nothing was published with a
reference on their thread, and those that the run left behind. -/
theorem dead_run (h : Refines s m) (hcalls : Table.Allows calls m) :
    (afterCalls calls s).Dead e ↔
      (s.Dead e ∧ ∀ call ∈ calls, ¬ call.PublishesOn e.thread) ∨ LeftBehind calls s e := by
  induction calls generalizing s m with
  | nil =>
    have hnone : ¬ LeftBehind [] s e := by
      rintro ⟨prior, t, rest, hcalls, -⟩
      cases prior <;> cases hcalls
    simp [afterCalls, runCalls, hnone]
  | cons call calls ih =>
    obtain ⟨hcall, hcalls⟩ := hcalls
    have hlive : ∀ c ∈ call.channel?, c ∈ s.live := by
      rw [← h.live]
      exact hcall
    have hrun := ih (refines_step h hcall).2 hcalls
    have hstep := dead_step h.bounded hlive (e := e)
    show (afterCalls calls (call.step s).2).Dead e ↔ _
    rw [hrun, hstep, leftBehind_cons_iff, List.forall_mem_cons, or_and_right, and_assoc, and_assoc,
      or_assoc]

/-- In a state that calls lead to, the entries of dropped channels are those left behind. -/
theorem dead_iff_leftBehind (hcalls : Table.Allows calls {}) :
    (afterCalls calls {}).Dead e ↔ LeftBehind calls {} e := by
  have hnone : ¬ Dead {} e := fun h => absurd h.1 List.not_mem_nil
  rw [dead_run refines_empty hcalls]
  exact or_iff_right fun h => hnone h.1

theorem afterCalls_append_singleton (calls : List Call) (call : Call) (s : Slots) :
    afterCalls (calls ++ [call]) s = (call.step (afterCalls calls s)).2 :=
  runCalls_append Call.step calls [call] s

/-- **A publication prunes its thread if and only if it publishes a reference, or there is nothing
to prune.** Take any run of calls, on any threads, each on a channel that was made before and not
dropped, that ends with a publication. With a reference it leaves no entry of a dropped channel on
its thread. Without one it leaves exactly those that there were: an entry that a drop on another
thread left behind, with nothing published under a reference on its own thread since. No
publication touches the entries of dropped channels on other threads. -/
theorem publish_prunes_iff (calls : List Call) (t : Thread) (c : ChannelId) (ref : Option KeyRef)
    (hcalls : Table.Allows (calls ++ [.publish t c ref]) {}) :
    let s := afterCalls calls {}
    let s' := afterCalls (calls ++ [.publish t c ref]) {}
    ((∀ e, e.thread = t → ¬ s'.Dead e) ↔ ref.isSome ∨ ∀ e, e.thread = t → ¬ s.Dead e) ∧
    (∀ e, e.thread = t → (s'.Dead e ↔ ref = none ∧ LeftBehind calls {} e)) ∧
    ∀ e, e.thread ≠ t → (s'.Dead e ↔ s.Dead e) := by
  intro s s'
  obtain ⟨hprior, ⟨hcall, -⟩⟩ := Table.allows_append.mp hcalls
  have hrefines : Refines s _ := (refines_run refines_empty hprior).2
  have hc : c ∈ s.live := by
    rw [← hrefines.live]
    exact hcall c rfl
  have hs' : s' = s.publish t c ref := afterCalls_append_singleton calls _ {}
  rw [hs']
  cases ref with
  | none =>
    have hdead : ∀ e, (s.publish t c none).Dead e ↔ s.Dead e := fun e => dead_clear hc
    refine ⟨?_, fun e _ => ?_, fun e _ => hdead e⟩
    · simp only [hdead, Option.isSome_none, Bool.false_eq_true, false_or]
    · rw [hdead, dead_iff_leftBehind hprior]
      exact (and_iff_right rfl).symm
  | some r =>
    have hpruned : ∀ e, e.thread = t → ¬ (s.publish t c (some r)).Dead e :=
      fun e ht h => (dead_publish_some hc |>.mp h).2 ht
    refine ⟨iff_of_true hpruned (Or.inl rfl), fun e ht => ?_, fun e ht => ?_⟩
    · exact iff_of_false (hpruned e ht) (fun h => nomatch h.1)
    · rw [dead_publish_some hc]
      exact and_iff_left ht

/-- A reference is pending on the main thread when a worker drops its channel, and there is
another channel. -/
def abandonedByWorker : List Call :=
  [.create, .create, .publish .main 1 (some ⟨[0x4B, 0x31]⟩), .drop (.worker "w") 1]

theorem allows_abandonedByWorker (ref : Option KeyRef) :
    Table.Allows (abandonedByWorker ++ [.publish .main 2 ref]) {} := by
  refine ⟨nofun, nofun, ?_, ?_, ?_, trivial⟩
  all_goals rintro c ⟨⟩
  all_goals decide

/-- The next publication of the main thread removes the entry that the worker left there if it has
a reference, and keeps it if it has none. -/
theorem publish_prunes_iff_abandonedByWorker :
    (∀ ref, Table.Allows (abandonedByWorker ++ [.publish .main 2 ref]) {}) ∧
    (∀ e, e.thread = .main →
      ¬ (afterCalls (abandonedByWorker ++ [.publish .main 2 (some ⟨[0x4B, 0x32]⟩)]) {}).Dead e) ∧
    (afterCalls (abandonedByWorker ++ [.publish .main 2 none]) {}).Dead
      ⟨.main, 1, ⟨[0x4B, 0x31]⟩⟩ := by
  refine ⟨allows_abandonedByWorker, ?_, ?_⟩
  · exact (publish_prunes_iff _ .main 2 _ (allows_abandonedByWorker _)).1.mpr (Or.inl rfl)
  · have hleft : LeftBehind abandonedByWorker {} ⟨.main, 1, ⟨[0x4B, 0x31]⟩⟩ :=
      ⟨abandonedByWorker.take 3, .worker "w", [], rfl, nofun, by decide, nofun⟩
    exact ((publish_prunes_iff _ .main 2 none (allows_abandonedByWorker none)).2.1 _ rfl).mpr
      ⟨rfl, hleft⟩

/-- Not every publication prunes its thread. -/
theorem publish_none_keeps_dead :
    ¬ ∀ (calls : List Call) (t : Thread) (c : ChannelId) (ref : Option KeyRef),
      Table.Allows (calls ++ [.publish t c ref]) {} →
      ∀ e, e.thread = t → ¬ (afterCalls (calls ++ [.publish t c ref]) {}).Dead e := by
  intro h
  have hdead : (afterCalls (abandonedByWorker ++ [.publish .main 2 none]) {}).Dead
      ⟨.main, 1, ⟨[0x4B, 0x31]⟩⟩ := by decide
  exact h abandonedByWorker .main 2 none (allows_abandonedByWorker none) _ rfl hdead

end Slots

end SealedRecords
