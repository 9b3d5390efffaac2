import SealedRecords.KeyRef

/-!
# Slots

A channel hands a key reference from the key side of a record to its value side. Each thread has
its own slot on each channel, so records that are in the making on different threads do not mix.
A slot holds at most one reference, which the value side takes out. When a channel is dropped,
its slot on the dropping thread is emptied at once; its slots on other threads are removed when a
reference is next published there.
-/

namespace SealedRecords

/-- A thread of execution. -/
inductive Thread where
  | main
  | worker (name : String)
  deriving DecidableEq, Repr

/-- The number of a channel; numbers are given out in order and never twice. -/
abbrev ChannelId := Nat

/-- A filled slot. -/
structure Slot where
  thread : Thread
  channel : ChannelId
  keyRef : KeyRef
  deriving DecidableEq, Repr

/-- The channels that exist and the slots that are filled. -/
structure Slots where
  next : ChannelId := 1
  live : List ChannelId := []
  filled : List Slot := []
  deriving DecidableEq, Repr

namespace Slots

/-- Makes a new channel. -/
def create : StateM Slots ChannelId := fun s =>
  (s.next, { s with next := s.next + 1, live := s.next :: s.live })

/-- The reference in a slot. -/
def peek (s : Slots) (t : Thread) (c : ChannelId) : Option KeyRef :=
  (s.filled.find? fun e => e.thread == t && e.channel == c).map Slot.keyRef

/-- Empties a slot. -/
def clear (s : Slots) (t : Thread) (c : ChannelId) : Slots :=
  { s with filled := s.filled.filter fun e => !(e.thread == t && e.channel == c) }

/-- Removes the slots that dropped channels have left on a thread. -/
def prune (s : Slots) (t : Thread) : Slots :=
  { s with filled := s.filled.filter fun e => e.thread != t || s.live.contains e.channel }

/-- Fills a slot, or empties it if there is no reference. -/
def publish (s : Slots) (t : Thread) (c : ChannelId) : Option KeyRef → Slots
  | some r =>
    let s := (s.prune t).clear t c
    { s with filled := s.filled ++ [⟨t, c, r⟩] }
  | none => s.clear t c

/-- Takes the reference out of a slot. -/
def take (t : Thread) (c : ChannelId) : StateM Slots (Option KeyRef) := fun s =>
  (s.peek t c, s.clear t c)

/-- Drops a channel on a thread. -/
def drop (s : Slots) (t : Thread) (c : ChannelId) : Slots :=
  { s.clear t c with live := s.live.filter (· != c) }

end Slots

end SealedRecords
