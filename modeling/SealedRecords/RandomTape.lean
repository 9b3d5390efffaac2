import SealedRecords.Bytes

/-!
# The random tape

All randomness comes from one endless sequence of bytes. A draw takes the next bytes of the
sequence and never gives one of them out again: the position only moves forward, by exactly the
number of bytes drawn.
-/

namespace SealedRecords

/-- A sequence of random bytes and how many of them have been drawn. -/
structure RandomTape where
  byte : Nat → UInt8
  drawn : Nat := 0

namespace RandomTape

/-- The `n` bytes from position `i` on. -/
def window (t : RandomTape) (i n : Nat) : Bytes := (List.range n).map fun k => t.byte (i + k)

/-- Draws the next `n` bytes. -/
def draw (n : Nat) : StateM RandomTape Bytes := fun t =>
  (t.window t.drawn n, { t with drawn := t.drawn + n })

/-- The tape on which byte `i` is `start + i`, modulo 256. -/
def counting (start : Nat) : RandomTape where
  byte := fun i => UInt8.ofNat (start + i)

@[simp] theorem length_window (t : RandomTape) (i n : Nat) : (t.window i n).length = n := by
  simp [window]

end RandomTape

end SealedRecords
