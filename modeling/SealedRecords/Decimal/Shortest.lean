/-!
# Shortest decimals

A finite double stands for all reals that round to it. Among the decimals in that interval the
shortest one lies on the coarsest decimal grid that has a point in it, and of two such points the
one nearer to the double is taken. All comparisons are between natural numbers.
-/

namespace SealedRecords

/-- The number `digits * 10 ^ exponent`. -/
structure Decimal where
  digits : Nat
  exponent : Int
  deriving DecidableEq, Repr

namespace Decimal

/-- The magnitude of a finite double: `mantissa * 2 ^ exponent`. -/
structure Magnitude where
  mantissa : Nat
  exponent : Int
  deriving DecidableEq, Repr

/-- The leading bit of a mantissa, which the bits of a double leave out. -/
def leadingBit : Nat := 1 <<< 52

/-- The magnitude that the bits of a finite double denote. -/
def Magnitude.ofBits (bits : UInt64) : Magnitude :=
  let fraction := bits.toNat % leadingBit
  let biased := bits.toNat / leadingBit % 2048
  if biased = 0 then ⟨fraction, -1074⟩ else ⟨leadingBit + fraction, Int.ofNat biased - 1075⟩

/-- The bounds of the reals that round to a magnitude, in quarters of its last place. Below a
power of two the neighbour is nearer, except at the smallest exponent. -/
def Magnitude.bounds (v : Magnitude) : Nat × Nat :=
  let low := if v.mantissa = leadingBit && v.exponent != -1074 then 1 else 2
  (4 * v.mantissa - low, 4 * v.mantissa + 2)

/-- A power of a base with a natural exponent; negative exponents count as zero. -/
def pow (base : Nat) (e : Int) : Nat := Nat.pow base e.toNat

/-- The point of the grid of multiples of `10 ^ e` that stands for a magnitude: one that rounds to
it, the nearer if there are two, the even one if they are equally near. -/
def onGrid? (v : Magnitude) (e : Int) : Option Nat :=
  let q := v.exponent - 2
  let scale := pow 2 q * pow 10 (-e)
  let unit := pow 10 e * pow 2 (-q)
  let value := 4 * v.mantissa * scale
  let (low, high) := v.bounds
  let isEven := v.mantissa % 2 = 0
  let fits (c : Nat) : Bool :=
    if isEven then low * scale ≤ c * unit && c * unit ≤ high * scale
    else low * scale < c * unit && c * unit < high * scale
  let c := value / unit
  let below := value - c * unit
  let above := (c + 1) * unit - value
  if c = 0 || !fits c then if fits (c + 1) then some (c + 1) else none
  else if !fits (c + 1) then some c
  else if below < above || (below = above && c % 2 = 0) then some c
  else some (c + 1)

/-- Tries `n` grids from `10 ^ e` on, each ten times as fine as the one before. -/
def search (v : Magnitude) : Nat → Int → Decimal
  | 0, e => ⟨0, e⟩
  | n + 1, e =>
    match onGrid? v e with
    | some c => ⟨c, e⟩
    | none => search v n (e - 1)

/-- The shortest decimal of a positive magnitude. The coarsest grid that any double needs is
`10 ^ 308`, the finest `10 ^ (-324)`. -/
def shortest (v : Magnitude) : Decimal := search v 640 310

end Decimal

end SealedRecords
