import SealedRecords.Json.Cursor

/-!
# Reading JSON numbers

Whole numbers that fit 64 bits are exact, with a sign or without. Every other number is a double.
Its digits are gathered in a 64-bit significand, the digits that do not fit are only counted, and
the double is the significand times or divided by a power of ten, rounded after each step.
Minus zero is a double.
-/

namespace SealedRecords.Json

open SealedRecords Reader

/-- The largest significand. -/
def maxSignificand : Nat := 18446744073709551615

/-- The largest exponent that is read digit by digit. -/
def maxExponent : Nat := 2147483647

/-- `10 ^ n` as a double, for `n` up to 308. -/
def powerOfTen (n : Nat) : Float := Float.ofScientific 1 false n

/-- Divides by powers of ten until the exponent is small enough, at most `n` times; three
divisions take every significand to zero. -/
def shrink : Nat → Float → Int → Float × Int
  | 0, f, e => (f, e)
  | n + 1, f, e =>
    if e < -308 && f != 0 then shrink n (f / powerOfTen 308) (e + 308) else (f, e)

/-- `significand * 10 ^ exponent` as a double, unless it is out of range. -/
def toDouble? (significand : Nat) (exponent : Int) : Option Float :=
  let f := (UInt64.ofNat significand).toFloat
  let (f, e) := shrink 4 f exponent
  if f == 0 then some f
  else if 308 < e then none
  else if 0 ≤ e then
    let g := f * powerOfTen e.toNat
    if g.isInf then none else some g
  else some (f / powerOfTen e.natAbs)

/-- A double with a sign. -/
def signed (positive : Bool) (f : Float) : JsonNumber :=
  .double (if positive then f else -f).toBits

/-- The double of gathered digits. -/
def double (positive : Bool) (significand : Nat) (exponent : Int) : Reader JsonNumber :=
  match toDouble? significand exponent with
  | some f => return signed positive f
  | none => fail .numberOutOfRange

/-- Skips digits, at most `n`. -/
def skipDigits : Nat → Reader Unit
  | 0 => return
  | n + 1 => do
    match ← peek with
    | some b => if isDigit b then do skip; skipDigits n
    | none => return

/-- Reads the further digits of an exponent; none if it grows too large. -/
def exponentDigits : Nat → Nat → Reader (Option Nat)
  | 0, e => return some e
  | n + 1, e => do
    match ← peek with
    | some b =>
      if isDigit b then do
        skip
        let e := e * 10 + digitValue b
        if maxExponent < e then return none else exponentDigits n e
      else return some e
    | none => return some e

/-- Reads an exponent, from its letter on. -/
def exponentPart (positive : Bool) (significand : Nat) (start : Int) : Reader JsonNumber := do
  skip
  let positiveExponent ← match ← peek with
    | some 0x2B => do skip; pure true
    | some 0x2D => do skip; pure false
    | _ => pure true
  match ← next with
  | none => fail .endInValue
  | some b =>
    if isDigit b then do
      match ← exponentDigits (← left) (digitValue b) with
      | some e => double positive significand (if positiveExponent then start + e else start - e)
      | none =>
        if significand != 0 && positiveExponent then fail .numberOutOfRange
        else do
          skipDigits (← left)
          return signed positive 0
    else fail .invalidNumber

/-- An exponent if one follows, else the double of the digits so far. -/
def afterDigits (positive : Bool) (significand : Nat) (exponent : Int) : Reader JsonNumber := do
  match ← peek with
  | some b =>
    if b = 0x65 || b = 0x45 then exponentPart positive significand exponent
    else double positive significand exponent
  | none => double positive significand exponent

/-- Reads digits behind the point into the significand; `count` of them have been read. Digits
that no longer fit are skipped. -/
def fractionDigits : Nat → Bool → Nat → Int → Nat → Reader JsonNumber
  | 0, positive, significand, start, count => double positive significand (start - count)
  | n + 1, positive, significand, start, count => do
    match ← peek with
    | some b =>
      if isDigit b then do
        let s := significand * 10 + digitValue b
        if maxSignificand < s then do
          skipDigits (← left)
          afterDigits positive significand (start - count)
        else do
          skip
          fractionDigits n positive s start (count + 1)
      else if count = 0 then failNext .invalidNumber
      else afterDigits positive significand (start - count)
    | none =>
      if count = 0 then failNext .endInValue
      else afterDigits positive significand (start - count)

/-- Reads a fraction, from the point on. -/
def fractionPart (positive : Bool) (significand : Nat) (start : Int) : Reader JsonNumber := do
  skip
  fractionDigits ((← left) + 1) positive significand start 0

/-- Counts the whole digits that no longer fit the significand, and reads what follows. -/
def longDigits : Nat → Bool → Nat → Nat → Reader JsonNumber
  | 0, positive, significand, count => double positive significand count
  | n + 1, positive, significand, count => do
    match ← peek with
    | some b =>
      if isDigit b then do
        skip
        longDigits n positive significand (count + 1)
      else if b = 0x2E then fractionPart positive significand count
      else afterDigits positive significand count
    | none => double positive significand count

/-- A whole number if nothing follows, else a double. A negative number below the range of 64
bits, and minus zero, are doubles too. -/
def afterWhole (positive : Bool) (significand : Nat) : Reader JsonNumber := do
  match ← peek with
  | some 0x2E => fractionPart positive significand 0
  | some 0x65 => exponentPart positive significand 0
  | some 0x45 => exponentPart positive significand 0
  | _ =>
    if positive then return .integer significand
    else if significand = 0 || 9223372036854775808 < significand then
      return signed false (UInt64.ofNat significand).toFloat
    else return .integer (-(significand : Int))

/-- Reads the further digits of a whole part. -/
def wholeDigits : Nat → Bool → Nat → Reader JsonNumber
  | 0, positive, significand => afterWhole positive significand
  | n + 1, positive, significand => do
    match ← peek with
    | some b =>
      if isDigit b then do
        let s := significand * 10 + digitValue b
        if maxSignificand < s then longDigits ((← left) + 1) positive significand 0
        else do
          skip
          wholeDigits n positive s
      else afterWhole positive significand
    | none => afterWhole positive significand

/-- Reads a number whose sign has been read. -/
def number (positive : Bool) : Reader JsonNumber := do
  match ← next with
  | none => fail .endInValue
  | some b =>
    if b = 48 then
      match ← peek with
      | some d => if isDigit d then failNext .invalidNumber else afterWhole positive 0
      | none => afterWhole positive 0
    else if isDigit b then wholeDigits (← left) positive (digitValue b)
    else fail .invalidNumber

end SealedRecords.Json
