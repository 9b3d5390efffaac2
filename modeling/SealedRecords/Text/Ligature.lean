import SealedRecords.Text.GraphemeExtend

/-!
# Ligatures of letters

Letters of some scripts that are drawn as one glyph, or that change their width beside each other:
Arabic lam and alef, and, most of them with a joiner in between, letters of Hebrew, Buginese,
Tifinagh, Lisu, Old Turkic and Khmer. A ligature is read from its last character to its first.
-/

namespace SealedRecords

/-- What stands behind a character, if a ligature may end with it. A letter is `joined` when a
joiner stands in front of it. -/
inductive Ligature where
  /-- The Arabic alef, perhaps behind marks. -/
  | alef
  /-- The Hebrew lamed. -/
  | lamed (joined : Bool)
  /-- The Buginese ya. -/
  | ya (joined : Bool)
  /-- The Buginese vowel i, a joiner and a ya. -/
  | vowelYa
  /-- A consonant of Tifinagh. -/
  | consonant (joined : Bool)
  /-- A consonant of Tifinagh behind the sign that joins consonants. -/
  | signedConsonant
  /-- One of the tones of Lisu that stand behind another. -/
  | tone
  /-- The letter i of Old Turkic. -/
  | orkhonI (joined : Bool)
  /-- A letter of Khmer that has a subscript form. -/
  | subscript
  deriving DecidableEq, Repr

namespace Ligature

/-- The ranges of the forms of the Arabic letter alef. -/
def alefRanges : List (Nat × Nat) := [
  (0x622, 0x623), (0x625, 0x625), (0x627, 0x627), (0x671, 0x673), (0x675, 0x675), (0x773, 0x774),
  (0x870, 0x882)]

/-- The ranges of the forms of the Arabic letter lam. -/
def lamRanges : List (Nat × Nat) := [
  (0x644, 0x644), (0x6B5, 0x6B8), (0x76A, 0x76A), (0x8A6, 0x8A6), (0x8C7, 0x8C7)]

/-- The ranges of the consonants of Tifinagh. -/
def consonantRanges : List (Nat × Nat) := [(0x2D31, 0x2D65), (0x2D6F, 0x2D6F)]

/-- The ranges of the letters of Khmer that have a subscript form. -/
def subscriptRanges : List (Nat × Nat) := [
  (0x1780, 0x1782), (0x1784, 0x1787), (0x1789, 0x178C), (0x178E, 0x1793), (0x1795, 0x1798),
  (0x179B, 0x179D), (0x17A0, 0x17A0), (0x17A2, 0x17A2), (0x17A7, 0x17A7), (0x17AB, 0x17AC),
  (0x17AF, 0x17AF)]

/-- The ranges of Grapheme_Extend in the category Mc: marks that stand beside their letter. -/
def spacingMarkRanges : List (Nat × Nat) := [
  (0x9BE, 0x9BE), (0x9D7, 0x9D7), (0xB3E, 0xB3E), (0xB57, 0xB57), (0xBBE, 0xBBE), (0xBD7, 0xBD7),
  (0xCC0, 0xCC0), (0xCC2, 0xCC2), (0xCC7, 0xCC8), (0xCCA, 0xCCB), (0xCD5, 0xCD6), (0xD3E, 0xD3E),
  (0xD57, 0xD57), (0xDCF, 0xDCF), (0xDDF, 0xDDF), (0x1715, 0x1715), (0x1734, 0x1734),
  (0x1B35, 0x1B35), (0x1B3B, 0x1B3B), (0x1B3D, 0x1B3D), (0x1B43, 0x1B44), (0x1BAA, 0x1BAA),
  (0x1BF2, 0x1BF3), (0x302E, 0x302F), (0xA953, 0xA953), (0xA9C0, 0xA9C0), (0x111C0, 0x111C0),
  (0x11235, 0x11235), (0x1133E, 0x1133E), (0x1134D, 0x1134D), (0x11357, 0x11357),
  (0x113B8, 0x113B8), (0x113C2, 0x113C2), (0x113C5, 0x113C5), (0x113C7, 0x113C9),
  (0x113CF, 0x113CF), (0x114B0, 0x114B0), (0x114BD, 0x114BD), (0x115AF, 0x115AF),
  (0x116B6, 0x116B6), (0x11930, 0x11930), (0x1193D, 0x1193D), (0x11F41, 0x11F41),
  (0x16FF0, 0x16FF1), (0x1D165, 0x1D166), (0x1D16D, 0x1D172)]

/-- The ranges of the invisible formats through which Arabic letters join. -/
def joiningFormatRanges : List (Nat × Nat) := [
  (0xAD, 0xAD), (0x61C, 0x61C), (0x70F, 0x70F), (0x200B, 0x200B), (0x200E, 0x200F),
  (0x202A, 0x202E), (0x2060, 0x2064), (0x206A, 0x206F), (0xFEFF, 0xFEFF), (0x1BCA0, 0x1BCA3),
  (0x1D173, 0x1D17A), (0xE0001, 0xE0001)]

/-- The ranges of the marks with the property Default_Ignorable_Code_Point, joiners left out. -/
def ignorableMarkRanges : List (Nat × Nat) := [
  (0x34F, 0x34F), (0x17B4, 0x17B5), (0x180B, 0x180D), (0x180F, 0x180F), (0xFE00, 0xFE0F),
  (0xE0100, 0xE01EF)]

/-- Whether Arabic letters join through a character: marks above and below letters and formats
do not part them, but joiners of both kinds do. -/
def isTransparent (c : Char) : Bool :=
  (isGraphemeExtend c && c.toNat != 0x200C && !inRanges spacingMarkRanges c.toNat) ||
    inRanges joiningFormatRanges c.toNat

/-- What a character is by itself to the one before it. -/
def ofChar? (c : Char) : Option Ligature :=
  if inRanges alefRanges c.toNat then some .alef
  else if c.toNat = 0x5DC then some (.lamed false)
  else if c.toNat = 0x1A10 then some (.ya false)
  else if inRanges consonantRanges c.toNat then some (.consonant false)
  else if c.toNat = 0xA4FC || c.toNat = 0xA4FD then some .tone
  else if c.toNat = 0x10C03 then some (.orkhonI false)
  else if inRanges subscriptRanges c.toNat then some .subscript
  else none

/-- What stands behind a joiner, seen from in front of it. No joiner stands inside the ligature of
lam and alef. -/
def behindJoiner? : Ligature → Option Ligature
  | .alef => none
  | .lamed _ => some (.lamed true)
  | .ya _ => some (.ya true)
  | .consonant _ => some (.consonant true)
  | .orkhonI _ => some (.orkhonI true)
  | l => some l

/-- Whether a character may stand inside a ligature without a trace. -/
def passes (c : Char) : Ligature → Bool
  | .alef => isTransparent c
  | _ => inRanges ignorableMarkRanges c.toNat

/-- The columns that a letter adds to those of what stands behind it when it joins that, and what
both are to the character before them, if the ligature may go on. A letter of Khmer behind the
sign of subscripts takes no column of its own. -/
def joinLetter? (c : Char) : Ligature → Option (Int × Option Ligature)
  | .alef => if inRanges lamRanges c.toNat then some (0, none) else none
  | .lamed joined => if joined && c.toNat = 0x5D0 then some (0, none) else none
  | .ya joined => if joined && c.toNat = 0x1A17 then some (0, some .vowelYa) else none
  | .vowelYa => if c.toNat = 0x1A15 then some (0, none) else none
  | .consonant joined =>
    if c.toNat = 0x2D7F then some (1, some .signedConsonant)
    else if joined && inRanges consonantRanges c.toNat then some (0, none)
    else none
  | .signedConsonant => if inRanges consonantRanges c.toNat then some (-1, none) else none
  | .tone => if 0xA4F8 ≤ c.toNat && c.toNat ≤ 0xA4FB then some (0, none) else none
  | .orkhonI joined => if joined && c.toNat = 0x10C32 then some (0, none) else none
  | .subscript => if c.toNat = 0x17D2 then some (-1, none) else none

/-- The columns that a character adds to those of the ligature behind it, and what both are to the
character before them, if the character has a part in the ligature. -/
def extend? (c : Char) (l : Ligature) : Option (Int × Option Ligature) :=
  if c.toNat = 0x200D then l.behindJoiner?.map fun l => (0, some l)
  else if l.passes c then some (0, some l)
  else l.joinLetter? c

end Ligature

end SealedRecords
