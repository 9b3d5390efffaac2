import SealedRecords.Text.Emoji.Sequence
import SealedRecords.Text.Ligature
import SealedRecords.Text.Width.Character

/-!
# Display width of a text

How many columns of a terminal a text takes. Characters that are drawn as one glyph count once: a
carriage return and a line feed, the parts of an emoji, letters that make a ligature. A variation
selector can change the width of the character in front of it.

A text is read from its last character to its first, since what a character adds depends on what
stands behind it. What a character adds may be negative, as a ligature can take less than its
parts.
-/

namespace SealedRecords.Width

open SealedRecords

/-- The selectors of forms with a width of their own. -/
inductive Selector where
  /-- Selects the form as an emoji. -/
  | emoji
  /-- Selects the form as text. -/
  | text
  /-- Selects the fullwidth form of a quotation mark. -/
  | fullwidth
  deriving DecidableEq, Repr

/-- The selector that a character is. -/
def Selector.ofChar? (c : Char) : Option Selector :=
  if c.toNat = 0xFE0F then some .emoji
  else if c.toNat = 0xFE0E then some .text
  else if c.toNat = 0xFE01 then some .fullwidth
  else none

/-- Whether a character is a quotation mark of the shape of a 6 or a 9. -/
def isCurlyQuote (c : Char) : Bool :=
  c.toNat = 0x2018 || c.toNat = 0x2019 || c.toNat = 0x201C || c.toNat = 0x201D

/-- What stands behind a character, as far as the width of both together depends on it. -/
inductive Follower where
  | lineFeed
  | emoji (s : Emoji.Sequence)
  | ligature (l : Ligature)
  /-- The vowel e of Kirat Rai. -/
  | vowelE
  /-- The vowel ai of Kirat Rai, which is two vowels e. -/
  | vowelAi
  | other
  deriving DecidableEq, Repr

namespace Follower

/-- What a character is by itself to the one before it. -/
def ofChar (c : Char) : Follower :=
  if c = '\n' then .lineFeed
  else if c.toNat = 0x16D67 then .vowelE
  else if c.toNat = 0x16D68 then .vowelAi
  else match Emoji.Sequence.ofChar? c with
    | some s => .emoji s
    | none =>
      match Ligature.ofChar? c with
      | some l => .ligature l
      | none => .other

/-- What stands behind a selector that selects nothing: to the character in front, only a
ligature goes on through it. -/
def behindSelector : Follower → Follower
  | .ligature l => .ligature l
  | _ => .other

/-- The columns that a character in front of a selector adds, and what it then is to the
character before it, if it has the form that is selected. `f` stands behind the selector. -/
def select? (c : Char) (f : Follower) : Selector → Option (Int × Follower)
  | .emoji =>
    if Emoji.hasEmojiForm c then
      match f with
      | .emoji s => some (if s.takesSelected then 0 else 2, .emoji .whole)
      | _ => some (2, .emoji .whole)
    else none
  | .text => if Emoji.hasTextForm c then some (1, .other) else none
  | .fullwidth => if isCurlyQuote c then some (2, .other) else none

/-- The columns that a character adds to those of what stands behind it, if it makes one glyph
with that, and what both are to the character before them. -/
def extend? (c : Char) : Follower → Option (Int × Follower)
  | .lineFeed => if c = '\r' then some (0, .other) else none
  | .emoji s => (s.extend? c).map fun (n, s) => (n, .emoji s)
  | .ligature l => (l.extend? c).map fun (n, l?) => (n, (l?.map .ligature).getD .other)
  | .vowelE =>
    if c.toNat = 0x16D63 || c.toNat = 0x16D69 then some (0, .other)
    else if c.toNat = 0x16D67 then some (0, .vowelAi)
    else if c.toNat = 0x16D68 then some (1, .vowelE)
    else none
  | .vowelAi => if c.toNat = 0x16D63 then some (0, .other) else none
  | .other => none

end Follower

/-- What has been read of a text from its end: its columns, a selector in front, and what stands
there otherwise. -/
structure Reading where
  columns : Int := 0
  selector : Option Selector := none
  follower : Follower := .other
  deriving DecidableEq, Repr

/-- What has been read after the character in front, which no selector changes: a selector waits
for the character before it, everything else joins what stands behind it or stands alone. -/
def Reading.addPlain (c : Char) (r : Reading) : Reading :=
  match Selector.ofChar? c with
  | some s => { r with selector := some s }
  | none =>
    let (n, follower) := (r.follower.extend? c).getD (ofChar c, .ofChar c)
    ⟨n + r.columns, none, follower⟩

/-- What has been read after the character in front. -/
def Reading.add (c : Char) (r : Reading) : Reading :=
  match r.selector with
  | none => r.addPlain c
  | some s =>
    match r.follower.select? c s with
    | some (n, follower) => ⟨n + r.columns, none, follower⟩
    | none => addPlain c ⟨r.columns, none, r.follower.behindSelector⟩

/-- The columns of a text. -/
def ofText (s : String) : Nat := (s.toList.foldr Reading.add {}).columns.toNat

end SealedRecords.Width
