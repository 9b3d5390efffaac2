import SealedRecords.Text.Emoji

/-!
# Sequences of emoji

Emoji that are drawn as one glyph: one with a skin tone, flags of two letters, and emoji with
joiners between them. A sequence is read from its last character to its first, so a state says
what stands behind the next character, and each step how many columns that one adds.
-/

namespace SealedRecords.Emoji

open SealedRecords

/-- What stands behind a character, if it begins an emoji. -/
inductive Sequence where
  /-- An emoji, perhaps with others joined behind it. -/
  | whole
  /-- A skin tone. -/
  | skinTone
  /-- One letter of a flag. -/
  | flagLetter
  /-- More letters of flags than one. -/
  | flags
  /-- A joiner and an emoji. -/
  | joined
  /-- The box of a keycap, joined to an emoji. -/
  | joinedKeycap
  /-- One letter of a flag, joined to an emoji. -/
  | joinedLetter
  /-- An even number of letters of flags, joined to an emoji. -/
  | joinedEven
  /-- An odd number of letters of flags, joined to an emoji, and more than one. -/
  | joinedOdd
  /-- The end of the tags of a flag, joined to an emoji, behind that many tags for letters and in
  front of them for digits. -/
  | tags (letters digits : Nat)
  deriving DecidableEq, Repr

/-- What a character is by itself to the one before it. -/
def Sequence.ofChar? (c : Char) : Option Sequence :=
  if isModifier c then some .skinTone
  else if isFlagLetter c then some .flagLetter
  else if isPresentation c then some .whole
  else none

/-- Whether a character is a tag for a small letter. -/
def isTagLetter (c : Char) : Bool := 0xE0061 ≤ c.toNat && c.toNat ≤ 0xE007A

/-- Whether a character is a tag for a digit. -/
def isTagDigit (c : Char) : Bool := 0xE0030 ≤ c.toNat && c.toNat ≤ 0xE0039

/-- Tags of a flag for the character in front of them: up to six letters, up to three digits in
front of at most four letters, and the black flag that the tags are for. They name a region with
three digits, or with three letters and more. -/
def extendTags? (c : Char) (letters digits : Nat) : Option (Int × Sequence) :=
  if isTagLetter c then
    if digits = 0 && letters < 6 then some (0, .tags (letters + 1) 0) else none
  else if isTagDigit c then
    if letters ≤ 4 && digits < 3 then some (0, .tags letters (digits + 1)) else none
  else if c.toNat = 0x1F3F4 then
    if digits = 3 || (digits = 0 && 3 ≤ letters) then some (0, .whole) else none
  else none

/-- The columns that a character adds to those of the sequence behind it, and the sequence that
both make, if they do. -/
def Sequence.extend? (c : Char) : Sequence → Option (Int × Sequence)
  | .whole => if isJoiner c then some (0, .joined) else none
  | .skinTone =>
    if isModifierBase c then some (0, .whole)
    else if isJoiner c then some (0, .joined)
    else none
  | .flagLetter => if isFlagLetter c then some (1, .flags) else none
  | .flags =>
    if isFlagLetter c then some (1, .flags)
    else if isJoiner c then some (0, .joined)
    else none
  | .joined =>
    if c.toNat = 0x20E3 then some (0, .joinedKeycap)
    else if isFlagLetter c then some (1, .joinedLetter)
    else if isModifier c then some (0, .skinTone)
    else if c.toNat = 0xE007F then some (0, .tags 0 0)
    else if isPresentation c then some (0, .whole)
    else none
  | .joinedKeycap => none
  | .joinedLetter => if isFlagLetter c then some (-1, .joinedEven) else none
  | .joinedEven =>
    if isFlagLetter c then some (3, .joinedOdd)
    else if isJoiner c then some (0, .joined)
    else none
  | .joinedOdd =>
    if isFlagLetter c then some (-1, .joinedEven)
    else if isJoiner c then some (0, .joined)
    else none
  | .tags letters digits => extendTags? c letters digits

/-- Whether an emoji in front of a sequence is a part of it, its selector in between. -/
def Sequence.takesSelected : Sequence → Bool
  | .joined | .joinedKeycap => true
  | _ => false

end SealedRecords.Emoji
