import SealedRecords.Bytes
import SealedRecords.Text.GraphemeExtend
import SealedRecords.Text.Unprintable

/-!
# Quoted texts and bytes

A text in double quotes in which everything that could not be told apart by eye is escaped: the
quote, the backslash, characters without a printed form and marks that would join the character
before them. A single character is quoted in the same manner, in single quotes, and so are bytes,
with two hexadecimal digits for each byte outside printed ASCII.
-/

namespace SealedRecords.Quoted

open SealedRecords

/-- The hexadecimal digits of a number, without leading zeros. -/
def hexDigits (n : Nat) : String := String.ofList (Nat.toDigits 16 n)

/-- How a character appears between quotes of a kind; a quote of the other kind stands as it
is. -/
def escape (quote c : Char) : String :=
  if c = quote || c = '\\' then String.ofList ['\\', c]
  else if c = '\t' then "\\t"
  else if c = '\r' then "\\r"
  else if c = '\n' then "\\n"
  else if c.toNat = 0 then "\\0"
  else if isGraphemeExtend c || isUnprintable c then "\\u\x7b" ++ hexDigits c.toNat ++ "\x7d"
  else String.singleton c

/-- A text in quotes. -/
def text (s : String) : String := "\"" ++ String.join (s.toList.map (escape '"')) ++ "\""

/-- The quote around a single character. -/
def singleQuote : Char := Char.ofNat 0x27

/-- A character in quotes. -/
def char (c : Char) : String := "'" ++ escape singleQuote c ++ "'"

/-- How a byte appears between quotes. -/
def escapeByte (b : UInt8) : String :=
  if b = 0x0A then "\\n"
  else if b = 0x0D then "\\r"
  else if b = 0x09 then "\\t"
  else if b = 0x22 then "\\\""
  else if b = 0x5C then "\\\\"
  else if b = 0 then "\\0"
  else if 0x20 ≤ b && b < 0x7F then String.singleton (Char.ofNat b.toNat)
  else "\\x" ++ (if b < 0x10 then "0" else "") ++ hexDigits b.toNat

/-- Bytes in quotes, marked as bytes. -/
def bytes (b : Bytes) : String := "b\"" ++ String.join (b.map escapeByte) ++ "\""

end SealedRecords.Quoted
