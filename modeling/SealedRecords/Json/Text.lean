import SealedRecords.Json.Cursor

/-!
# Reading JSON texts

A text is read byte by byte behind its opening quote. Escapes of surrogates have to come in
pairs. At the closing quote the bytes, with those of the escaped characters in place of the
escapes, have to be UTF-8; the fault is about the first byte that is not.
-/

namespace SealedRecords.Json

open SealedRecords Reader

/-- Reads up to `n` bytes. -/
def nextBytes : Nat → Reader Bytes
  | 0 => return []
  | n + 1 => do
    match ← next with
    | some b => return b :: (← nextBytes n)
    | none => return []

/-- The value of four hexadecimal digits, all of which are read before they are looked at. -/
def hexEscape : Reader Nat := do
  let digits ← nextBytes 4
  if digits.length < 4 then fail .endInText
  match Hex.decodePairs 0 digits with
  | .ok bytes => return Bytes.ofWord bytes
  | .error _ => fail .invalidEscape

/-- Reads a byte that has to be there. -/
def nextInText : Reader UInt8 := do
  match ← next with
  | some b => return b
  | none => fail .endInText

/-- The character of a surrogate pair, the second half of which still has to be read. -/
def surrogatePair (high : Nat) : Reader Char := do
  if (← nextInText) != 0x5C then fail .endInEscape
  if (← nextInText) != 0x75 then fail .endInEscape
  let low ← hexEscape
  if low < 0xDC00 || 0xDFFF < low then fail .loneSurrogate
  return Char.ofNat (0x10000 + (high - 0xD800) * 0x400 + (low - 0xDC00))

/-- The character of an escape whose backslash has been read. -/
def escapedChar : Reader Char := do
  match ← nextInText with
  | 0x22 => return '"'
  | 0x5C => return '\\'
  | 0x2F => return '/'
  | 0x62 => return Char.ofNat 8
  | 0x66 => return Char.ofNat 12
  | 0x6E => return '\n'
  | 0x72 => return '\r'
  | 0x74 => return '\t'
  | 0x75 => do
    let n ← hexEscape
    if 0xDC00 ≤ n && n ≤ 0xDFFF then fail .loneSurrogate
    else if 0xD800 ≤ n && n ≤ 0xDBFF then surrogatePair n
    else return Char.ofNat n
  | _ => fail .invalidEscape

/-- The text of gathered bytes whose closing quote ends at the position reached. The first byte
that is no UTF-8 is a fault, at the column as far in front of that position as the byte is in
front of the end of the bytes. -/
def gathered (bytes : Bytes) : Reader String := do
  match Utf8.decode bytes with
  | .ok s => return s
  | .error e =>
    let c ← get
    throw ⟨.invalidUtf8, c.line, c.column - (bytes.length - e.index)⟩

/-- Reads the text behind an opening quote, at most `n` bytes and escapes of it. What has been
gathered has its last byte first; an escape adds the bytes of its character. -/
def textBody : Nat → Bytes → Reader String
  | 0, _ => fail .endInText
  | n + 1, before => do
    match ← nextInText with
    | 0x22 => gathered before.reverse
    | 0x5C => do
      let c ← escapedChar
      textBody n ((Utf8.encode (String.singleton c)).reverse ++ before)
    | b => if b < 0x20 then fail .controlCharacter else textBody n (b :: before)

/-- Reads the text behind an opening quote. -/
def text : Reader String := do
  textBody ((← left) + 1) []

end SealedRecords.Json
