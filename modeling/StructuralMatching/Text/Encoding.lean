/-
The three Unicode encodings of text.

* `scalar?` — the character of a code point, if it has one;
* `utf8` — text as bytes;
* `utf16`, `ofUtf16?` — text as units of 16 bits, and back;
* `utf32`, `ofUtf32?` — text as code points, and back;
* `latin1` — the text whose characters are the bytes themselves.

Design notes: text is `String`; the encodings work on its list of characters.  Units are natural
numbers, and the order of their bytes is a matter of `ByteOrder`.
-/
import StructuralMatching.ByteOrder

namespace StructuralMatching.Text

/-- The character of a code point: all but the surrogates up to `0x10FFFF` have one. -/
def scalar? (n : Nat) : Option Char :=
  if n.isValidChar then some (Char.ofNat n) else none

/-- The text in UTF-8. -/
def utf8 (s : String) : List UInt8 := s.toList.flatMap String.utf8EncodeChar

/-- The UTF-16 units of a character: its code point, or a high and a low surrogate. -/
def utf16Units (c : Char) : List Nat :=
  if c.toNat < 0x10000 then [c.toNat]
  else [0xD800 + (c.toNat - 0x10000) / 0x400, 0xDC00 + (c.toNat - 0x10000) % 0x400]

/-- The text in UTF-16 units. -/
def utf16 (s : String) : List Nat := s.toList.flatMap utf16Units

def isHighSurrogate (unit : Nat) : Bool := 0xD800 ≤ unit && unit < 0xDC00

def isLowSurrogate (unit : Nat) : Bool := 0xDC00 ≤ unit && unit < 0xE000

/-- The characters of UTF-16 units, if every surrogate is part of a pair. -/
def charsOfUtf16? : List Nat → Option (List Char)
  | [] => some []
  | [unit] => (scalar? unit).map ([·])
  | high :: low :: rest =>
    if isHighSurrogate high && isLowSurrogate low then do
      let c ← scalar? (0x10000 + (high - 0xD800) * 0x400 + (low - 0xDC00))
      return c :: (← charsOfUtf16? rest)
    else do
      let c ← scalar? high
      return c :: (← charsOfUtf16? (low :: rest))

/-- The text of UTF-16 units. -/
def ofUtf16? (units : List Nat) : Option String := (charsOfUtf16? units).map String.ofList

/-- The text in code points. -/
def utf32 (s : String) : List Nat := s.toList.map Char.toNat

/-- The text of code points, if all of them have characters. -/
def ofUtf32? (units : List Nat) : Option String := (units.mapM scalar?).map String.ofList

/-- The text whose code points are the bytes. -/
def latin1 (bytes : List UInt8) : String :=
  String.ofList (bytes.map fun b => Char.ofNat b.toNat)

end StructuralMatching.Text
