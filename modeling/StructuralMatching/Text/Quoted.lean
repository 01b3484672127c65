/-
Text in quotes, such that every character of it can be seen.

* `Text.escape` — a character as it stands between quotes;
* `Text.quote` — a string in quotes.

Design notes: quotes and backslashes get a backslash, four controls have a letter of their own, and
every other character that is not visible by itself is given by its code point.
-/
import StructuralMatching.Text.Visible

namespace StructuralMatching.Text

/-- A code point in braces, in base 16 without leading zeros. -/
def codePointEscape (c : Char) : List Char :=
  ['\\', 'u', '{'] ++ Nat.toDigits 16 c.toNat ++ ['}']

/-- A character as it stands between quotes. -/
def escape (c : Char) : List Char :=
  match c with
  | '\x00' => ['\\', '0']
  | '\t' => ['\\', 't']
  | '\n' => ['\\', 'n']
  | '\r' => ['\\', 'r']
  | '"' => ['\\', '"']
  | '\\' => ['\\', '\\']
  | c => if isVisible c then [c] else codePointEscape c

/-- A string in quotes. -/
def quote (s : String) : String := "\"" ++ String.ofList (s.toList.flatMap escape) ++ "\""

end StructuralMatching.Text
