/-
Places in a YAML text.

* `Cursor` — what is left of the text, and where that begins;
* `isBreak`, `isBlank` — what ends a line, and what separates words on a line;
* `skipGapFrom` — goes on to the next character that is neither blank nor part of a comment;
* `Cursor.atMarker` — whether a document begins or ends here.

Design notes: in YAML the column in which something begins says what it belongs to, and some things
have to stand on one line.  So a place knows its line and its column.
-/

namespace StructuralMatching.Yaml

/-- What is left of a text, with the line and the column in which it begins. -/
structure Cursor where
  rest : List Char
  line : Nat
  column : Nat
deriving DecidableEq, Repr

/-- The part of a text in which something stands: a block, whose structure is given by columns, or
a flow, whose structure is given by brackets. -/
inductive Context where
  | block
  | flow
deriving DecidableEq, Repr

def isBlank (c : Char) : Bool := c = ' ' || c = '\t'

/-- Whether a character ends a line: the usual one, the line separator or the paragraph
separator. -/
def isBreak (c : Char) : Bool := c = '\n' || c.toNat = 0x2028 || c.toNat = 0x2029

/-- Whether a character is the mark of an encoding.  At the beginning of a line it means nothing, but
takes a column; anywhere else it is a character like others. -/
def isEncodingMark (c : Char) : Bool := c.toNat = 0xFEFF

/-- Whether a word is over: at a blank, at the end of a line, and at the end of the text. -/
def endsWord : List Char → Bool
  | [] => true
  | c :: _ => isBlank c || isBreak c

/-- Whether three marks stand here by themselves. -/
def marksAlone (mark : Char) (cs : List Char) : Bool :=
  cs.take 3 == [mark, mark, mark] && endsWord (cs.drop 3)

/-- Whether the text before which a line ends begins with the mark of a document. -/
def isMarker (cs : List Char) : Bool := marksAlone '-' cs || marksAlone '.' cs

/-- Skips blanks, line ends, comments, and marks of an encoding that begin a line.  In a block, a tab
is no blank where something may begin that is a key.  The answer says whether this is so at the end;
every new line of a block allows it. -/
def skipGapFrom (context : Context) (keyAllowed inComment : Bool) (line column : Nat) :
    List Char → Bool × Cursor
  | [] => (keyAllowed, ⟨[], line, column⟩)
  | c :: cs =>
    if isBreak c then
      skipGapFrom context (keyAllowed || context = .block) false (line + 1) 0 cs
    else if inComment || c = ' ' || (c = '\t' && (context = .flow || !keyAllowed)) ||
        (column = 0 && isEncodingMark c) then
      skipGapFrom context keyAllowed inComment line (column + 1) cs
    else if c = '#' then skipGapFrom context keyAllowed true line (column + 1) cs
    else (keyAllowed, ⟨c :: cs, line, column⟩)

namespace Cursor

/-- The place `n` characters further on the line. -/
def advance (c : Cursor) (n : Nat) : Cursor := ⟨c.rest.drop n, c.line, c.column + n⟩

/-- Whether a document begins or ends here. -/
def atMarker (c : Cursor) : Bool := c.column = 0 && isMarker c.rest

end Cursor

end StructuralMatching.Yaml
