/-
Scalars in a YAML text.

* `scanPlain` — a scalar without quotes;
* `scanSingle`, `scanDouble` — a scalar in single or in double quotes;
* `Gap` — what separates the words of a scalar.

Design notes: a scalar may go on over several lines.  Blanks around the end of a line do not count;
one line end between two words counts as a space, and of several all but the first are kept.  Line
and paragraph separators are kept as they are.
-/
import StructuralMatching.Json.Parse
import StructuralMatching.Yaml.Basic
import StructuralMatching.Yaml.Cursor

namespace StructuralMatching.Yaml

/-- What separates two words of a scalar. -/
inductive Gap where
  /-- Blanks on one line, the last one first. -/
  | blanks (reversed : List Char)
  /-- Line ends: the first one, unless it is escaped, and those after it, the last one first. -/
  | lines (first : Option Char) (reversed : List Char)

namespace Gap

/-- No gap at all. -/
def none : Gap := blanks []

/-- A gap followed by a blank. -/
def addBlank (c : Char) : Gap → Gap
  | blanks reversed => blanks (c :: reversed)
  | lines first reversed => lines first reversed

/-- A gap followed by a line end. -/
def addLine (c : Char) : Gap → Gap
  | blanks _ => lines (some c) []
  | lines first reversed => lines first (c :: reversed)

def isNone : Gap → Bool
  | blanks reversed => reversed.isEmpty
  | lines .. => false

/-- Whether the gap has a line end. -/
def hasLine : Gap → Bool
  | blanks _ => false
  | lines .. => true

/-- What a gap leaves behind, added to a text in reverse order. -/
def fold (text : List Char) : Gap → List Char
  | blanks reversed => reversed ++ text
  | lines .none reversed => reversed ++ text
  | lines (some '\n') [] => ' ' :: text
  | lines (some '\n') reversed => reversed ++ text
  | lines (some separator) reversed => reversed ++ separator :: text

end Gap

/-- The characters with a meaning of their own in a flow. -/
def isFlowIndicator (c : Char) : Bool := c ∈ [',', '[', ']', '{', '}']

/-- The characters with which a scalar without quotes does not begin. -/
def isIndicator (c : Char) : Bool :=
  isFlowIndicator c || c ∈ ['#', '&', '*', '!', '|', '>', '\'', '"', '%', '@', Char.ofNat 0x60]

/-- Whether a scalar without quotes begins here. -/
def startsPlain (context : Context) : List Char → Bool
  | [] => false
  | c :: rest =>
    if c = '-' then !endsWord rest
    else if c = ':' || c = '?' then context = .block && !endsWord rest
    else !(isBlank c || isBreak c || isIndicator c)

/-- A scalar that was read, where the text goes on, and whether a line ended after its last word. -/
structure Scanned where
  scalar : Scalar
  after : Cursor
  endsLine : Bool

/-- Reads the rest of a scalar without quotes, after `text` in reverse order and a gap.  In a block
its later lines have to begin in column `least` or further to the right. -/
def scanPlain (context : Context) (least : Nat) (text : List Char) (gap : Gap)
    (line column : Nat) : List Char → Option Scanned
  | [] => some ⟨⟨String.ofList text.reverse, true⟩, ⟨[], line, column⟩, gap.hasLine⟩
  | c :: rest =>
    let finished : Scanned :=
      ⟨⟨String.ofList text.reverse, true⟩, ⟨c :: rest, line, column⟩, gap.hasLine⟩
    if isBreak c then scanPlain context least text (gap.addLine c) (line + 1) 0 rest
    else if isBlank c then
      if c = '\t' && gap.hasLine && column < least then none
      else scanPlain context least text (gap.addBlank c) line (column + 1) rest
    else if gap.hasLine && ((context = .block && column < least) ||
        (column = 0 && isMarker (c :: rest))) then some finished
    else if c = '#' && !gap.isNone then some finished
    else if c = ':' && endsWord rest then some finished
    else if context = .flow && isFlowIndicator c then some finished
    else if context = .flow && c = ':' && rest.head?.any (fun d => isFlowIndicator d || d = '?') then
      none
    else scanPlain context least (c :: gap.fold text) .none line (column + 1) rest

/-- The character that a backslash and a letter stand for. -/
def unescape? (c : Char) : Option Char :=
  match c with
  | '0' => some (Char.ofNat 0)
  | 'a' => some (Char.ofNat 7)
  | 'b' => some (Char.ofNat 8)
  | 't' => some '\t'
  | '\t' => some '\t'
  | 'n' => some '\n'
  | 'v' => some (Char.ofNat 11)
  | 'f' => some (Char.ofNat 12)
  | 'r' => some '\r'
  | 'e' => some (Char.ofNat 27)
  | ' ' => some ' '
  | '"' => some '"'
  | '/' => some '/'
  | '\\' => some '\\'
  | 'N' => some (Char.ofNat 0x85)
  | '_' => some (Char.ofNat 0xA0)
  | 'L' => some (Char.ofNat 0x2028)
  | 'P' => some (Char.ofNat 0x2029)
  | _ => none

/-- How many digits of base 16 follow a backslash and a letter. -/
def escapeLength? (c : Char) : Option Nat :=
  match c with
  | 'x' => some 2
  | 'u' => some 4
  | 'U' => some 8
  | _ => none

/-- The character whose code point is given by digits of base 16, if there are `length` of them. -/
def unescapeCode? (length : Nat) (digits : List Char) : Option Char := do
  if digits.length ≠ length then none
  let values ← digits.mapM Json.hexValue?
  Text.scalar? (values.foldl (fun n d => 16 * n + d) 0)

/-- A scalar in quotes whose last character was read before `after`. -/
def quoted (text : List Char) (gap : Gap) (after : Cursor) : Scanned :=
  ⟨⟨String.ofList (gap.fold text).reverse, false⟩, after, false⟩

/-- Reads the rest of a scalar in single quotes. -/
def scanSingle (text : List Char) (gap : Gap) (line column : Nat) : List Char → Option Scanned
  | [] => none
  | c :: rest =>
    if isBreak c then scanSingle text (gap.addLine c) (line + 1) 0 rest
    else if isBlank c then scanSingle text (gap.addBlank c) line (column + 1) rest
    else if column = 0 && isMarker (c :: rest) then none
    else if c = '\'' then
      match rest with
      | '\'' :: rest => scanSingle ('\'' :: gap.fold text) .none line (column + 2) rest
      | rest => some (quoted text gap ⟨rest, line, column + 1⟩)
    else scanSingle (c :: gap.fold text) .none line (column + 1) rest

/-- Reads the rest of a scalar in double quotes. -/
def scanDouble (text : List Char) (gap : Gap) (line column : Nat) (cs : List Char) :
    Option Scanned :=
  match cs with
  | [] => none
  | '\\' :: c :: rest =>
    if isBreak c then scanDouble (gap.fold text) (.lines none []) (line + 1) 0 rest
    else
      match escapeLength? c with
      | some n =>
        match unescapeCode? n (rest.take n) with
        | some d => scanDouble (d :: gap.fold text) .none line (column + 2 + n) (rest.drop n)
        | none => none
      | none =>
        match unescape? c with
        | some d => scanDouble (d :: gap.fold text) .none line (column + 2) rest
        | none => none
  | c :: rest =>
    if isBreak c then scanDouble text (gap.addLine c) (line + 1) 0 rest
    else if isBlank c then scanDouble text (gap.addBlank c) line (column + 1) rest
    else if column = 0 && isMarker cs then none
    else if c = '"' then some (quoted text gap ⟨rest, line, column + 1⟩)
    else scanDouble (c :: gap.fold text) .none line (column + 1) rest
termination_by cs.length
decreasing_by all_goals simp <;> omega

/-- Reads the scalar that begins here. -/
def scanScalar (context : Context) (least : Nat) (c : Cursor) : Option Scanned :=
  match c.rest with
  | '\'' :: rest => scanSingle [] .none c.line (c.column + 1) rest
  | '"' :: rest => scanDouble [] .none c.line (c.column + 1) rest
  | rest =>
    if startsPlain context rest then scanPlain context least [] .none c.line c.column rest else none

end StructuralMatching.Yaml
