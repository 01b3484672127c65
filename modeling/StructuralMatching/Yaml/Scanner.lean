/-
The tokens of a YAML text.

* `Token` — marks, brackets and scalars, with the beginnings and ends of blocks between them;
* `Scanner` — a place in a text and what was read before it;
* `tokens?` — the tokens of a text.

Design notes: a block begins where something begins further to the right than the block around it,
and ends where something begins to the left of it.  In a flow columns mean nothing.  That something
is a key is only known when its colon is found, which has to be on the same line; until then it is a
candidate.  The token that announces a key is then put in front of it.  In a block a key begins a
line or follows a mark that stands in the column of a key.
-/
import StructuralMatching.Yaml.Scalar

namespace StructuralMatching.Yaml

/-- A part of a text. -/
inductive Token where
  | documentStart
  | documentEnd
  | blockSequence
  | blockMapping
  /-- The end of the innermost block. -/
  | blockEnd
  | flowSequence
  | flowSequenceEnd
  | flowMapping
  | flowMappingEnd
  /-- The dash before an item. -/
  | item
  /-- The comma between the parts of a flow. -/
  | comma
  /-- What follows is a key. -/
  | key
  /-- What follows is the value of a key. -/
  | value
  | scalar (s : Scalar)
deriving DecidableEq, Repr

/-- How far to the right of its beginning the colon of a key may stand. -/
def maxKeyWidth : Nat := 1024

/-- What may turn out to be a key. -/
structure Candidate where
  /-- Whether nothing but a key may stand there. -/
  required : Bool
  /-- The number of tokens before it. -/
  position : Nat
  line : Nat
  column : Nat
deriving DecidableEq, Repr

/-- Whether it is too late for a candidate to be a key. -/
def Candidate.isStale (k : Candidate) (c : Cursor) : Bool :=
  k.line < c.line || k.column + maxKeyWidth < c.column

/-- A place in a text, and what was read before it. -/
structure Scanner where
  cursor : Cursor
  /-- The tokens, the last one first. -/
  tokens : List Token
  /-- The columns of the blocks, the innermost one first. -/
  columns : List Nat
  /-- The candidate in the innermost flow, or in the block if there is none. -/
  candidate : Option Candidate
  /-- The candidates in what is around that flow, the innermost one first. -/
  outer : List (Option Candidate)
  /-- Whether a key may begin here. -/
  keyAllowed : Bool

namespace Scanner

/-- The beginning of a text. -/
def start (c : Cursor) : Scanner := ⟨c, [], [], none, [], true⟩

def context (s : Scanner) : Context := if s.outer.isEmpty then .block else .flow

def advance (s : Scanner) (n : Nat) : Scanner := { s with cursor := s.cursor.advance n }

/-- One more token. -/
def emit (t : Token) (s : Scanner) : Scanner := { s with tokens := t :: s.tokens }

/-- One more token, after the first `position` ones. -/
def insert (position : Nat) (t : Token) (s : Scanner) : Scanner :=
  let later := s.tokens.length - position
  { s with tokens := s.tokens.take later ++ t :: s.tokens.drop later }

def allowKey (allowed : Bool) (s : Scanner) : Scanner := { s with keyAllowed := allowed }

/-- The next character that is neither blank nor part of a comment. -/
def skipGap (s : Scanner) : Scanner :=
  let c := s.cursor
  let (allowed, after) := skipGapFrom s.context s.keyAllowed false c.line c.column c.rest
  { s with cursor := after, keyAllowed := allowed }

/-! ### Blocks -/

/-- Begins a block at the token after the first `position` ones, if its column is to the right of the
block around it. -/
def openBlock (column position : Nat) (t : Token) (s : Scanner) : Scanner :=
  if s.context = .flow || s.columns.head?.any (column ≤ ·) then s
  else { s.insert position t with columns := column :: s.columns }

/-- Ends the blocks to the right of a column, or all of them. -/
def closeBlocks (column : Option Nat) (s : Scanner) : Scanner :=
  if s.context = .flow then s
  else
    let isClosed (k : Nat) : Bool := !column.any (k ≤ ·)
    let closed := s.columns.takeWhile isClosed
    { s with
      tokens := List.replicate closed.length .blockEnd ++ s.tokens
      columns := s.columns.dropWhile isClosed }

/-! ### Keys -/

/-- What is no candidate any longer; it must not be required. -/
def dropCandidate? (s : Scanner) : Option Scanner :=
  if s.candidate.any Candidate.required then none else some { s with candidate := none }

/-- Drops the candidates for which it is too late. -/
def dropStale? (s : Scanner) : Option Scanner :=
  let isStale (k : Option Candidate) : Bool := k.any (·.isStale s.cursor)
  let renew (k : Option Candidate) : Option Candidate := if isStale k then none else k
  if (s.candidate :: s.outer).any fun k => isStale k && k.any Candidate.required then none
  else some { s with candidate := renew s.candidate, outer := s.outer.map renew }

/-- Notes that what begins here may be a key.  In the column of its block nothing else may. -/
def addCandidate? (s : Scanner) : Option Scanner :=
  if s.keyAllowed then do
    let s ← s.dropCandidate?
    let c := s.cursor
    let required := s.context = .block && s.columns.head? == some c.column
    return { s with candidate := some ⟨required, s.tokens.length, c.line, c.column⟩ }
  else some s

/-! ### Tokens -/

/-- The mark of a document. -/
def scanMarker? (t : Token) (s : Scanner) : Option Scanner := do
  let s ← (s.closeBlocks none).dropCandidate?
  return ((s.allowKey false).advance 3).emit t

/-- A bracket that begins a flow. -/
def openFlow? (t : Token) (s : Scanner) : Option Scanner := do
  let s ← s.addCandidate?
  let s := { s with candidate := none, outer := s.candidate :: s.outer }
  return ((s.allowKey true).advance 1).emit t

/-- A bracket that ends a flow. -/
def closeFlow? (t : Token) (s : Scanner) : Option Scanner := do
  let s ← s.dropCandidate?
  let s := match s.outer with
    | [] => s
    | k :: outer => { s with candidate := k, outer := outer }
  return ((s.allowKey false).advance 1).emit t

/-- A comma. -/
def scanComma? (s : Scanner) : Option Scanner := do
  let s ← s.dropCandidate?
  return ((s.allowKey true).advance 1).emit .comma

/-- A dash, which stands where a key may begin. -/
def scanItem? (s : Scanner) : Option Scanner := do
  if s.context = .block && !s.keyAllowed then none
  let s ← (s.openBlock s.cursor.column s.tokens.length .blockSequence).dropCandidate?
  return ((s.allowKey true).advance 1).emit .item

/-- A question mark, which announces a key of any sort. -/
def scanKey? (s : Scanner) : Option Scanner := do
  if s.context = .block && !s.keyAllowed then none
  let s ← (s.openBlock s.cursor.column s.tokens.length .blockMapping).dropCandidate?
  return ((s.allowKey (s.context = .block)).advance 1).emit .key

/-- A colon: after a candidate, which is a key then, or where a key may begin. -/
def scanValue? (s : Scanner) : Option Scanner := do
  match s.candidate with
  | some k =>
    let s := (s.insert k.position .key).openBlock k.column k.position .blockMapping
    return (({ s with candidate := none }.allowKey false).advance 1).emit .value
  | none =>
    if s.context = .block && !s.keyAllowed then none
    let s := s.openBlock s.cursor.column s.tokens.length .blockMapping
    return ((s.allowKey (s.context = .block)).advance 1).emit .value

/-- A scalar.  Without quotes it may take line ends with it, and a key may begin after them. -/
def scanScalar? (s : Scanner) : Option Scanner := do
  let s ← s.addCandidate?
  let least := match s.columns with
    | [] => 0
    | column :: _ => column + 1
  let r ← scanScalar s.context least s.cursor
  return ({ s with cursor := r.after }.allowKey r.endsLine).emit (.scalar r.scalar)

/-- The token that begins here. -/
def scanToken? (s : Scanner) : Option Scanner :=
  let alone (rest : List Char) : Bool := s.context = .flow || endsWord rest
  if s.cursor.atMarker then
    s.scanMarker? (if s.cursor.rest.head? = some '-' then .documentStart else .documentEnd)
  else
    match s.cursor.rest with
    | [] => none
    | c :: rest =>
      if c = '[' then s.openFlow? .flowSequence
      else if c = '{' then s.openFlow? .flowMapping
      else if c = ']' then s.closeFlow? .flowSequenceEnd
      else if c = '}' then s.closeFlow? .flowMappingEnd
      else if c = ',' then s.scanComma?
      else if c = '-' && endsWord rest then s.scanItem?
      else if c = '?' && alone rest then s.scanKey?
      else if c = ':' && alone rest then s.scanValue?
      else s.scanScalar?

/-- Reads all tokens.  Every one of them takes at least one character. -/
def run? : Nat → Scanner → Option (List Token)
  | 0, _ => none
  | fuel + 1, s => do
    let s ← s.skipGap.dropStale?
    if s.cursor.rest.isEmpty then
      let s ← (s.closeBlocks none).dropCandidate?
      return s.tokens.reverse
    else (s.closeBlocks (some s.cursor.column)).scanToken?.bind (run? fuel)

end Scanner

/-- The tokens of a text. -/
def tokens? (cs : List Char) : Option (List Token) :=
  (Scanner.start ⟨cs, 0, 0⟩).run? (cs.length + 1)

end StructuralMatching.Yaml
