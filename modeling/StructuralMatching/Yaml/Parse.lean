/-
Reading YAML text.

* `Yaml.documents?` — the trees of the documents of a text, if it is well-formed;
* `Yaml.parse?` — the tree of a text that holds exactly one document.

Design notes: a text may hold block and flow collections, scalars with and without quotes, comments
and the marks of documents.  Anchors, tags, directives and long text blocks are not read.  The text
is cut into tokens first, and trees are made of these.  Readers get the tokens that are left and
answer those after what they read.  The number of steps is bounded by a multiple of the number of
tokens, for a step that takes none is followed by one that does.
-/
import StructuralMatching.Yaml.Scanner

namespace StructuralMatching.Yaml

mutual

/-- Reads a node.  Within a flow there are no blocks. -/
def parseNode (context : Context) : Nat → List Token → Option (Yaml × List Token)
  | 0, _ => none
  | fuel + 1, tokens =>
    match tokens with
    | .scalar s :: rest => some (scalar s, rest)
    | .flowSequence :: .flowSequenceEnd :: rest => some (sequence [], rest)
    | .flowSequence :: rest =>
      (parseFlowItems fuel rest).map fun (items, rest) => (sequence items, rest)
    | .flowMapping :: .flowMappingEnd :: rest => some (mapping [], rest)
    | .flowMapping :: rest =>
      (parseFlowEntries fuel rest).map fun (entries, rest) => (mapping entries, rest)
    | .blockSequence :: rest =>
      if context = .block then
        (parseItems fuel rest).map fun (items, rest) => (sequence items, rest)
      else none
    | .blockMapping :: rest =>
      if context = .block then
        (parseEntries fuel rest).map fun (entries, rest) => (mapping entries, rest)
      else none
    | _ => none

/-- Reads the items of a block up to its end. -/
def parseItems : Nat → List Token → Option (List Yaml × List Token)
  | 0, _ => none
  | fuel + 1, tokens =>
    match tokens with
    | .blockEnd :: rest => some ([], rest)
    | .item :: rest => do
      let (node, rest) ← match rest with
        | .item :: _ | .blockEnd :: _ => some (Yaml.empty, rest)
        | _ => parseNode .block fuel rest
      let (items, rest) ← parseItems fuel rest
      return (node :: items, rest)
    | _ => none

/-- Reads items that stand in the column of a key, and so make no block of their own. -/
def parseLooseItems : Nat → List Token → Option (List Yaml × List Token)
  | 0, _ => none
  | fuel + 1, tokens =>
    match tokens with
    | .item :: rest => do
      let (node, rest) ← match rest with
        | .item :: _ | .key :: _ | .value :: _ | .blockEnd :: _ => some (Yaml.empty, rest)
        | _ => parseNode .block fuel rest
      let (items, rest) ← parseLooseItems fuel rest
      return (node :: items, rest)
    | _ => some ([], tokens)

/-- Reads the entries of a block up to its end. -/
def parseEntries : Nat → List Token → Option (List (Yaml × Yaml) × List Token)
  | 0, _ => none
  | fuel + 1, tokens =>
    match tokens with
    | .blockEnd :: rest => some ([], rest)
    | .key :: rest => do
      let (key, rest) ← parsePart fuel rest
      let (node, rest) ← match rest with
        | .value :: rest => parsePart fuel rest
        | _ => some (Yaml.empty, rest)
      let (entries, rest) ← parseEntries fuel rest
      return ((key, node) :: entries, rest)
    | _ => none

/-- Reads a key or a value in a block; it may be left out. -/
def parsePart : Nat → List Token → Option (Yaml × List Token)
  | 0, _ => none
  | fuel + 1, tokens =>
    match tokens with
    | .key :: _ | .value :: _ | .blockEnd :: _ => some (Yaml.empty, tokens)
    | .item :: _ => (parseLooseItems fuel tokens).map fun (items, rest) => (sequence items, rest)
    | _ => parseNode .block fuel tokens

/-- Reads the items of a flow up to its bracket.  An entry counts as a mapping of its own; if its key
is left out, the mark in its place is passed over. -/
def parseFlowItems : Nat → List Token → Option (List Yaml × List Token)
  | 0, _ => none
  | fuel + 1, tokens => do
    let (node, rest) ← match tokens with
      | .key :: rest => do
        let (key, rest) ← match rest with
          | .value :: rest | .comma :: rest | .flowSequenceEnd :: rest => some (Yaml.empty, rest)
          | _ => parseNode .flow fuel rest
        let (node, rest) ← parseFlowValue fuel rest
        pure (mapping [(key, node)], rest)
      | _ => parseNode .flow fuel tokens
    match rest with
    | .flowSequenceEnd :: rest | .comma :: .flowSequenceEnd :: rest => return ([node], rest)
    | .comma :: rest =>
      let (items, rest) ← parseFlowItems fuel rest
      return (node :: items, rest)
    | _ => none

/-- Reads the entries of a flow up to its brace. -/
def parseFlowEntries : Nat → List Token → Option (List (Yaml × Yaml) × List Token)
  | 0, _ => none
  | fuel + 1, tokens => do
    let (entry, rest) ← match tokens with
      | .key :: rest => do
        let (key, rest) ← match rest with
          | .value :: _ | .comma :: _ | .flowMappingEnd :: _ => some (Yaml.empty, rest)
          | _ => parseNode .flow fuel rest
        let (node, rest) ← parseFlowValue fuel rest
        pure ((key, node), rest)
      | _ => do
        let (key, rest) ← parseNode .flow fuel tokens
        pure ((key, Yaml.empty), rest)
    match rest with
    | .flowMappingEnd :: rest | .comma :: .flowMappingEnd :: rest => return ([entry], rest)
    | .comma :: rest =>
      let (entries, rest) ← parseFlowEntries fuel rest
      return (entry :: entries, rest)
    | _ => none

/-- Reads the value of a key in a flow; it may be left out. -/
def parseFlowValue : Nat → List Token → Option (Yaml × List Token)
  | 0, _ => none
  | fuel + 1, tokens =>
    match tokens with
    | .value :: rest =>
      match rest with
      | .comma :: _ | .flowSequenceEnd :: _ | .flowMappingEnd :: _ => some (Yaml.empty, rest)
      | _ => parseNode .flow fuel rest
    | _ => some (Yaml.empty, tokens)

end

/-- Reads the documents after the first one; each of them begins with a mark. -/
def parseDocuments (size : Nat) : Nat → List Token → Option (List Yaml)
  | 0, _ => none
  | fuel + 1, tokens =>
    match tokens with
    | [] => some []
    | .documentEnd :: rest => parseDocuments size fuel rest
    | .documentStart :: rest => do
      let (node, rest) ← match rest with
        | [] | .documentStart :: _ | .documentEnd :: _ => some (Yaml.empty, rest)
        | _ => parseNode .block size rest
      return node :: (← parseDocuments size fuel rest)
    | _ => none

/-- Reads all documents.  The first one needs no mark, and without any there is an empty one. -/
def parseStream (tokens : List Token) : Option (List Yaml) := do
  let size := 2 * (tokens.length + 1)
  match tokens with
  | [] => return [Yaml.empty]
  | .documentStart :: _ => parseDocuments size (tokens.length + 1) tokens
  | _ =>
    let (node, rest) ← parseNode .block size tokens
    return node :: (← parseDocuments size (tokens.length + 1) rest)

/-- Whether a character may stand in a text. -/
def isAllowed (c : Char) : Bool :=
  c ∈ ['\t', '\n', '\r', Char.ofNat 0x85] || (0x20 ≤ c.toNat && c.toNat < 0x7F) ||
    (0xA0 ≤ c.toNat && c.toNat ≠ 0xFFFE && c.toNat ≠ 0xFFFF)

/-- A text with one and the same character at the end of every line. -/
def unifyLines : List Char → List Char
  | [] => []
  | '\r' :: '\n' :: cs => '\n' :: unifyLines cs
  | c :: cs => (if c = '\r' || c.toNat = 0x85 then '\n' else c) :: unifyLines cs

/-- The tokens of a text, if all its characters may stand there. -/
def tokensOfText? (text : String) : Option (List Token) :=
  let cs := text.toList
  if cs.all isAllowed then tokens? (unifyLines cs) else none

/-- The trees of the documents of a text. -/
def documents? (text : String) : Option (List Yaml) := (tokensOfText? text).bind parseStream

/-- The tree of a text that holds one document. -/
def parse? (text : String) : Option Yaml :=
  match documents? text with
  | some [tree] => some tree
  | _ => none

end StructuralMatching.Yaml
