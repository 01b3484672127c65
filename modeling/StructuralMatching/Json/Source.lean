/-
JSON texts, taken apart but not yet understood.

* `JsonSource` — a text by its parts: numbers by their digits, strings by their pieces;
* `JsonSource.nesting` — how deeply arrays and objects are nested;
* `JsonSource.toJson?` — the tree that a text means.

Design notes: a well-formed text may have parts that mean nothing, such as a number that is too
large or one half of a surrogate pair.  This does no harm as long as nobody looks at them, so
whoever passes over a part of a text goes by its source.
-/
import StructuralMatching.Json.Numeral
import StructuralMatching.Text.Encoding

namespace StructuralMatching

namespace JsonSource

/-- A piece of a string: a character, or an escaped unit of UTF-16. -/
inductive Piece where
  | char (c : Char)
  | unit (n : Nat)
deriving DecidableEq, Repr

namespace Piece

/-- The characters that pieces stand for, after `read` in reverse order; the halves of a surrogate
pair have to stand together. -/
def charsAfter? (read : List Char) : List Piece → Option (List Char)
  | [] => some read.reverse
  | .char c :: rest => charsAfter? (c :: read) rest
  | .unit n :: rest =>
    if Text.isHighSurrogate n then
      match rest with
      | .unit low :: rest =>
        match Text.charsOfUtf16? [n, low] with
        | some cs => charsAfter? (cs.reverse ++ read) rest
        | none => none
      | _ => none
    else
      match Text.scalar? n with
      | some c => charsAfter? (c :: read) rest
      | none => none

/-- The string that pieces stand for. -/
def text? (pieces : List Piece) : Option String := (charsAfter? [] pieces).map String.ofList

end Piece

end JsonSource

/-- A JSON text by its parts. -/
inductive JsonSource where
  | null
  | bool (b : Bool)
  | number (n : Numeral)
  | string (pieces : List JsonSource.Piece)
  | array (items : List JsonSource)
  | object (entries : List (List JsonSource.Piece × JsonSource))

namespace JsonSource

instance : Inhabited JsonSource := ⟨null⟩

mutual

/-- How deeply arrays and objects are nested. -/
def nesting : JsonSource → Nat
  | array items => nestingItems items + 1
  | object entries => nestingEntries entries + 1
  | _ => 0
termination_by structural s => s

def nestingItems : List JsonSource → Nat
  | [] => 0
  | s :: ss => max (nesting s) (nestingItems ss)
termination_by structural ss => ss

def nestingEntries : List (List Piece × JsonSource) → Nat
  | [] => 0
  | (_, s) :: entries => max (nesting s) (nestingEntries entries)
termination_by structural entries => entries

end

mutual

/-- The tree that a text means. -/
def toJson? : JsonSource → Option Json
  | null => some .null
  | bool b => some (.bool b)
  | number n => n.toJson?
  | string pieces => (Piece.text? pieces).map .string
  | array items => (toJsonItems? items).map .array
  | object entries => (toJsonEntries? entries).map .object
termination_by structural s => s

def toJsonItems? : List JsonSource → Option (List Json)
  | [] => some []
  | s :: ss => do
    let j ← toJson? s
    return j :: (← toJsonItems? ss)
termination_by structural ss => ss

def toJsonEntries? : List (List Piece × JsonSource) → Option (List (String × Json))
  | [] => some []
  | (key, s) :: entries => do
    let key ← Piece.text? key
    let j ← toJson? s
    return (key, j) :: (← toJsonEntries? entries)
termination_by structural entries => entries

end

end JsonSource

end StructuralMatching
