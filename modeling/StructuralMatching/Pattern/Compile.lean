/-
From patterns to matchers.

* `Pattern.compile` — the matcher of a pattern, or why it has none;
* `maxDepth` — how deeply patterns may be nested.

Design notes: nodes are visited in depth-first order, a node before the nodes below it, and the
depth of a node is looked at first.  So the error is that of the first node that has one.
-/
import StructuralMatching.Error
import StructuralMatching.Matcher
import StructuralMatching.Pattern

namespace StructuralMatching

/-- How deeply patterns may be nested; the outermost one has depth 1. -/
def maxDepth : Nat := 64

def checkDepth (depth : Nat) : Except PatternError Unit :=
  if depth ≤ maxDepth then .ok () else .error (.depthExceeded depth maxDepth)

mutual

/-- The matcher of a constant. -/
def compileLiteral (depth : Nat) (v : Value) : Except PatternError Matcher := do
  checkDepth depth
  match v with
  | .undefined => return .anything
  | .list items => return .list (← compileLiteralItems (depth + 1) items)
  | .map entries => return .map (← compileLiteralEntries (depth + 1) entries)
  | .object i => throw (.unsupportedLiteral i.className)
  | scalar => return .equalTo scalar
termination_by structural v

def compileLiteralItems (depth : Nat) : List Value → Except PatternError (List Matcher)
  | [] => return []
  | v :: vs => do
    let m ← compileLiteral depth v
    return m :: (← compileLiteralItems depth vs)
termination_by structural vs => vs

def compileLiteralEntries (depth : Nat) :
    List (String × Value) → Except PatternError (List (String × Matcher))
  | [] => return []
  | (key, v) :: entries => do
    let m ← compileLiteral depth v
    return (key, m) :: (← compileLiteralEntries depth entries)
termination_by structural entries => entries

end

namespace Pattern

/-- The matcher of a binding site. -/
def matcherOfVariable (v : Variable) : Matcher :=
  if v.isIgnored then .anything else .var v.bindingName?

mutual

/-- The matcher of a pattern at a depth. -/
def compileAt (depth : Nat) (p : Pattern) : Except PatternError Matcher := do
  checkDepth depth
  match p with
  | wildcard => return .anything
  | var v => return matcherOfVariable v
  | capture inner => return .capture (← compileAt (depth + 1) inner)
  | startsWith stem => return .startsWith stem
  | headTail head tail => do
    let h ← compileAt (depth + 1) head
    let t ← compileAt (depth + 1) tail
    return .headTail h t
  | bound v => return .equalTo v
  | instanceOf tag fields => return .instanceOf tag (← compileEntries (depth + 1) fields)
  | bitstring segments =>
    match layout segments with
    | .ok fields => return .bytes fields
    | .error (index, e) => throw (.segment index e)
  | literal v => compileLiteral depth v
  | list items => return .list (← compileItems (depth + 1) items)
  | map fields => return .map (← compileEntries (depth + 1) fields)
termination_by structural p

def compileItems (depth : Nat) : List Pattern → Except PatternError (List Matcher)
  | [] => return []
  | p :: ps => do
    let m ← compileAt depth p
    return m :: (← compileItems depth ps)
termination_by structural ps => ps

def compileEntries (depth : Nat) :
    List (String × Pattern) → Except PatternError (List (String × Matcher))
  | [] => return []
  | (key, p) :: entries => do
    let m ← compileAt depth p
    return (key, m) :: (← compileEntries depth entries)
termination_by structural entries => entries

end

/-- The matcher of a pattern. -/
def compile (p : Pattern) : Except PatternError Matcher := compileAt 1 p

end Pattern

end StructuralMatching
