/-
Reading recorded cases.

* `PatternFixture.read?`, `DispatchFixture.read?` — the fixture of a node of a document;
* `fixturesOfJson?`, `fixturesOfYaml?` — the fixtures of a text: one in JSON, one for every document
  in YAML.
-/
import StructuralMatching.Config.Document
import StructuralMatching.Fixture.Dispatch
import StructuralMatching.Fixture.Pattern
import StructuralMatching.Yaml.Parse

namespace StructuralMatching

variable {D : Type} [Document D]

open Config Document

/-- A list of nodes, each of which is read in the same way. -/
def readList? {α : Type} (read : D → Option α) (d : D) : Option (List α) :=
  (items? d).bind fun ds => ds.mapM read

/-- A byte. -/
def readByte? (d : D) : Option UInt8 :=
  match natural? d with
  | some n => if n < 256 then some (UInt8.ofNat n) else none
  | none => none

/-- The pattern that a node describes. -/
def readPattern? (d : D) : Option Pattern := (description? d).bind Pattern.ofDescription?

/-- The error of a name. -/
def MatchErrorKind.read? (d : D) : Option MatchErrorKind :=
  match choice? d with
  | some "no_match" => some .noMatch
  | some "arity_not_found" => some .arityNotFound
  | _ => none

/-- The case of a node.  The field that comes last may be left out only under its name. -/
def PatternCase.read? (d : D) : Option PatternCase := do
  let record ← record? d
  if !record.hasAll 4 then none
  match ← record.fields? ["name", "value", "bytes", "expect"] with
  | [name, value, bytes, expect] =>
    let name ← required? text? name
    let value ← withDefault? .null data? value
    let bytes ← optional? isAbsent (readList? readByte?) bytes
    let expect ← optional? isAbsent (readList? data?) expect
    return ⟨name, value, bytes, expect⟩
  | _ => none

/-- The fixture of a node. -/
def PatternFixture.read? (d : D) : Option PatternFixture := do
  match ← (← record? d).fields? ["name", "description", "pattern", "cases", "expect_error"] with
  | [name, description, pattern, cases, expectsError] =>
    let name ← required? text? name
    let description ← withDefault? "" text? description
    let pattern ← required? data? pattern
    let cases ← withDefault? [] (readList? PatternCase.read?) cases
    let expectsError ← withDefault? false flag? expectsError
    return ⟨name, description, pattern.normalize, cases, expectsError⟩
  | _ => none

/-- The parameters of a clause. -/
def DispatchFixture.readParams? (d : D) : Option (List Pattern) := do
  match ← (← record? d).fields? ["params"] with
  | [params] => required? (readList? readPattern?) params
  | _ => none

/-- The case of a node. -/
def DispatchCase.read? (d : D) : Option DispatchCase := do
  match ← (← record? d).fields? ["name", "args", "clause", "bindings", "error"] with
  | [name, args, clause, bindings, error] =>
    let name ← required? text? name
    let args ← required? (readList? data?) args
    let clause ← optional? isAbsent natural? clause
    let bindings ← optional? isAbsent (readList? data?) bindings
    let error ← optional? isAbsent MatchErrorKind.read? error
    return ⟨name, args, clause, bindings, error⟩
  | _ => none

/-- The fixture of a node. -/
def DispatchFixture.read? (d : D) : Option DispatchFixture := do
  match ← (← record? d).fields? ["name", "description", "clauses", "cases"] with
  | [name, description, clauses, cases] =>
    let name ← required? text? name
    let description ← withDefault? "" text? description
    let clauses ← required? (readList? readParams?) clauses
    let cases ← withDefault? [] (readList? DispatchCase.read?) cases
    return ⟨name, description, clauses, cases⟩
  | _ => none

/-- The fixture of a JSON text. -/
def fixturesOfJson? {α : Type} (read : Node JsonSource → Option α) (text : String) :
    Option (List α) := do
  return [← read ⟨← JsonSource.parse? text, Json.maxNesting⟩]

/-- The fixtures of the documents of a YAML text. -/
def fixturesOfYaml? {α : Type} (read : Node Yaml → Option α) (text : String) :
    Option (List α) := do
  (← Yaml.documents? text).mapM fun tree => read ⟨tree, Yaml.maxNesting⟩

end StructuralMatching
