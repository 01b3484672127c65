/-
The command line: checking a pattern file, and matching a value against it.

* `TextFormats` — how texts are read as trees, and how trees are written as texts;
* `CommandLine.answer` — what the program answers to its arguments, with any such formats;
* `CommandLine.loadPattern` — the matcher that the text of a pattern file leads to;
* `CommandFailure.message` — what is said when a command comes to nothing;
* `CommandLine.run` — the answer with the readers and the writer of this library.

Design notes: files are read by an action in any monad, so the answer can be computed for given
files as well as for those of a system.  A pattern file is looked at before any argument after it.
What is said about a text that cannot be read is said by its reader, and is passed on as it is.
-/
import StructuralMatching.Config.Pattern
import StructuralMatching.Json.Parse
import StructuralMatching.Pattern.Compile
import StructuralMatching.Yaml.Parse
import StructuralMatching.Yaml.Resolution

namespace StructuralMatching

/-- Why a file cannot be read as text. -/
inductive ReadFailure where
  | notFound
  | denied
  | isDirectory
  | notText
  | other (reason : String)
deriving DecidableEq, Repr

def ReadFailure.message : ReadFailure → String
  | notFound => "No such file or directory (os error 2)"
  | denied => "Permission denied (os error 13)"
  | isDirectory => "Is a directory (os error 21)"
  | notText => "stream did not contain valid UTF-8"
  | other reason => reason

/-- Why a command comes to nothing. -/
inductive CommandFailure where
  | noPath (command : String)
  | unreadable (path : String) (why : ReadFailure)
  | badJson (why : String)
  | badYaml (why : String)
  | malformed (e : PatternError)
  | noValue
  | noValueText
  | badValue (why : String)
  | unexpectedArgument (arg : String)
deriving DecidableEq, Repr

def CommandFailure.message : CommandFailure → String
  | noPath command => s!"{command} requires a pattern file path"
  | unreadable path why => s!"failed to read \"{path}\": {why.message}"
  | badJson why => s!"JSON parse error: {why}"
  | badYaml why => s!"YAML parse error: {why}"
  | malformed e => s!"pattern invalid: {e.message}"
  | noValue => "match requires --value <json>"
  | noValueText => "--value requires a JSON argument"
  | badValue why => s!"invalid --value JSON: {why}"
  | unexpectedArgument arg => s!"unexpected argument \"{arg}\""

/-- What a program ends with. -/
structure Outcome where
  exitCode : UInt32
  stdout : String
  stderr : String
deriving DecidableEq, Repr

/-! ### Texts and trees -/

/-- A reader of trees in which patterns are described. -/
structure DescriptionReader where
  /-- The tree of a text, or what is said about a text that has none. -/
  read : String → Except String Description
  /-- What is said about a text whose tree describes no pattern. -/
  complaint : String → String

/-- The pattern that a text describes, or what is said about the text. -/
def DescriptionReader.pattern (r : DescriptionReader) (text : String) : Except String Pattern :=
  match r.read text with
  | .error why => .error why
  | .ok tree =>
    match Pattern.ofDescription? tree with
    | some p => .ok p
    | none => .error (r.complaint text)

/-- How texts are read as trees, and how trees are written as texts. -/
structure TextFormats where
  json : DescriptionReader
  yaml : DescriptionReader
  /-- The tree of a JSON text, or what is said about a text that has none. -/
  value : String → Except String Json
  /-- The JSON text of a tree. -/
  write : Json → String

/-- The description in a YAML text. -/
def descriptionOfYaml? (text : String) : Option Description := do
  let tree ← Yaml.parse? text
  if tree.nesting ≤ Yaml.maxNesting then tree.describe? else none

namespace TextFormats

/-- A result, or words in place of it. -/
def orSay {α : Type} (why : String) : Option α → Except String α
  | some a => .ok a
  | none => .error why

/-- The readers of this library, which say no more than that a text is of no use, and its writer. -/
def plain : TextFormats where
  json := ⟨fun text => orSay "not a tree" ((Json.parse? text).map Json.describe),
    fun _ => "not a pattern"⟩
  yaml := ⟨fun text => orSay "not a tree" (descriptionOfYaml? text), fun _ => "not a pattern"⟩
  value text := orSay "not a tree" (Json.parse? text)
  write := Json.render

end TextFormats

namespace CommandLine

/-- How to use the program. -/
def usage : String :=
  String.join ([
    "Usage: clausal <command> [options]",
    "",
    "Commands:",
    "  match <pattern> --value <json>   Match a JSON value against a pattern config",
    "  check <pattern>                  Validate a pattern config",
    "  help                             Show this help",
    "",
    "Pattern configs are YAML, or JSON when the file ends in .json.",
    "Set RUST_LOG=debug to log each value as it is matched (stderr)."].map (· ++ "\n"))

/-- Whether the name of a file says that it holds JSON: it ends in a point and the word, and
something stands before the point. -/
def namesJson (path : String) : Bool :=
  match ((path.toList.splitOn '/').filter fun part => part ≠ [] && part ≠ ['.']).getLast? with
  | none => false
  | some name =>
    let reversed := name.reverse
    let extension := (reversed.takeWhile (· ≠ '.')).reverse
    let stem := reversed.dropWhile (· ≠ '.')
    1 < stem.length && String.ofList (extension.map Char.toLower) == "json"

variable (F : TextFormats)

/-- The pattern that the text of a file describes. -/
def patternOfText (isJson : Bool) (text : String) : Except CommandFailure Pattern :=
  if isJson then (F.json.pattern text).mapError .badJson
  else (F.yaml.pattern text).mapError .badYaml

/-- The matcher of a pattern file, by its path and its text. -/
def loadPattern (path : String) : Except ReadFailure String → Except CommandFailure Matcher
  | .error why => .error (.unreadable path why)
  | .ok text =>
    match patternOfText F (namesJson path) text with
    | .error e => .error e
    | .ok p =>
      match p.compile with
      | .error e => .error (.malformed e)
      | .ok m => .ok m

/-- The value that the arguments after the path give. -/
def valueOfArgs : List String → Except CommandFailure Value
  | [] => .error .noValue
  | ["--value"] => .error .noValueText
  | ["--value", text] =>
    match F.value text with
    | .ok j => .ok (.ofJson j)
    | .error why => .error (.badValue why)
  | arg :: _ => .error (.unexpectedArgument arg)

/-- What a value binds, as a line of text. -/
def showMatch (m : Matcher) (v : Value) : String :=
  match m.bind? .start v with
  | some bindings => F.write (.array (bindings.map (Value.toJson .start)))
  | none => "(no match)"

/-- What is said about a pattern that binds `n` values. -/
def validLine (n : Nat) : String :=
  let plural := if n = 1 then "" else "s"
  s!"Pattern valid ({n} binding{plural})"

/-- How many values a pattern binds, as a line of text. -/
def showCheck (m : Matcher) : String := validLine m.bindingCount

/-- A line of output, or an error. -/
def outcomeOf : Except CommandFailure String → Outcome
  | .ok line => ⟨0, line ++ "\n", ""⟩
  | .error e => ⟨1, "", s!"error: {e.message}\n"⟩

variable {m : Type → Type} [Monad m]

/-- Goes on with the matcher of a pattern file, whose path is the first argument. -/
def withPattern (read : String → m (Except ReadFailure String)) (command : String)
    (use : Matcher → List String → Except CommandFailure String) :
    List String → m Outcome
  | [] => return outcomeOf (.error (.noPath command))
  | path :: args => do
    let text ← read path
    return outcomeOf ((loadPattern F path text).bind fun c => use c args)

/-- What the program answers to its arguments. -/
def answer (read : String → m (Except ReadFailure String)) : List String → m Outcome
  | [] => return ⟨1, "", usage⟩
  | command :: args =>
    match command with
    | "match" =>
      withPattern F read command (fun c rest => (valueOfArgs F rest).map (showMatch F c)) args
    | "check" => withPattern F read command (fun c _ => .ok (showCheck c)) args
    | "help" | "--help" | "-h" => return ⟨0, "", usage⟩
    | _ => return ⟨1, "", s!"error: unknown command \"{command}\"\n" ++ usage⟩

/-- The answer with the readers and the writer of this library. -/
def run (read : String → m (Except ReadFailure String)) (args : List String) : m Outcome :=
  answer .plain read args

end CommandLine

end StructuralMatching
