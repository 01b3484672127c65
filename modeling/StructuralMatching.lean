import StructuralMatching.Binary64.Text
import StructuralMatching.Text.Encoding
import StructuralMatching.Text.Quoted
import StructuralMatching.Value.Text
import StructuralMatching.Value.Explicit
import StructuralMatching.Value.Json
import StructuralMatching.SampleClasses
import StructuralMatching.Segment.Layout
import StructuralMatching.Pattern
import StructuralMatching.Matching
import StructuralMatching.Deferred
import StructuralMatching.Comprehension
import StructuralMatching.Rule.Condition
import StructuralMatching.Rule.Program
import StructuralMatching.Json.Parse
import StructuralMatching.Yaml.Parse
import StructuralMatching.Yaml.Resolution
import StructuralMatching.Config.Pattern
import StructuralMatching.Config.Document
import StructuralMatching.Fixture.Reading
import StructuralMatching.CommandLine
import StructuralMatching.Main
import StructuralMatching.Proofs.Matching.Sites
import StructuralMatching.Proofs.Dispatch.Scan
import StructuralMatching.Proofs.Dispatch.Awaiting
import StructuralMatching.Proofs.Dispatch.Account
import StructuralMatching.Proofs.Matching.Contract
import StructuralMatching.Proofs.Value.Equality
import StructuralMatching.Proofs.Matching.EqualValues
import StructuralMatching.Proofs.Matching.Reordering
import StructuralMatching.Proofs.Matching.Renaming
import StructuralMatching.Proofs.Matching.Generalization
import StructuralMatching.Proofs.Segment.Codec
import StructuralMatching.Proofs.Segment.Duality
import StructuralMatching.Proofs.Matching.Constants
import StructuralMatching.Proofs.Matching.Faithfulness
import StructuralMatching.Proofs.NestedLoops
import StructuralMatching.Proofs.Segment.Concatenation
import StructuralMatching.Proofs.Matching.Verdicts
import StructuralMatching.Proofs.Value.Json
import StructuralMatching.Proofs.Json.Written
import StructuralMatching.Proofs.Config.Writing
import StructuralMatching.Proofs.Matching.History
import StructuralMatching.Proofs.Clause.Filling
import StructuralMatching.Proofs.Segment.Integers
import StructuralMatching.Proofs.Matching.Spelling
import StructuralMatching.Proofs.Dispatch.Arities
import StructuralMatching.Proofs.Matching.KeyWalk
import StructuralMatching.Proofs.Segment.WideText
import StructuralMatching.Proofs.Clause.Parameters
import StructuralMatching.Proofs.Commands
import StructuralMatching.Proofs.Fixtures
import StructuralMatching.Proofs.Segment.Cursor
import StructuralMatching.Proofs.Segment.Widths
import StructuralMatching.Proofs.Trampolining
