/-
What is said about a recorded case that fails.

* `failureText` — a message, with two values around it if they were expected to be equal.
-/
namespace StructuralMatching

/-- The text of a failure.  Two values that were expected to be equal are shown on lines of their
own, the one that was found and the one that was expected. -/
def failureText (message : String) : Option (String × String) → String
  | none => message
  | some (left, right) =>
    s!"assertion `left == right` failed: {message}\n  left: {left}\n right: {right}"

end StructuralMatching
