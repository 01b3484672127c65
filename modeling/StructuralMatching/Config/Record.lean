/-
Records in structured documents.

* `fieldsAt?` — the fields of a record whose entries are for certain places;
* `namedFields?` — the fields of a record whose entries have names;
* `positionalFields` — the fields of a record that is written as a list;
* `optional?` — a field that may be left out.

Design notes: a record has declared fields in a declared order.  It may have further entries, which
mean nothing; as a list it may end early, but must not go on too long.  In all cases the answer has
one place for every declared field, which is empty if the field is missing.
-/
import StructuralMatching.Json.Basic

namespace StructuralMatching.Config

variable {α β : Type}

/-- The fields for the first `count` places among entries of which each is for one place or none; no
place may be filled twice. -/
def fieldsAt? (count : Nat) (entries : List (Option Nat × α)) : Option (List (Option α)) :=
  (List.range count).mapM fun i =>
    match entries.filter (·.1 == some i) with
    | [] => some none
    | [entry] => some (some entry.2)
    | _ => none

/-- The declared fields among the entries of an object; none of them may occur twice. -/
def namedFields? (names : List String) (entries : List (String × α)) : Option (List (Option α)) :=
  fieldsAt? names.length (entries.map fun e => (names.idxOf? e.1, e.2))

/-- The declared fields as the items of a list. -/
def positionalFields (names : List String) (items : List α) : Option (List (Option α)) :=
  if items.length ≤ names.length then
    some (items.map some ++ List.replicate (names.length - items.length) none)
  else none

/-- A field that may be left out, or be absent by its content. -/
def optional? (isAbsent : α → Bool) (read : α → Option β) : Option α → Option (Option β)
  | none => some none
  | some a => if isAbsent a then some none else (read a).map some

/-- A field that may not be left out. -/
def required? (read : α → Option β) (field : Option α) : Option β := field.bind read

/-- A field that has a default if it is left out. -/
def withDefault? (default : β) (read : α → Option β) : Option α → Option β
  | none => some default
  | some a => read a

end StructuralMatching.Config
