/-
Matchers: patterns made ready for use.

* `Matcher` — the kinds of matchers;
* `Matcher.attempt` — matches a value and adds what it binds to the bindings;
* `Matcher.bindingCount` — how many values a successful attempt adds;
* `Matcher.accepts`, `Matcher.bind?` — an attempt that starts without bindings.

Design notes: an attempt that fails answers the bindings made up to that point.  Every node of a
matcher reads at most one instance, on the occasion of that node; the nodes below it have the steps
of this occasion, so no two readings share one.
-/
import StructuralMatching.Segment.Layout

namespace StructuralMatching

/-- A pattern made ready for use. -/
inductive Matcher where
  /-- Any value; nothing is bound. -/
  | anything
  /-- Any value, bound by itself or under a name. -/
  | var (name : Option String)
  /-- A value equal to the given one. -/
  | equalTo (expected : Value)
  /-- A string that begins with `stem`; the rest is bound. -/
  | startsWith (stem : String)
  /-- What the inner matcher accepts; the whole value is bound last. -/
  | capture (inner : Matcher)
  /-- A list that is not empty, by its first item and the list of all others. -/
  | headTail (head tail : Matcher)
  /-- A list of the same length, item by item. -/
  | list (items : List Matcher)
  /-- A map or an instance with at least the given keys. -/
  | map (entries : List (String × Matcher))
  /-- An instance of the class with at least the given fields. -/
  | instanceOf (tag : ClassTag) (entries : List (String × Matcher))
  /-- A byte sequence, or the bytes of a string, cut along a layout. -/
  | bytes (layout : List Field)

namespace Matcher

/-- The bytes that a layout is compared with. -/
def contentOf? : Value → Option (List UInt8)
  | .bytes content => some content
  | .string s => some (Text.utf8 s)
  | _ => none

mutual

/-- Matches a value, adding what it binds to `out`. -/
def attempt (o : Occasion) : Matcher → Value → Bindings → Bool × Bindings
  | anything, _, out => (true, out)
  | var none, v, out => (true, out.push v)
  | var (some name), v, out => out.pushNamed name v
  | equalTo expected, v, out => (v == expected, out)
  | startsWith stem, v, out =>
    match v with
    | .string s =>
      match stem.toList.isPrefixOf? s.toList with
      | some rest => (true, out.push (.string (String.ofList rest)))
      | none => (false, out)
    | _ => (false, out)
  | capture inner, v, out =>
    match attempt (o.step 0) inner v out with
    | (true, out) => (true, out.push v)
    | (false, out) => (false, out)
  | headTail head tail, v, out =>
    match v with
    | .list (first :: rest) =>
      match attempt (o.step 0) head first out with
      | (true, out) => attempt (o.step 1) tail (.list rest) out
      | (false, out) => (false, out)
    | _ => (false, out)
  | list items, v, out =>
    match v with
    | .list vs => if vs.length = items.length then attemptItems o 0 items vs out else (false, out)
    | _ => (false, out)
  | map entries, v, out =>
    match v with
    | .map fields =>
      if entries.length ≤ fields.length then attemptEntries o 0 entries fields out
      else (false, out)
    | .object i =>
      if entries.length ≤ (i.fields o).length then attemptEntries o 0 entries (i.fields o) out
      else (false, out)
    | _ => (false, out)
  | instanceOf tag entries, v, out =>
    match v with
    | .object i =>
      if i.tag = tag ∧ entries.length ≤ (i.fields o).length then
        attemptEntries o 0 entries (i.fields o) out
      else (false, out)
    | _ => (false, out)
  | bytes layout, v, out =>
    match contentOf? v with
    | some content => Field.attemptAll layout content out
    | none => (false, out)
termination_by structural m => m

/-- Matches values one by one; the first of them is the `i`-th step. -/
def attemptItems (o : Occasion) (i : Nat) :
    List Matcher → List Value → Bindings → Bool × Bindings
  | m :: ms, v :: vs, out =>
    match attempt (o.step i) m v out with
    | (true, out) => attemptItems o (i + 1) ms vs out
    | (false, out) => (false, out)
  | _, _, out => (true, out)
termination_by structural ms => ms

/-- Matches the values under the given keys; the first of them is the `i`-th step. -/
def attemptEntries (o : Occasion) (i : Nat) :
    List (String × Matcher) → List (String × Value) → Bindings → Bool × Bindings
  | [], _, out => (true, out)
  | (key, m) :: entries, fields, out =>
    match fields.lookup key with
    | some v =>
      match attempt (o.step i) m v out with
      | (true, out) => attemptEntries o (i + 1) entries fields out
      | (false, out) => (false, out)
    | none => (false, out)
termination_by structural entries => entries

end

mutual

/-- How many values a successful attempt adds. -/
def bindingCount : Matcher → Nat
  | anything => 0
  | var _ => 1
  | equalTo _ => 0
  | startsWith _ => 1
  | capture inner => bindingCount inner + 1
  | headTail head tail => bindingCount head + bindingCount tail
  | list items => bindingCountItems items
  | map entries => bindingCountEntries entries
  | instanceOf _ entries => bindingCountEntries entries
  | bytes layout => Field.freeCount layout
termination_by structural m => m

def bindingCountItems : List Matcher → Nat
  | [] => 0
  | m :: ms => bindingCount m + bindingCountItems ms
termination_by structural ms => ms

def bindingCountEntries : List (String × Matcher) → Nat
  | [] => 0
  | (_, m) :: entries => bindingCount m + bindingCountEntries entries
termination_by structural entries => entries

end

/-- Whether a value matches. -/
def accepts (m : Matcher) (o : Occasion) (v : Value) : Bool := (attempt o m v .empty).1

/-- What a value that matches binds. -/
def bind? (m : Matcher) (o : Occasion) (v : Value) : Option (List Value) :=
  match attempt o m v .empty with
  | (true, out) => some out.values
  | (false, _) => none

end Matcher

end StructuralMatching
