/-
Dynamic values: what patterns are matched against.

* `Value` — scalars, lists, maps with string keys, byte sequences, and instances of classes;
* `Instance` — an instance: its identity, its class, and what a reading of its fields gives;
* `Occasion` — which of all readings one reading is;
* `Value.beq` — strict equality: kind and content agree, instances are one and the same.

Design notes: an instance may answer a reading with new instances, made for that reading and equal
to nothing that was there before.  So a reading is a function of its occasion, the identity of a
new instance mentions the occasion, and whoever reads twice does so on two occasions.  An occasion
is a position in the tree of all that happens: a step has its number appended to the position of
the activity it is a step of.
-/
import StructuralMatching.Binary64.Basic
import StructuralMatching.Fields

namespace StructuralMatching

/-- A position in the tree of all that happens, the innermost step first. -/
structure Occasion where
  path : List Nat
deriving DecidableEq, Repr

namespace Occasion

/-- The whole of what happens. -/
def start : Occasion := ⟨[]⟩

/-- The `i`-th step of an activity. -/
def step (o : Occasion) (i : Nat) : Occasion := ⟨i :: o.path⟩

end Occasion

/-- What makes an instance one and the same. -/
inductive Identity where
  /-- An instance made by whoever made the value that holds it. -/
  | given (n : Nat)
  /-- An instance made by a reading, as the content of a field. -/
  | made (o : Occasion) (field : String)
deriving DecidableEq, Repr

/-- A class.  Two classes may show the same name and still be different. -/
structure ClassTag where
  key : String
deriving DecidableEq, Repr

/-- An instance of a class. -/
structure Instance (V : Type) where
  identity : Identity
  tag : ClassTag
  className : String
  fields : Occasion → List (String × V)

/-- A dynamic value. -/
inductive Value where
  /-- No value at all. -/
  | undefined
  | null
  | bool (b : Bool)
  | int (n : Int64)
  | float (x : Binary64)
  | string (s : String)
  /-- A symbol, which stands for nothing but its name. -/
  | atom (name : String)
  | bytes (content : List UInt8)
  | list (items : List Value)
  | map (entries : List (String × Value))
  | object (i : Instance Value)

namespace Value

instance : Inhabited Value := ⟨undefined⟩

mutual

/-- Strict equality: the kinds agree, and scalars, lists and maps agree in content, instances in
identity. -/
def beq : Value → Value → Bool
  | undefined, undefined => true
  | null, null => true
  | bool a, bool b => a == b
  | int a, int b => a == b
  | float a, float b => a == b
  | string a, string b => a == b
  | atom a, atom b => a == b
  | bytes a, bytes b => a == b
  | list as, list bs => beqList as bs
  | map as, map bs => beqEntries as bs
  | object a, object b => a.identity == b.identity
  | _, _ => false
termination_by structural v => v

/-- Lists agree in length and item by item. -/
def beqList : List Value → List Value → Bool
  | [], [] => true
  | a :: as, b :: bs => beq a b && beqList as bs
  | _, _ => false
termination_by structural vs => vs

/-- Maps agree in keys and value by value. -/
def beqEntries : List (String × Value) → List (String × Value) → Bool
  | [], [] => true
  | (k, a) :: as, (l, b) :: bs => k == l && beq a b && beqEntries as bs
  | _, _ => false
termination_by structural es => es

end

instance : BEq Value := ⟨beq⟩

theorem beqList_eq (as bs : List Value) : beqList as bs = (as == bs) := by
  induction as generalizing bs with
  | nil => cases bs <;> rfl
  | cons a as ih =>
    cases bs with
    | nil => rfl
    | cons b bs => rw [beqList, ih, List.cons_beq_cons]; rfl

/-! ### Kinds -/

/-- The name of a value's kind; for an instance, the name that its class shows. -/
def typeName : Value → String
  | undefined => "undefined"
  | null => "null"
  | bool _ => "bool"
  | int _ => "int"
  | float _ => "float"
  | string _ => "string"
  | atom _ => "atom"
  | bytes _ => "bytes"
  | list _ => "list"
  | map _ => "map"
  | object i => i.className

def isUndefined : Value → Bool
  | undefined => true
  | _ => false

def isNull : Value → Bool
  | null => true
  | _ => false

def asString? : Value → Option String
  | string s => some s
  | _ => none

def asInt? : Value → Option Int64
  | int n => some n
  | _ => none

def asFloat? : Value → Option Binary64
  | float x => some x
  | _ => none

def asBool? : Value → Option Bool
  | bool b => some b
  | _ => none

def asAtom? : Value → Option String
  | atom name => some name
  | _ => none

def asBytes? : Value → Option (List UInt8)
  | bytes content => some content
  | _ => none

def asList? : Value → Option (List Value)
  | list items => some items
  | _ => none

def asMap? : Value → Option (List (String × Value))
  | map entries => some entries
  | _ => none

def asObject? : Value → Option (Instance Value)
  | object i => some i
  | _ => none

end Value

end StructuralMatching
