/-
Four classes of instances.

* `Point`, `Circle` — figures in the plane; every reading of a circle makes its center anew;
* `Instance.bag`, `Instance.twin` — two classes with any fields whatever, which show one name.
-/
import StructuralMatching.Value.Basic

namespace StructuralMatching

/-- A point in the plane. -/
structure Point where
  x : Int64
  y : Int64

/-- A circle in the plane. -/
structure Circle where
  center : Point
  radius : Binary64

namespace ClassTag

def point : ClassTag := ⟨"Point"⟩

def circle : ClassTag := ⟨"Circle"⟩

def bag : ClassTag := ⟨"Bag"⟩

def twin : ClassTag := ⟨"Twin"⟩

/-- The four classes. -/
def samples : List ClassTag := [point, circle, bag, twin]

end ClassTag

namespace Instance

def point (identity : Identity) (p : Point) : Instance Value :=
  ⟨identity, .point, "Point", fun _ => [("x", .int p.x), ("y", .int p.y)]⟩

def circle (identity : Identity) (c : Circle) : Instance Value :=
  ⟨identity, .circle, "Circle", fun o =>
    [("center", .object (point (.made o "center") c.center)), ("radius", .float c.radius)]⟩

def bag (identity : Identity) (fields : List (String × Value)) : Instance Value :=
  ⟨identity, .bag, "Bag", fun _ => fields⟩

def twin (identity : Identity) (fields : List (String × Value)) : Instance Value :=
  ⟨identity, .twin, "Bag", fun _ => fields⟩

end Instance

end StructuralMatching
