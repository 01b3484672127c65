/-
Less said at one place.

If a part of a pattern is replaced by one that accepts any value and binds nothing, then all values
that matched still do, and what that part bound is the only thing missing.  This is so even if the
part held the first site of a name: the others agree with each other as they agreed with it.

* `Pattern.Context` — a pattern with a hole in it: a place that is reached through the parts of
  other patterns;
* `Pattern.Context.focus?` — what the pattern in the hole is matched with;
* `Pattern.Context.Surrounds` — the sites before the hole and those after it, whatever is in it;
* `Pattern.Context.replaceable_of_compileAt_fill` — what is in the hole can be replaced;
* `Pattern.Context.bind?_generalized` — less said at one place.

Design notes: the sites around the hole do not depend on what is in it, and neither does the part
of the value that is met there.  So the replacement is read off one equation.
-/
import StructuralMatching.Proofs.Matching.Likeness

namespace StructuralMatching

namespace Pattern

/-! ### Sites side by side -/

/-- Sites that stand side by side do so in any grouping. -/
theorem andThen_assoc (plan more rest : Option (List Site)) :
    (plan.bind fun a => (more.bind fun b => rest.map fun c => b ++ c).map fun bc => a ++ bc) =
      (plan.bind fun a => more.map fun b => a ++ b).bind fun ab => rest.map fun c => ab ++ c := by
  cases plan with
  | none => rfl
  | some a =>
    cases more with
    | none => rfl
    | some b =>
      cases rest with
      | none => rfl
      | some c => exact congrArg some (List.append_assoc a b c).symm

theorem itemSites?_append {ps : List Pattern} {us : List Value} (hlen : us.length = ps.length)
    (o : Occasion) (i : Nat) (qs : List Pattern) (ws : List Value) :
    itemSites? o i (ps ++ qs) (us ++ ws) = (itemSites? o i ps us).bind fun sites =>
      (itemSites? o (i + ps.length) qs ws).map fun more => sites ++ more := by
  induction ps generalizing i us with
  | nil =>
    obtain rfl := List.length_eq_zero_iff.mp hlen
    simp [itemSites?]
  | cons p ps ih =>
    cases us with
    | nil => cases hlen
    | cons u us =>
      have hstep : i + (p :: ps).length = i + 1 + ps.length := by
        rw [List.length_cons]
        omega
      rw [List.cons_append, List.cons_append, itemSites?, itemSites?, ih (Nat.succ.inj hlen), hstep]
      exact andThen_assoc _ _ _

theorem entrySites?_append (o : Occasion) (i : Nat) (entries others : List (String × Pattern))
    (found : List (String × Value)) :
    entrySites? o i (entries ++ others) found = (entrySites? o i entries found).bind fun sites =>
      (entrySites? o (i + entries.length) others found).map fun more => sites ++ more := by
  induction entries generalizing i with
  | nil => simp [entrySites?]
  | cons entry rest ih =>
    obtain ⟨key, p⟩ := entry
    have hstep : i + ((key, p) :: rest).length = i + 1 + rest.length := by
      rw [List.length_cons]
      omega
    rw [List.cons_append, entrySites?, entrySites?, ih, hstep]
    cases found.lookup key with
    | none => rfl
    | some w => exact andThen_assoc _ _ _

theorem length_itemSites? {ps : List Pattern} {o : Occasion} {vs : List Value} {sites : List Site}
    (h : itemSites? o 0 ps vs = some sites) : sites.length = siteCountItems ps :=
  length_sites? (p := list ps) (v := .list vs) h

theorem length_entrySites? {entries : List (String × Pattern)} {o : Occasion}
    {found : List (String × Value)} {sites : List Site}
    (h : entrySites? o 0 entries found = some sites) : sites.length = siteCountEntries entries :=
  length_sites? (p := map entries) (v := .map found) h

/-- The plan of a part between those of its neighbours on either side. -/
theorem bind_map_of_some (left right : List Site) (plan : Option (List Site)) :
    ((some left).bind fun first => (plan.bind fun sites => (some right).map fun more =>
      sites ++ more).map fun rest => first ++ rest) =
      plan.map fun sites => left ++ sites ++ right := by
  cases plan with
  | none => rfl
  | some sites => exact congrArg some (List.append_assoc left sites right).symm

/-- The sites on either side of one of the items do not depend on it. -/
theorem exists_itemSites?_middle {before after : List Pattern} {p : Pattern} {o : Occasion}
    {vs : List Value} {sites : List Site}
    (h : itemSites? o 0 (before ++ p :: after) vs = some sites) :
    ∃ w left right, vs[before.length]? = some w ∧ left.length = siteCountItems before ∧
      (p.sites? (o.step before.length) w).isSome = true ∧
      ∀ q, itemSites? o 0 (before ++ q :: after) vs =
        (q.sites? (o.step before.length) w).map fun sites => left ++ sites ++ right := by
  have hlen : before.length < vs.length := by
    rw [length_of_itemSites? h, List.length_append, List.length_cons]
    omega
  have htake : (vs.take before.length).length = before.length := by
    rw [List.length_take]
    omega
  have hsplit : vs = vs.take before.length ++ vs[before.length] :: vs.drop (before.length + 1) := by
    rw [← List.drop_eq_getElem_cons hlen, List.take_append_drop]
  have hplan : ∀ q, itemSites? o 0 (before ++ q :: after) vs =
      (itemSites? o 0 before (vs.take before.length)).bind fun first =>
        ((q.sites? (o.step before.length) vs[before.length]).bind fun sites =>
          (itemSites? o (before.length + 1) after (vs.drop (before.length + 1))).map fun more =>
            sites ++ more).map fun rest => first ++ rest := by
    intro q
    conv_lhs => rw [hsplit]
    rw [itemSites?_append htake, itemSites?, Nat.zero_add]
  rw [hplan] at h
  obtain ⟨left, hleft, h⟩ := Option.bind_eq_some_iff.mp h
  obtain ⟨_, h, _⟩ := Option.map_eq_some_iff.mp h
  obtain ⟨block, hblock, h⟩ := Option.bind_eq_some_iff.mp h
  obtain ⟨right, hright, _⟩ := Option.map_eq_some_iff.mp h
  refine ⟨_, left, right, List.getElem?_eq_getElem hlen, length_itemSites? hleft, ?_, fun q => ?_⟩
  · rw [hblock, Option.isSome_some]
  · rw [hplan, hleft, hright, bind_map_of_some]

/-- The sites on either side of one of the entries do not depend on its pattern. -/
theorem exists_entrySites?_middle {before after : List (String × Pattern)} {key : String}
    {p : Pattern} {o : Occasion} {found : List (String × Value)} {sites : List Site}
    (h : entrySites? o 0 (before ++ (key, p) :: after) found = some sites) :
    ∃ w left right, found.lookup key = some w ∧ left.length = siteCountEntries before ∧
      (p.sites? (o.step before.length) w).isSome = true ∧
      ∀ q, entrySites? o 0 (before ++ (key, q) :: after) found =
        (q.sites? (o.step before.length) w).map fun sites => left ++ sites ++ right := by
  rw [entrySites?_append, entrySites?, Nat.zero_add] at h
  obtain ⟨left, hleft, h⟩ := Option.bind_eq_some_iff.mp h
  obtain ⟨_, h, _⟩ := Option.map_eq_some_iff.mp h
  obtain ⟨w, hw, h⟩ := Option.bind_eq_some_iff.mp h
  obtain ⟨block, hblock, h⟩ := Option.bind_eq_some_iff.mp h
  obtain ⟨right, hright, _⟩ := Option.map_eq_some_iff.mp h
  refine ⟨w, left, right, hw, length_entrySites? hleft, ?_, fun q => ?_⟩
  · rw [hblock, Option.isSome_some]
  · rw [entrySites?_append, entrySites?, Nat.zero_add, hleft, hw, Option.bind_some (a := w), hright,
      bind_map_of_some]

/-! ### Patterns with a hole -/

/-- A pattern with a hole in it. -/
inductive Context where
  | hole
  | capture (inner : Context)
  | head (inner : Context) (rest : Pattern)
  | tail (first : Pattern) (inner : Context)
  | item (before : List Pattern) (inner : Context) (after : List Pattern)
  | entry (before : List (String × Pattern)) (key : String) (inner : Context)
      (after : List (String × Pattern))
  | field (tag : ClassTag) (before : List (String × Pattern)) (key : String) (inner : Context)
      (after : List (String × Pattern))

namespace Context

/-- The pattern with another one in the hole. -/
def fill (g : Pattern) : Context → Pattern
  | hole => g
  | capture inner => .capture (inner.fill g)
  | head inner rest => .headTail (inner.fill g) rest
  | tail first inner => .headTail first (inner.fill g)
  | item before inner after => .list (before ++ inner.fill g :: after)
  | entry before key inner after => .map (before ++ (key, inner.fill g) :: after)
  | field tag before key inner after => .instanceOf tag (before ++ (key, inner.fill g) :: after)

/-- How many sites there are before the hole. -/
def sitesBefore : Context → Nat
  | hole => 0
  | capture inner => inner.sitesBefore
  | head inner _ => inner.sitesBefore
  | tail first inner => first.siteCount + inner.sitesBefore
  | item before inner _ => siteCountItems before + inner.sitesBefore
  | entry before _ inner _ | field _ before _ inner _ =>
    siteCountEntries before + inner.sitesBefore

/-- What the pattern in the hole is matched with, and on which occasion. -/
def focus? (o : Occasion) (v : Value) : Context → Option (Occasion × Value)
  | hole => some (o, v)
  | capture inner => inner.focus? (o.step 0) v
  | head inner _ => v.asList?.bind fun vs => vs.head?.bind fun first =>
      inner.focus? (o.step 0) first
  | tail _ inner => v.asList?.bind fun vs => vs.head?.bind fun _ =>
      inner.focus? (o.step 1) (.list vs.tail)
  | item before inner _ => v.asList?.bind fun vs => vs[before.length]?.bind fun w =>
      inner.focus? (o.step before.length) w
  | entry before key inner _ | field _ before key inner _ =>
    (v.fieldsAt? o).bind fun found => (found.lookup key).bind fun w =>
      inner.focus? (o.step before.length) w

variable {C : Context} {g r : Pattern}

/-! ### What is in the hole can be replaced -/

theorem orderedEntries_middle_iff {before after : List (String × Pattern)} {key : String}
    {p : Pattern} : OrderedEntries (before ++ (key, p) :: after) ↔
      (∀ entry ∈ before, entry.2.Ordered) ∧ p.Ordered ∧ ∀ entry ∈ after, entry.2.Ordered := by
  rw [orderedEntries_iff, List.forall_mem_append, List.forall_mem_cons]

theorem ascending_middle_iff {before after : List (String × Pattern)} {key : String}
    (p q : Pattern) : Fields.Ascending (before ++ (key, p) :: after) ↔
      Fields.Ascending (before ++ (key, q) :: after) := by
  refine Fields.ascending_congr ?_
  simp only [Fields.keys, List.map_append, List.map_cons]

theorem ordered_of_fill (h : (C.fill r).Ordered) (hg : g.Ordered) :
    r.Ordered ∧ (C.fill g).Ordered := by
  induction C with
  | hole => exact ⟨h, hg⟩
  | capture inner ih => exact ih h
  | head inner rest ih =>
    obtain ⟨hr, hfill⟩ := ih h.1
    exact ⟨hr, hfill, h.2⟩
  | tail first inner ih =>
    obtain ⟨hr, hfill⟩ := ih h.2
    exact ⟨hr, h.1, hfill⟩
  | item before inner after ih =>
    have hall := orderedItems_iff.mp h
    rw [List.forall_mem_append, List.forall_mem_cons] at hall
    obtain ⟨hr, hfill⟩ := ih hall.2.1
    refine ⟨hr, orderedItems_iff.mpr ?_⟩
    rw [List.forall_mem_append, List.forall_mem_cons]
    exact ⟨hall.1, hfill, hall.2.2⟩
  | entry before key inner after ih | field tag before key inner after ih =>
    obtain ⟨hkeys, hall⟩ := h
    obtain ⟨hbefore, hinner, hafter⟩ := orderedEntries_middle_iff.mp hall
    obtain ⟨hr, hfill⟩ := ih hinner
    refine ⟨hr, (ascending_middle_iff _ _).mp hkeys, ?_⟩
    exact orderedEntries_middle_iff.mpr ⟨hbefore, hfill, hafter⟩

/-- A part of a pattern compiles at this depth or a deeper one, and whatever else compiles there
does as well. -/
def Replaceable (r : Pattern) (d : Nat) (DoesAsWell : Pattern → Prop) : Prop :=
  ∃ e c, d ≤ e ∧ compileAt e r = .ok c ∧ ∀ g c', compileAt e g = .ok c' → DoesAsWell g

theorem Replaceable.imp {d : Nat} {P Q : Pattern → Prop} (h : Replaceable r (d + 1) P)
    (himp : ∀ g, P g → Q g) : Replaceable r d Q := by
  obtain ⟨e, c, hle, hc, hother⟩ := h
  exact ⟨e, c, Nat.le_of_succ_le hle, hc, fun g c' hg => himp g (hother g c' hg)⟩

theorem exists_compileEntries_middle_iff {d : Nat} {before after : List (String × Pattern)}
    {key : String} {p : Pattern} :
    (∃ ms, compileEntries d (before ++ (key, p) :: after) = .ok ms) ↔
      (∀ entry ∈ before, ∃ m, compileAt d entry.2 = .ok m) ∧ (∃ m, compileAt d p = .ok m) ∧
        ∀ entry ∈ after, ∃ m, compileAt d entry.2 = .ok m := by
  rw [exists_compileEntries_iff, List.forall_mem_append, List.forall_mem_cons]

/-- **What is in the hole can be replaced** by whatever compiles at its depth. -/
theorem replaceable_of_compileAt_fill {d : Nat} {m : Matcher} (h : compileAt d (C.fill r) = .ok m) :
    Replaceable r d fun g => ∃ m', compileAt d (C.fill g) = .ok m' := by
  induction C generalizing d m with
  | hole => exact ⟨d, m, Nat.le_refl d, h, fun g c' hg => ⟨c', hg⟩⟩
  | capture inner ih =>
    obtain ⟨hd, _, hinner, _⟩ := compileAt_capture_iff.mp h
    refine (ih hinner).imp fun g ⟨m', hm'⟩ => ?_
    exact ⟨_, compileAt_capture_iff.mpr ⟨hd, m', hm', rfl⟩⟩
  | head inner rest ih =>
    obtain ⟨hd, _, t, hinner, ht, _⟩ := compileAt_headTail_iff.mp h
    refine (ih hinner).imp fun g ⟨m', hm'⟩ => ?_
    exact ⟨_, compileAt_headTail_iff.mpr ⟨hd, m', t, hm', ht, rfl⟩⟩
  | tail first inner ih =>
    obtain ⟨hd, c, _, hc, hinner, _⟩ := compileAt_headTail_iff.mp h
    refine (ih hinner).imp fun g ⟨m', hm'⟩ => ?_
    exact ⟨_, compileAt_headTail_iff.mpr ⟨hd, c, m', hc, hm', rfl⟩⟩
  | item before inner after ih =>
    obtain ⟨hd, ms, hms, _⟩ := compileAt_list_iff.mp h
    have hall := exists_compileItems_iff.mp ⟨ms, hms⟩
    rw [List.forall_mem_append, List.forall_mem_cons] at hall
    obtain ⟨hbefore, ⟨m, hm⟩, hafter⟩ := hall
    refine (ih hm).imp fun g hg => ?_
    obtain ⟨ms', hms'⟩ : ∃ ms, compileItems (d + 1) (before ++ inner.fill g :: after) = .ok ms := by
      rw [exists_compileItems_iff, List.forall_mem_append, List.forall_mem_cons]
      exact ⟨hbefore, hg, hafter⟩
    exact ⟨_, compileAt_list_iff.mpr ⟨hd, ms', hms', rfl⟩⟩
  | entry before key inner after ih =>
    obtain ⟨hd, ms, hms, _⟩ := compileAt_map_iff.mp h
    obtain ⟨hbefore, ⟨m, hm⟩, hafter⟩ := exists_compileEntries_middle_iff.mp ⟨ms, hms⟩
    refine (ih hm).imp fun g hg => ?_
    obtain ⟨ms', hms'⟩ := exists_compileEntries_middle_iff.mpr ⟨hbefore, hg, hafter⟩
    exact ⟨_, compileAt_map_iff.mpr ⟨hd, ms', hms', rfl⟩⟩
  | field tag before key inner after ih =>
    obtain ⟨hd, ms, hms, _⟩ := compileAt_instanceOf_iff.mp h
    obtain ⟨hbefore, ⟨m, hm⟩, hafter⟩ := exists_compileEntries_middle_iff.mp ⟨ms, hms⟩
    refine (ih hm).imp fun g hg => ?_
    obtain ⟨ms', hms'⟩ := exists_compileEntries_middle_iff.mpr ⟨hbefore, hg, hafter⟩
    exact ⟨_, compileAt_instanceOf_iff.mpr ⟨hd, ms', hms', rfl⟩⟩

/-! ### Sites around the hole -/

/-- What is matched with the pattern in the hole, and the sites before the hole and after it.  The
last condition holds for all patterns in the hole. -/
structure Surrounds (C : Context) (o : Occasion) (v : Value) (o' : Occasion) (u : Value)
    (before after : List Site) : Prop where
  focus?_eq : C.focus? o v = some (o', u)
  length_before : before.length = C.sitesBefore
  sites?_fill : ∀ g, (C.fill g).sites? o v =
    (g.sites? o' u).map fun block => before ++ block ++ after

/-- The hole in a part of a pattern that has sites of its own on either side. -/
theorem Surrounds.within {C inner : Context} {o₁ o o' : Occasion} {w v u : Value}
    {before after : List Site} (h : inner.Surrounds o₁ w o' u before after) (left right : List Site)
    (hfocus : C.focus? o v = inner.focus? o₁ w)
    (hcount : C.sitesBefore = left.length + inner.sitesBefore)
    (hfill : ∀ g, (C.fill g).sites? o v =
      ((inner.fill g).sites? o₁ w).map fun sites => left ++ sites ++ right) :
    C.Surrounds o v o' u (left ++ before) (after ++ right) where
  focus?_eq := hfocus.trans h.focus?_eq
  length_before := by rw [List.length_append, h.length_before, hcount]
  sites?_fill := by
    intro g
    rw [hfill, h.sites?_fill, Option.map_map]
    refine congrArg (Option.map · _) (funext fun block => ?_)
    simp only [Function.comp, List.append_assoc]

/-- **The sites of a pattern with a hole** surround those of whatever is in the hole. -/
theorem exists_surrounds {o : Occasion} {v : Value}
    (h : ((C.fill r).sites? o v).isSome = true) :
    ∃ o' u before after, C.Surrounds o v o' u before after := by
  -- What stands on either side is found with `r` in the hole; that it stands there whatever is in
  -- the hole is then a matter of the parts that are not on the way to it.
  induction C generalizing o v with
  | hole =>
    refine ⟨o, v, [], [], rfl, rfl, fun g => ?_⟩
    simp [fill]
  | capture inner ih =>
    rw [fill, sites?, Option.isSome_map] at h
    obtain ⟨o', u, before, after, hs⟩ := ih h
    exact ⟨o', u, _, _, hs.within [] [.unnamed v] rfl (Nat.zero_add _).symm fun g => rfl⟩
  | head inner rest ih =>
    obtain ⟨sites, h⟩ := Option.isSome_iff_exists.mp h
    rw [fill, sites?_headTail] at h
    obtain ⟨vs, hvs, h⟩ := Option.bind_eq_some_iff.mp h
    obtain ⟨first, hfirst, h⟩ := Option.bind_eq_some_iff.mp h
    obtain ⟨_, hinner, h⟩ := Option.bind_eq_some_iff.mp h
    obtain ⟨right, hright, _⟩ := Option.map_eq_some_iff.mp h
    obtain ⟨o', u, before, after, hs⟩ := ih (Option.isSome_of_eq_some hinner)
    refine ⟨o', u, _, _, hs.within [] right ?_ (Nat.zero_add _).symm fun g => ?_⟩
    · rw [focus?, hvs, Option.bind_some, hfirst, Option.bind_some]
    · rw [fill, sites?_headTail, hvs, Option.bind_some, hfirst, Option.bind_some, hright]
      cases (inner.fill g).sites? (o.step 0) first <;> rfl
  | tail first inner ih =>
    obtain ⟨sites, h⟩ := Option.isSome_iff_exists.mp h
    rw [fill, sites?_headTail] at h
    obtain ⟨vs, hvs, h⟩ := Option.bind_eq_some_iff.mp h
    obtain ⟨w, hw, h⟩ := Option.bind_eq_some_iff.mp h
    obtain ⟨left, hleft, h⟩ := Option.bind_eq_some_iff.mp h
    obtain ⟨_, hinner, _⟩ := Option.map_eq_some_iff.mp h
    obtain ⟨o', u, before, after, hs⟩ := ih (Option.isSome_of_eq_some hinner)
    refine ⟨o', u, _, _, hs.within left [] ?_ ?_ fun g => ?_⟩
    · rw [focus?, hvs, Option.bind_some, hw, Option.bind_some]
    · rw [sitesBefore, length_sites? hleft]
    · rw [fill, sites?_headTail, hvs, Option.bind_some, hw, Option.bind_some, hleft]
      simp only [Option.bind_some, List.append_nil]
  | item before inner after ih =>
    obtain ⟨sites, h⟩ := Option.isSome_iff_exists.mp h
    rw [fill, sites?_list] at h
    obtain ⟨vs, hvs, h⟩ := Option.bind_eq_some_iff.mp h
    obtain ⟨w, left, right, hw, hleft, hinner, hplan⟩ := exists_itemSites?_middle h
    obtain ⟨o', u, _, _, hs⟩ := ih hinner
    refine ⟨o', u, _, _, hs.within left right ?_ ?_ fun g => ?_⟩
    · rw [focus?, hvs, Option.bind_some, hw, Option.bind_some]
    · rw [sitesBefore, hleft]
    · rw [fill, sites?_list, hvs, Option.bind_some, hplan]
  | entry before key inner after ih =>
    obtain ⟨sites, h⟩ := Option.isSome_iff_exists.mp h
    rw [fill, sites?] at h
    obtain ⟨found, hfound, h⟩ := Option.bind_eq_some_iff.mp h
    obtain ⟨w, left, right, hw, hleft, hinner, hplan⟩ := exists_entrySites?_middle h
    obtain ⟨o', u, _, _, hs⟩ := ih hinner
    refine ⟨o', u, _, _, hs.within left right ?_ ?_ fun g => ?_⟩
    · rw [focus?, hfound, Option.bind_some, hw, Option.bind_some]
    · rw [sitesBefore, hleft]
    · rw [fill, sites?, hfound, Option.bind_some, hplan]
  | field tag before key inner after ih =>
    obtain ⟨sites, h⟩ := Option.isSome_iff_exists.mp h
    rw [fill, sites?_instanceOf] at h
    by_cases htag : v.asObject?.map Instance.tag = some tag
    · rw [if_pos htag] at h
      obtain ⟨found, hfound, h⟩ := Option.bind_eq_some_iff.mp h
      obtain ⟨w, left, right, hw, hleft, hinner, hplan⟩ := exists_entrySites?_middle h
      obtain ⟨o', u, _, _, hs⟩ := ih hinner
      refine ⟨o', u, _, _, hs.within left right ?_ ?_ fun g => ?_⟩
      · rw [focus?, hfound, Option.bind_some, hw, Option.bind_some]
      · rw [sitesBefore, hleft]
      · rw [fill, sites?_instanceOf, if_pos htag, hfound, Option.bind_some, hplan]
    · rw [if_neg htag] at h
      cases h

end Context

/-! ### Less said -/

/-- The pattern accepts any value and binds nothing. -/
def Ignores : Pattern → Prop
  | wildcard => True
  | var x => x.isIgnored = true
  | _ => False

theorem Ignores.sites?_eq {g : Pattern} (hg : g.Ignores) (o : Occasion) (v : Value) :
    g.sites? o v = some [] := by
  cases g with
  | wildcard => rfl
  | var x =>
    rw [Ignores] at hg
    rw [sites?, if_pos hg]
  | _ => exact hg.elim

theorem Ignores.ordered {g : Pattern} (hg : g.Ignores) : g.Ordered := by
  cases g with
  | wildcard | var => exact trivial
  | _ => exact hg.elim

theorem Ignores.exists_compileAt {g : Pattern} (hg : g.Ignores) {d : Nat} (hd : d ≤ maxDepth) :
    ∃ m, compileAt d g = .ok m := by
  cases g with
  | wildcard => exact ⟨_, compileAt_wildcard_iff.mpr ⟨hd, rfl⟩⟩
  | var x => exact ⟨_, compileAt_var_iff.mpr ⟨hd, rfl⟩⟩
  | _ => exact hg.elim

namespace Context

/-- **Less said at one place.**  Whatever is in the hole can be replaced by a pattern that accepts
any value and binds nothing; then each match stays one and loses just what the part in the hole
bound by itself. -/
theorem bind?_generalized {C : Context} {r g : Pattern} {m : Matcher} (hp : (C.fill r).Ordered)
    (h : (C.fill r).compile = .ok m) (hg : g.Ignores) :
    ∃ c m', r.compile = .ok c ∧ (C.fill g).compile = .ok m' ∧
      ∀ o o' v bs, (o = o' ∨ v.Steady) → m.bind? o v = some bs →
        ∃ before block after o₁ u, bs = before ++ block ++ after ∧
          before.length = C.sitesBefore ∧ C.focus? o v = some (o₁, u) ∧
          c.bind? o₁ u = some block ∧ m'.bind? o' v = some (before ++ after) := by
  -- The depth of the hole is allowed since `r` compiles there.
  obtain ⟨e, c, hle, hc, hother⟩ := replaceable_of_compileAt_fill h
  obtain ⟨_, hgc⟩ := hg.exists_compileAt (le_maxDepth_of_compileAt hc)
  obtain ⟨m', hm'⟩ := hother g _ hgc
  obtain ⟨hr, hfill⟩ := ordered_of_fill hp hg.ordered
  have hc' : r.compile = .ok c := compileAt_of_le r hle hc
  refine ⟨c, m', hc', hm', fun o o' v bs hv hbs => ?_⟩
  obtain ⟨sites, hsites, hco, rfl⟩ := (bind?_eq_some_iff_sites hp h).mp hbs
  obtain ⟨o₁, u, before, after, hs⟩ := exists_surrounds (Option.isSome_of_eq_some hsites)
  rw [hs.sites?_fill] at hsites
  obtain ⟨block, hblock, rfl⟩ := Option.map_eq_some_iff.mp hsites
  refine ⟨before.map Site.value, block.map Site.value, after.map Site.value, o₁, u, ?_, ?_,
    hs.focus?_eq, ?_, ?_⟩
  · rw [List.map_append, List.map_append]
  · rw [List.length_map, hs.length_before]
  · have hsub : block.Sublist (before ++ block ++ after) :=
      (List.sublist_append_right before block).trans (List.sublist_append_left _ after)
    exact (bind?_eq_some_iff_sites hr hc').mpr ⟨block, hblock, hco.sublist hsub, rfl⟩
  · -- No two of the sites that are left disagree, whichever was the first one under its name.
    have hsub : (before ++ after).Sublist (before ++ block ++ after) :=
      (List.sublist_append_left before block).append (List.Sublist.refl after)
    refine (bind?_eq_some_iff_sites hfill hm').mpr ⟨before ++ after, ?_, hco.sublist hsub, ?_⟩
    · rw [← sites?_eq_of_steady (C.fill g) hv, hs.sites?_fill, hg.sites?_eq, Option.map_some,
        List.append_nil]
    · rw [List.map_append]

/-- Without its first site, a name is still bound by the second one. -/
theorem bind?_generalized_first :
    ∃ C r m m', C = item [] (capture (entry [] "k" hole [])) [var ⟨some "x", none⟩] ∧
      r = var ⟨some "x", none⟩ ∧ (C.fill r).Ordered ∧ (C.fill r).compile = .ok m ∧
      (C.fill wildcard).compile = .ok m' ∧
      m.bind? .start (.list [.map [("k", .int 3)], .int 3]) =
        some [.int 3, .map [("k", .int 3)], .int 3] ∧
      m'.bind? .start (.list [.map [("k", .int 3)], .int 3]) =
        some [.map [("k", .int 3)], .int 3] := by
  have hp : ((item [] (capture (entry [] "k" hole [])) [var ⟨some "x", none⟩]).fill
      (var ⟨some "x", none⟩)).Ordered :=
    ⟨⟨List.pairwise_singleton _ _, trivial, trivial⟩, trivial, trivial⟩
  obtain ⟨c, m', hc, hm', hall⟩ := bind?_generalized (g := wildcard) hp rfl trivial
  obtain ⟨before, block, after, o₁, u, hbs, hlen, hfocus, hblock, hrest⟩ :=
    hall .start .start (.list [.map [("k", .int 3)], .int 3]) _ (.inl rfl) rfl
  obtain rfl := List.length_eq_zero_iff.mp hlen
  obtain rfl := Except.ok.inj hc
  obtain ⟨rfl, rfl⟩ := Prod.mk.inj (Option.some.inj hfocus)
  obtain rfl := Option.some.inj hblock
  have hafter : [.int 3] ++ after = [.int 3] ++ [.map [("k", .int 3)], .int 3] := hbs.symm
  obtain rfl := List.append_cancel_left hafter
  exact ⟨_, _, _, m', rfl, rfl, hp, rfl, hm', rfl, hrest⟩

end Context

end Pattern

end StructuralMatching
