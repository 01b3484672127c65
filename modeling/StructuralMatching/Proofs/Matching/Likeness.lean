/-
Values that no pattern can tell apart.

A pattern looks at a value in few ways: it compares it with a constant, takes a list or the fields
of a map or an instance apart, and reads a text or a byte sequence.  Two values that look alike in
these ways, and whose parts look alike again, have the same binding sites, with parts that look
alike.

* `Origin`, `Pattern.origins` — where the values of the binding sites come from, by the pattern
  alone;
* `Likeness` — a relation of values, each read on an occasion of its own, that patterns respect;
* `SameSites` — sites of one pattern, met by two values that are alike;
* `Pattern.sameSites_sites?` — alike values have the same sites;
* `Value.Steady`, `Pattern.sites?_eq_of_steady` — if the fields of instances do not change, neither
  do the sites;
* `Pattern.map_name_sites?`, `Pattern.length_sites?` — the names of the sites are those in the
  pattern, and so is their number.

Design notes: one induction on patterns serves every relation.  A relation has to say only how two
values look from outside, which takes no induction.
-/
import Mathlib.Data.Option.Basic
import StructuralMatching.Proofs.Matching.Coherence

namespace StructuralMatching

/-! ### Origins of sites -/

/-- Where the value of a binding site comes from. -/
inductive Origin where
  /-- A part of the value that is matched, under the name if there is one. -/
  | part (name : Option String)
  /-- The rest of a string behind a stem. -/
  | suffix
  /-- The bytes of a free segment. -/
  | segment (s : Segment)

/-- The name of a site of this origin. -/
def Origin.name : Origin → Option String
  | part name => name
  | suffix | segment _ => none

namespace Pattern

mutual

/-- The origins of the binding sites, from left to right. -/
def origins : Pattern → List Origin
  | wildcard => []
  | var x => if x.isIgnored then [] else [.part x.bindingName?]
  | capture inner => origins inner ++ [.part none]
  | startsWith _ => [.suffix]
  | headTail head tail => origins head ++ origins tail
  | bound _ => []
  | instanceOf _ fields => entryOrigins fields
  | bitstring segments => (segments.filter fun s => s.literal.isNone).map .segment
  | literal _ => []
  | list items => itemOrigins items
  | map fields => entryOrigins fields
termination_by structural p => p

def itemOrigins : List Pattern → List Origin
  | [] => []
  | p :: ps => origins p ++ itemOrigins ps
termination_by structural ps => ps

def entryOrigins : List (String × Pattern) → List Origin
  | [] => []
  | (_, p) :: entries => origins p ++ entryOrigins entries
termination_by structural entries => entries

end

mutual

/-- There are as many origins as sites. -/
theorem length_origins (p : Pattern) : p.origins.length = p.siteCount := by
  cases p with
  | wildcard | startsWith | bound | literal => rfl
  | var x =>
    show (if x.isIgnored then [] else [Origin.part x.bindingName?]).length =
      if x.isIgnored then 0 else 1
    split <;> rfl
  | capture inner =>
    simp [origins, siteCount, length_origins inner]
  | headTail head tail =>
    simp [origins, siteCount, length_origins head, length_origins tail]
  | instanceOf tag fields => exact length_entryOrigins fields
  | bitstring segments => simp [origins, siteCount, List.countP_eq_length_filter]
  | list items => exact length_itemOrigins items
  | map fields => exact length_entryOrigins fields
termination_by structural p

theorem length_itemOrigins (ps : List Pattern) : (itemOrigins ps).length = siteCountItems ps := by
  cases ps with
  | nil => rfl
  | cons p ps => simp [itemOrigins, siteCountItems, length_origins p, length_itemOrigins ps]
termination_by structural ps

theorem length_entryOrigins (entries : List (String × Pattern)) :
    (entryOrigins entries).length = siteCountEntries entries := by
  cases entries with
  | nil => rfl
  | cons entry rest =>
    obtain ⟨key, p⟩ := entry
    simp [entryOrigins, siteCountEntries, length_origins p, length_entryOrigins rest]
termination_by structural entries

end

/-! ### What a pattern sees of a value -/

variable (o : Occasion) (v : Value)

theorem sites?_startsWith (stem : String) :
    (startsWith stem).sites? o v = v.asString?.bind fun s =>
      (stem.toList.isPrefixOf? s.toList).map fun rest =>
        [.unnamed (.string (String.ofList rest))] := by
  cases v <;> rfl

theorem sites?_headTail (head tail : Pattern) :
    (headTail head tail).sites? o v = v.asList?.bind fun vs => vs.head?.bind fun first =>
      (head.sites? (o.step 0) first).bind fun sites =>
        (tail.sites? (o.step 1) (.list vs.tail)).map fun more => sites ++ more := by
  cases v with
  | list vs => cases vs <;> rfl
  | _ => rfl

theorem sites?_instanceOf (tag : ClassTag) (fields : List (String × Pattern)) :
    (instanceOf tag fields).sites? o v =
      if v.asObject?.map Instance.tag = some tag then
        (v.fieldsAt? o).bind fun found => entrySites? o 0 fields found
      else none := by
  cases v with
  | object i =>
    show (if i.tag = tag then entrySites? o 0 fields (i.fields o) else none) =
      if some i.tag = some tag then entrySites? o 0 fields (i.fields o) else none
    simp only [Option.some.injEq]
  | _ => rfl

theorem sites?_list (items : List Pattern) :
    (list items).sites? o v = v.asList?.bind fun vs => itemSites? o 0 items vs := by
  cases v <;> rfl

end Pattern

namespace Value

theorem accepts_list (o : Occasion) (items : List Value) (v : Value) :
    (list items).accepts o v = v.asList?.any fun vs => acceptsItems o 0 items vs := by
  cases v <;> rfl

theorem accepts_map (o : Occasion) (entries : List (String × Value)) (v : Value) :
    (map entries).accepts o v =
      (v.fieldsAt? o).any fun found => acceptsEntries o 0 entries found := by
  rw [accepts]
  cases v.fieldsAt? o <;> rfl

theorem acceptsEntries_cons (o : Occasion) (i : Nat) (key : String) (w : Value)
    (entries fields : List (String × Value)) :
    acceptsEntries o i ((key, w) :: entries) fields = (fields.lookup key).any fun v =>
      w.accepts (o.step i) v && acceptsEntries o (i + 1) entries fields := by
  rw [acceptsEntries]
  cases fields.lookup key <;> rfl

end Value

/-! ### Likeness -/

/-- A relation of values, each of them read on an occasion of its own, that holds only if they look
alike from outside and their parts are related again. -/
structure Likeness (R : Occasion → Occasion → Value → Value → Prop) : Prop where
  step : ∀ {o o' v w}, R o o' v w → ∀ i, R (o.step i) (o'.step i) v w
  beq_eq : ∀ {o o' v w}, R o o' v w → ∀ x, (v == x) = (w == x)
  text_eq : ∀ {o o' v w}, R o o' v w → v.asString? = w.asString?
  content_eq : ∀ {o o' v w}, R o o' v w → Matcher.contentOf? v = Matcher.contentOf? w
  tag_eq : ∀ {o o' v w}, R o o' v w →
    v.asObject?.map Instance.tag = w.asObject?.map Instance.tag
  items : ∀ {o o' v w}, R o o' v w →
    Option.Rel (fun vs ws => List.Forall₂ (R o o') vs ws ∧ R o o' (.list vs.tail) (.list ws.tail))
      v.asList? w.asList?
  fields : ∀ {o o' v w}, R o o' v w →
    Option.Rel (List.Forall₂ fun a b => a.1 = b.1 ∧ R o o' a.2 b.2) (v.fieldsAt? o) (w.fieldsAt? o')

/-- A binding site met by two values that are alike.  What is read from a text or from bytes is the
same, since texts and bytes that are alike are the same. -/
inductive SameSite (R : Occasion → Occasion → Value → Value → Prop) :
    Origin → Site → Site → Prop where
  | part {name : Option String} {o o' : Occasion} {v w : Value} (h : R o o' v w) :
      SameSite R (.part name) ⟨name, v⟩ ⟨name, w⟩
  | suffix (s : String) : SameSite R .suffix (.unnamed (.string s)) (.unnamed (.string s))
  | segment {s : Segment} {chunk : List UInt8} {v : Value} (h : s.blank.decode? chunk = some v) :
      SameSite R (.segment s) (.unnamed v) (.unnamed v)

/-- Binding sites of given origins, met one by one. -/
inductive SameSites (R : Occasion → Occasion → Value → Value → Prop) :
    List Origin → List Site → List Site → Prop where
  | nil : SameSites R [] [] []
  | cons {origin : Origin} {s t : Site} {origins : List Origin} {ss ts : List Site}
      (h : SameSite R origin s t) (hrest : SameSites R origins ss ts) :
      SameSites R (origin :: origins) (s :: ss) (t :: ts)

variable {R : Occasion → Occasion → Value → Value → Prop}

theorem SameSite.name_eq {origin : Origin} {s t : Site} (h : SameSite R origin s t) :
    s.name = origin.name ∧ t.name = origin.name := by
  cases h <;> exact ⟨rfl, rfl⟩

namespace SameSites

variable {origins more : List Origin} {ss ts ss' ts' : List Site}

theorem append (h : SameSites R origins ss ts) (h' : SameSites R more ss' ts') :
    SameSites R (origins ++ more) (ss ++ ss') (ts ++ ts') := by
  induction h with
  | nil => exact h'
  | cons hs _ ih => exact .cons hs ih

theorem singleton {origin : Origin} {s t : Site} (h : SameSite R origin s t) :
    SameSites R [origin] [s] [t] := .cons h .nil

theorem length_eq (h : SameSites R origins ss ts) :
    ss.length = origins.length ∧ ts.length = origins.length := by
  induction h with
  | nil => exact ⟨rfl, rfl⟩
  | cons _ _ ih => exact ⟨congrArg (· + 1) ih.1, congrArg (· + 1) ih.2⟩

theorem map_name_eq (h : SameSites R origins ss ts) :
    ss.map Site.name = origins.map Origin.name := by
  induction h with
  | nil => rfl
  | cons hs _ ih => rw [List.map_cons, List.map_cons, ih, hs.name_eq.1]

/-- The same sites, as far as single ones tell. -/
theorem forall₂ {Q : Site → Site → Prop} (h : SameSites R origins ss ts)
    (hQ : ∀ origin s t, SameSite R origin s t → Q s t) : List.Forall₂ Q ss ts := by
  induction h with
  | nil => exact .nil
  | cons hs _ ih => exact .cons (hQ _ _ _ hs) ih

theorem getElem? (h : SameSites R origins ss ts) {i : Nat} {s t : Site} (hs : ss[i]? = some s)
    (ht : ts[i]? = some t) : ∃ origin, origins[i]? = some origin ∧ SameSite R origin s t := by
  induction h generalizing i with
  | nil => cases hs
  | @cons origin _ _ _ _ _ hst _ ih =>
    cases i with
    | zero =>
      cases hs
      cases ht
      exact ⟨origin, rfl, hst⟩
    | succ i => exact ih hs ht

/-- Sites are coherent for one value exactly if they are so for one that is alike, provided that
values that are alike are equal. -/
theorem coherent_iff (h : SameSites R origins ss ts)
    (hR : ∀ o o' v w, R o o' v w → (v == w) = true) : Coherent ss ↔ Coherent ts := by
  have hname : ∀ origin s t, SameSite R origin s t → s.name = t.name := by
    intro origin s t hst
    exact hst.name_eq.1.trans hst.name_eq.2.symm
  have hvalue : ∀ origin s t, SameSite R origin s t → s.name ≠ none →
      (s.value == t.value) = true := by
    intro origin s t hst hne
    cases hst with
    | part hvw => exact hR _ _ _ _ hvw
    | suffix | segment => exact absurd rfl hne
  constructor
  · intro hco
    exact hco.of_alike (h.forall₂ fun origin s t hst => ⟨hname _ _ _ hst, hvalue _ _ _ hst⟩)
  · intro hco
    refine hco.of_alike (List.Forall₂.flip (h.forall₂ fun origin s t hst => ?_))
    refine ⟨(hname _ _ _ hst).symm, fun hne => ?_⟩
    exact Value.beq_symm (hvalue _ _ _ hst (by rwa [hname _ _ _ hst]))

/-- Plans are the same if only values that are the same are alike. -/
theorem plan_eq {plan plan' : Option (List Site)}
    (h : Option.Rel (SameSites R origins) plan plan') (hR : ∀ o o' v w, R o o' v w → v = w) :
    plan = plan' := by
  cases h with
  | none => rfl
  | some hsites =>
    have hall : List.Forall₂ Eq _ _ := hsites.forall₂ fun origin s t hst => by
      cases hst with
      | part hvw => rw [hR _ _ _ _ hvw]
      | suffix | segment => rfl
    rw [List.forall₂_eq_eq_eq] at hall
    exact congrArg some hall

end SameSites

/-! ### Alike values have the same sites -/

theorem rel_bind {α β γ δ : Type} {Q : α → β → Prop} {P : γ → δ → Prop} {x : Option α}
    {y : Option β} {f : α → Option γ} {g : β → Option δ} (h : Option.Rel Q x y)
    (hfg : ∀ a b, Q a b → Option.Rel P (f a) (g b)) : Option.Rel P (x.bind f) (y.bind g) := by
  cases h with
  | none => exact .none
  | some hab => exact hfg _ _ hab

theorem rel_any {α β : Type} {Q : α → β → Prop} {x : Option α} {y : Option β} {f : α → Bool}
    {g : β → Bool} (h : Option.Rel Q x y) (hfg : ∀ a b, Q a b → f a = g b) : x.any f = y.any g := by
  cases h with
  | none => rfl
  | some hab => exact hfg _ _ hab

/-- Sites one after the other. -/
theorem SameSites.andThen {origins more : List Origin} {plan plan' rest rest' : Option (List Site)}
    (h : Option.Rel (SameSites R origins) plan plan')
    (h' : Option.Rel (SameSites R more) rest rest') :
    Option.Rel (SameSites R (origins ++ more))
      (plan.bind fun sites => rest.map fun others => sites ++ others)
      (plan'.bind fun sites => rest'.map fun others => sites ++ others) := by
  refine rel_bind h fun sites sites' hs => ?_
  cases h' with
  | none => exact .none
  | some hrest => exact .some (hs.append hrest)

theorem lookup_rel {Q : Value → Value → Prop} {as bs : List (String × Value)}
    (h : List.Forall₂ (fun a b => a.1 = b.1 ∧ Q a.2 b.2) as bs) (key : String) :
    Option.Rel Q (as.lookup key) (bs.lookup key) := by
  induction h with
  | nil => exact .none
  | @cons a b as bs hab _ ih =>
    obtain ⟨k, v⟩ := a
    obtain ⟨l, w⟩ := b
    obtain ⟨rfl, hvw⟩ : k = l ∧ Q v w := hab
    rw [List.lookup_cons, List.lookup_cons]
    cases key == k with
    | true => exact .some hvw
    | false => exact ih

theorem Segment.sameSites_siteOf? (s : Segment) (chunk : List UInt8) :
    Option.Rel (SameSites R (([s].filter fun s => s.literal.isNone).map .segment))
      (s.siteOf? chunk) (s.siteOf? chunk) := by
  rw [siteOf?]
  cases hs : s.literal with
  | some value =>
    simp only [List.filter_cons, hs, Option.isNone_some, Bool.false_eq_true, if_false,
      List.filter_nil, List.map_nil]
    split
    · exact .some .nil
    · exact .none
  | none =>
    simp only [List.filter_cons, hs, Option.isNone_none, if_true, List.filter_nil, List.map_cons,
      List.map_nil]
    cases hd : s.blank.decode? chunk with
    | none => exact .none
    | some value => exact .some (.singleton (.segment hd))

theorem Segment.sameSites_sites? (segments : List Segment) (content : List UInt8) :
    Option.Rel (SameSites R ((segments.filter fun s => s.literal.isNone).map .segment))
      (sites? segments content) (sites? segments content) := by
  induction segments generalizing content with
  | nil =>
    rw [sites?]
    split
    · exact .some .nil
    · exact .none
  | cons s rest ih =>
    have hfilter : ((s :: rest).filter fun s => s.literal.isNone) =
        ([s].filter fun s => s.literal.isNone) ++ rest.filter fun s => s.literal.isNone :=
      List.filter_append (p := fun s : Segment => s.literal.isNone) [s] rest
    rw [hfilter, List.map_append, sites?]
    show Option.Rel _ (if content.length < s.width?.getD content.length then none else _)
      (if content.length < s.width?.getD content.length then none else _)
    split
    · exact .none
    · exact SameSites.andThen (sameSites_siteOf? s _) (ih _)

namespace Likeness

mutual

/-- Alike values have the shape of the same constants. -/
theorem accepts_eq (hR : Likeness R) (x : Value) {o o' : Occasion} {v w : Value} (h : R o o' v w) :
    x.accepts o v = x.accepts o' w := by
  cases x with
  | undefined | object => rfl
  | list items =>
    rw [Value.accepts_list, Value.accepts_list]
    exact rel_any (hR.items h) fun vs ws hvs => hR.acceptsItems_eq items 0 hvs.1
  | map entries =>
    rw [Value.accepts_map, Value.accepts_map]
    exact rel_any (hR.fields h) fun as bs hab => hR.acceptsEntries_eq entries 0 hab
  | _ => exact hR.beq_eq h _
termination_by structural x

theorem acceptsItems_eq (hR : Likeness R) (xs : List Value) (i : Nat) {o o' : Occasion}
    {vs ws : List Value} (h : List.Forall₂ (R o o') vs ws) :
    Value.acceptsItems o i xs vs = Value.acceptsItems o' i xs ws := by
  cases xs with
  | nil => cases h <;> rfl
  | cons x xs =>
    cases h with
    | nil => rfl
    | cons hvw hrest =>
      rw [Value.acceptsItems, Value.acceptsItems, hR.accepts_eq x (hR.step hvw i),
        hR.acceptsItems_eq xs (i + 1) hrest]
termination_by structural xs

theorem acceptsEntries_eq (hR : Likeness R) (entries : List (String × Value)) (i : Nat)
    {o o' : Occasion} {as bs : List (String × Value)}
    (h : List.Forall₂ (fun a b => a.1 = b.1 ∧ R o o' a.2 b.2) as bs) :
    Value.acceptsEntries o i entries as = Value.acceptsEntries o' i entries bs := by
  cases entries with
  | nil => rfl
  | cons entry rest =>
    obtain ⟨key, x⟩ := entry
    rw [Value.acceptsEntries_cons, Value.acceptsEntries_cons]
    refine rel_any (lookup_rel h key) fun v w hvw => ?_
    rw [hR.accepts_eq x (hR.step hvw i), hR.acceptsEntries_eq rest (i + 1) h]
termination_by structural entries

end

end Likeness

namespace Pattern

mutual

-- The induction is on the pattern, for all values that are alike: the parts of a pattern meet parts
-- of the values, or the same values one step further.

/-- **Alike values have the same binding sites**, or neither has the shape of the pattern. -/
theorem sameSites_sites? (hR : Likeness R) (p : Pattern) {o o' : Occasion} {v w : Value}
    (h : R o o' v w) : Option.Rel (SameSites R p.origins) (p.sites? o v) (p.sites? o' w) := by
  cases p with
  | wildcard => exact .some .nil
  | var x =>
    rw [sites?, sites?, origins]
    split
    · exact .some .nil
    · exact .some (.singleton (.part h))
  | capture inner =>
    have hinner := sameSites_sites? hR inner (hR.step h 0)
    rw [sites?, sites?, origins, Bindings.map_append_unnamed, Bindings.map_append_unnamed]
    exact SameSites.andThen hinner (.some (.singleton (.part h)))
  | startsWith stem =>
    rw [sites?_startsWith, sites?_startsWith, hR.text_eq h]
    cases w.asString? with
    | none => exact .none
    | some s =>
      show Option.Rel _ ((stem.toList.isPrefixOf? s.toList).map _)
        ((stem.toList.isPrefixOf? s.toList).map _)
      cases stem.toList.isPrefixOf? s.toList with
      | none => exact .none
      | some rest => exact .some (.singleton (.suffix _))
  | headTail head tail =>
    rw [sites?_headTail, sites?_headTail, origins]
    refine rel_bind (hR.items h) fun vs ws hvs => ?_
    obtain ⟨hitems, htail⟩ := hvs
    cases hitems with
    | nil => exact .none
    | cons hfirst _ =>
      exact SameSites.andThen (sameSites_sites? hR head (hR.step hfirst 0))
        (sameSites_sites? hR tail (hR.step htail 1))
  | bound x =>
    rw [sites?, sites?, hR.beq_eq h]
    split
    · exact .some .nil
    · exact .none
  | instanceOf tag fields =>
    rw [sites?_instanceOf, sites?_instanceOf, hR.tag_eq h]
    split
    · exact rel_bind (hR.fields h) fun as bs hab => sameSites_entrySites? hR fields 0 hab
    · exact .none
  | bitstring segments =>
    rw [sites?, sites?, hR.content_eq h]
    cases Matcher.contentOf? w with
    | none => exact .none
    | some content => exact Segment.sameSites_sites? segments content
  | literal x =>
    rw [sites?, sites?, hR.accepts_eq x h]
    split
    · exact .some .nil
    · exact .none
  | list items =>
    rw [sites?_list, sites?_list]
    exact rel_bind (hR.items h) fun vs ws hvs => sameSites_itemSites? hR items 0 hvs.1
  | map fields =>
    rw [sites?, sites?]
    exact rel_bind (hR.fields h) fun as bs hab => sameSites_entrySites? hR fields 0 hab
termination_by structural p

theorem sameSites_itemSites? (hR : Likeness R) (ps : List Pattern) (i : Nat) {o o' : Occasion}
    {vs ws : List Value} (h : List.Forall₂ (R o o') vs ws) :
    Option.Rel (SameSites R (itemOrigins ps)) (itemSites? o i ps vs) (itemSites? o' i ps ws) := by
  cases ps with
  | nil =>
    cases h with
    | nil => exact .some .nil
    | cons => exact .none
  | cons p ps =>
    cases h with
    | nil => exact .none
    | cons hvw hrest =>
      rw [itemSites?, itemSites?, itemOrigins]
      exact SameSites.andThen (sameSites_sites? hR p (hR.step hvw i))
        (sameSites_itemSites? hR ps (i + 1) hrest)
termination_by structural ps

theorem sameSites_entrySites? (hR : Likeness R) (entries : List (String × Pattern)) (i : Nat)
    {o o' : Occasion} {as bs : List (String × Value)}
    (h : List.Forall₂ (fun a b => a.1 = b.1 ∧ R o o' a.2 b.2) as bs) :
    Option.Rel (SameSites R (entryOrigins entries)) (entrySites? o i entries as)
      (entrySites? o' i entries bs) := by
  cases entries with
  | nil => exact .some .nil
  | cons entry rest =>
    obtain ⟨key, p⟩ := entry
    rw [entrySites?, entrySites?, entryOrigins]
    refine rel_bind (lookup_rel h key) fun v w hvw => ?_
    exact SameSites.andThen (sameSites_sites? hR p (hR.step hvw i))
      (sameSites_entrySites? hR rest (i + 1) h)
termination_by structural entries

end

end Pattern

/-! ### One value, read twice -/

namespace Value

/-- What is found in a value by going through lists, maps and the fields of instances, on whatever
occasions these are read. -/
inductive Holds : Value → Value → Prop where
  | refl (v : Value) : Holds v v
  | item {items : List Value} {w x : Value} (hw : w ∈ items) (hx : Holds w x) : Holds (list items) x
  | entry {entries : List (String × Value)} {e : String × Value} {x : Value} (he : e ∈ entries)
      (hx : Holds e.2 x) : Holds (map entries) x
  | field {i : Instance Value} {e : String × Value} {x : Value} (o : Occasion) (he : e ∈ i.fields o)
      (hx : Holds e.2 x) : Holds (object i) x

/-- Every reading of an instance in the value finds the same fields. -/
def Steady (v : Value) : Prop := ∀ i, Holds v (object i) → ∀ o o', i.fields o = i.fields o'

theorem Steady.item {items : List Value} (h : (list items).Steady) {w : Value} (hw : w ∈ items) :
    w.Steady := fun i hi => h i (.item hw hi)

theorem Steady.tail {items : List Value} (h : (list items).Steady) : (list items.tail).Steady := by
  intro i hi
  cases hi with
  | item hw hx => exact h i (.item (List.mem_of_mem_tail hw) hx)

theorem Steady.entry {entries : List (String × Value)} (h : (map entries).Steady)
    {e : String × Value} (he : e ∈ entries) : e.2.Steady := fun i hi => h i (.entry he hi)

theorem Steady.field {i : Instance Value} (h : (object i).Steady) (o : Occasion)
    {e : String × Value} (he : e ∈ i.fields o) : e.2.Steady := fun j hj => h j (.field o he hj)

/-- An instance whose fields do not change, and neither do those of the instances in them. -/
theorem steady_object {i : Instance Value} (h : ∀ o o', i.fields o = i.fields o')
    (hfields : ∀ o, ∀ e ∈ i.fields o, e.2.Steady) : (object i).Steady := by
  intro j hj
  cases hj with
  | refl => exact h
  | field o he hx => exact hfields o _ he j hx

theorem steady_of_isScalar {v : Value} (hv : v.IsScalar) : v.Steady := by
  intro i hi
  cases hi with
  | refl | item | entry | field => exact hv.elim

end Value

/-- A value is like itself on one occasion, and on all of them if the fields of its instances do not
change. -/
theorem likeness_same : Likeness fun o o' v w => v = w ∧ (o = o' ∨ v.Steady) where
  step := by
    rintro o o' v _ ⟨rfl, h⟩ i
    exact ⟨rfl, h.imp_left fun ho => by rw [ho]⟩
  beq_eq := by
    rintro o o' v _ ⟨rfl, _⟩ x
    rfl
  text_eq := by
    rintro o o' v _ ⟨rfl, _⟩
    rfl
  content_eq := by
    rintro o o' v _ ⟨rfl, _⟩
    rfl
  tag_eq := by
    rintro o o' v _ ⟨rfl, _⟩
    rfl
  items := by
    rintro o o' v _ ⟨rfl, h⟩
    cases v with
    | list vs =>
      refine .some ⟨List.forall₂_same.mpr fun w hw => ⟨rfl, ?_⟩, rfl, h.imp_right Value.Steady.tail⟩
      exact h.imp_right fun hs => hs.item hw
    | _ => exact .none
  fields := by
    rintro o o' v _ ⟨rfl, h⟩
    cases v with
    | map entries =>
      refine .some (List.forall₂_same.mpr fun e he => ⟨rfl, rfl, ?_⟩)
      exact h.imp_right fun hs => hs.entry he
    | object i =>
      have hfields : i.fields o' = i.fields o := by
        rcases h with rfl | hs
        · rfl
        · exact hs i (.refl _) o' o
      show Option.Rel _ (some (i.fields o)) (some (i.fields o'))
      rw [hfields]
      refine .some (List.forall₂_same.mpr fun e he => ⟨rfl, rfl, ?_⟩)
      exact h.imp_right fun hs => hs.field o he
    | _ => exact .none

namespace Pattern

theorem sameSites_same (p : Pattern) {o o' : Occasion} {v : Value} (h : o = o' ∨ v.Steady) :
    Option.Rel (SameSites (fun o o' v w => v = w ∧ (o = o' ∨ v.Steady)) p.origins) (p.sites? o v)
      (p.sites? o' v) :=
  sameSites_sites? likeness_same p ⟨rfl, h⟩

/-- **The sites of a value are the same on every occasion** on which its instances have the same
fields. -/
theorem sites?_eq_of_steady (p : Pattern) {o o' : Occasion} {v : Value} (h : o = o' ∨ v.Steady) :
    p.sites? o v = p.sites? o' v :=
  SameSites.plan_eq (sameSites_same p h) fun _ _ _ _ hvw => hvw.1

/-- The names of the sites are the names in the pattern. -/
theorem map_name_sites? {p : Pattern} {o : Occasion} {v : Value} {sites : List Site}
    (h : p.sites? o v = some sites) : sites.map Site.name = p.origins.map Origin.name := by
  have hrel := sameSites_same p (o := o) (v := v) (.inl rfl)
  rw [h] at hrel
  cases hrel with
  | some hsites => exact hsites.map_name_eq

theorem length_sites? {p : Pattern} {o : Occasion} {v : Value} {sites : List Site}
    (h : p.sites? o v = some sites) : sites.length = p.siteCount := by
  have hnames := congrArg List.length (map_name_sites? h)
  rwa [List.length_map, List.length_map, length_origins] at hnames

end Pattern

end StructuralMatching
