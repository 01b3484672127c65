/-
Patterns that a JSON tree describes.

A description has no words for classes, and its values are data.  So what it describes is a pattern
in which nothing else is found, and the only things that can be wrong with it are its depth and the
layout of its segments.

* `Json.toJson?_describe` — a tree holds itself as data;
* `Pattern.Describable` — there is nothing in a pattern but what a description can say;
* `Config.isSound_meaning`, `Pattern.describable_of_ofJson?` — what is described is describable;
* `Pattern.error_of_describable` — what can be wrong with a describable pattern.

Design notes: in the place of an option `null` means that there is none.  So no default and no
literal of a segment is `null`.
-/
import StructuralMatching.Config.Pattern
import StructuralMatching.Proofs.Config.Record
import StructuralMatching.Proofs.Matching.Constants
import StructuralMatching.Proofs.Value.Json

namespace StructuralMatching

/-! ### Trees as descriptions -/

namespace Json

theorem toJson?_describe_int (n : Int64) : (int n).describe.toJson? = some (int n) := by
  rw [describe]
  split
  · rename_i hn
    have hlt : n.toInt < 2 ^ 63 := n.toInt_lt
    have hword : (UInt64.ofNat n.toInt.toNat).toNat = n.toInt.toNat :=
      UInt64.toNat_ofNat_of_lt' (by rw [UInt64.size]; omega)
    rw [Description.toJson?, hword, ofNatural?_toInt hn]
  · rfl

theorem toJson?_describe_large (n : UInt64) (hn : 2 ^ 63 ≤ n.toNat) :
    (large n hn).describe.toJson? = some (large n hn) := by
  rw [describe, Description.toJson?, ofNatural?_toNat hn]

theorem toJson?_describe_float (x : Binary64) (hx : x.isFinite = true) :
    (float x hx).describe.toJson? = some (float x hx) := by
  rw [describe, Description.toJson?, ofFloat?, dif_pos hx]
  rfl

mutual

/-- **A tree holds itself as data.** -/
theorem toJson?_describe (j : Json) : j.describe.toJson? = some j := by
  cases j with
  | null | bool | string => rfl
  | int n => exact toJson?_describe_int n
  | large n hn => exact toJson?_describe_large n hn
  | float x hx => exact toJson?_describe_float x hx
  | array items =>
    show (Description.toJsonItems? (describeItems items)).map array = _
    rw [toJsonItems?_describeItems items]
    rfl
  | object entries =>
    show (Description.toJsonEntries? (describeEntries entries)).map object = _
    rw [toJsonEntries?_describeEntries entries]
    rfl
termination_by structural j

theorem toJsonItems?_describeItems (js : List Json) :
    Description.toJsonItems? (describeItems js) = some js := by
  cases js with
  | nil => rfl
  | cons j js =>
    rw [describeItems, Description.toJsonItems?, toJson?_describe j, toJsonItems?_describeItems js]
    rfl
termination_by structural js

theorem toJsonEntries?_describeEntries (entries : List (String × Json)) :
    Description.toJsonEntries? (describeEntries entries) = some entries := by
  cases entries with
  | nil => rfl
  | cons entry rest =>
    obtain ⟨key, j⟩ := entry
    rw [describeEntries, Description.toJsonEntries?, toJson?_describe j,
      toJsonEntries?_describeEntries rest]
    rfl
termination_by structural entries

end

theorem describeItems_eq_map (js : List Json) : describeItems js = js.map describe := by
  induction js with
  | nil => rfl
  | cons j js ih => rw [describeItems, ih, List.map_cons]

theorem describeEntries_eq_map (entries : List (String × Json)) :
    describeEntries entries = entries.map fun e => (.text e.1, e.2.describe) := by
  induction entries with
  | nil => rfl
  | cons e rest ih => rw [describeEntries, ih, List.map_cons]

theorem isNull_describe {j : Json} : j.describe.isNull = true ↔ j = null := by
  cases j with
  | int n =>
    rw [describe]
    split <;> simp [Description.isNull]
  | _ => simp [describe, Description.isNull]

theorem isNull_describe_eq_false {j : Json} (h : j ≠ null) : j.describe.isNull = false :=
  Bool.eq_false_iff.mpr fun hnull => h (isNull_describe.mp hnull)

end Json

/-! ### Describable patterns -/

/-- A value that is told by a JSON tree. -/
def Value.IsJson (v : Value) : Prop := v.Ordered ∧ v.IsData

/-- A value that is told by a JSON tree in the place of an option, where `null` tells that there is
none. -/
def Value.IsGiven (v : Value) : Prop := v.IsJson ∧ v ≠ .null

/-- A segment whose literal, if it has one, is told by a JSON tree. -/
def Segment.Describable (s : Segment) : Prop := ∀ v ∈ s.literal, v.IsGiven

namespace Pattern

mutual

/-- There are no classes in a pattern, and all its values are told by JSON trees. -/
def Describable : Pattern → Prop
  | var v => ∀ d ∈ v.default, d.IsGiven
  | capture inner => Describable inner
  | headTail head tail => Describable head ∧ Describable tail
  | bound v | literal v => v.IsJson
  | instanceOf _ _ => False
  | bitstring segments => ∀ s ∈ segments, s.Describable
  | list items => DescribableItems items
  | map fields => Fields.Ascending fields ∧ DescribableEntries fields
  | _ => True
termination_by structural p => p

def DescribableItems : List Pattern → Prop
  | [] => True
  | p :: ps => Describable p ∧ DescribableItems ps
termination_by structural ps => ps

def DescribableEntries : List (String × Pattern) → Prop
  | [] => True
  | (_, p) :: entries => Describable p ∧ DescribableEntries entries
termination_by structural entries => entries

end

theorem describableItems_iff {ps : List Pattern} :
    DescribableItems ps ↔ ∀ p ∈ ps, p.Describable := by
  induction ps with
  | nil => simp [DescribableItems]
  | cons p ps ih => rw [DescribableItems, ih, List.forall_mem_cons]

theorem describableEntries_iff {entries : List (String × Pattern)} :
    DescribableEntries entries ↔ ∀ e ∈ entries, e.2.Describable := by
  induction entries with
  | nil => simp [DescribableEntries]
  | cons entry rest ih => rw [DescribableEntries, ih, List.forall_mem_cons]

end Pattern

/-! ### What a tree describes -/

theorem Value.isJson_ofJson (j : Json) : (ofJson j).IsJson := ⟨ordered_ofJson j, isData_ofJson j⟩

theorem Value.ofDescription?_describe (j : Json) :
    Value.ofDescription? j.describe = some (ofJson j) := by
  rw [Value.ofDescription?, Json.toJson?_describe]
  rfl

theorem Config.of_optional? {α β : Type} {isAbsent : α → Bool} {read : α → Option β}
    {field : Option α} {b : β} (h : optional? isAbsent read field = some (some b)) :
    ∃ a, field = some a ∧ isAbsent a = false ∧ read a = some b := by
  cases field with
  | none => cases h
  | some a =>
    rw [optional?] at h
    split at h
    · cases h
    · rename_i hpresent
      obtain ⟨_, hread, hb⟩ := Option.map_eq_some_iff.mp h
      cases hb
      exact ⟨a, rfl, Bool.eq_false_iff.mpr hpresent, hread⟩

theorem Config.of_required? {α β γ : Type} {read : α → Option β} {field : Option α} {f : β → γ}
    {c : γ} (h : (do return f (← required? read field)) = some c) :
    ∃ a b, field = some a ∧ read a = some b ∧ f b = c := by
  obtain ⟨b, hb, hc⟩ := Option.bind_eq_some_iff.mp h
  obtain ⟨a, ha, hread⟩ := Option.bind_eq_some_iff.mp hb
  exact ⟨a, b, ha, hread, Option.some.inj hc⟩

theorem Value.isGiven_of_describe {j : Json} {v : Value} (hpresent : j.describe.isNull = false)
    (h : Value.ofDescription? j.describe = some v) : v.IsGiven := by
  rw [Value.ofDescription?_describe] at h
  obtain rfl := Option.some.inj h
  refine ⟨isJson_ofJson j, fun hv => ?_⟩
  have hnull := Json.isNull_describe.mpr (ofJson_eq_null_iff.mp hv)
  rw [hpresent] at hnull
  cases hnull

/-- The fields of a record in a tree are trees. -/
theorem Json.exists_of_asRecord? {names : List String} {j : Json}
    {fields : List (Option Description)} (h : j.describe.asRecord? names = some fields)
    {d : Description} (hd : some d ∈ fields) : ∃ i : Json, d = i.describe := by
  cases j with
  | array items =>
    have hmem := Config.mem_of_positionalFields h hd
    rw [describeItems_eq_map] at hmem
    obtain ⟨i, -, rfl⟩ := List.mem_map.mp hmem
    exact ⟨i, rfl⟩
  | object entries =>
    obtain ⟨key, hmem⟩ := Config.mem_of_describedFields? h hd
    rw [describeEntries_eq_map] at hmem
    obtain ⟨e, -, he⟩ := List.mem_map.mp hmem
    cases he
    exact ⟨e.2, rfl⟩
  | int n =>
    rw [describe] at h
    split at h <;> cases h
  | _ => cases h

theorem Segment.describable_of_ofDescription? {j : Json} {s : Segment}
    (h : Segment.ofDescription? j.describe = some s) : s.Describable := by
  obtain ⟨fields, hfields, h⟩ := Option.bind_eq_some_iff.mp h
  split at h
  · simp only [Option.bind_eq_bind, Option.bind_eq_some_iff] at h
    obtain ⟨literal, hliteral, kind, -, size, -, unit, -, attributes, -, h⟩ := h
    cases h
    rintro v rfl
    obtain ⟨d, rfl, hpresent, hread⟩ := Config.of_optional? hliteral
    obtain ⟨i, rfl⟩ := Json.exists_of_asRecord? hfields List.mem_cons_self
    exact Value.isGiven_of_describe hpresent hread
  · cases h

namespace Config

/-- What is found out about a JSON tree: the tree, and nothing that is not describable. -/
structure Meaning.IsSound (m : Meaning) : Prop where
  described : ∃ j : Json, m.description = j.describe
  pattern : ∀ p, m.pattern? = some p → p.Describable
  patterns : ∀ ps, m.patterns? = some ps → ∀ p ∈ ps, p.Describable
  fields : ∀ fs, m.fields? = some fs → ∀ e ∈ fs, e.2.Describable

/-- A tree that means nothing as part of a pattern. -/
theorem Meaning.isSound_without (j : Json) : Meaning.IsSound ⟨j.describe, none, none, none⟩ where
  described := ⟨j, rfl⟩
  pattern _ h := absurd h (Option.some_ne_none _).symm
  patterns _ h := absurd h (Option.some_ne_none _).symm
  fields _ h := absurd h (Option.some_ne_none _).symm

namespace Meaning.IsSound

variable {m : Meaning}

theorem isJson (h : m.IsSound) {v : Value} (hv : m.value? = some v) : v.IsJson := by
  obtain ⟨j, hj⟩ := h.described
  rw [value?, hj, Value.ofDescription?_describe] at hv
  exact Option.some.inj hv ▸ Value.isJson_ofJson j

theorem isGiven (h : m.IsSound) (hpresent : m.isNull = false) {v : Value}
    (hv : m.value? = some v) : v.IsGiven := by
  obtain ⟨j, hj⟩ := h.described
  rw [isNull, hj] at hpresent
  rw [value?, hj] at hv
  exact Value.isGiven_of_describe hpresent hv

theorem segments (h : m.IsSound) {segments : List Segment} (hs : m.segments? = some segments) :
    ∀ s ∈ segments, s.Describable := by
  intro s hmem
  obtain ⟨j, hj⟩ := h.described
  rw [segments?, hj] at hs
  obtain ⟨ds, hds, hread⟩ := Option.bind_eq_some_iff.mp hs
  obtain ⟨d, hd, hs⟩ := exists_of_mem_mapM hread hmem
  cases j with
  | array items =>
    cases hds
    rw [Json.describeItems_eq_map] at hd
    obtain ⟨i, -, rfl⟩ := List.mem_map.mp hd
    exact Segment.describable_of_ofDescription? hs
  | int n =>
    rw [Json.describe] at hds
    split at hds <;> cases hds
  | _ => cases hds

end Meaning.IsSound

/-- Where no part is described, there is a variable without name and default. -/
theorem describable_getD {field : Option Meaning} {found : Option Pattern}
    (hfield : ∀ m, field = some m → m.IsSound)
    (h : optional? Meaning.isNull Meaning.pattern? field = some found) :
    (found.getD (.var .unnamed)).Describable := by
  cases found with
  | none => exact fun d hd => absurd hd (Option.not_mem_none d)
  | some p =>
    obtain ⟨m, hm, -, hp⟩ := of_optional? h
    exact (hfield m hm).pattern p hp

theorem describable_of_patternOfFields? {kind : PatternKind} {fields : List (Option Meaning)}
    (hfields : ∀ m, some m ∈ fields → m.IsSound) {p : Pattern}
    (h : patternOfFields? kind fields = some p) : p.Describable := by
  fun_cases patternOfFields? kind fields with
  | case1 =>
    cases h
    trivial
  | case2 name default =>
    obtain ⟨_, -, h⟩ := Option.bind_eq_some_iff.mp h
    obtain ⟨found, hfound, h⟩ := Option.bind_eq_some_iff.mp h
    cases h
    rintro v rfl
    obtain ⟨m, rfl, hpresent, hv⟩ := of_optional? hfound
    exact (hfields m (by simp)).isGiven hpresent hv
  | case3 inner =>
    obtain ⟨m, p, rfl, hp, rfl⟩ := of_required? h
    exact (hfields m List.mem_cons_self).pattern p hp
  | case4 stem =>
    obtain ⟨_, _, -, -, rfl⟩ := of_required? h
    trivial
  | case5 head tail =>
    obtain ⟨_, hhead, h⟩ := Option.bind_eq_some_iff.mp h
    obtain ⟨_, htail, h⟩ := Option.bind_eq_some_iff.mp h
    cases h
    exact ⟨describable_getD (fun m hm => hfields m (by simp [hm])) hhead,
      describable_getD (fun m hm => hfields m (by simp [hm])) htail⟩
  | case6 value =>
    obtain ⟨m, v, rfl, hv, rfl⟩ := of_required? h
    exact (hfields m List.mem_cons_self).isJson hv
  | case7 value =>
    obtain ⟨m, v, rfl, hv, rfl⟩ := of_required? h
    exact (hfields m List.mem_cons_self).isJson hv
  | case8 items =>
    obtain ⟨m, ps, rfl, hps, rfl⟩ := of_required? h
    exact Pattern.describableItems_iff.mpr ((hfields m List.mem_cons_self).patterns ps hps)
  | case9 fields =>
    obtain ⟨m, entries, rfl, hentries, rfl⟩ := of_required? h
    have hsound := (hfields m List.mem_cons_self).fields entries hentries
    refine ⟨Fields.ascending_ofList entries, Pattern.describableEntries_iff.mpr fun e he => ?_⟩
    exact hsound e (Fields.mem_of_mem_ofList he)
  | case10 segments =>
    obtain ⟨m, found, rfl, hfound, rfl⟩ := of_required? h
    exact (hfields m List.mem_cons_self).segments hfound
  | case11 => simp_all [patternOfFields?]

theorem describable_of_patternOfEntries? {entries : List (Description × Meaning)}
    (hentries : ∀ e ∈ entries, e.2.IsSound) {p : Pattern}
    (h : patternOfEntries? entries = some p) : p.Describable := by
  rw [patternOfEntries?] at h
  split at h
  · obtain ⟨kind, -, h⟩ := Option.bind_eq_some_iff.mp h
    split at h
    · exact describable_of_patternOfFields? (fun m hm => absurd hm List.not_mem_nil) h
    · obtain ⟨fields, hfields, h⟩ := Option.bind_eq_some_iff.mp h
      refine describable_of_patternOfFields? (fun m hm => ?_) h
      obtain ⟨key, he⟩ := mem_of_describedFields? hfields hm
      exact hentries _ (List.mem_of_mem_filter he)
  · cases h

theorem describable_of_patternOfItems? {ms : List Meaning} (hms : ∀ m ∈ ms, m.IsSound)
    {p : Pattern} (h : patternOfItems? ms = some p) : p.Describable := by
  cases ms with
  | nil => cases h
  | cons tag rest =>
    obtain ⟨kind, -, h⟩ := Option.bind_eq_some_iff.mp h
    obtain ⟨fields, hfields, h⟩ := Option.bind_eq_some_iff.mp h
    refine describable_of_patternOfFields? (fun m hm => ?_) h
    exact hms m (List.mem_cons_of_mem _ (mem_of_positionalFields hfields hm))

mutual

-- The induction is on the tree: what it means is put together from what its parts mean.

/-- What is found out about a JSON tree is sound. -/
theorem isSound_meaning (j : Json) : (meaning j.describe).IsSound := by
  cases j with
  | array items =>
    have hitems := isSound_meanings items
    refine ⟨⟨.array items, rfl⟩, fun p hp => describable_of_patternOfItems? hitems hp,
      fun ps hps p hp => ?_, fun _ hfs => absurd hfs (Option.some_ne_none _).symm⟩
    obtain ⟨m, hm, hread⟩ := exists_of_mem_mapM hps hp
    exact (hitems m hm).pattern p hread
  | object entries =>
    have hentries := isSound_meaningsOfEntries entries
    refine ⟨⟨.object entries, rfl⟩, fun p hp => describable_of_patternOfEntries? hentries hp,
      fun _ hps => absurd hps (Option.some_ne_none _).symm, fun fs hfs field hfield => ?_⟩
    obtain ⟨e, he, hread⟩ := exists_of_mem_mapM hfs hfield
    obtain ⟨key, -, hread⟩ := Option.bind_eq_some_iff.mp hread
    obtain ⟨p, hp, hread⟩ := Option.bind_eq_some_iff.mp hread
    cases hread
    exact (hentries e he).pattern p hp
  | int n =>
    have hmeaning : meaning (Json.int n).describe = ⟨(Json.int n).describe, none, none, none⟩ := by
      rw [Json.describe]
      split <;> rfl
    exact hmeaning ▸ Meaning.isSound_without (.int n)
  | null => exact Meaning.isSound_without .null
  | bool b => exact Meaning.isSound_without (.bool b)
  | large n hn => exact Meaning.isSound_without (.large n hn)
  | float x hx => exact Meaning.isSound_without (.float x hx)
  | string s => exact Meaning.isSound_without (.string s)
termination_by structural j

theorem isSound_meanings (js : List Json) :
    ∀ m ∈ meanings (Json.describeItems js), m.IsSound := by
  cases js with
  | nil => exact fun m hm => absurd hm List.not_mem_nil
  | cons j js => exact List.forall_mem_cons.mpr ⟨isSound_meaning j, isSound_meanings js⟩
termination_by structural js

theorem isSound_meaningsOfEntries (entries : List (String × Json)) :
    ∀ e ∈ meaningsOfEntries (Json.describeEntries entries), e.2.IsSound := by
  cases entries with
  | nil => exact fun e he => absurd he List.not_mem_nil
  | cons entry rest =>
    obtain ⟨key, j⟩ := entry
    exact List.forall_mem_cons.mpr ⟨isSound_meaning j, isSound_meaningsOfEntries rest⟩
termination_by structural entries

end

end Config

/-- Only instances are not supported as constants. -/
theorem PatternNode.exists_object_of_fault? {n : PatternNode} {kind : String}
    (h : n.fault? = some (.unsupportedLiteral kind)) : ∃ i, n.part = .constant (.object i) := by
  rw [fault?] at h
  split at h
  · cases hpart : n.part with
    | constant v =>
      rw [hpart] at h
      cases v with
      | object i => exact ⟨i, rfl⟩
      | _ => cases h
    | pattern p =>
      rw [hpart] at h
      cases p with
      | bitstring segments =>
        rw [Part.fault?] at h
        split at h <;> cases h
      | _ => cases h
  · cases h

namespace Pattern

/-- **What a JSON tree describes is describable.** -/
theorem describable_of_ofJson? {j : Json} {p : Pattern} (h : ofJson? j = some p) :
    p.Describable := by
  rw [ofJson?, ofDescription?] at h
  split at h
  · exact (Config.isSound_meaning j).pattern p h
  · cases h

/-! ### What can be wrong with it -/

mutual

/-- No constant in a describable pattern holds an instance. -/
theorem part_ne_object (p : Pattern) (hp : p.Describable) {d : Nat} {n : PatternNode}
    (hn : n ∈ p.nodes d) (i : Instance Value) : n.part ≠ .constant (.object i) := by
  cases p with
  | wildcard | var | startsWith | bound | bitstring =>
    cases List.mem_singleton.mp hn
    exact fun h => nomatch h
  | capture inner =>
    rcases List.mem_cons.mp hn with rfl | hn
    · exact fun h => nomatch h
    · exact part_ne_object inner hp hn i
  | headTail head tail =>
    rcases List.mem_cons.mp hn with rfl | hn
    · exact fun h => nomatch h
    · rcases List.mem_append.mp hn with hn | hn
      · exact part_ne_object head hp.1 hn i
      · exact part_ne_object tail hp.2 hn i
  | instanceOf => exact hp.elim
  | literal v =>
    obtain ⟨x, hx, hreach⟩ := Value.reaches_of_mem_nodes v hn
    intro h
    obtain rfl := Part.constant.inj (hx.symm.trans h)
    exact hp.2 _ hreach
  | list items =>
    rcases List.mem_cons.mp hn with rfl | hn
    · exact fun h => nomatch h
    · exact part_ne_object_items items hp hn i
  | map fields =>
    rcases List.mem_cons.mp hn with rfl | hn
    · exact fun h => nomatch h
    · exact part_ne_object_entries fields hp.2 hn i
termination_by structural p

theorem part_ne_object_items (ps : List Pattern) (hps : DescribableItems ps) {d : Nat}
    {n : PatternNode} (hn : n ∈ itemNodes d ps) (i : Instance Value) :
    n.part ≠ .constant (.object i) := by
  cases ps with
  | nil => cases hn
  | cons p ps =>
    rcases List.mem_append.mp hn with hn | hn
    · exact part_ne_object p hps.1 hn i
    · exact part_ne_object_items ps hps.2 hn i
termination_by structural ps

theorem part_ne_object_entries (entries : List (String × Pattern))
    (hentries : DescribableEntries entries) {d : Nat} {n : PatternNode}
    (hn : n ∈ entryNodes d entries) (i : Instance Value) : n.part ≠ .constant (.object i) := by
  cases entries with
  | nil => cases hn
  | cons entry rest =>
    obtain ⟨key, p⟩ := entry
    rcases List.mem_append.mp hn with hn | hn
    · exact part_ne_object p hentries.1 hn i
    · exact part_ne_object_entries rest hentries.2 hn i
termination_by structural entries

end

/-- A describable pattern that does not compile is too deep, or has segments without a layout. -/
theorem error_of_describable {p : Pattern} (hp : p.Describable) {e : PatternError}
    (h : p.compile = .error e) :
    (∃ depth max, e = .depthExceeded depth max) ∨ ∃ index cause, e = .segment index cause := by
  obtain ⟨before, n, after, hnodes, -, hn⟩ := compile_eq_error_iff.mp h
  have hmem : n ∈ p.nodes 1 := hnodes ▸ List.mem_append_right _ List.mem_cons_self
  cases e with
  | depthExceeded depth max => exact .inl ⟨depth, max, rfl⟩
  | segment index cause => exact .inr ⟨index, cause, rfl⟩
  | unsupportedLiteral kind =>
    obtain ⟨i, hi⟩ := PatternNode.exists_object_of_fault? hn
    exact absurd hi (part_ne_object p hp hmem i)

end Pattern

end StructuralMatching
