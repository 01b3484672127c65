/-
Fields of records, found by their names.

* `Config.HasFields` — what the entries of an object say about some keys;
* `Config.namedFields?_of_hasFields` — the declared fields are found wherever they stand, and
  whatever else there is;
* `Config.exists_hasFields` — fields can be written.

Design notes: nothing is said about the order of the entries, nor about keys other than the given
ones.
-/
import Mathlib.Data.List.Perm.Basic
import StructuralMatching.Config.Description

namespace StructuralMatching

variable {α β : Type}

/-! ### Lists read item by item -/

theorem mapM_eq_some_iff {f : α → Option β} {items : List α} {found : List β} :
    items.mapM f = some found ↔ List.Forall₂ (fun a b => f a = some b) items found := by
  induction items generalizing found with
  | nil =>
    rw [List.mapM_nil, List.forall₂_nil_left_iff]
    exact Option.some_inj.trans eq_comm
  | cons a items ih =>
    rw [List.mapM_cons, List.forall₂_cons_left_iff]
    simp only [Option.bind_eq_bind, Option.bind_eq_some_iff, Option.pure_def, Option.some_inj, ih]
    constructor
    · rintro ⟨b, hb, found, hfound, rfl⟩
      exact ⟨b, found, hb, hfound, rfl⟩
    · rintro ⟨b, found, hb, hfound, rfl⟩
      exact ⟨b, hb, found, hfound, rfl⟩

/-- What is read comes from an item. -/
theorem exists_of_mem_mapM {f : α → Option β} {items : List α} {found : List β}
    (h : items.mapM f = some found) {b : β} (hb : b ∈ found) : ∃ a ∈ items, f a = some b := by
  induction mapM_eq_some_iff.mp h with
  | nil => cases hb
  | cons hab hrest ih =>
    rcases List.mem_cons.mp hb with rfl | hb
    · exact ⟨_, List.mem_cons_self, hab⟩
    · obtain ⟨a, ha, hfa⟩ := ih (mapM_eq_some_iff.mpr hrest) hb
      exact ⟨a, List.mem_cons_of_mem _ ha, hfa⟩

/-- Items in another order are read in another order. -/
theorem exists_mapM_of_perm {f : α → Option β} {items others : List α} {found : List β}
    (hperm : others.Perm items) (h : items.mapM f = some found) :
    ∃ reordered, others.mapM f = some reordered ∧ reordered.Perm found := by
  obtain ⟨reordered, hread, hreordered⟩ :=
    List.perm_comp_forall₂ hperm (mapM_eq_some_iff.mp h)
  exact ⟨reordered, mapM_eq_some_iff.mpr hread, hreordered⟩

namespace Config

/-! ### Fields that are found -/

theorem fieldsAt?_eq_some {entries : List (Option Nat × α)} {fields : List (Option α)}
    (h : ∀ (i : Nat) (hi : i < fields.length),
      entries.filter (·.1 == some i) = fields[i].toList.map (some i, ·)) :
    fieldsAt? fields.length entries = some fields := by
  refine mapM_eq_some_iff.mpr (List.forall₂_iff_get.mpr ⟨List.length_range, fun i _ hi => ?_⟩)
  rw [List.get_eq_getElem, List.get_eq_getElem, List.getElem_range, h i hi]
  cases fields[i] <;> rfl

theorem mem_of_fieldsAt? {count : Nat} {entries : List (Option Nat × α)}
    {fields : List (Option α)} (h : fieldsAt? count entries = some fields) {a : α}
    (ha : some a ∈ fields) : ∃ place, (place, a) ∈ entries := by
  obtain ⟨i, -, hi⟩ := exists_of_mem_mapM h ha
  split at hi
  · cases hi
  · rename_i entry hentry
    cases hi
    have hmem : entry ∈ entries.filter (·.1 == some i) := hentry ▸ List.mem_singleton_self _
    exact ⟨entry.1, List.mem_of_mem_filter hmem⟩
  · cases hi

theorem mem_of_positionalFields {names : List String} {items : List α} {fields : List (Option α)}
    (h : positionalFields names items = some fields) {a : α} (ha : some a ∈ fields) :
    a ∈ items := by
  rw [positionalFields] at h
  split at h
  · cases h
    rcases List.mem_append.mp ha with ha | ha
    · obtain ⟨b, hb, hab⟩ := List.mem_map.mp ha
      exact Option.some.inj hab ▸ hb
    · cases (List.mem_replicate.mp ha).2
  · cases h

theorem mem_of_describedFields? {names : List String} {entries : List (Description × α)}
    {fields : List (Option α)} (h : describedFields? names entries = some fields) {a : α}
    (ha : some a ∈ fields) : ∃ key, (key, a) ∈ entries := by
  obtain ⟨placed, hplaced, hfields⟩ := Option.bind_eq_some_iff.mp h
  obtain ⟨place, hplace⟩ := mem_of_fieldsAt? hfields ha
  obtain ⟨e, he, hread⟩ := exists_of_mem_mapM hplaced hplace
  obtain ⟨_, _, hpair⟩ := Option.map_eq_some_iff.mp hread
  cases hpair
  exact ⟨e.1, he⟩

/-- Among entries whose keys are text, fields are found by their names. -/
theorem describedFields?_text (names : List String) (entries : List (String × α)) :
    describedFields? names (entries.map fun e => (.text e.1, e.2)) =
      namedFields? names entries := by
  have hplaced : (entries.map fun e => (Description.text e.1, e.2)).mapM (fun e =>
      (e.1.fieldPlace? names).map fun place => (place, e.2)) =
      some (entries.map fun e => (names.idxOf? e.1, e.2)) := by
    rw [List.mapM_map]
    refine mapM_eq_some_iff.mpr (List.forall₂_map_right_iff.mpr ?_)
    exact List.forall₂_same.mpr fun e _ => rfl
  rw [describedFields?, hplaced]
  rfl

/-! ### Fields by their names -/

/-- Under every given key the entries have what is given for it: one entry with this content, or no
entry.  Other keys are free. -/
def HasFields (entries : List (String × α)) (fields : List (String × Option α)) : Prop :=
  ∀ f ∈ fields, entries.filter (·.1 == f.1) = f.2.toList.map (f.1, ·)

theorem HasFields.map {entries : List (String × α)} {names : List String}
    {fields : List (Option α)} (h : HasFields entries (names.zip fields)) (g : α → β) :
    HasFields (entries.map fun e => (e.1, g e.2)) (names.zip (fields.map (Option.map g))) := by
  intro mapped hmapped
  rw [List.zip_map_right] at hmapped
  obtain ⟨f, hf, rfl⟩ := List.mem_map.mp hmapped
  rw [List.filter_map]
  show (entries.filter (·.1 == f.1)).map _ = _
  rw [h f hf]
  show (f.2.toList.map (f.1, ·)).map _ = (f.2.map g).toList.map (f.1, ·)
  cases f.2 <;> rfl

theorem idxOf?_eq_some_iff_of_nodup {names : List String} (hnames : names.Nodup) {i : Nat}
    (hi : i < names.length) {name : String} : names.idxOf? name = some i ↔ name = names[i] := by
  rw [List.idxOf?_eq_some_iff]
  constructor
  · rintro ⟨_, hname, -⟩
    exact hname.symm
  · rintro rfl
    refine ⟨hi, rfl, fun j hj heq => ?_⟩
    exact Nat.ne_of_lt hj ((List.getElem_inj hnames).mp heq)

/-- **The declared fields are found**, whatever the order of the entries and whatever else there
is. -/
theorem namedFields?_of_hasFields {names : List String} (hnames : names.Nodup)
    {entries : List (String × α)} {fields : List (Option α)}
    (hlength : fields.length = names.length) (h : HasFields entries (names.zip fields)) :
    namedFields? names entries = some fields := by
  rw [namedFields?, ← hlength]
  refine fieldsAt?_eq_some fun i hi => ?_
  have hname : i < names.length := hlength ▸ hi
  have hkey : ∀ e : String × α, (names.idxOf? e.1 == some i) = (e.1 == names[i]) := by
    intro e
    rw [Bool.eq_iff_iff, beq_iff_eq, beq_iff_eq, idxOf?_eq_some_iff_of_nodup hnames hname]
  have hfield : (names[i], fields[i]) ∈ names.zip fields := by
    have hzip : i < (names.zip fields).length := by
      rw [List.length_zip]
      exact Nat.lt_min.mpr ⟨hname, hi⟩
    exact List.getElem_zip (h := hzip) ▸ List.getElem_mem hzip
  have hindex : names.idxOf? names[i] = some i :=
    (idxOf?_eq_some_iff_of_nodup hnames hname).mpr rfl
  rw [List.filter_map]
  show (entries.filter fun e => names.idxOf? e.1 == some i).map _ = _
  simp only [hkey]
  rw [h _ hfield, List.map_map]
  simp only [Function.comp_def, hindex]

/-- The same where keys are text and the contents are looked at from some side. -/
theorem describedFields?_of_hasFields {names : List String} (hnames : names.Nodup)
    {entries : List (String × α)} {fields : List (Option α)}
    (hlength : fields.length = names.length) (h : HasFields entries (names.zip fields))
    (g : α → β) :
    describedFields? names (entries.map fun e => (.text e.1, g e.2)) =
      some (fields.map (Option.map g)) := by
  have htext := describedFields?_text names (entries.map fun e => (e.1, g e.2))
  rw [List.map_map] at htext
  refine htext.trans (namedFields?_of_hasFields hnames ?_ (h.map g))
  rw [List.length_map, hlength]

/-! ### Fields that are written -/

/-- The entries for the fields that are there. -/
def entriesOf (fields : List (String × Option α)) : List (String × α) :=
  fields.flatMap fun f => f.2.toList.map (f.1, ·)

theorem key_of_mem_entriesOf {fields : List (String × Option α)} {e : String × α}
    (he : e ∈ entriesOf fields) : e.1 ∈ Fields.keys fields := by
  obtain ⟨f, hf, he⟩ := List.mem_flatMap.mp he
  obtain ⟨a, -, rfl⟩ := List.mem_map.mp he
  exact List.mem_map_of_mem hf

/-- Fields with distinct names can be written, one after another. -/
theorem hasFields_entriesOf {fields : List (String × Option α)} (h : (Fields.keys fields).Nodup) :
    HasFields (entriesOf fields) fields := by
  induction fields with
  | nil => exact fun f hf => absurd hf List.not_mem_nil
  | cons first rest ih =>
    obtain ⟨hfirst, hrest⟩ := List.nodup_cons.mp h
    intro f hf
    show (first.2.toList.map (first.1, ·) ++ entriesOf rest).filter (·.1 == f.1) = _
    rw [List.filter_append]
    rcases List.mem_cons.mp hf with rfl | hf
    · have hothers : (entriesOf rest).filter (·.1 == f.1) = [] := by
        refine List.filter_eq_nil_iff.mpr fun e he heq => hfirst ?_
        exact beq_iff_eq.mp heq ▸ key_of_mem_entriesOf he
      rw [hothers, List.append_nil]
      cases f.2 <;> simp
    · have hne : first.1 ≠ f.1 := fun heq => hfirst (heq ▸ List.mem_map_of_mem hf)
      rw [ih hrest f hf]
      cases first.2 <;> simp [hne]

theorem exists_hasFields {names : List String} (hnames : names.Nodup) (fields : List (Option α))
    (hlength : fields.length = names.length) : ∃ entries, HasFields entries (names.zip fields) := by
  refine ⟨_, hasFields_entriesOf ?_⟩
  rwa [Fields.keys, List.map_fst_zip (Nat.le_of_eq hlength.symm)]

end Config

end StructuralMatching
