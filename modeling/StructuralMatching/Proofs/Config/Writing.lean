/-
Patterns written down as JSON trees.

Every describable pattern can be written down, and in many ways: the entries of an object may stand
in any order and have others between them, and what is not there may be left out.  Whatever the way,
the tree describes the pattern that was written down.

* `Pattern.WrittenAs` — a tree gives each node by its kind and its fields;
* `Config.pattern?_of_isNode` — such a tree is read field by field;
* `Pattern.ofJson?_of_writtenAs` — a written pattern is the one that is described;
* `Pattern.exists_writtenAs` — every describable pattern can be written;
* `Pattern.descriptions_denote_data` — so these are the patterns that are described.

Design notes: how a pattern is written is a relation and no function, and is defined along the
pattern.  It says nothing about reading.
-/
import StructuralMatching.Proofs.Config.Describable

namespace StructuralMatching

/-! ### Writing -/

/-- The tree of a value, its entries in any order; of entries with one key the last counts. -/
def Value.WrittenAs (v : Value) (j : Json) : Prop := j.normalize = v.toJson .start

namespace Config

/-- How an option is written: as what is there, or else as `null` or not at all. -/
def OptionWrittenAs {α : Type} (W : α → Json → Prop) : Option α → Option Json → Prop
  | some a, field => ∃ j, field = some j ∧ W a j
  | none, field => field = none ∨ field = some .null

/-- An object that gives its kind, and the declared fields of this kind as far as they are there. -/
def IsNode (kind : PatternKind) (fields : List (Option Json)) (j : Json) : Prop :=
  ∃ entries, j = .object entries ∧
    HasFields entries ((kindKey, some (.string kind.name)) :: kind.fieldNames.zip fields)

end Config

namespace Segment

/-- A word is written as a number. -/
def WordWrittenAs (n : UInt32) (j : Json) : Prop := j = .int (Int64.ofNat n.toNat)

/-- Attributes are written as a list of their names, which may be left out if there are none. -/
def AttributesWrittenAs (attributes : List SegmentAttribute) (field : Option Json) : Prop :=
  field = some (.array (attributes.map fun a => .string a.name)) ∨ attributes = [] ∧ field = none

/-- An object that gives the fields of a segment. -/
def WrittenAs (s : Segment) (j : Json) : Prop :=
  ∃ literal size unit attributes entries, j = .object entries ∧
    Config.HasFields entries (fieldNames.zip
      [literal, some (.string s.kind.name), size, unit, attributes]) ∧
    Config.OptionWrittenAs Value.WrittenAs s.literal literal ∧
    Config.OptionWrittenAs WordWrittenAs s.size size ∧
    Config.OptionWrittenAs WordWrittenAs s.unit unit ∧
    AttributesWrittenAs s.attributes attributes

end Segment

namespace Pattern

open Config in
mutual

/-- A tree that writes a pattern down, node by node.  The parts of a list that is not empty may be
left out if they are variables without name and default.  The entries of a map may stand in any
order. -/
def WrittenAs : Pattern → Json → Prop
  | wildcard, j => IsNode .wildcard [] j
  | var v, j => ∃ name default, IsNode .var [name, default] j ∧
      OptionWrittenAs (fun s i => i = .string s) v.name name ∧
      OptionWrittenAs Value.WrittenAs v.default default
  | capture inner, j => ∃ i, IsNode .capture [some i] j ∧ WrittenAs inner i
  | startsWith stem, j => IsNode .startsWith [some (.string stem)] j
  | headTail head tail, j => ∃ h t, IsNode .headTail [h, t] j ∧
      ((∃ i, h = some i ∧ WrittenAs head i) ∨ head = var .unnamed ∧ (h = none ∨ h = some .null)) ∧
      ((∃ i, t = some i ∧ WrittenAs tail i) ∨ tail = var .unnamed ∧ (t = none ∨ t = some .null))
  | bound v, j => ∃ i, IsNode .bound [some i] j ∧ v.WrittenAs i
  | instanceOf _ _, _ => False
  | bitstring segments, j => ∃ is, IsNode .bitstring [some (.array is)] j ∧
      List.Forall₂ Segment.WrittenAs segments is
  | literal v, j => ∃ i, IsNode .literal [some i] j ∧ v.WrittenAs i
  | list items, j => ∃ is, IsNode .list [some (.array is)] j ∧ ItemsWrittenAs items is
  | map fields, j => ∃ es is, IsNode .map [some (.object is)] j ∧ is.Perm es ∧
      EntriesWrittenAs fields es
termination_by structural p => p

def ItemsWrittenAs : List Pattern → List Json → Prop
  | [], is => is = []
  | p :: ps, is => ∃ i rest, is = i :: rest ∧ WrittenAs p i ∧ ItemsWrittenAs ps rest
termination_by structural ps => ps

def EntriesWrittenAs : List (String × Pattern) → List (String × Json) → Prop
  | [], es => es = []
  | (key, p) :: entries, es => ∃ i rest, es = (key, i) :: rest ∧ WrittenAs p i ∧
      EntriesWrittenAs entries rest
termination_by structural entries => entries

end

end Pattern

/-! ### Written parts are read -/

theorem Value.ofJson_of_writtenAs {v : Value} (hv : v.IsJson) {j : Json} (h : v.WrittenAs j) :
    ofJson j = v := by
  rw [← ofJson_normalize, h, ofJson_toJson_of_isData hv.1 hv.2]

theorem Value.ofDescription?_of_writtenAs {v : Value} (hv : v.IsJson) {j : Json}
    (h : v.WrittenAs j) : Value.ofDescription? j.describe = some v := by
  rw [ofDescription?_describe, ofJson_of_writtenAs hv h]

theorem Value.isNull_of_writtenAs {v : Value} (hv : v.IsGiven) {j : Json} (h : v.WrittenAs j) :
    j.describe.isNull = false := by
  refine Json.isNull_describe_eq_false fun hj => hv.2 ?_
  rw [← ofJson_of_writtenAs hv.1 h, hj]
  rfl

/-- An option is read as it was written, if what is there is read as it was written, and is not
`null`. -/
theorem Config.optional?_of_writtenAs {α γ : Type} {W : α → Json → Prop} {isAbsent : γ → Bool}
    {read : γ → Option α} {view : Json → γ} (hnull : isAbsent (view .null) = true)
    {a : Option α}
    (hread : ∀ x ∈ a, ∀ j, W x j → isAbsent (view j) = false ∧ read (view j) = some x)
    {field : Option Json} (h : OptionWrittenAs W a field) :
    optional? isAbsent read (field.map view) = some a := by
  cases a with
  | none =>
    rcases h with rfl | rfl
    · rfl
    · exact if_pos hnull
  | some x =>
    obtain ⟨j, rfl, hj⟩ := h
    obtain ⟨hpresent, hx⟩ := hread x rfl j hj
    show (if isAbsent (view j) = true then _ else _) = _
    rw [hpresent, hx]
    rfl

/-- The fields of an object are the declared fields of a record. -/
theorem Json.asRecord?_of_hasFields {names : List String} (hnames : names.Nodup)
    {entries : List (String × Json)} {fields : List (Option Json)}
    (hlength : fields.length = names.length) (h : Config.HasFields entries (names.zip fields)) :
    (object entries).describe.asRecord? names = some (fields.map (Option.map describe)) := by
  show Config.describedFields? names (describeEntries entries) = _
  rw [describeEntries_eq_map]
  exact Config.describedFields?_of_hasFields hnames hlength h describe

/-! ### Segments -/

namespace Segment

theorem wordOfDescription?_of_writtenAs {n : UInt32} {j : Json} (h : WordWrittenAs n j) :
    j.describe.isNull = false ∧ wordOfDescription? j.describe = some n := by
  subst h
  have hlt : n.toNat < 2 ^ 32 := n.toNat_lt
  have hint : (Int64.ofNat n.toNat).toInt = n.toNat := Int64.toInt_ofNat_of_lt (by omega)
  have hword : (UInt64.ofNat n.toNat).toNat = n.toNat :=
    UInt64.toNat_ofNat_of_lt' (by rw [UInt64.size]; omega)
  refine ⟨Json.isNull_describe_eq_false Json.noConfusion, ?_⟩
  rw [Json.describe, hint, if_pos (Int.natCast_nonneg _), Int.toNat_natCast, wordOfDescription?,
    Description.asNatural?, hword]
  show (if n.toNat < 2 ^ 32 then some (UInt32.ofNat n.toNat) else none) = some n
  rw [if_pos hlt, UInt32.ofNat_toNat]

theorem typeOfDescription?_name (kind : SegmentType) :
    typeOfDescription? (.text kind.name) = some kind := by
  cases kind <;> decide

theorem attributeOfDescription?_name (a : SegmentAttribute) :
    attributeOfDescription? (.text a.name) = some a := by
  cases a <;> decide

theorem withDefault?_of_writtenAs {attributes : List SegmentAttribute} {field : Option Json}
    (h : AttributesWrittenAs attributes field) :
    Config.withDefault? [] attributesOfDescription? (field.map Json.describe) =
      some attributes := by
  rcases h with rfl | ⟨rfl, rfl⟩
  · show (Json.describeItems (attributes.map fun a => .string a.name)).mapM
      attributeOfDescription? = some attributes
    rw [Json.describeItems_eq_map, List.map_map, List.mapM_map]
    exact mapM_eq_some_iff.mpr (List.forall₂_same.mpr fun a _ => attributeOfDescription?_name a)
  · rfl

theorem ofDescription?_of_writtenAs {s : Segment} (hs : s.Describable) {j : Json}
    (h : s.WrittenAs j) : Segment.ofDescription? j.describe = some s := by
  obtain ⟨literal, size, unit, attributes, entries, rfl, hfields, hliteral, hsize, hunit,
    hattributes⟩ := h
  have hrecord := Json.asRecord?_of_hasFields (by decide) rfl hfields
  have hvalue : Config.optional? Description.isNull Value.ofDescription?
      (literal.map Json.describe) = some s.literal :=
    Config.optional?_of_writtenAs rfl (fun v hv i hi =>
      ⟨Value.isNull_of_writtenAs (hs v hv) hi,
        Value.ofDescription?_of_writtenAs (hs v hv).1 hi⟩) hliteral
  have hword : ∀ {n : Option UInt32} {field : Option Json},
      Config.OptionWrittenAs WordWrittenAs n field →
      Config.optional? Description.isNull wordOfDescription? (field.map Json.describe) = some n :=
    fun hn => Config.optional?_of_writtenAs rfl
      (fun _ _ _ hi => wordOfDescription?_of_writtenAs hi) hn
  refine Option.bind_eq_some_iff.mpr ⟨_, hrecord, ?_⟩
  refine Option.bind_eq_some_iff.mpr ⟨_, hvalue, ?_⟩
  refine Option.bind_eq_some_iff.mpr ⟨_, typeOfDescription?_name s.kind, ?_⟩
  refine Option.bind_eq_some_iff.mpr ⟨_, hword hsize, ?_⟩
  refine Option.bind_eq_some_iff.mpr ⟨_, hword hunit, ?_⟩
  refine Option.bind_eq_some_iff.mpr ⟨_, withDefault?_of_writtenAs hattributes, ?_⟩
  rfl

end Segment

/-! ### Nodes -/

namespace Config

theorem description_meaning (d : Description) : (meaning d).description = d := by
  cases d <;> rfl

theorem isNull_meaning (d : Description) : (meaning d).isNull = d.isNull := by
  rw [Meaning.isNull, description_meaning]

/-- What a tree means. -/
def meaningOf (j : Json) : Meaning := meaning j.describe

/-- What an entry means. -/
def meaningOfEntry (e : String × Json) : Description × Meaning := (.text e.1, meaningOf e.2)

theorem meaningsOfEntries_describeEntries (entries : List (String × Json)) :
    meaningsOfEntries (Json.describeEntries entries) =
      entries.map meaningOfEntry := by
  induction entries with
  | nil => rfl
  | cons e rest ih => rw [Json.describeEntries, meaningsOfEntries, ih, List.map_cons]; rfl

theorem ofDescription?_name (kind : PatternKind) :
    PatternKind.ofDescription? (.text kind.name) = some kind := by
  cases kind <;> decide

theorem nodup_fieldNames (kind : PatternKind) : kind.fieldNames.Nodup := by
  cases kind <;> decide

theorem kindKey_notMem_fieldNames (kind : PatternKind) : kindKey ∉ kind.fieldNames := by
  cases kind <;> decide

/-- **A node is read field by field**, whatever else the object holds. -/
theorem pattern?_of_isNode {kind : PatternKind} {fields : List (Option Json)}
    (hlength : fields.length = kind.fieldNames.length) {j : Json} (h : IsNode kind fields j) :
    (meaningOf j).pattern? = patternOfFields? kind (fields.map (Option.map meaningOf)) := by
  obtain ⟨entries, rfl, hfields⟩ := h
  have htag : (entries.map meaningOfEntry).filter (·.1.asText? == some kindKey) =
      [meaningOfEntry (kindKey, .string kind.name)] := by
    rw [List.filter_map]
    show (entries.filter (·.1 == kindKey)).map meaningOfEntry = _
    rw [hfields _ List.mem_cons_self]
    rfl
  have hothers : (entries.map meaningOfEntry).filter (·.1.asText? != some kindKey) =
      (entries.filter (·.1 != kindKey)).map meaningOfEntry := List.filter_map
  have hread : HasFields (entries.filter (·.1 != kindKey)) (kind.fieldNames.zip fields) := by
    intro f hf
    have hne : f.1 ≠ kindKey := fun heq =>
      kindKey_notMem_fieldNames kind (heq ▸ (List.of_mem_zip hf).1)
    rw [← hfields f (List.mem_cons_of_mem _ hf), List.filter_filter]
    refine List.filter_congr fun e _ => ?_
    by_cases heq : e.1 = f.1 <;> simp [heq, hne]
  show patternOfEntries? (meaningsOfEntries (Json.describeEntries entries)) = _
  rw [meaningsOfEntries_describeEntries, patternOfEntries?, htag, hothers]
  show (PatternKind.ofDescription? (.text kind.name)).bind _ = _
  rw [ofDescription?_name, Option.bind_some]
  split
  · rename_i hempty
    rw [List.isEmpty_iff.mp hempty] at hlength
    rw [List.eq_nil_of_length_eq_zero hlength]
    rfl
  · have hfound := describedFields?_of_hasFields (nodup_fieldNames kind) hlength hread meaningOf
    exact congrArg (·.bind (patternOfFields? kind)) hfound

theorem namesKind_of_isNode {kind : PatternKind} {fields : List (Option Json)} {j : Json}
    (h : IsNode kind fields j) : namesKind j.describe = true := by
  obtain ⟨entries, rfl, hfields⟩ := h
  have htag := hfields _ List.mem_cons_self
  show (Json.describeEntries entries).all _ = true
  rw [Json.describeEntries_eq_map, List.all_map, List.all_eq_true]
  intro e he
  show (some e.1 != some kindKey || e.2.describe.asText?.isSome) = true
  by_cases hkey : e.1 = kindKey
  · have hmem : e ∈ entries.filter (·.1 == kindKey) :=
      List.mem_filter.mpr ⟨he, beq_iff_eq.mpr hkey⟩
    rw [htag] at hmem
    cases List.mem_singleton.mp hmem
    exact Bool.or_true _
  · simp [hkey]

/-! ### Nodes can be written -/

theorem exists_isNode (kind : PatternKind) (fields : List (Option Json))
    (hlength : fields.length = kind.fieldNames.length) : ∃ j, IsNode kind fields j := by
  have hnames := List.nodup_cons.mpr ⟨kindKey_notMem_fieldNames kind, nodup_fieldNames kind⟩
  obtain ⟨entries, hentries⟩ := exists_hasFields hnames (some (.string kind.name) :: fields)
    (congrArg (· + 1) hlength)
  exact ⟨.object entries, entries, rfl, hentries⟩

end Config

/-! ### Patterns -/

namespace Segment

theorem mapM_ofDescription?_of_writtenAs {segments : List Segment}
    (hsegments : ∀ s ∈ segments, s.Describable) {is : List Json}
    (h : List.Forall₂ WrittenAs segments is) :
    (Json.describeItems is).mapM ofDescription? = some segments := by
  rw [Json.describeItems_eq_map, List.mapM_map, mapM_eq_some_iff]
  have hboth := (List.forall₂_and_left segments is).mpr ⟨hsegments, h⟩
  exact (hboth.imp fun s i hs => ofDescription?_of_writtenAs hs.1 hs.2).flip

end Segment

namespace Config

/-- A part of a list, which may have been left out. -/
theorem exists_optional?_of_written {p : Pattern} {field : Option Json}
    (h : (∃ i, field = some i ∧ (meaningOf i).pattern? = some p) ∨
      p = .var .unnamed ∧ (field = none ∨ field = some .null)) :
    ∃ found, optional? Meaning.isNull Meaning.pattern? (field.map meaningOf) = some found ∧
      found.getD (.var .unnamed) = p := by
  rcases h with ⟨i, rfl, hi⟩ | ⟨rfl, rfl | rfl⟩
  · have hpresent : (meaningOf i).isNull = false := by
      refine (isNull_meaning _).trans (Json.isNull_describe_eq_false fun hnull => ?_)
      rw [hnull] at hi
      cases hi
    refine ⟨some p, ?_, rfl⟩
    show (if (meaningOf i).isNull = true then _ else _) = _
    rw [hpresent, hi]
    rfl
  · exact ⟨none, rfl, rfl⟩
  · exact ⟨none, rfl, rfl⟩

theorem value?_of_writtenAs {v : Value} (hv : v.IsJson) {j : Json} (h : v.WrittenAs j) :
    (meaningOf j).value? = some v := by
  rw [Meaning.value?, meaningOf, description_meaning, Value.ofDescription?_of_writtenAs hv h]

end Config

namespace Pattern

open Config

mutual

-- The induction is on the pattern.  A tree of a node is read field by field, so what is left in
-- each case is to read the fields.

/-- What a tree means as a pattern is the pattern that it writes down. -/
theorem pattern?_of_writtenAs (p : Pattern) (hp : p.Describable) {j : Json} (h : p.WrittenAs j) :
    (meaningOf j).pattern? = some p := by
  cases p with
  | wildcard => exact pattern?_of_isNode rfl h
  | var v =>
    obtain ⟨name, default, hnode, hname, hdefault⟩ := h
    have hname' : optional? Meaning.isNull Meaning.text? (name.map meaningOf) = some v.name :=
      optional?_of_writtenAs rfl (fun s _ i hi => hi ▸ ⟨rfl, rfl⟩) hname
    have hdefault' : optional? Meaning.isNull Meaning.value? (default.map meaningOf) =
        some v.default := by
      refine optional?_of_writtenAs rfl (fun d hd i hi => ⟨?_, ?_⟩) hdefault
      · exact (isNull_meaning _).trans (Value.isNull_of_writtenAs (hp d hd) hi)
      · exact value?_of_writtenAs (hp d hd).1 hi
    refine (pattern?_of_isNode rfl hnode).trans ?_
    exact Option.bind_eq_some_iff.mpr ⟨_, hname', Option.bind_eq_some_iff.mpr ⟨_, hdefault', rfl⟩⟩
  | capture inner =>
    obtain ⟨i, hnode, hi⟩ := h
    have hinner := pattern?_of_writtenAs inner hp hi
    exact (pattern?_of_isNode rfl hnode).trans (Option.bind_eq_some_iff.mpr ⟨_, hinner, rfl⟩)
  | startsWith stem => exact pattern?_of_isNode rfl h
  | headTail head tail =>
    obtain ⟨first, rest, hnode, hfirst, hrest⟩ := h
    obtain ⟨foundHead, hhead, rfl⟩ := exists_optional?_of_written (hfirst.imp_left
      fun ⟨i, hi, hwritten⟩ => ⟨i, hi, pattern?_of_writtenAs head hp.1 hwritten⟩)
    obtain ⟨foundTail, htail, rfl⟩ := exists_optional?_of_written (hrest.imp_left
      fun ⟨i, hi, hwritten⟩ => ⟨i, hi, pattern?_of_writtenAs tail hp.2 hwritten⟩)
    refine (pattern?_of_isNode rfl hnode).trans ?_
    exact Option.bind_eq_some_iff.mpr ⟨_, hhead, Option.bind_eq_some_iff.mpr ⟨_, htail, rfl⟩⟩
  | bound v =>
    obtain ⟨i, hnode, hi⟩ := h
    have hv := value?_of_writtenAs hp hi
    exact (pattern?_of_isNode rfl hnode).trans (Option.bind_eq_some_iff.mpr ⟨_, hv, rfl⟩)
  | instanceOf => exact h.elim
  | bitstring segments =>
    obtain ⟨is, hnode, his⟩ := h
    have hsegments : (meaningOf (.array is)).segments? = some segments :=
      Segment.mapM_ofDescription?_of_writtenAs hp his
    exact (pattern?_of_isNode rfl hnode).trans (Option.bind_eq_some_iff.mpr ⟨_, hsegments, rfl⟩)
  | literal v =>
    obtain ⟨i, hnode, hi⟩ := h
    have hv := value?_of_writtenAs hp hi
    exact (pattern?_of_isNode rfl hnode).trans (Option.bind_eq_some_iff.mpr ⟨_, hv, rfl⟩)
  | list items =>
    obtain ⟨is, hnode, his⟩ := h
    have hitems : (meaningOf (.array is)).patterns? = some items :=
      patterns?_of_writtenAs items hp his
    exact (pattern?_of_isNode rfl hnode).trans (Option.bind_eq_some_iff.mpr ⟨_, hitems, rfl⟩)
  | map fields =>
    obtain ⟨es, is, hnode, hperm, hes⟩ := h
    have hread := fields?_of_writtenAs fields hp.2 hes
    obtain ⟨found, hfound, hsame⟩ := exists_mapM_of_perm (hperm.map meaningOfEntry) hread
    have hfields : (meaningOf (.object is)).fields? = some found := by
      refine Eq.trans ?_ hfound
      exact congrArg patternFields? (meaningsOfEntries_describeEntries is)
    refine (pattern?_of_isNode rfl hnode).trans (Option.bind_eq_some_iff.mpr ⟨_, hfields, ?_⟩)
    exact congrArg (fun fields => some (map fields)) (Fields.ofList_of_perm hp.1 hsame)
termination_by structural p

theorem patterns?_of_writtenAs (ps : List Pattern) (hps : DescribableItems ps) {is : List Json}
    (h : ItemsWrittenAs ps is) :
    (meanings (Json.describeItems is)).mapM Meaning.pattern? = some ps := by
  cases ps with
  | nil =>
    cases h
    rfl
  | cons p ps =>
    obtain ⟨i, rest, rfl, hi, hrest⟩ := h
    have hfirst := pattern?_of_writtenAs p hps.1 hi
    have hothers := patterns?_of_writtenAs ps hps.2 hrest
    exact mapM_eq_some_iff.mpr (.cons hfirst (mapM_eq_some_iff.mp hothers))
termination_by structural ps

theorem fields?_of_writtenAs (entries : List (String × Pattern))
    (hentries : DescribableEntries entries) {es : List (String × Json)}
    (h : EntriesWrittenAs entries es) :
    patternFields? (es.map meaningOfEntry) = some entries := by
  cases entries with
  | nil =>
    cases h
    rfl
  | cons entry rest =>
    obtain ⟨key, p⟩ := entry
    obtain ⟨i, others, rfl, hi, hothers⟩ := h
    have hfirst := pattern?_of_writtenAs p hentries.1 hi
    have hrest := fields?_of_writtenAs rest hentries.2 hothers
    refine mapM_eq_some_iff.mpr (.cons ?_ (mapM_eq_some_iff.mp hrest))
    exact Option.bind_eq_some_iff.mpr ⟨key, rfl, Option.bind_eq_some_iff.mpr ⟨p, hfirst, rfl⟩⟩
termination_by structural entries

end

theorem exists_isNode_of_writtenAs {p : Pattern} {j : Json} (h : p.WrittenAs j) :
    ∃ kind fields, IsNode kind fields j := by
  cases p with
  | wildcard | startsWith => exact ⟨_, _, h⟩
  | var =>
    obtain ⟨_, _, hnode, -⟩ := h
    exact ⟨_, _, hnode⟩
  | headTail =>
    obtain ⟨_, _, hnode, -⟩ := h
    exact ⟨_, _, hnode⟩
  | map =>
    obtain ⟨_, _, hnode, -⟩ := h
    exact ⟨_, _, hnode⟩
  | instanceOf => exact h.elim
  | _ =>
    obtain ⟨_, hnode, -⟩ := h
    exact ⟨_, _, hnode⟩

/-- **A tree describes the pattern that it writes down.** -/
theorem ofJson?_of_writtenAs {p : Pattern} (hp : p.Describable) {j : Json} (h : p.WrittenAs j) :
    ofJson? j = some p := by
  obtain ⟨kind, fields, hnode⟩ := exists_isNode_of_writtenAs h
  exact (if_pos (namesKind_of_isNode hnode)).trans (pattern?_of_writtenAs p hp h)

end Pattern

/-! ### Everything describable can be written -/

theorem Value.writtenAs_toJson {v : Value} (hv : v.IsJson) : v.WrittenAs (v.toJson .start) := by
  have hread := toJson_ofJson_eq _ (isSigned_toJson v .start) .start
  rwa [ofJson_toJson_of_isData hv.1 hv.2, eq_comm] at hread

theorem Config.exists_optionWrittenAs {α : Type} (W : α → Json → Prop) {a : Option α}
    (h : ∀ x ∈ a, ∃ j, W x j) : ∃ field, OptionWrittenAs W a field := by
  cases a with
  | none => exact ⟨none, .inl rfl⟩
  | some x =>
    obtain ⟨j, hj⟩ := h x rfl
    exact ⟨some j, j, rfl, hj⟩

namespace Segment

theorem exists_writtenAs {s : Segment} (hs : s.Describable) : ∃ j, s.WrittenAs j := by
  obtain ⟨literal, hliteral⟩ := Config.exists_optionWrittenAs Value.WrittenAs
    fun v hv => ⟨_, Value.writtenAs_toJson (hs v hv).1⟩
  obtain ⟨size, hsize⟩ := Config.exists_optionWrittenAs WordWrittenAs
    fun n (_ : n ∈ s.size) => ⟨_, rfl⟩
  obtain ⟨unit, hunit⟩ := Config.exists_optionWrittenAs WordWrittenAs
    fun n (_ : n ∈ s.unit) => ⟨_, rfl⟩
  have hnames : fieldNames.Nodup := by decide
  obtain ⟨entries, hentries⟩ := Config.exists_hasFields hnames
    [literal, some (.string s.kind.name), size, unit,
      some (.array (s.attributes.map fun a => .string a.name))] rfl
  exact ⟨.object entries, literal, size, unit, _, entries, rfl, hentries, hliteral, hsize, hunit,
    .inl rfl⟩

theorem exists_forall₂_writtenAs {segments : List Segment}
    (h : ∀ s ∈ segments, s.Describable) : ∃ is, List.Forall₂ WrittenAs segments is := by
  induction segments with
  | nil => exact ⟨[], .nil⟩
  | cons s rest ih =>
    obtain ⟨i, hi⟩ := exists_writtenAs (h s List.mem_cons_self)
    obtain ⟨is, his⟩ := ih fun s hs => h s (List.mem_cons_of_mem _ hs)
    exact ⟨i :: is, .cons hi his⟩

end Segment

namespace Pattern

open Config

mutual

/-- **Every describable pattern can be written down.** -/
theorem exists_writtenAs (p : Pattern) (hp : p.Describable) : ∃ j, p.WrittenAs j := by
  cases p with
  | wildcard => exact exists_isNode _ _ rfl
  | var v =>
    obtain ⟨name, hname⟩ := exists_optionWrittenAs (fun s i => i = .string s)
      fun s (_ : s ∈ v.name) => ⟨_, rfl⟩
    obtain ⟨default, hdefault⟩ := exists_optionWrittenAs Value.WrittenAs
      fun d hd => ⟨_, Value.writtenAs_toJson (hp d hd).1⟩
    obtain ⟨j, hnode⟩ := exists_isNode .var [name, default] rfl
    exact ⟨j, name, default, hnode, hname, hdefault⟩
  | capture inner =>
    obtain ⟨i, hi⟩ := exists_writtenAs inner hp
    obtain ⟨j, hnode⟩ := exists_isNode .capture [some i] rfl
    exact ⟨j, i, hnode, hi⟩
  | startsWith stem => exact exists_isNode _ _ rfl
  | headTail head tail =>
    obtain ⟨first, hfirst⟩ := exists_writtenAs head hp.1
    obtain ⟨rest, hrest⟩ := exists_writtenAs tail hp.2
    obtain ⟨j, hnode⟩ := exists_isNode .headTail [some first, some rest] rfl
    exact ⟨j, _, _, hnode, .inl ⟨first, rfl, hfirst⟩, .inl ⟨rest, rfl, hrest⟩⟩
  | bound v =>
    obtain ⟨j, hnode⟩ := exists_isNode .bound [some (v.toJson .start)] rfl
    exact ⟨j, _, hnode, Value.writtenAs_toJson hp⟩
  | instanceOf => exact hp.elim
  | bitstring segments =>
    obtain ⟨is, his⟩ := Segment.exists_forall₂_writtenAs hp
    obtain ⟨j, hnode⟩ := exists_isNode .bitstring [some (.array is)] rfl
    exact ⟨j, is, hnode, his⟩
  | literal v =>
    obtain ⟨j, hnode⟩ := exists_isNode .literal [some (v.toJson .start)] rfl
    exact ⟨j, _, hnode, Value.writtenAs_toJson hp⟩
  | list items =>
    obtain ⟨is, his⟩ := exists_itemsWrittenAs items hp
    obtain ⟨j, hnode⟩ := exists_isNode .list [some (.array is)] rfl
    exact ⟨j, is, hnode, his⟩
  | map fields =>
    obtain ⟨es, hes⟩ := exists_entriesWrittenAs fields hp.2
    obtain ⟨j, hnode⟩ := exists_isNode .map [some (.object es)] rfl
    exact ⟨j, es, es, hnode, .refl es, hes⟩
termination_by structural p

theorem exists_itemsWrittenAs (ps : List Pattern) (hps : DescribableItems ps) :
    ∃ is, ItemsWrittenAs ps is := by
  cases ps with
  | nil => exact ⟨[], rfl⟩
  | cons p ps =>
    obtain ⟨i, hi⟩ := exists_writtenAs p hps.1
    obtain ⟨rest, hrest⟩ := exists_itemsWrittenAs ps hps.2
    exact ⟨i :: rest, i, rest, rfl, hi, hrest⟩
termination_by structural ps

theorem exists_entriesWrittenAs (entries : List (String × Pattern))
    (hentries : DescribableEntries entries) : ∃ es, EntriesWrittenAs entries es := by
  cases entries with
  | nil => exact ⟨[], rfl⟩
  | cons entry rest =>
    obtain ⟨key, p⟩ := entry
    obtain ⟨i, hi⟩ := exists_writtenAs p hentries.1
    obtain ⟨others, hothers⟩ := exists_entriesWrittenAs rest hentries.2
    exact ⟨(key, i) :: others, i, others, rfl, hi, hothers⟩
termination_by structural entries

end

/-- **JSON trees describe exactly the patterns of data without classes.**  Such a pattern does not
compile only if it is too deep or has segments without a layout.  And it can be written down, in
whatever order and with whatever else between, and is then described by that tree. -/
theorem descriptions_denote_data :
    (∀ (j : Json) (p : Pattern), ofJson? j = some p →
      p.Describable ∧ ∀ e, p.compile = .error e →
        (∃ depth max, e = .depthExceeded depth max) ∨ ∃ index cause, e = .segment index cause) ∧
    ∀ p : Pattern, p.Describable →
      (∃ j, p.WrittenAs j) ∧ ∀ j, p.WrittenAs j → ofJson? j = some p := by
  refine ⟨fun j p h => ?_, fun p hp => ⟨exists_writtenAs p hp, fun j => ofJson?_of_writtenAs hp⟩⟩
  have hp := describable_of_ofJson? h
  exact ⟨hp, fun e he => error_of_describable hp he⟩

/-- A map whose entries are written in another order, with a note between them: a value whose
entries are in another order too, and segments that have no layout. -/
theorem descriptions_denote_data_unordered :
    ∃ (p : Pattern) (j : Json),
      p = map [("a", bitstring [⟨none, .binary, none, none, []⟩,
          ⟨some (.int 5), .integer, some 16, none, [.little]⟩]),
        ("b", bound (.map [("x", .null), ("y", .float ⟨0x3ff8000000000000⟩)]))] ∧
      j = .object [("note", .null),
        ("fields", .object [
          ("b", .object [("value", .object [("y", .float ⟨0x3ff8000000000000⟩ rfl), ("x", .null)]),
            ("type", .string "bound")]),
          ("a", .object [("type", .string "bitstring"), ("segments", .array [
            .object [("type", .string "binary"), ("unit", .null)],
            .object [("attributes", .array [.string "little"]), ("size", .int 16),
              ("value", .int 5), ("type", .string "integer")]])])]),
        ("type", .string "map")] ∧
      p.Describable ∧ p.WrittenAs j ∧ ofJson? j = some p ∧ ∃ e, p.compile = .error e ∧
        ((∃ depth max, e = .depthExceeded depth max) ∨
          ∃ index cause, e = .segment index cause) := by
  refine ⟨_, _, rfl, rfl, ?hp, ?hj, (descriptions_denote_data.2 _ ?hp).2 _ ?hj, _, rfl,
    (descriptions_denote_data.1 _ _ ((descriptions_denote_data.2 _ ?hp).2 _ ?hj)).2 _ rfl⟩
  case hp =>
    have hliteral : (Value.int 5).IsGiven := ⟨Value.isJson_ofJson (.int 5), fun h => nomatch h⟩
    have hkeys : "a" < "b" := by decide
    refine ⟨List.pairwise_pair.mpr hkeys, ?_, ?_, trivial⟩
    · simpa [Describable, Segment.Describable] using hliteral
    · exact Value.isJson_ofJson (.object [("y", .float ⟨0x3ff8000000000000⟩ rfl), ("x", .null)])
  case hj =>
    have hfree : Segment.WrittenAs ⟨none, .binary, none, none, []⟩
        (.object [("type", .string "binary"), ("unit", .null)]) :=
      ⟨none, none, some .null, none, _, rfl,
        by simp [HasFields, Segment.fieldNames, SegmentType.name],
        .inl rfl, .inl rfl, .inr rfl, .inr ⟨rfl, rfl⟩⟩
    have hliteral : Segment.WrittenAs ⟨some (.int 5), .integer, some 16, none, [.little]⟩
        (.object [("attributes", .array [.string "little"]), ("size", .int 16),
          ("value", .int 5), ("type", .string "integer")]) :=
      ⟨some (.int 5), some (.int 16), none, some (.array [.string "little"]), _, rfl,
        by simp [HasFields, Segment.fieldNames, SegmentType.name],
        ⟨_, rfl, rfl⟩, ⟨_, rfl, rfl⟩, .inl rfl, .inl rfl⟩
    have hbitstring : (bitstring [⟨none, .binary, none, none, []⟩,
          ⟨some (.int 5), .integer, some 16, none, [.little]⟩]).WrittenAs
        (.object [("type", .string "bitstring"), ("segments", .array [
          .object [("type", .string "binary"), ("unit", .null)],
          .object [("attributes", .array [.string "little"]), ("size", .int 16),
            ("value", .int 5), ("type", .string "integer")]])]) :=
      ⟨_, ⟨_, rfl, by simp [HasFields, PatternKind.fieldNames, PatternKind.name, kindKey]⟩,
        .cons hfree (.cons hliteral .nil)⟩
    have hvalue : (Value.map [("x", .null), ("y", .float ⟨0x3ff8000000000000⟩)]).WrittenAs
        (.object [("y", .float ⟨0x3ff8000000000000⟩ rfl), ("x", .null)]) := rfl
    have hbound : (bound (.map [("x", .null), ("y", .float ⟨0x3ff8000000000000⟩)])).WrittenAs
        (.object [("value", .object [("y", .float ⟨0x3ff8000000000000⟩ rfl), ("x", .null)]),
          ("type", .string "bound")]) :=
      ⟨_, ⟨_, rfl, by simp [HasFields, PatternKind.fieldNames, PatternKind.name, kindKey]⟩, hvalue⟩
    exact ⟨_, _, ⟨_, rfl, by simp [HasFields, PatternKind.fieldNames, PatternKind.name, kindKey]⟩,
      .swap _ _ _, _, _, rfl, hbitstring, _, _, rfl, hbound, rfl⟩

end Pattern

end StructuralMatching
