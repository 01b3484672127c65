/-
Maps and instances, key by key.

A map pattern compares the number of its keys with the number of fields before it looks at any of
them.  The comparison decides nothing: distinct keys that are all found are never more than there
are fields.  What is left is a walk from key to key, and fields under other keys have no part in it.

* `Fields.update` — fields added, or changed, one by one;
* `Pattern.Visits` — the walk, with its bindings before and after it;
* `Pattern.Visits.length_le` — there are as many fields as keys that were visited, or more;
* `Pattern.Visits.congr` — the walk depends on the fields under its keys alone;
* `Pattern.attempt_iff_visits` — map patterns, and patterns of instances, match by such a walk.

Design notes: fields are walked on one occasion, and the field of a key is matched on the step that
has the number of the key among the keys.  So new fields do not change the occasions of others.
-/
import StructuralMatching.Proofs.Matching.Sites

namespace StructuralMatching

namespace Fields

variable {α : Type}

/-- The entries with those of `extra`, each in place of the one under its key if there is one. -/
def update (entries extra : List (String × α)) : List (String × α) :=
  extra.foldl (fun acc entry => insert entry.1 entry.2 acc) entries

/-- Under these keys there is the same. -/
def AgreeOn (keys : List String) (entries others : List (String × α)) : Prop :=
  ∀ key ∈ keys, entries.lookup key = others.lookup key

theorem AgreeOn.symm {keys : List String} {entries others : List (String × α)}
    (h : AgreeOn keys entries others) : AgreeOn keys others entries :=
  fun key hkey => (h key hkey).symm

theorem lookup_insert_of_ne {key other : String} (h : key ≠ other) (value : α)
    (entries : List (String × α)) :
    (insert other value entries).lookup key = entries.lookup key := by
  have hnot : (key == other) = false := beq_false_of_ne h
  induction entries with
  | nil => rw [insert, List.lookup_cons, hnot]
  | cons e rest ih =>
    obtain ⟨k, v⟩ := e
    rw [insert]
    split
    · rw [List.lookup_cons, hnot]
    · split
      · rename_i heq
        subst heq
        rw [List.lookup_cons, List.lookup_cons, hnot]
      · rw [List.lookup_cons, List.lookup_cons, ih]

theorem lookup_update_of_notMem {key : String} {extra : List (String × α)} (h : key ∉ keys extra)
    (entries : List (String × α)) : (update entries extra).lookup key = entries.lookup key := by
  induction extra generalizing entries with
  | nil => rfl
  | cons e rest ih =>
    rw [keys, List.map_cons, List.mem_cons, not_or] at h
    exact (ih h.2 (insert e.1 e.2 entries)).trans (lookup_insert_of_ne h.1 e.2 entries)

/-- New entries under other keys, and other values under these, make no difference. -/
theorem agreeOn_update {keys : List String} {extra : List (String × α)}
    (h : ∀ entry ∈ extra, entry.1 ∉ keys) (entries : List (String × α)) :
    AgreeOn keys (update entries extra) entries := by
  intro key hkey
  refine lookup_update_of_notMem (fun hmem => ?_) entries
  obtain ⟨entry, hentry, rfl⟩ := List.mem_map.mp hmem
  exact h entry hentry hkey

end Fields

theorem Matcher.attemptEntries_cons_eq_true_iff {o : Occasion} {i : Nat} {key : String}
    {m : Matcher} {more : List (String × Matcher)} {fields : List (String × Value)}
    {out final : Bindings} :
    attemptEntries o i ((key, m) :: more) fields out = (true, final) ↔
      ∃ v mid, fields.lookup key = some v ∧ m.attempt (o.step i) v out = (true, mid) ∧
        attemptEntries o (i + 1) more fields mid = (true, final) := by
  rw [attemptEntries]
  cases fields.lookup key with
  | none => simp
  | some v => rcases hfield : m.attempt (o.step i) v out with ⟨_ | _, mid⟩ <;> simp [hfield]

namespace Pattern

/-- The walk from key to key, of which the first is the `i`-th step.  A field has to be there for
every key and has to match its pattern, with what was bound on the way to it. -/
inductive Visits (o : Occasion) (fields : List (String × Value)) :
    Nat → List (String × Pattern) → Bindings → Bindings → Prop where
  | arrived {i : Nat} {out : Bindings} : Visits o fields i [] out out
  | field {i : Nat} {key : String} {p : Pattern} {rest : List (String × Pattern)} {v : Value}
      {m : Matcher} {out mid final : Bindings} (hfound : fields.lookup key = some v)
      (hm : p.compile = .ok m) (hmatch : m.attempt (o.step i) v out = (true, mid))
      (hrest : Visits o fields (i + 1) rest mid final) :
      Visits o fields i ((key, p) :: rest) out final

namespace Visits

variable {o : Occasion} {fields others : List (String × Value)} {i : Nat}
  {entries : List (String × Pattern)} {out final : Bindings}

/-- All keys are found. -/
theorem exists_lookup (h : Visits o fields i entries out final) :
    ∀ key ∈ Fields.keys entries, ∃ v, fields.lookup key = some v := by
  induction h with
  | arrived => exact fun key hkey => absurd hkey List.not_mem_nil
  | field hfound _ _ _ ih =>
    intro key hkey
    rcases List.mem_cons.mp hkey with rfl | hkey
    · exact ⟨_, hfound⟩
    · exact ih key hkey

/-- No walk is longer than there are fields. -/
theorem length_le (hkeys : Fields.Ascending entries) (h : Visits o fields i entries out final) :
    entries.length ≤ fields.length :=
  Fields.length_le_of_keys hkeys h.exists_lookup

theorem congr (hagree : Fields.AgreeOn (Fields.keys entries) fields others)
    (h : Visits o fields i entries out final) : Visits o others i entries out final := by
  induction h with
  | arrived => exact .arrived
  | field hfound hm hmatch _ ih =>
    have hsame := hagree _ List.mem_cons_self
    refine .field (hsame.symm.trans hfound) hm hmatch (ih fun key hkey => ?_)
    exact hagree key (List.mem_cons_of_mem _ hkey)

/-- The walk goes by the fields under its keys. -/
theorem congr_iff (hagree : Fields.AgreeOn (Fields.keys entries) fields others) :
    Visits o fields i entries out final ↔ Visits o others i entries out final :=
  ⟨congr hagree, congr hagree.symm⟩

end Visits

/-- The matchers of fields walk from key to key. -/
theorem attemptEntries_eq_true_iff {entries : List (String × Pattern)} {d : Nat}
    {ms : List (String × Matcher)} (h : compileEntries (d + 1) entries = .ok ms) (o : Occasion)
    (i : Nat) (fields : List (String × Value)) (out final : Bindings) :
    Matcher.attemptEntries o i ms fields out = (true, final) ↔
      Visits o fields i entries out final := by
  induction entries generalizing ms i out with
  | nil =>
    cases h
    constructor
    · intro hsame
      cases hsame
      exact .arrived
    · rintro ⟨⟩
      rfl
  | cons entry rest ih =>
    obtain ⟨key, p⟩ := entry
    obtain ⟨m, more, hm, hmore, rfl⟩ := compileEntries_cons_iff.mp h
    -- The pattern of a field compiles by itself, to the same matcher.
    have halone : p.compile = .ok m := compileAt_of_le p (Nat.le_add_left 1 d) hm
    rw [Matcher.attemptEntries_cons_eq_true_iff]
    constructor
    · rintro ⟨v, mid, hfound, hmatch, hrest⟩
      exact .field hfound halone hmatch ((ih hmore (i + 1) mid).mp hrest)
    · rintro ⟨⟩
      rename_i v m' mid hfound hm' hmatch hrest
      obtain rfl := Except.ok.inj (halone.symm.trans hm')
      exact ⟨v, mid, hfound, hmatch, (ih hmore (i + 1) mid).mpr hrest⟩

/-- Once the fields are known, the comparison of numbers is left out. -/
theorem counted_eq_true_iff {entries : List (String × Pattern)} (hkeys : Fields.Ascending entries)
    {d : Nat} {ms : List (String × Matcher)} (h : compileEntries (d + 1) entries = .ok ms)
    (o : Occasion) (fields : List (String × Value)) (out final : Bindings) :
    (if ms.length ≤ fields.length then Matcher.attemptEntries o 0 ms fields out
      else (false, out)) = (true, final) ↔ Visits o fields 0 entries out final := by
  rw [length_compileEntries h, ← attemptEntries_eq_true_iff h]
  split
  · exact Iff.rfl
  · rename_i hfewer
    refine iff_of_false nofun fun hwalk => hfewer ?_
    exact ((attemptEntries_eq_true_iff h o 0 fields out final).mp hwalk).length_le hkeys

theorem attempt_map_iff_visits {entries : List (String × Pattern)}
    (hkeys : Fields.Ascending entries) {d : Nat} {m : Matcher}
    (h : compileAt d (map entries) = .ok m) (o : Occasion) (v : Value) (out final : Bindings) :
    m.attempt o v out = (true, final) ↔
      ∃ fields, v.fieldsAt? o = some fields ∧ Visits o fields 0 entries out final := by
  obtain ⟨_, ms, hms, rfl⟩ := compileAt_map_iff.mp h
  rw [Matcher.attempt_map_eq]
  cases v.fieldsAt? o with
  | none => simp
  | some fields => simp [counted_eq_true_iff hkeys hms]

theorem attempt_instanceOf_iff_visits {entries : List (String × Pattern)}
    (hkeys : Fields.Ascending entries) {d : Nat} {tag : ClassTag} {m : Matcher}
    (h : compileAt d (instanceOf tag entries) = .ok m) (o : Occasion) (v : Value)
    (out final : Bindings) :
    m.attempt o v out = (true, final) ↔
      ∃ i, v = .object i ∧ i.tag = tag ∧ Visits o (i.fields o) 0 entries out final := by
  obtain ⟨_, ms, hms, rfl⟩ := compileAt_instanceOf_iff.mp h
  cases v with
  | object i =>
    have hcounted := counted_eq_true_iff hkeys hms o (i.fields o) out final
    show (if i.tag = tag ∧ ms.length ≤ (i.fields o).length then
      Matcher.attemptEntries o 0 ms (i.fields o) out else (false, out)) = (true, final) ↔ _
    by_cases htag : i.tag = tag
    · simp only [htag, true_and, hcounted, Value.object.injEq, exists_eq_left']
    · rw [if_neg fun hand => htag hand.1]
      refine iff_of_false nofun ?_
      rintro ⟨j, hj, hsame, _⟩
      rw [← Value.object.inj hj] at hsame
      exact htag hsame
  | _ =>
    refine iff_of_false nofun ?_
    rintro ⟨j, hj, _⟩
    cases hj

/-- **A pattern of fields matches exactly if the walk from key to key does**, whatever the number of
fields, and fields under other keys make no difference: neither to whether it matches, nor to what
is bound if it does. -/
theorem attempt_iff_visits {entries : List (String × Pattern)} (hkeys : Fields.Ascending entries)
    (d : Nat) (o : Occasion) :
    (∀ m, compileAt d (map entries) = .ok m → ∀ out final,
      (∀ v, m.attempt o v out = (true, final) ↔
        ∃ fields, v.fieldsAt? o = some fields ∧ Visits o fields 0 entries out final) ∧
      ∀ v w fields others, v.fieldsAt? o = some fields → w.fieldsAt? o = some others →
        Fields.AgreeOn (Fields.keys entries) fields others →
        (m.attempt o v out = (true, final) ↔ m.attempt o w out = (true, final))) ∧
    (∀ tag m, compileAt d (instanceOf tag entries) = .ok m → ∀ out final,
      (∀ v, m.attempt o v out = (true, final) ↔
        ∃ i, v = .object i ∧ i.tag = tag ∧ Visits o (i.fields o) 0 entries out final) ∧
      ∀ i j : Instance Value, i.tag = j.tag →
        Fields.AgreeOn (Fields.keys entries) (i.fields o) (j.fields o) →
        (m.attempt o (.object i) out = (true, final) ↔
          m.attempt o (.object j) out = (true, final))) ∧
    ∀ fields extra : List (String × Value), (∀ entry ∈ extra, entry.1 ∉ Fields.keys entries) →
      Fields.AgreeOn (Fields.keys entries) (Fields.update fields extra) fields := by
  refine ⟨fun m hm out final => ⟨fun v => attempt_map_iff_visits hkeys hm o v out final, ?_⟩,
    fun tag m hm out final => ⟨fun v => attempt_instanceOf_iff_visits hkeys hm o v out final, ?_⟩,
    fun fields extra hextra => Fields.agreeOn_update hextra fields⟩
  · intro v w fields others hv hw hagree
    rw [attempt_map_iff_visits hkeys hm, attempt_map_iff_visits hkeys hm, hv, hw]
    simp only [Option.some.injEq, exists_eq_left', Visits.congr_iff hagree]
  · intro i j htag hagree
    rw [attempt_instanceOf_iff_visits hkeys hm, attempt_instanceOf_iff_visits hkeys hm]
    simp only [Value.object.injEq, exists_eq_left', htag, Visits.congr_iff hagree]

/-- One name under two keys, with other keys before, between and after them. -/
theorem attempt_iff_visits_between :
    ∃ (entries : List (String × Pattern)) (fields others : List (String × Value)),
      entries = [("b", var ⟨some "x", none⟩), ("d", list [var ⟨some "x", none⟩])] ∧
      fields = [("b", .int 3), ("d", .list [.int 3])] ∧
      others = [("a", .null), ("b", .int 3), ("c", .int 4), ("d", .list [.int 3]),
        ("e", .int 5)] ∧
      Fields.Ascending entries ∧ Fields.AgreeOn (Fields.keys entries) fields others ∧
      ∃ m final, (map entries).compile = .ok m ∧ final.values = [.int 3, .int 3] ∧
        m.attempt .start (.map fields) .empty = (true, final) ∧
        Visits .start fields 0 entries .empty final ∧
        m.attempt .start (.map others) .empty = (true, final) := by
  have hkeys : Fields.Ascending
      [("b", var ⟨some "x", none⟩), ("d", list [var ⟨some "x", none⟩])] := by
    rw [Fields.Ascending]
    decide
  have hagree : Fields.AgreeOn (Fields.keys [("b", var ⟨some "x", none⟩),
      ("d", list [var ⟨some "x", none⟩])]) [("b", .int 3), ("d", .list [.int 3])]
      [("a", .null), ("b", .int 3), ("c", .int 4), ("d", .list [.int 3]), ("e", Value.int 5)] := by
    intro key hkey
    rcases List.mem_pair.mp hkey with rfl | rfl <;> rfl
  obtain ⟨hwalk, hsame⟩ := (attempt_iff_visits hkeys 1 .start).1 _ rfl .empty _
  obtain ⟨_, hfields, hvisits⟩ := (hwalk (.map [("b", .int 3), ("d", .list [.int 3])])).mp rfl
  cases hfields
  exact ⟨_, _, _, rfl, rfl, rfl, hkeys, hagree, _, _, rfl, rfl, rfl, hvisits,
    (hsame (.map [("b", .int 3), ("d", .list [.int 3])]) _ _ _ rfl rfl hagree).mp rfl⟩

end Pattern

end StructuralMatching
