/-
The binding sites of a value that has the shape of a pattern.

Matching can be told in two phases.  The first one asks whether a value has the shape of a pattern,
whatever the names in it, and lists the places where it meets a variable.  The second one asks
whether places under one name meet equal values.

* `Value.accepts` — whether a value has the shape of a constant;
* `Pattern.sites?` — the sites of a value, if it has the shape of a pattern;
* `Pattern.Ordered` — the keys in a pattern ascend;
* `Pattern.realizes_attempt` — an attempt binds the sites one by one and does nothing else;
* `Pattern.attempt_iff_sites` — an attempt succeeds exactly if both phases do.

Design notes: no bindings occur in the first phase.  It reads instances on the same occasions as an
attempt, since another reading may find other fields.
-/
import Mathlib.Data.List.Perm.Subperm
import StructuralMatching.Proofs.Matching.Compilation

namespace StructuralMatching

namespace Value

/-! ### The shape of a constant -/

/-- The fields of a map, or of an instance as they are read on an occasion. -/
def fieldsAt? (o : Occasion) : Value → Option (List (String × Value))
  | map entries => some entries
  | object i => some (i.fields o)
  | _ => none

mutual

/-- Whether a value has the shape of a constant: no value at all stands for anything, lists and maps
are compared part by part, and all else has to be equal. -/
def accepts (o : Occasion) : Value → Value → Bool
  | undefined, _ => true
  | list items, v =>
    match v with
    | list vs => acceptsItems o 0 items vs
    | _ => false
  | map entries, v =>
    match v.fieldsAt? o with
    | some fields => acceptsEntries o 0 entries fields
    | none => false
  | object _, _ => false
  | scalar, v => v == scalar
termination_by structural w => w

/-- As many values, one by one. -/
def acceptsItems (o : Occasion) (i : Nat) : List Value → List Value → Bool
  | [], [] => true
  | w :: ws, v :: vs => accepts (o.step i) w v && acceptsItems o (i + 1) ws vs
  | _, _ => false
termination_by structural ws => ws

/-- Values under all the keys. -/
def acceptsEntries (o : Occasion) (i : Nat) :
    List (String × Value) → List (String × Value) → Bool
  | [], _ => true
  | (key, w) :: entries, fields =>
    match fields.lookup key with
    | some v => accepts (o.step i) w v && acceptsEntries o (i + 1) entries fields
    | none => false
termination_by structural entries => entries

end

mutual

/-- The keys of all maps ascend. -/
def Ordered : Value → Prop
  | list items => OrderedItems items
  | map entries => Fields.Ascending entries ∧ OrderedEntries entries
  | _ => True
termination_by structural v => v

def OrderedItems : List Value → Prop
  | [] => True
  | v :: vs => Ordered v ∧ OrderedItems vs
termination_by structural vs => vs

def OrderedEntries : List (String × Value) → Prop
  | [] => True
  | (_, v) :: entries => Ordered v ∧ OrderedEntries entries
termination_by structural entries => entries

end

end Value

namespace Pattern

/-! ### The shape of a pattern -/

mutual

/-- The binding sites of a value that has the shape of a pattern, from left to right. -/
def sites? (o : Occasion) : Pattern → Value → Option (List Site)
  | wildcard, _ => some []
  | var x, v => some (if x.isIgnored then [] else [⟨x.bindingName?, v⟩])
  | capture inner, v => (sites? (o.step 0) inner v).map fun sites => sites ++ [.unnamed v]
  | startsWith stem, v =>
    match v with
    | .string s => (stem.toList.isPrefixOf? s.toList).map fun rest =>
        [.unnamed (.string (String.ofList rest))]
    | _ => none
  | headTail head tail, v =>
    match v with
    | .list (first :: rest) => (sites? (o.step 0) head first).bind fun sites =>
        (sites? (o.step 1) tail (.list rest)).map fun more => sites ++ more
    | _ => none
  | bound w, v => if v == w then some [] else none
  | instanceOf tag fields, v =>
    match v with
    | .object i => if i.tag = tag then entrySites? o 0 fields (i.fields o) else none
    | _ => none
  | bitstring segments, v => (Matcher.contentOf? v).bind (Segment.sites? segments)
  | literal w, v => if w.accepts o v then some [] else none
  | list items, v =>
    match v with
    | .list vs => itemSites? o 0 items vs
    | _ => none
  | map fields, v => (v.fieldsAt? o).bind fun found => entrySites? o 0 fields found
termination_by structural p => p

/-- The sites of as many values, one by one. -/
def itemSites? (o : Occasion) (i : Nat) : List Pattern → List Value → Option (List Site)
  | [], [] => some []
  | p :: ps, v :: vs => (sites? (o.step i) p v).bind fun sites =>
      (itemSites? o (i + 1) ps vs).map fun more => sites ++ more
  | _, _ => none
termination_by structural ps => ps

/-- The sites of the values under all the keys. -/
def entrySites? (o : Occasion) (i : Nat) :
    List (String × Pattern) → List (String × Value) → Option (List Site)
  | [], _ => some []
  | (key, p) :: entries, fields => (fields.lookup key).bind fun v =>
      (sites? (o.step i) p v).bind fun sites =>
        (entrySites? o (i + 1) entries fields).map fun more => sites ++ more
termination_by structural entries => entries

end

mutual

/-- The keys of all maps, of patterns or of values, ascend; `Fields.ofList` sees to that wherever a
map is built. -/
def Ordered : Pattern → Prop
  | capture inner => Ordered inner
  | headTail head tail => Ordered head ∧ Ordered tail
  | instanceOf _ fields => Fields.Ascending fields ∧ OrderedEntries fields
  | literal w => w.Ordered
  | list items => OrderedItems items
  | map fields => Fields.Ascending fields ∧ OrderedEntries fields
  | _ => True
termination_by structural p => p

def OrderedItems : List Pattern → Prop
  | [] => True
  | p :: ps => Ordered p ∧ OrderedItems ps
termination_by structural ps => ps

def OrderedEntries : List (String × Pattern) → Prop
  | [] => True
  | (_, p) :: entries => Ordered p ∧ OrderedEntries entries
termination_by structural entries => entries

end

theorem orderedItems_iff {ps : List Pattern} : OrderedItems ps ↔ ∀ p ∈ ps, p.Ordered := by
  induction ps with
  | nil => simp [OrderedItems]
  | cons p ps ih => rw [OrderedItems, ih, List.forall_mem_cons]

theorem orderedEntries_iff {entries : List (String × Pattern)} :
    OrderedEntries entries ↔ ∀ entry ∈ entries, entry.2.Ordered := by
  induction entries with
  | nil => simp [OrderedEntries]
  | cons entry rest ih => rw [OrderedEntries, ih, List.forall_mem_cons]

end Pattern

/-! ### Keys -/

/-- Whether keys ascend is a matter of the keys. -/
theorem Fields.ascending_congr {α β : Type} {entries : List (String × α)}
    {others : List (String × β)} (h : Fields.keys entries = Fields.keys others) :
    Fields.Ascending entries ↔ Fields.Ascending others := by
  have hkeys : ∀ {γ : Type} (es : List (String × γ)),
      Fields.Ascending es ↔ (Fields.keys es).Pairwise (· < ·) := by
    intro γ es
    rw [Fields.Ascending, Fields.keys, List.pairwise_map]
  rw [hkeys, hkeys, h]

/-- Distinct keys that are all there are not more than there are entries. -/
theorem Fields.length_le_of_keys {α β : Type} {entries : List (String × α)}
    {fields : List (String × β)} (h : Fields.Ascending entries)
    (hkeys : ∀ key ∈ Fields.keys entries, ∃ v, fields.lookup key = some v) :
    entries.length ≤ fields.length := by
  have hsub : Fields.keys entries ⊆ Fields.keys fields := by
    intro key hkey
    obtain ⟨v, hv⟩ := hkeys key hkey
    obtain ⟨before, after, heq, _⟩ := List.lookup_eq_some_iff.mp hv
    rw [heq, Fields.keys]
    simp
  have hle := ((Fields.nodup_keys h).subperm hsub).length_le
  rwa [Fields.keys, Fields.keys, List.length_map, List.length_map] at hle

namespace Value

theorem length_of_acceptsItems {o : Occasion} {i : Nat} {ws vs : List Value}
    (h : acceptsItems o i ws vs = true) : vs.length = ws.length := by
  induction ws generalizing i vs with
  | nil =>
    cases vs with
    | nil => rfl
    | cons v vs => cases h
  | cons w ws ih =>
    cases vs with
    | nil => cases h
    | cons v vs =>
      rw [acceptsItems] at h
      rw [List.length_cons, List.length_cons, ih (Bool.and_eq_true_iff.mp h).2]

theorem keys_of_acceptsEntries {o : Occasion} {i : Nat} {entries fields : List (String × Value)}
    (h : acceptsEntries o i entries fields = true) :
    ∀ key ∈ Fields.keys entries, ∃ v, fields.lookup key = some v := by
  induction entries generalizing i with
  | nil => exact fun key hkey => absurd hkey List.not_mem_nil
  | cons entry rest ih =>
    obtain ⟨first, w⟩ := entry
    rw [acceptsEntries] at h
    intro key hkey
    cases hv : fields.lookup first with
    | none => rw [hv] at h; cases h
    | some v =>
      rw [hv] at h
      rcases List.mem_cons.mp hkey with rfl | hkey
      · exact ⟨v, hv⟩
      · exact ih (Bool.and_eq_true_iff.mp h).2 key hkey

end Value

theorem Pattern.length_of_itemSites? {o : Occasion} {i : Nat} {ps : List Pattern}
    {vs : List Value} {sites : List Site} (h : itemSites? o i ps vs = some sites) :
    vs.length = ps.length := by
  induction ps generalizing i vs sites with
  | nil =>
    cases vs with
    | nil => rfl
    | cons v vs => cases h
  | cons p ps ih =>
    cases vs with
    | nil => cases h
    | cons v vs =>
      rw [itemSites?] at h
      obtain ⟨_, _, h⟩ := Option.bind_eq_some_iff.mp h
      obtain ⟨_, hmore, _⟩ := Option.map_eq_some_iff.mp h
      rw [List.length_cons, List.length_cons, ih hmore]

theorem Pattern.keys_of_entrySites? {o : Occasion} {i : Nat} {entries : List (String × Pattern)}
    {fields : List (String × Value)} {sites : List Site}
    (h : entrySites? o i entries fields = some sites) :
    ∀ key ∈ Fields.keys entries, ∃ v, fields.lookup key = some v := by
  induction entries generalizing i sites with
  | nil => exact fun key hkey => absurd hkey List.not_mem_nil
  | cons entry rest ih =>
    obtain ⟨first, p⟩ := entry
    rw [entrySites?] at h
    obtain ⟨v, hv, h⟩ := Option.bind_eq_some_iff.mp h
    obtain ⟨_, _, h⟩ := Option.bind_eq_some_iff.mp h
    obtain ⟨_, hmore, _⟩ := Option.map_eq_some_iff.mp h
    intro key hkey
    rcases List.mem_cons.mp hkey with rfl | hkey
    · exact ⟨v, hv⟩
    · exact ih hmore key hkey

theorem length_compileLiteralEntries {d : Nat} {entries : List (String × Value)}
    {ms : List (String × Matcher)} (h : compileLiteralEntries d entries = .ok ms) :
    ms.length = entries.length := by
  induction entries generalizing ms with
  | nil => cases h; rfl
  | cons entry rest ih =>
    obtain ⟨m, more, _, hmore, rfl⟩ := compileLiteralEntries_cons_iff.mp h
    rw [List.length_cons, List.length_cons, ih hmore]

theorem length_compileLiteralItems {d : Nat} {items : List Value} {ms : List Matcher}
    (h : compileLiteralItems d items = .ok ms) : ms.length = items.length := by
  induction items generalizing ms with
  | nil => cases h; rfl
  | cons v rest ih =>
    obtain ⟨m, more, _, hmore, rfl⟩ := compileLiteralItems_cons_iff.mp h
    rw [List.length_cons, List.length_cons, ih hmore]

namespace Pattern

theorem length_compileEntries {d : Nat} {entries : List (String × Pattern)}
    {ms : List (String × Matcher)} (h : compileEntries d entries = .ok ms) :
    ms.length = entries.length := by
  induction entries generalizing ms with
  | nil => cases h; rfl
  | cons entry rest ih =>
    obtain ⟨m, more, _, hmore, rfl⟩ := compileEntries_cons_iff.mp h
    rw [List.length_cons, List.length_cons, ih hmore]

theorem length_compileItems {d : Nat} {items : List Pattern} {ms : List Matcher}
    (h : compileItems d items = .ok ms) : ms.length = items.length := by
  induction items generalizing ms with
  | nil => cases h; rfl
  | cons p rest ih =>
    obtain ⟨m, more, _, hmore, rfl⟩ := compileItems_cons_iff.mp h
    rw [List.length_cons, List.length_cons, ih hmore]

end Pattern

namespace Matcher

theorem attempt_map_eq (o : Occasion) (ms : List (String × Matcher)) (v : Value)
    (out : Bindings) :
    attempt o (.map ms) v out =
      match v.fieldsAt? o with
      | some fields =>
        if ms.length ≤ fields.length then attemptEntries o 0 ms fields out else (false, out)
      | none => (false, out) := by
  cases v <;> rfl

end Matcher

/-! ### Constants -/

mutual

/-- A constant binds nothing, and its matcher accepts what has the shape of the constant. -/
theorem attempt_compileLiteral (w : Value) {d : Nat} {m : Matcher} (hw : w.Ordered)
    (h : compileLiteral d w = .ok m) (o : Occasion) (v : Value) (out : Bindings) :
    m.attempt o v out = (w.accepts o v, out) := by
  cases w with
  | undefined =>
    obtain ⟨_, rfl⟩ := compileLiteral_undefined_iff.mp h
    rfl
  | list items =>
    obtain ⟨_, ms, hms, rfl⟩ := compileLiteral_list_iff.mp h
    cases v with
    | list vs =>
      show (if vs.length = ms.length then Matcher.attemptItems o 0 ms vs out else (false, out)) =
        (Value.acceptsItems o 0 items vs, out)
      rw [length_compileLiteralItems hms]
      -- The matcher looks at the lengths first, the shape comes upon them in the end.
      split
      · rename_i hlen
        exact attemptItems_compileLiteral items hw hms o 0 vs hlen out
      · rename_i hlen
        cases hacc : Value.acceptsItems o 0 items vs with
        | false => rfl
        | true => exact absurd (Value.length_of_acceptsItems hacc) hlen
    | _ => rfl
  | map entries =>
    obtain ⟨_, ms, hms, rfl⟩ := compileLiteral_map_iff.mp h
    rw [Matcher.attempt_map_eq, Value.accepts]
    cases v.fieldsAt? o with
    | none => rfl
    | some fields =>
      show (if ms.length ≤ fields.length then Matcher.attemptEntries o 0 ms fields out
        else (false, out)) = (Value.acceptsEntries o 0 entries fields, out)
      rw [length_compileLiteralEntries hms]
      split
      · exact attemptEntries_compileLiteral entries hw.2 hms o 0 fields out
      · rename_i hlen
        cases hacc : Value.acceptsEntries o 0 entries fields with
        | false => rfl
        | true =>
          -- All keys are among the fields and none counts twice.
          exact absurd (Fields.length_le_of_keys hw.1 (Value.keys_of_acceptsEntries hacc)) hlen
  | object i => exact absurd h compileLiteral_object_ne
  | _ =>
    obtain ⟨_, rfl⟩ := (compileLiteral_scalar_iff (by exact trivial)).mp h
    rfl
termination_by structural w

theorem attemptItems_compileLiteral (ws : List Value) {d : Nat} {ms : List Matcher}
    (hws : Value.OrderedItems ws) (h : compileLiteralItems d ws = .ok ms) (o : Occasion) (i : Nat)
    (vs : List Value) (hlen : vs.length = ws.length) (out : Bindings) :
    Matcher.attemptItems o i ms vs out = (Value.acceptsItems o i ws vs, out) := by
  cases ws with
  | nil =>
    cases h
    cases vs with
    | nil => rfl
    | cons v vs => cases hlen
  | cons w ws =>
    obtain ⟨m, more, hm, hmore, rfl⟩ := compileLiteralItems_cons_iff.mp h
    cases vs with
    | nil => cases hlen
    | cons v vs =>
      have hrest := attemptItems_compileLiteral ws hws.2 hmore o (i + 1) vs (Nat.succ.inj hlen)
      rw [Matcher.attemptItems, attempt_compileLiteral w hws.1 hm, Value.acceptsItems]
      cases w.accepts (o.step i) v with
      | false => rfl
      | true => exact hrest out
termination_by structural ws

theorem attemptEntries_compileLiteral (entries : List (String × Value)) {d : Nat}
    {ms : List (String × Matcher)} (hentries : Value.OrderedEntries entries)
    (h : compileLiteralEntries d entries = .ok ms) (o : Occasion) (i : Nat)
    (fields : List (String × Value)) (out : Bindings) :
    Matcher.attemptEntries o i ms fields out = (Value.acceptsEntries o i entries fields, out) := by
  cases entries with
  | nil => cases h; rfl
  | cons entry rest =>
    obtain ⟨key, w⟩ := entry
    obtain ⟨m, more, hm, hmore, rfl⟩ := compileLiteralEntries_cons_iff.mp h
    have hrest := attemptEntries_compileLiteral rest hentries.2 hmore o (i + 1) fields
    rw [Matcher.attemptEntries, Value.acceptsEntries]
    cases fields.lookup key with
    | none => rfl
    | some v =>
      show (match m.attempt (o.step i) v out with
        | (true, out) => Matcher.attemptEntries o (i + 1) more fields out
        | (false, out) => (false, out)) =
          (w.accepts (o.step i) v && Value.acceptsEntries o (i + 1) rest fields, out)
      rw [attempt_compileLiteral w hentries.1 hm]
      cases w.accepts (o.step i) v with
      | false => rfl
      | true => exact hrest out
termination_by structural entries

end

/-! ### Patterns -/

namespace Pattern

theorem realizes_attempt_var (x : Variable) (o : Occasion) (v : Value) (out : Bindings) :
    out.Realizes ((var x).sites? o v) ((matcherOfVariable x).attempt o v out) := by
  rw [sites?, matcherOfVariable]
  by_cases hx : x.isIgnored = true
  · rw [if_pos hx, if_pos hx]
    rfl
  · rw [if_neg hx, if_neg hx]
    show Matcher.attempt o (.var x.bindingName?) v out = out.record [⟨x.bindingName?, v⟩]
    rw [Bindings.record_singleton]
    cases x.bindingName? with
    | none => rfl
    | some name => rfl

theorem realizes_attempt_startsWith (stem : String) (o : Occasion) (v : Value) (out : Bindings) :
    out.Realizes ((startsWith stem).sites? o v) ((Matcher.startsWith stem).attempt o v out) := by
  cases v with
  | string s =>
    rw [sites?, Matcher.attempt]
    cases stem.toList.isPrefixOf? s.toList with
    | none => rfl
    | some rest => rfl
  | _ => rfl

/-- The number of fields decides nothing: if there are fewer of them than keys, some key is not
among them. -/
theorem realizes_counted {o : Occasion} {entries : List (String × Pattern)}
    {ms : List (String × Matcher)} {fields : List (String × Value)} {out : Bindings}
    {r : Bool × Bindings} (hkeys : Fields.Ascending entries) (hlen : ms.length = entries.length)
    (h : out.Realizes (entrySites? o 0 entries fields) r) :
    out.Realizes (entrySites? o 0 entries fields)
      (if ms.length ≤ fields.length then r else (false, out)) := by
  rw [hlen]
  split
  · exact h
  · rename_i hmore
    cases hs : entrySites? o 0 entries fields with
    | none => rfl
    | some sites => exact absurd (Fields.length_le_of_keys hkeys (keys_of_entrySites? hs)) hmore

mutual

-- The induction is on the pattern, for all bindings that there may be before: a part of a pattern
-- starts from what the parts before it have bound.

/-- The matcher of a pattern binds the sites of a value one by one, and does nothing else. -/
theorem realizes_attempt (p : Pattern) {d : Nat} {m : Matcher} (hp : p.Ordered)
    (h : compileAt d p = .ok m) (o : Occasion) (v : Value) (out : Bindings) :
    out.Realizes (p.sites? o v) (m.attempt o v out) := by
  cases p with
  | wildcard =>
    obtain ⟨_, rfl⟩ := compileAt_wildcard_iff.mp h
    rfl
  | var x =>
    obtain ⟨_, rfl⟩ := compileAt_var_iff.mp h
    exact realizes_attempt_var x o v out
  | capture inner =>
    obtain ⟨_, c, hc, rfl⟩ := compileAt_capture_iff.mp h
    exact (realizes_attempt inner hp hc (o.step 0) v out).andPush
  | startsWith stem =>
    obtain ⟨_, rfl⟩ := compileAt_startsWith_iff.mp h
    exact realizes_attempt_startsWith stem o v out
  | headTail head tail =>
    obtain ⟨_, c, t, hc, ht, rfl⟩ := compileAt_headTail_iff.mp h
    cases v with
    | list vs =>
      cases vs with
      | nil => rfl
      | cons first rest =>
        -- The names that the head binds are known to the tail.
        have hhead := realizes_attempt head hp.1 hc (o.step 0) first out
        exact hhead.andThen fun mid =>
          realizes_attempt tail hp.2 ht (o.step 1) (.list rest) mid
    | _ => rfl
  | bound w =>
    obtain ⟨_, rfl⟩ := compileAt_bound_iff.mp h
    rw [sites?, Matcher.attempt]
    cases v == w with
    | false => rfl
    | true => rfl
  | instanceOf tag fields =>
    obtain ⟨_, ms, hms, rfl⟩ := compileAt_instanceOf_iff.mp h
    cases v with
    | object i =>
      have hfields := realizes_attemptEntries fields hp.2 hms o 0 (i.fields o) out
      have hcounted := realizes_counted hp.1 (length_compileEntries hms) hfields
      show out.Realizes (if i.tag = tag then entrySites? o 0 fields (i.fields o) else none)
        (if i.tag = tag ∧ ms.length ≤ (i.fields o).length then
          Matcher.attemptEntries o 0 ms (i.fields o) out else (false, out))
      -- The class alone decides, whatever name it shows.
      by_cases htag : i.tag = tag
      · simp only [htag, true_and, if_true]
        exact hcounted
      · rw [if_neg htag, if_neg fun hand => htag hand.1]
        rfl
    | _ => rfl
  | bitstring segments =>
    obtain ⟨_, fields, hfields, rfl⟩ := compileAt_bitstring_iff.mp h
    exact Matcher.realizes_attempt_bytes hfields o v out
  | literal w =>
    obtain ⟨_, hm⟩ := compileAt_literal_iff.mp h
    rw [sites?, attempt_compileLiteral w hp hm]
    cases w.accepts o v with
    | false => rfl
    | true => rfl
  | list items =>
    obtain ⟨_, ms, hms, rfl⟩ := compileAt_list_iff.mp h
    cases v with
    | list vs =>
      show out.Realizes (itemSites? o 0 items vs)
        (if vs.length = ms.length then Matcher.attemptItems o 0 ms vs out else (false, out))
      rw [length_compileItems hms]
      split
      · rename_i hlen
        exact realizes_attemptItems items hp hms o 0 vs hlen out
      · rename_i hlen
        cases hs : itemSites? o 0 items vs with
        | none => rfl
        | some sites => exact absurd (length_of_itemSites? hs) hlen
    | _ => rfl
  | map fields =>
    obtain ⟨_, ms, hms, rfl⟩ := compileAt_map_iff.mp h
    rw [Matcher.attempt_map_eq, sites?]
    cases v.fieldsAt? o with
    | none => rfl
    | some found =>
      exact realizes_counted hp.1 (length_compileEntries hms)
        (realizes_attemptEntries fields hp.2 hms o 0 found out)
termination_by structural p

theorem realizes_attemptItems (ps : List Pattern) {d : Nat} {ms : List Matcher}
    (hps : OrderedItems ps) (h : compileItems d ps = .ok ms) (o : Occasion) (i : Nat)
    (vs : List Value) (hlen : vs.length = ps.length) (out : Bindings) :
    out.Realizes (itemSites? o i ps vs) (Matcher.attemptItems o i ms vs out) := by
  cases ps with
  | nil =>
    cases h
    cases vs with
    | nil => rfl
    | cons v vs => cases hlen
  | cons p ps =>
    obtain ⟨m, more, hm, hmore, rfl⟩ := compileItems_cons_iff.mp h
    cases vs with
    | nil => cases hlen
    | cons v vs =>
      have hfirst := realizes_attempt p hps.1 hm (o.step i) v out
      exact hfirst.andThen fun mid =>
        realizes_attemptItems ps hps.2 hmore o (i + 1) vs (Nat.succ.inj hlen) mid
termination_by structural ps

theorem realizes_attemptEntries (entries : List (String × Pattern)) {d : Nat}
    {ms : List (String × Matcher)} (hentries : OrderedEntries entries)
    (h : compileEntries d entries = .ok ms) (o : Occasion) (i : Nat)
    (fields : List (String × Value)) (out : Bindings) :
    out.Realizes (entrySites? o i entries fields) (Matcher.attemptEntries o i ms fields out) := by
  cases entries with
  | nil => cases h; rfl
  | cons entry rest =>
    obtain ⟨key, p⟩ := entry
    obtain ⟨m, more, hm, hmore, rfl⟩ := compileEntries_cons_iff.mp h
    rw [entrySites?, Matcher.attemptEntries]
    cases fields.lookup key with
    | none => rfl
    | some v =>
      have hfirst := realizes_attempt p hentries.1 hm (o.step i) v out
      exact hfirst.andThen fun mid =>
        realizes_attemptEntries rest hentries.2 hmore o (i + 1) fields mid
termination_by structural entries

end

/-- **An attempt succeeds exactly if the value has the shape of the pattern and its binding sites
are reconciled.**  The values of the sites are added then, and every name that was unknown stands
for the first value under it. -/
theorem attempt_iff_sites {p : Pattern} {m : Matcher} (hp : p.Ordered) (h : p.compile = .ok m)
    (o : Occasion) (v : Value) (out : Bindings) :
    ((m.attempt o v out).1 = true ↔
        ∃ sites, p.sites? o v = some sites ∧ out.Reconciles sites) ∧
      ∀ sites, p.sites? o v = some sites → out.Reconciles sites →
        (m.attempt o v out).2.values = out.values ++ sites.map Site.value ∧
          ∀ name, (m.attempt o v out).2.get? name = out.known? sites name := by
  have hr := realizes_attempt p hp h o v out
  refine ⟨hr.fst_iff, fun sites hsites hrec => ?_⟩
  rw [hsites] at hr
  change m.attempt o v out = out.record sites at hr
  rw [hr]
  exact ⟨Bindings.values_record hrec, Bindings.get?_record hrec⟩

/-- One name at two places, one of them in a list below a key, and known before. -/
theorem attempt_iff_sites_repeated :
    ∃ p : Pattern, p = map [("a", var ⟨some "x", none⟩),
        ("b", list [capture (var ⟨some "x", none⟩)])] ∧ p.Ordered ∧
      ∃ m, p.compile = .ok m ∧ ∃ sites,
        p.sites? .start (.map [("a", .int 3), ("b", .list [.int 3]), ("c", .null)]) = some sites ∧
        (Bindings.empty.pushFirst "x" (.int 3)).Reconciles sites ∧
        (m.attempt .start (.map [("a", .int 3), ("b", .list [.int 3]), ("c", .null)])
          (Bindings.empty.pushFirst "x" (.int 3))).2.values = .int 3 :: sites.map Site.value := by
  have hp : (map [("a", var ⟨some "x", none⟩),
      ("b", list [capture (var ⟨some "x", none⟩)])]).Ordered :=
    ⟨by rw [Fields.Ascending]; decide, trivial, ⟨trivial, trivial⟩, trivial⟩
  refine ⟨_, rfl, hp, _, rfl, ?_⟩
  have h := attempt_iff_sites hp rfl .start
    (.map [("a", .int 3), ("b", .list [.int 3]), ("c", .null)])
    (Bindings.empty.pushFirst "x" (.int 3))
  obtain ⟨sites, hsites, hrec⟩ := h.1.mp (by decide)
  exact ⟨sites, hsites, hrec, (h.2 sites hsites hrec).1⟩

end Pattern

end StructuralMatching
