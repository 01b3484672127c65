/-
Other names.

What a variable is called makes no difference by itself.  A name says which sites belong together,
and the fewer sites do so the more values match.

* `IsBindingName`, `Pattern.rename` — the names of variables that bind, and other names for them;
* `Pattern.anonymous` — a pattern without these names: what patterns have in common that differ in
  them only;
* `SharesName` — two places with one name;
* `Pattern.sites?_rename` — other names leave the sites where they are;
* `Pattern.bind?_renamed` — what a match has to do with names.

Design notes: a renaming may also take a name away, which leaves an unnamed variable.  Variables
with the ignore mark are never touched.
-/
import StructuralMatching.Proofs.Matching.Likeness

namespace StructuralMatching

/-! ### Names of variables that bind -/

/-- The name does not begin with the ignore mark. -/
def IsBindingName (name : String) : Prop := name.toList.head? ≠ some '_'

namespace Variable

variable {f : String → Option String} {x : Variable}

theorem isIgnored_eq_false_iff :
    x.isIgnored = false ↔ ∀ name, x.name = some name → IsBindingName name := by
  rw [isIgnored, Option.any_eq_false]
  simp only [beq_eq_false_iff_ne]
  exact Iff.rfl

/-- Another name for a variable that binds. -/
def rename (f : String → Option String) (x : Variable) : Variable :=
  if x.isIgnored then x else { x with name := x.name.bind f }

theorem rename_of_ignored (hx : x.isIgnored = true) : x.rename f = x := by
  rw [rename, if_pos hx]

theorem name_rename (hx : x.isIgnored = false) : (x.rename f).name = x.name.bind f := by
  rw [rename, hx]
  rfl

theorem isIgnored_rename (hf : ∀ a b, IsBindingName a → f a = some b → IsBindingName b) :
    (x.rename f).isIgnored = x.isIgnored := by
  cases hx : x.isIgnored with
  | true => rw [rename_of_ignored hx, hx]
  | false =>
    rw [isIgnored_eq_false_iff, name_rename hx]
    intro name hname
    obtain ⟨old, hold, hnew⟩ := Option.bind_eq_some_iff.mp hname
    exact hf old name (isIgnored_eq_false_iff.mp hx old hold) hnew

theorem bindingName?_rename (hf : ∀ a b, IsBindingName a → f a = some b → IsBindingName b) :
    (x.rename f).bindingName? = x.bindingName?.bind f := by
  rw [bindingName?, bindingName?, isIgnored_rename hf]
  cases hx : x.isIgnored with
  | true => rfl
  | false => exact name_rename hx

theorem isBindingName_of_bindingName? {name : String} (h : x.bindingName? = some name) :
    IsBindingName name := by
  rw [bindingName?] at h
  cases hx : x.isIgnored with
  | true =>
    rw [hx] at h
    cases h
  | false =>
    rw [hx] at h
    exact isIgnored_eq_false_iff.mp hx name h

end Variable

/-- Another name for a site. -/
def Site.rename (f : String → Option String) (s : Site) : Site := ⟨s.name.bind f, s.value⟩

theorem Site.map_value_rename (f : String → Option String) (sites : List Site) :
    (sites.map (Site.rename f)).map Site.value = sites.map Site.value := by
  rw [List.map_map]
  rfl

namespace Pattern

mutual

/-- Other names for the variables that bind, wherever they are; those without a new name become
unnamed. -/
def rename (f : String → Option String) : Pattern → Pattern
  | var x => var (x.rename f)
  | capture inner => capture (rename f inner)
  | headTail head tail => headTail (rename f head) (rename f tail)
  | instanceOf tag fields => instanceOf tag (renameEntries f fields)
  | list items => list (renameItems f items)
  | map fields => map (renameEntries f fields)
  | p => p
termination_by structural p => p

def renameItems (f : String → Option String) : List Pattern → List Pattern
  | [] => []
  | p :: ps => rename f p :: renameItems f ps
termination_by structural ps => ps

def renameEntries (f : String → Option String) :
    List (String × Pattern) → List (String × Pattern)
  | [] => []
  | (key, p) :: entries => (key, rename f p) :: renameEntries f entries
termination_by structural entries => entries

end

/-- The pattern without the names of variables that bind. -/
def anonymous (p : Pattern) : Pattern := p.rename fun _ => none

/-! ### What names do not matter for -/

variable {f : String → Option String}

theorem keys_renameEntries (entries : List (String × Pattern)) :
    Fields.keys (renameEntries f entries) = Fields.keys entries := by
  induction entries with
  | nil => rfl
  | cons entry rest ih => exact congrArg (entry.1 :: ·) ih

mutual

theorem ordered_rename (p : Pattern) : (p.rename f).Ordered ↔ p.Ordered := by
  cases p with
  | wildcard | var | startsWith | bound | bitstring | literal => exact Iff.rfl
  | capture inner => exact ordered_rename inner
  | headTail head tail => exact and_congr (ordered_rename head) (ordered_rename tail)
  | instanceOf tag fields =>
    have hkeys := Fields.ascending_congr (keys_renameEntries (f := f) fields)
    exact and_congr hkeys (orderedEntries_rename fields)
  | list items => exact orderedItems_rename items
  | map fields =>
    have hkeys := Fields.ascending_congr (keys_renameEntries (f := f) fields)
    exact and_congr hkeys (orderedEntries_rename fields)
termination_by structural p

theorem orderedItems_rename (ps : List Pattern) :
    OrderedItems (renameItems f ps) ↔ OrderedItems ps := by
  cases ps with
  | nil => exact Iff.rfl
  | cons p ps => exact and_congr (ordered_rename p) (orderedItems_rename ps)
termination_by structural ps

theorem orderedEntries_rename (entries : List (String × Pattern)) :
    OrderedEntries (renameEntries f entries) ↔ OrderedEntries entries := by
  cases entries with
  | nil => exact Iff.rfl
  | cons entry rest => exact and_congr (ordered_rename entry.2) (orderedEntries_rename rest)
termination_by structural entries

end

mutual

theorem exists_compileAt_rename (p : Pattern) {d : Nat} {m : Matcher} (h : compileAt d p = .ok m) :
    ∃ m', compileAt d (p.rename f) = .ok m' := by
  cases p with
  | wildcard | startsWith | bound | bitstring | literal => exact ⟨m, h⟩
  | var x =>
    obtain ⟨hd, _⟩ := compileAt_var_iff.mp h
    exact ⟨_, compileAt_var_iff.mpr ⟨hd, rfl⟩⟩
  | capture inner =>
    obtain ⟨hd, c, hc, _⟩ := compileAt_capture_iff.mp h
    obtain ⟨c', hc'⟩ := exists_compileAt_rename inner hc
    exact ⟨_, compileAt_capture_iff.mpr ⟨hd, c', hc', rfl⟩⟩
  | headTail head tail =>
    obtain ⟨hd, c, t, hc, ht, _⟩ := compileAt_headTail_iff.mp h
    obtain ⟨c', hc'⟩ := exists_compileAt_rename head hc
    obtain ⟨t', ht'⟩ := exists_compileAt_rename tail ht
    exact ⟨_, compileAt_headTail_iff.mpr ⟨hd, c', t', hc', ht', rfl⟩⟩
  | instanceOf tag fields =>
    obtain ⟨hd, ms, hms, _⟩ := compileAt_instanceOf_iff.mp h
    obtain ⟨ms', hms'⟩ := exists_compileEntries_rename fields hms
    exact ⟨_, compileAt_instanceOf_iff.mpr ⟨hd, ms', hms', rfl⟩⟩
  | list items =>
    obtain ⟨hd, ms, hms, _⟩ := compileAt_list_iff.mp h
    obtain ⟨ms', hms'⟩ := exists_compileItems_rename items hms
    exact ⟨_, compileAt_list_iff.mpr ⟨hd, ms', hms', rfl⟩⟩
  | map fields =>
    obtain ⟨hd, ms, hms, _⟩ := compileAt_map_iff.mp h
    obtain ⟨ms', hms'⟩ := exists_compileEntries_rename fields hms
    exact ⟨_, compileAt_map_iff.mpr ⟨hd, ms', hms', rfl⟩⟩
termination_by structural p

theorem exists_compileItems_rename (ps : List Pattern) {d : Nat} {ms : List Matcher}
    (h : compileItems d ps = .ok ms) : ∃ ms', compileItems d (renameItems f ps) = .ok ms' := by
  cases ps with
  | nil => exact ⟨ms, h⟩
  | cons p ps =>
    obtain ⟨m, more, hm, hmore, _⟩ := compileItems_cons_iff.mp h
    obtain ⟨m', hm'⟩ := exists_compileAt_rename p hm
    obtain ⟨more', hmore'⟩ := exists_compileItems_rename ps hmore
    exact ⟨_, compileItems_cons_iff.mpr ⟨m', more', hm', hmore', rfl⟩⟩
termination_by structural ps

theorem exists_compileEntries_rename (entries : List (String × Pattern)) {d : Nat}
    {ms : List (String × Matcher)} (h : compileEntries d entries = .ok ms) :
    ∃ ms', compileEntries d (renameEntries f entries) = .ok ms' := by
  cases entries with
  | nil => exact ⟨ms, h⟩
  | cons entry rest =>
    obtain ⟨key, p⟩ := entry
    obtain ⟨m, more, hm, hmore, _⟩ := compileEntries_cons_iff.mp h
    obtain ⟨m', hm'⟩ := exists_compileAt_rename p hm
    obtain ⟨more', hmore'⟩ := exists_compileEntries_rename rest hmore
    exact ⟨_, compileEntries_cons_iff.mpr ⟨m', more', hm', hmore', rfl⟩⟩
termination_by structural entries

end

/-! ### Sites under other names -/

/-- Unnamed sites stay as they are. -/
theorem map_rename_sites? {p : Pattern} (hp : ∀ origin ∈ p.origins, origin.name = none)
    (o : Occasion) (v : Value) :
    (p.sites? o v).map (List.map (Site.rename f)) = p.sites? o v := by
  cases hsites : p.sites? o v with
  | none => rfl
  | some sites =>
    have hnames : ∀ name ∈ sites.map Site.name, name = none := by
      rw [map_name_sites? hsites, List.forall_mem_map]
      exact hp
    rw [List.forall_mem_map] at hnames
    refine congrArg some ((List.map_congr_left fun s hs => ?_).trans (List.map_id sites))
    obtain ⟨name, value⟩ := s
    obtain rfl : name = none := hnames _ hs
    rfl

/-- Sites one after the other. -/
theorem map_rename_andThen (plan rest : Option (List Site)) :
    ((plan.map (List.map (Site.rename f))).bind fun sites =>
        (rest.map (List.map (Site.rename f))).map fun more => sites ++ more) =
      (plan.bind fun sites => rest.map fun more => sites ++ more).map
        (List.map (Site.rename f)) := by
  cases plan with
  | none => rfl
  | some sites =>
    cases rest with
    | none => rfl
    | some more => exact congrArg some List.map_append.symm

mutual

-- The induction is on the pattern.  Kinds of patterns whose sites have no names need no equation of
-- their own: there is nothing to rename.

/-- **Other names leave the sites where they are**, as long as the variables still bind. -/
theorem sites?_rename (hf : ∀ a b, IsBindingName a → f a = some b → IsBindingName b) (p : Pattern)
    (o : Occasion) (v : Value) :
    (p.rename f).sites? o v = (p.sites? o v).map (List.map (Site.rename f)) := by
  cases p with
  | wildcard | bound | literal =>
    exact (map_rename_sites? (fun _ h => absurd h List.not_mem_nil) o v).symm
  | startsWith stem =>
    refine (map_rename_sites? (fun origin h => ?_) o v).symm
    rw [List.mem_singleton.mp h, Origin.name]
  | bitstring segments =>
    refine (map_rename_sites? (fun origin h => ?_) o v).symm
    obtain ⟨s, _, rfl⟩ := List.mem_map.mp h
    rfl
  | var x =>
    rw [rename, sites?, sites?, Variable.isIgnored_rename hf, Variable.bindingName?_rename hf]
    cases x.isIgnored <;> rfl
  | capture inner =>
    rw [rename, sites?, sites?, sites?_rename hf inner, Option.map_map, Option.map_map]
    refine congrArg (Option.map · _) (funext fun sites => ?_)
    rw [Function.comp, Function.comp, List.map_append]
    rfl
  | headTail head tail =>
    rw [rename, sites?_headTail, sites?_headTail, Option.map_bind]
    refine congrArg (Option.bind _) (funext fun vs => ?_)
    rw [Function.comp, Option.map_bind]
    refine congrArg (Option.bind _) (funext fun first => ?_)
    rw [Function.comp, sites?_rename hf head, sites?_rename hf tail]
    exact map_rename_andThen _ _
  | instanceOf tag fields =>
    rw [rename, sites?_instanceOf, sites?_instanceOf]
    split
    · rw [Option.map_bind]
      exact congrArg (Option.bind _) (funext fun found => entrySites?_rename hf fields o 0 found)
    · rfl
  | list items =>
    rw [rename, sites?_list, sites?_list, Option.map_bind]
    exact congrArg (Option.bind _) (funext fun vs => itemSites?_rename hf items o 0 vs)
  | map fields =>
    rw [rename, sites?, sites?, Option.map_bind]
    exact congrArg (Option.bind _) (funext fun found => entrySites?_rename hf fields o 0 found)
termination_by structural p

theorem itemSites?_rename (hf : ∀ a b, IsBindingName a → f a = some b → IsBindingName b)
    (ps : List Pattern) (o : Occasion) (i : Nat) (vs : List Value) :
    itemSites? o i (renameItems f ps) vs =
      (itemSites? o i ps vs).map (List.map (Site.rename f)) := by
  cases ps with
  | nil => cases vs <;> rfl
  | cons p ps =>
    cases vs with
    | nil => rfl
    | cons v vs =>
      rw [renameItems, itemSites?, itemSites?, sites?_rename hf p, itemSites?_rename hf ps]
      exact map_rename_andThen _ _
termination_by structural ps

theorem entrySites?_rename (hf : ∀ a b, IsBindingName a → f a = some b → IsBindingName b)
    (entries : List (String × Pattern)) (o : Occasion) (i : Nat) (found : List (String × Value)) :
    entrySites? o i (renameEntries f entries) found =
      (entrySites? o i entries found).map (List.map (Site.rename f)) := by
  cases entries with
  | nil => rfl
  | cons entry rest =>
    obtain ⟨key, p⟩ := entry
    rw [renameEntries, entrySites?, entrySites?, Option.map_bind]
    refine congrArg (Option.bind _) (funext fun v => ?_)
    rw [Function.comp, sites?_rename hf p, entrySites?_rename hf rest]
    exact map_rename_andThen _ _
termination_by structural entries

end

/-- Patterns that differ in names only have the same sites, up to these names. -/
theorem sites?_of_anonymous_eq {p q : Pattern} (hpq : p.anonymous = q.anonymous) {o : Occasion}
    {v : Value} {others : List Site} (h : q.sites? o v = some others) :
    ∃ sites, p.sites? o v = some sites ∧ sites.map Site.value = others.map Site.value := by
  have hsame : p.anonymous.sites? o v = q.anonymous.sites? o v := by rw [hpq]
  have hnone : ∀ a b : String, IsBindingName a → none = some b → IsBindingName b :=
    fun _ _ _ hab => nomatch hab
  rw [anonymous, anonymous, sites?_rename hnone, sites?_rename hnone, h] at hsame
  obtain ⟨sites, hsites, hmap⟩ := Option.map_eq_some_iff.mp hsame
  refine ⟨sites, hsites, ?_⟩
  have hvalues := congrArg (List.map Site.value) hmap
  rwa [Site.map_value_rename, Site.map_value_rename] at hvalues

mutual

/-- Only variables that bind give names to sites. -/
theorem isBindingName_of_mem_origins (p : Pattern) {name : String}
    (h : some name ∈ p.origins.map Origin.name) : IsBindingName name := by
  cases p with
  | wildcard | bound | literal => cases h
  | startsWith => simp [origins, Origin.name] at h
  | bitstring => simp [origins, Origin.name] at h
  | var x =>
    rw [origins] at h
    split at h
    · cases h
    · exact Variable.isBindingName_of_bindingName? (List.mem_singleton.mp h).symm
  | capture inner =>
    rw [origins, List.map_append, List.mem_append] at h
    rcases h with h | h
    · exact isBindingName_of_mem_origins inner h
    · cases List.mem_singleton.mp h
  | headTail head tail =>
    rw [origins, List.map_append, List.mem_append] at h
    rcases h with h | h
    · exact isBindingName_of_mem_origins head h
    · exact isBindingName_of_mem_origins tail h
  | instanceOf tag fields => exact isBindingName_of_mem_entryOrigins fields h
  | list items => exact isBindingName_of_mem_itemOrigins items h
  | map fields => exact isBindingName_of_mem_entryOrigins fields h
termination_by structural p

theorem isBindingName_of_mem_itemOrigins (ps : List Pattern) {name : String}
    (h : some name ∈ (itemOrigins ps).map Origin.name) : IsBindingName name := by
  cases ps with
  | nil => cases h
  | cons p ps =>
    rw [itemOrigins, List.map_append, List.mem_append] at h
    rcases h with h | h
    · exact isBindingName_of_mem_origins p h
    · exact isBindingName_of_mem_itemOrigins ps h
termination_by structural ps

theorem isBindingName_of_mem_entryOrigins (entries : List (String × Pattern)) {name : String}
    (h : some name ∈ (entryOrigins entries).map Origin.name) : IsBindingName name := by
  cases entries with
  | nil => cases h
  | cons entry rest =>
    obtain ⟨key, p⟩ := entry
    rw [entryOrigins, List.map_append, List.mem_append] at h
    rcases h with h | h
    · exact isBindingName_of_mem_origins p h
    · exact isBindingName_of_mem_entryOrigins rest h
termination_by structural entries

end

end Pattern

/-! ### Shared names -/

/-- Two places in a list of names have the same name. -/
def SharesName (names : List (Option String)) (i j : Nat) : Prop :=
  ∃ name, names[i]? = some (some name) ∧ names[j]? = some (some name)

/-- Fewer shared names leave coherent sites coherent. -/
theorem Coherent.of_shared {sites others : List Site} (h : Coherent others)
    (hvalues : sites.map Site.value = others.map Site.value)
    (hshared : ∀ i j, i ≠ j → SharesName (sites.map Site.name) i j →
      SharesName (others.map Site.name) i j) : Coherent sites := by
  rw [coherent_iff_getElem?] at h ⊢
  intro i j s t hne hs ht name hname hname'
  have hnamei : (sites.map Site.name)[i]? = some (some name) := by
    rw [List.getElem?_map, hs, Option.map_some, hname]
  have hnamej : (sites.map Site.name)[j]? = some (some name) := by
    rw [List.getElem?_map, ht, Option.map_some, hname']
  obtain ⟨other, hi, hj⟩ := hshared i j hne ⟨name, hnamei, hnamej⟩
  rw [List.getElem?_map] at hi hj
  obtain ⟨s', hs', hnames⟩ := Option.map_eq_some_iff.mp hi
  obtain ⟨t', ht', hnamet⟩ := Option.map_eq_some_iff.mp hj
  have hagree := h i j s' t' hne hs' ht' other hnames hnamet
  have hsame : ∀ {k : Nat} {a b : Site}, sites[k]? = some a → others[k]? = some b →
      a.value = b.value := by
    intro k a b ha hb
    have hk := congrArg (fun values => values[k]?) hvalues
    simpa only [List.getElem?_map, ha, hb, Option.map_some, Option.some.injEq] using hk
  rw [hsame hs hs', hsame ht ht']
  exact hagree

/-- Names that are told apart are shared as before. -/
theorem sharesName_map_iff {names : List (Option String)} {f : String → String}
    (hf : ∀ a b, some a ∈ names → some b ∈ names → f a = f b → a = b) {i j : Nat} :
    SharesName (names.map fun name => name.bind (some ∘ f)) i j ↔ SharesName names i j := by
  have hmap : ∀ {k : Nat} {name : String},
      (names.map fun name => name.bind (some ∘ f))[k]? = some (some name) ↔
        ∃ old, names[k]? = some (some old) ∧ f old = name := by
    intro k name
    rw [List.getElem?_map]
    rcases names[k]? with _ | _ | old <;> simp
  constructor
  · rintro ⟨name, hi, hj⟩
    obtain ⟨a, ha, rfl⟩ := hmap.mp hi
    obtain ⟨b, hb, hab⟩ := hmap.mp hj
    obtain rfl := hf b a (List.mem_of_getElem? hb) (List.mem_of_getElem? ha) hab
    exact ⟨b, ha, hb⟩
  · rintro ⟨name, hi, hj⟩
    exact ⟨f name, hmap.mpr ⟨name, hi, rfl⟩, hmap.mpr ⟨name, hj, rfl⟩⟩

namespace Pattern

/-- The names of the sites of a pattern, from left to right. -/
def siteNames (p : Pattern) : List (Option String) := p.origins.map Origin.name

/-- The sites of a renamed pattern are coherent exactly if those of the pattern are, where the new
names tell apart what the old ones do. -/
theorem coherent_rename_iff {p : Pattern} {o : Occasion} {v : Value} {sites : List Site}
    (h : p.sites? o v = some sites) {f : String → String}
    (hinj : ∀ a b, IsBindingName a → IsBindingName b → f a = f b → a = b) :
    Coherent (sites.map (Site.rename (some ∘ f))) ↔ Coherent sites := by
  have hnames : (sites.map (Site.rename (some ∘ f))).map Site.name =
      (sites.map Site.name).map fun name => name.bind (some ∘ f) := by
    rw [List.map_map, List.map_map]
    rfl
  have hvalues := Site.map_value_rename (some ∘ f) sites
  have hshared : ∀ i j, SharesName ((sites.map (Site.rename (some ∘ f))).map Site.name) i j ↔
      SharesName (sites.map Site.name) i j := by
    intro i j
    rw [hnames]
    refine sharesName_map_iff fun a b ha hb => hinj a b ?_ ?_
    · exact isBindingName_of_mem_origins p (map_name_sites? h ▸ ha)
    · exact isBindingName_of_mem_origins p (map_name_sites? h ▸ hb)
  constructor
  · intro hco
    exact hco.of_shared hvalues.symm fun i j _ => (hshared i j).mpr
  · intro hco
    exact hco.of_shared hvalues fun i j _ => (hshared i j).mp

section

variable {p : Pattern} {m : Matcher} {o o' : Occasion} {v : Value} {bs : List Value}

/-- What matches where more names are shared matches where fewer are. -/
theorem bind?_of_sharesName {q : Pattern} {mq : Matcher} (hp : p.Ordered) (h : p.compile = .ok m)
    (hq : q.compile = .ok mq) (hpq : p.anonymous = q.anonymous)
    (hshared : ∀ i j, i ≠ j → SharesName p.siteNames i j → SharesName q.siteNames i j)
    (hv : o = o' ∨ v.Steady) (hbs : mq.bind? o v = some bs) : m.bind? o' v = some bs := by
  have hqord : q.Ordered := by
    rw [← ordered_rename (f := fun _ => none), ← anonymous, ← hpq]
    exact (ordered_rename p).mpr hp
  -- Without their names the two patterns are one, so their sites hold the same values.
  obtain ⟨others, hothers, hco, rfl⟩ := (bind?_eq_some_iff_sites hqord hq).mp hbs
  obtain ⟨sites, hsites, hvalues⟩ := sites?_of_anonymous_eq hpq hothers
  refine (bind?_eq_some_iff_sites hp h).mpr ⟨sites, ?_, ?_, hvalues.symm⟩
  · rw [← hsites]
    exact (sites?_eq_of_steady p hv).symm
  · refine hco.of_shared hvalues ?_
    rw [map_name_sites? hsites, map_name_sites? hothers]
    exact hshared

/-- Names that tell apart what the old ones do bind the same values. -/
theorem bind?_rename_eq {m' : Matcher} {f : String → String} (hp : p.Ordered)
    (h : p.compile = .ok m) (hm' : (p.rename (some ∘ f)).compile = .ok m')
    (hf : ∀ a, IsBindingName a → IsBindingName (f a))
    (hinj : ∀ a b, IsBindingName a → IsBindingName b → f a = f b → a = b)
    (hv : o = o' ∨ v.Steady) : m'.bind? o' v = m.bind? o v := by
  have hbinding : ∀ a b, IsBindingName a → (some ∘ f) a = some b → IsBindingName b := by
    intro a b ha hab
    rw [← Option.some.inj hab]
    exact hf a ha
  refine Option.ext fun bs => ?_
  rw [bind?_eq_some_iff_sites ((ordered_rename p).mpr hp) hm', bind?_eq_some_iff_sites hp h,
    sites?_rename hbinding, ← sites?_eq_of_steady p hv]
  cases hs : p.sites? o v with
  | none => simp
  | some sites =>
    simp only [Option.map_some, Option.some.injEq, exists_eq_left', coherent_rename_iff hs hinj,
      Site.map_value_rename]

/-- Any two sites of one name are bound to equal values. -/
theorem beq_of_sharesName (hp : p.Ordered) (h : p.compile = .ok m) (hbs : m.bind? o v = some bs)
    {i j : Nat} (hne : i ≠ j) (hshared : SharesName p.siteNames i j) :
    ∃ a b, bs[i]? = some a ∧ bs[j]? = some b ∧ (a == b) = true := by
  obtain ⟨sites, hsites, hco, rfl⟩ := (bind?_eq_some_iff_sites hp h).mp hbs
  rw [siteNames, ← map_name_sites? hsites] at hshared
  obtain ⟨name, hi, hj⟩ := hshared
  rw [List.getElem?_map] at hi hj
  obtain ⟨s, hs, hsname⟩ := Option.map_eq_some_iff.mp hi
  obtain ⟨t, ht, htname⟩ := Option.map_eq_some_iff.mp hj
  refine ⟨s.value, t.value, ?_, ?_, ?_⟩
  · rw [List.getElem?_map, hs, Option.map_some]
  · rw [List.getElem?_map, ht, Option.map_some]
  · exact coherent_iff_getElem?.mp hco i j s t hne hs ht name hsname htname

end

/-- **What a match has to do with names.**  A pattern whose sites share fewer names matches more
values, with the same bindings; other names that tell apart what the old ones do make no
difference; and sites of one name hold equal values. -/
theorem bind?_renamed {p : Pattern} {m : Matcher} (hp : p.Ordered) (h : p.compile = .ok m) :
    (∀ (q : Pattern) (mq : Matcher), q.compile = .ok mq → p.anonymous = q.anonymous →
      (∀ i j, i ≠ j → SharesName p.siteNames i j → SharesName q.siteNames i j) →
      ∀ o o' v bs, (o = o' ∨ v.Steady) → mq.bind? o v = some bs → m.bind? o' v = some bs) ∧
    (∀ f : String → String, (∀ a, IsBindingName a → IsBindingName (f a)) →
      (∀ a b, IsBindingName a → IsBindingName b → f a = f b → a = b) →
      ∃ m', (p.rename (some ∘ f)).compile = .ok m' ∧
        ∀ o o' v, (o = o' ∨ v.Steady) → m'.bind? o' v = m.bind? o v) ∧
    ∀ o v bs, m.bind? o v = some bs → ∀ i j, i ≠ j → SharesName p.siteNames i j →
      ∃ a b, bs[i]? = some a ∧ bs[j]? = some b ∧ (a == b) = true := by
  refine ⟨?_, ?_, ?_⟩
  · intro q mq hq hpq hshared o o' v bs hv hbs
    exact bind?_of_sharesName hp h hq hpq hshared hv hbs
  · intro f hf hinj
    obtain ⟨m', hm'⟩ := exists_compileAt_rename (f := some ∘ f) p h
    exact ⟨m', hm', fun o o' v hv => bind?_rename_eq hp h hm' hf hinj hv⟩
  · intro o v bs hbs i j hne hshared
    exact beq_of_sharesName hp h hbs hne hshared

/-- Two sites with a name each bind what two sites of one name bind, under longer names as well. -/
theorem bind?_renamed_pair :
    ∃ p q m mq m', p = list [var ⟨some "x", none⟩, var ⟨some "y", none⟩] ∧
      q = list [var ⟨some "x", none⟩, var ⟨some "x", none⟩] ∧
      p.Ordered ∧ p.compile = .ok m ∧ q.compile = .ok mq ∧
      (p.rename (some ∘ fun name => "the " ++ name)).compile = .ok m' ∧
      mq.bind? .start (.list [.int 3, .int 3]) = some [.int 3, .int 3] ∧
      m.bind? .start (.list [.int 3, .int 3]) = some [.int 3, .int 3] ∧
      mq.bind? .start (.list [.int 3, .int 4]) = none ∧
      m'.bind? .start (.list [.int 3, .int 4]) = some [.int 3, .int 4] := by
  have hp : (list [var ⟨some "x", none⟩, var ⟨some "y", none⟩]).Ordered :=
    ⟨trivial, trivial, trivial⟩
  obtain ⟨hfewer, hother, _⟩ := bind?_renamed hp rfl
  obtain ⟨m', hm', hsame⟩ := hother (fun name => "the " ++ name)
    (fun a _ => by simp [IsBindingName]) fun a b _ _ hab => (String.append_right_inj _).mp hab
  have hdistinct : ∀ i j, i ≠ j →
      SharesName (list [var ⟨some "x", none⟩, var ⟨some "y", none⟩]).siteNames i j →
        SharesName (list [var ⟨some "x", none⟩, var ⟨some "x", none⟩]).siteNames i j := by
    rintro i j hne ⟨name, hi, hj⟩
    change [some "x", some "y"][i]? = some (some name) at hi
    have hlt := (List.getElem?_eq_some_iff.mp hi).1
    exact absurd ((List.getElem?_inj hlt (by decide)).mp (hi.trans hj.symm)) hne
  have hpair := hfewer (list [var ⟨some "x", none⟩, var ⟨some "x", none⟩]) _ rfl rfl hdistinct
    .start .start (.list [.int 3, .int 3]) _ (.inl rfl) rfl
  refine ⟨_, _, _, _, m', rfl, rfl, hp, rfl, rfl, hm', rfl, hpair, rfl, ?_⟩
  rw [hsame .start .start _ (.inl rfl)]
  rfl

end Pattern

end StructuralMatching
