/-
Binding sites, and names that stand for one value.

A site is a place where a match binds the value it meets, by itself or under a name.  Whether all
sites of a match can be bound is a question of their names alone:

* `Bindings.record` — binds sites one after the other, up to the first one that is refused;
* `Bindings.Reconciles` — every site under a name meets a value equal to the one that the name
  stands for by then;
* `Bindings.record_fst_iff` — no site is refused exactly if the sites are reconciled;
* `Bindings.values_record`, `Bindings.get?_record` — what is bound then, and what names stand for;
* `Bindings.record_append_of_accepted`, `Bindings.record_append_of_refused` — sites may be bound in
  several goes;
* `Bindings.Realizes` — an attempt that does nothing but bind given sites.

Design notes: `Reconciles` speaks of the sites before each site and of nothing that is computed on
the way, so it can be read without knowing how bindings are kept.
-/
import StructuralMatching.Bindings

namespace StructuralMatching

/-- A place where a match binds a value. -/
structure Site where
  name : Option String
  value : Value

namespace Site

/-- A site without a name. -/
def unnamed (value : Value) : Site := ⟨none, value⟩

end Site

namespace Bindings

/-! ### Single sites -/

theorem get?_isSome_of_lookup {out : Bindings} {name : String} {i : Nat}
    (h : out.names.lookup name = some i) : ∃ v, out.values[i]? = some v := by
  have hmem : (name, i) ∈ out.names := by
    obtain ⟨l₁, l₂, heq, _⟩ := List.lookup_eq_some_iff.mp h
    rw [heq]
    simp
  have hlt : i < out.values.length := out.place_lt _ hmem
  exact ⟨out.values[i], List.getElem?_eq_getElem hlt⟩

theorem lookup_eq_none_of_get? {out : Bindings} {name : String} (h : out.get? name = none) :
    out.names.lookup name = none := by
  cases hl : out.names.lookup name with
  | none => rfl
  | some i =>
    obtain ⟨v, hv⟩ := get?_isSome_of_lookup hl
    rw [get?, hl, Option.bind_some, hv] at h
    cases h

theorem pushNamed_of_unknown {out : Bindings} {name : String} (h : out.get? name = none)
    (value : Value) : out.pushNamed name value = (true, out.pushFirst name value) := by
  rw [pushNamed, lookup_eq_none_of_get? h]

theorem pushNamed_of_known {out : Bindings} {name : String} {v : Value}
    (h : out.get? name = some v) (value : Value) :
    out.pushNamed name value = if v == value then (true, out.push value) else (false, out) := by
  obtain ⟨i, hi, hv⟩ := Option.bind_eq_some_iff.mp h
  rw [pushNamed, hi]
  show (if out.values[i]? == some value then (true, out.push value) else (false, out)) = _
  rw [hv]
  rfl

@[simp] theorem get?_push (out : Bindings) (value : Value) (name : String) :
    (out.push value).get? name = out.get? name := by
  show (out.names.lookup name).bind (fun i => (out.values ++ [value])[i]?) = _
  cases hl : out.names.lookup name with
  | none => rw [get?, hl]; rfl
  | some i =>
    obtain ⟨v, hv⟩ := get?_isSome_of_lookup hl
    have hlt : i < out.values.length := (List.getElem?_eq_some_iff.mp hv).1
    rw [get?, hl, Option.bind_some, Option.bind_some, List.getElem?_append_left hlt]

theorem get?_pushFirst {out : Bindings} {first : String} (h : out.get? first = none)
    (value : Value) (name : String) :
    (out.pushFirst first value).get? name =
      (out.get? name).or (if first = name then some value else none) := by
  show ((((first, out.values.length) :: out.names).lookup name).bind
    fun i => (out.values ++ [value])[i]?) = _
  by_cases hn : first = name
  · subst hn
    rw [List.lookup_cons_self, Option.bind_some, List.getElem?_concat_length, h, if_pos rfl]
    rfl
  · have hne : (name == first) = false := beq_false_of_ne (Ne.symm hn)
    rw [List.lookup_cons, hne, if_neg hn, Option.or_none]
    exact get?_push out value name

/-- The bindings with one more site. -/
def pushSite (out : Bindings) (s : Site) : Bool × Bindings :=
  match s.name with
  | none => (true, out.push s.value)
  | some name => out.pushNamed name s.value

/-- The value that a name stands for after some sites: the one it stood for before them, or else
that of the first of them under this name. -/
def known? (out : Bindings) (sites : List Site) (name : String) : Option Value :=
  (out.get? name).or ((sites.find? fun s => s.name == some name).map Site.value)

/-- A site meets a value equal to the one that its name stands for, if it has a name and the name
stands for something. -/
def Agrees (out : Bindings) (s : Site) : Prop :=
  ∀ name v, s.name = some name → out.get? name = some v → (v == s.value) = true

theorem pushSite_fst_iff (out : Bindings) (s : Site) :
    (out.pushSite s).1 = true ↔ out.Agrees s := by
  obtain ⟨_ | name, value⟩ := s
  · exact iff_of_true rfl fun name v h => nomatch h
  · show (out.pushNamed name value).1 = true ↔ _
    cases hg : out.get? name with
    | none =>
      -- Nothing to agree with yet.
      rw [pushNamed_of_unknown hg]
      refine iff_of_true rfl fun n v hn hv => ?_
      cases hn
      rw [hg] at hv
      cases hv
    | some w =>
      rw [pushNamed_of_known hg]
      constructor
      · intro h n v hn hv
        cases hn
        rw [hg] at hv
        cases hv
        by_cases heq : (w == value) = true
        · exact heq
        · rw [if_neg heq] at h
          cases h
      · intro h
        rw [if_pos (h name w rfl hg)]

theorem values_pushSite {out : Bindings} {s : Site} (h : (out.pushSite s).1 = true) :
    (out.pushSite s).2.values = out.values ++ [s.value] := by
  obtain ⟨_ | name, value⟩ := s
  · rfl
  · change (out.pushNamed name value).1 = true at h
    show (out.pushNamed name value).2.values = _
    cases hg : out.get? name with
    | none => rw [pushNamed_of_unknown hg]; rfl
    | some w =>
      rw [pushNamed_of_known hg] at h ⊢
      split
      · rfl
      · rename_i hne
        rw [if_neg hne] at h
        cases h

theorem get?_pushSite {out : Bindings} {s : Site} (h : (out.pushSite s).1 = true)
    (name : String) : (out.pushSite s).2.get? name = out.known? [s] name := by
  obtain ⟨_ | first, value⟩ := s
  · show (out.push value).get? name = (out.get? name).or none
    rw [get?_push, Option.or_none]
  · change (out.pushNamed first value).1 = true at h
    show (out.pushNamed first value).2.get? name = _
    have hfind : (([⟨some first, value⟩] : List Site).find? fun s => s.name == some name).map
        Site.value = if first = name then some value else none := by
      by_cases hn : first = name <;> simp [hn]
    rw [known?, hfind]
    cases hg : out.get? first with
    | none => rw [pushNamed_of_unknown hg, get?_pushFirst hg]
    | some w =>
      rw [pushNamed_of_known hg] at h ⊢
      -- The name is known already, so the site cannot be the first one under it.
      have hor : (out.get? name).or (if first = name then some value else none) =
          out.get? name := by
        by_cases hn : first = name
        · rw [← hn, hg]; rfl
        · rw [if_neg hn, Option.or_none]
      rw [hor]
      split
      · exact get?_push out value name
      · rfl

/-! ### Several sites -/

/-- Binds sites one after the other, up to the first one that is refused. -/
def record (out : Bindings) : List Site → Bool × Bindings
  | [] => (true, out)
  | s :: rest =>
    match out.pushSite s with
    | (true, out) => record out rest
    | (false, out) => (false, out)

theorem record_cons_of_accepted {out next : Bindings} {s : Site}
    (h : out.pushSite s = (true, next)) (rest : List Site) :
    out.record (s :: rest) = next.record rest := by
  rw [record, h]

theorem record_cons_of_refused {out next : Bindings} {s : Site}
    (h : out.pushSite s = (false, next)) (rest : List Site) :
    out.record (s :: rest) = (false, next) := by
  rw [record, h]

theorem record_singleton (out : Bindings) (s : Site) : out.record [s] = out.pushSite s := by
  rcases h : out.pushSite s with ⟨_ | _, next⟩
  · exact record_cons_of_refused h []
  · exact record_cons_of_accepted h []

theorem record_append_of_accepted {out next : Bindings} {sites : List Site}
    (h : out.record sites = (true, next)) (more : List Site) :
    out.record (sites ++ more) = next.record more := by
  induction sites generalizing out with
  | nil => cases h; rfl
  | cons s rest ih =>
    rcases hs : out.pushSite s with ⟨_ | _, mid⟩
    · rw [record_cons_of_refused hs] at h
      cases h
    · rw [record_cons_of_accepted hs] at h
      rw [List.cons_append, record_cons_of_accepted hs]
      exact ih h

theorem record_append_of_refused {out next : Bindings} {sites : List Site}
    (h : out.record sites = (false, next)) (more : List Site) :
    out.record (sites ++ more) = (false, next) := by
  induction sites generalizing out with
  | nil => cases h
  | cons s rest ih =>
    rcases hs : out.pushSite s with ⟨_ | _, mid⟩
    · rw [record_cons_of_refused hs] at h
      rw [List.cons_append, record_cons_of_refused hs, h]
    · rw [record_cons_of_accepted hs] at h
      rw [List.cons_append, record_cons_of_accepted hs]
      exact ih h

/-- Sites without names are never refused. -/
theorem record_unnamed (out : Bindings) (values : List Value) :
    (out.record (values.map Site.unnamed)).1 = true ∧
      (out.record (values.map Site.unnamed)).2.values = out.values ++ values ∧
      (out.record (values.map Site.unnamed)).2.names = out.names := by
  induction values generalizing out with
  | nil => exact ⟨rfl, (List.append_nil _).symm, rfl⟩
  | cons v rest ih =>
    obtain ⟨h₁, h₂, h₃⟩ := ih (out.push v)
    have hpush : out.pushSite (.unnamed v) = (true, out.push v) := rfl
    rw [List.map_cons, record_cons_of_accepted hpush]
    refine ⟨h₁, h₂.trans ?_, h₃⟩
    show out.values ++ [v] ++ rest = _
    rw [List.append_assoc, List.singleton_append]

/-! ### When no site is refused -/

/-- Every site under a name meets a value equal to the one that the name stands for after the
sites before it. -/
def Reconciles (out : Bindings) (sites : List Site) : Prop :=
  ∀ before s after, sites = before ++ s :: after → ∀ name v, s.name = some name →
    out.known? before name = some v → (v == s.value) = true

theorem known?_cons {out next : Bindings} {s : Site} (h : out.pushSite s = (true, next))
    (rest : List Site) (name : String) :
    out.known? (s :: rest) name = next.known? rest name := by
  have hok : (out.pushSite s).1 = true := by rw [h]
  have hs := get?_pushSite hok name
  rw [h] at hs
  rw [known?, known?, hs, known?, Option.or_assoc]
  congr 1
  by_cases hn : s.name = some name
  · simp [hn]
  · simp [hn]

theorem reconciles_cons_iff {out next : Bindings} {s : Site}
    (h : out.pushSite s = (true, next)) (rest : List Site) :
    out.Reconciles (s :: rest) ↔ next.Reconciles rest := by
  constructor
  · rintro hr before t after rfl name v hn hv
    rw [← known?_cons h] at hv
    exact hr (s :: before) t after rfl name v hn hv
  · rintro hr (_ | ⟨first, before⟩) t after heq name v hn hv
    -- With no sites before it, this is the site that was accepted just now.
    · cases heq
      have hs : (out.pushSite s).1 = true := by rw [h]
      rw [known?, List.find?_nil, Option.map_none, Option.or_none] at hv
      exact (pushSite_fst_iff out s).mp hs name v hn hv
    · cases heq
      rw [known?_cons h] at hv
      exact hr before t after rfl name v hn hv

/-- **Sites are bound without refusal exactly if they are reconciled.** -/
theorem record_fst_iff (out : Bindings) (sites : List Site) :
    (out.record sites).1 = true ↔ out.Reconciles sites := by
  induction sites generalizing out with
  | nil => exact iff_of_true rfl fun before s after h => by cases before <;> cases h
  | cons s rest ih =>
    rcases hs : out.pushSite s with ⟨_ | _, next⟩
    -- The first site is the one that does not agree.
    · rw [record_cons_of_refused hs]
      refine iff_of_false Bool.false_ne_true fun hr => ?_
      have hagree : out.Agrees s := fun name v hn hv =>
        hr [] s rest rfl name v hn (by rw [known?, hv]; rfl)
      rw [← pushSite_fst_iff, hs] at hagree
      cases hagree
    · rw [record_cons_of_accepted hs, reconciles_cons_iff hs]
      exact ih next

theorem values_record {out : Bindings} {sites : List Site} (h : out.Reconciles sites) :
    (out.record sites).2.values = out.values ++ sites.map Site.value := by
  rw [← record_fst_iff] at h
  induction sites generalizing out with
  | nil => exact (List.append_nil _).symm
  | cons s rest ih =>
    rcases hs : out.pushSite s with ⟨_ | _, next⟩
    · rw [record_cons_of_refused hs] at h
      cases h
    · have hok : (out.pushSite s).1 = true := by rw [hs]
      have hv := values_pushSite hok
      rw [hs] at hv
      rw [record_cons_of_accepted hs] at h ⊢
      rw [ih h, hv, List.append_assoc, List.singleton_append, List.map_cons]

theorem get?_record {out : Bindings} {sites : List Site} (h : out.Reconciles sites)
    (name : String) : (out.record sites).2.get? name = out.known? sites name := by
  rw [← record_fst_iff] at h
  induction sites generalizing out with
  | nil => exact (Option.or_none).symm
  | cons s rest ih =>
    rcases hs : out.pushSite s with ⟨_ | _, next⟩
    · rw [record_cons_of_refused hs] at h
      cases h
    · rw [record_cons_of_accepted hs] at h ⊢
      rw [ih h, known?_cons hs]

/-! ### Attempts that bind sites -/

/-- An attempt that starts from `out` realizes a plan: it binds the sites of the plan, up to the
first one that is refused; without a plan it fails. -/
def Realizes (out : Bindings) (plan : Option (List Site)) (r : Bool × Bindings) : Prop :=
  match plan with
  | some sites => r = out.record sites
  | none => r.1 = false

/-- One attempt after the other, if the first succeeds. -/
theorem Realizes.andThen {out : Bindings} {plan more : Option (List Site)} {r : Bool × Bindings}
    {next : Bindings → Bool × Bindings} :
    out.Realizes plan r → (∀ mid : Bindings, mid.Realizes more (next mid)) →
      out.Realizes (plan.bind fun sites => more.map fun rest => sites ++ rest)
        (match r with
        | (true, mid) => next mid
        | (false, mid) => (false, mid)) := by
  intro h hnext
  obtain ⟨ok, mid⟩ := r
  cases plan with
  | none =>
    change ok = false at h
    subst h
    rfl
  | some sites =>
    change (ok, mid) = out.record sites at h
    cases ok with
    | false =>
      -- The first refusal ends the attempt, whatever there is to come.
      cases more with
      | none => rfl
      | some rest => exact (record_append_of_refused h.symm rest).symm
    | true =>
      have hmid := hnext mid
      cases more with
      | none => exact hmid
      | some rest => exact Eq.trans hmid (record_append_of_accepted h.symm rest).symm

/-- One more value is one more site. -/
theorem map_append_unnamed (plan : Option (List Site)) (v : Value) :
    (plan.map fun sites => sites ++ [.unnamed v]) =
      plan.bind fun sites => (some [Site.unnamed v]).map fun rest => sites ++ rest := by
  cases plan <;> rfl

/-- One more value after an attempt, if it succeeds. -/
theorem Realizes.andPush {out : Bindings} {plan : Option (List Site)} {r : Bool × Bindings}
    {v : Value} :
    out.Realizes plan r →
      out.Realizes (plan.map fun sites => sites ++ [.unnamed v])
        (match r with
        | (true, mid) => (true, mid.push v)
        | (false, mid) => (false, mid)) := by
  intro h
  rw [map_append_unnamed]
  exact h.andThen fun mid => rfl

/-- An attempt succeeds if there is a plan and its sites are reconciled. -/
theorem Realizes.fst_iff {out : Bindings} {plan : Option (List Site)} {r : Bool × Bindings}
    (h : out.Realizes plan r) :
    r.1 = true ↔ ∃ sites, plan = some sites ∧ out.Reconciles sites := by
  cases plan with
  | none =>
    change r.1 = false at h
    rw [h]
    refine iff_of_false Bool.false_ne_true ?_
    rintro ⟨sites, hs, _⟩
    cases hs
  | some sites =>
    change r = out.record sites at h
    rw [h, record_fst_iff]
    constructor
    · intro hr
      exact ⟨sites, rfl, hr⟩
    · rintro ⟨_, hs, hr⟩
      cases hs
      exact hr

end Bindings

end StructuralMatching
