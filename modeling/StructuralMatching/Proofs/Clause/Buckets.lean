/-
What the buckets of an arity table hold.

A table is filled clause by clause, and a clause goes into several buckets.  In the end the bucket
of a number holds the clauses that take so many arguments, in the order of declaration:

* `ArityTable.taking` — the clauses of a list that take a number of arguments;
* `ArityTable.Proper` — the buckets ascend and none is empty;
* `ArityTable.entriesAt_addFrom` — clauses are added at the end of every bucket they belong to;
* `ArityTable.bucket?_ofClauses` — the bucket of a number, by a look at all clauses.

Design notes: a bucket that is missing and one that is empty would look alike to `entriesAt`.  The
second part of `Proper` excludes the latter, and with it the former can be told from the entries.
-/
import StructuralMatching.Clause.ArityTable
import StructuralMatching.Proofs.Clause.Head

namespace StructuralMatching.ArityTable

variable {C : Type}

theorem mem_aritiesOf_iff {h : ClauseHead} {n : Nat} : n ∈ aritiesOf h ↔ h.Takes n := by
  have hle : h.minArity ≤ h.arity := Nat.sub_le _ _
  rw [aritiesOf, List.mem_range'_1, ClauseHead.Takes]
  omega

theorem nodup_aritiesOf (h : ClauseHead) : (aritiesOf h).Nodup := List.nodup_range'

/-! ### Proper tables -/

/-- The entries of a bucket; none if there is no such bucket. -/
def entriesAt (buckets : List (Nat × List (Nat × C))) (n : Nat) : List (Nat × C) :=
  (buckets.lookup n).getD []

/-- The numbers of the buckets ascend, and there is something in every bucket. -/
structure Proper (buckets : List (Nat × List (Nat × C))) : Prop where
  ascending : buckets.Pairwise fun a b => a.1 < b.1
  occupied : ∀ b ∈ buckets, b.2 ≠ []

theorem Proper.nil : Proper ([] : List (Nat × List (Nat × C))) :=
  ⟨List.Pairwise.nil, fun _ h => absurd h List.not_mem_nil⟩

theorem Proper.tail {b : Nat × List (Nat × C)} {rest : List (Nat × List (Nat × C))}
    (h : Proper (b :: rest)) : Proper rest :=
  ⟨(List.pairwise_cons.mp h.ascending).2, fun c hc => h.occupied c (List.mem_cons_of_mem _ hc)⟩

/-- There is a bucket of a number exactly if there are entries in it. -/
theorem Proper.lookup_eq {buckets : List (Nat × List (Nat × C))} (h : Proper buckets) (n : Nat) :
    buckets.lookup n = if entriesAt buckets n = [] then none else some (entriesAt buckets n) := by
  rw [entriesAt]
  cases hl : buckets.lookup n with
  | none => rfl
  | some bucket =>
    have hmem : (n, bucket) ∈ buckets := by
      obtain ⟨before, after, heq, _⟩ := List.lookup_eq_some_iff.mp hl
      rw [heq]
      simp
    rw [Option.getD_some, if_neg (h.occupied _ hmem)]

theorem entriesAt_cons_self (n : Nat) (bucket : List (Nat × C))
    (rest : List (Nat × List (Nat × C))) : entriesAt ((n, bucket) :: rest) n = bucket := by
  rw [entriesAt, List.lookup_cons_self, Option.getD_some]

theorem entriesAt_cons_of_ne {n k : Nat} (h : n ≠ k) (bucket : List (Nat × C))
    (rest : List (Nat × List (Nat × C))) :
    entriesAt ((k, bucket) :: rest) n = entriesAt rest n := by
  rw [entriesAt, List.lookup_cons, beq_false_of_ne h]
  rfl

theorem entriesAt_eq_nil_of_forall_ne {buckets : List (Nat × List (Nat × C))} {n : Nat}
    (h : ∀ b ∈ buckets, b.1 ≠ n) : entriesAt buckets n = [] := by
  induction buckets with
  | nil => rfl
  | cons b rest ih =>
    obtain ⟨k, bucket⟩ := b
    rw [entriesAt_cons_of_ne (Ne.symm (h (k, bucket) List.mem_cons_self))]
    exact ih fun b hb => h b (List.mem_cons_of_mem _ hb)

/-! ### One entry, one bucket -/

theorem mem_addTo {n : Nat} {entry : Nat × C} {buckets : List (Nat × List (Nat × C))}
    {b : Nat × List (Nat × C)} (h : b ∈ addTo n entry buckets) :
    b ∈ buckets ∨ b.1 = n ∧ b.2 ≠ [] := by
  induction buckets with
  | nil =>
    rw [addTo, List.mem_singleton] at h
    exact .inr ⟨by rw [h], by simp [h]⟩
  | cons first rest ih =>
    obtain ⟨k, bucket⟩ := first
    rw [addTo] at h
    split at h
    · rcases List.mem_cons.mp h with rfl | h
      · exact .inr ⟨rfl, List.cons_ne_nil _ _⟩
      · exact .inl h
    · split at h
      · rename_i heq
        rcases List.mem_cons.mp h with rfl | h
        · exact .inr ⟨heq.symm, by simp⟩
        · exact .inl (List.mem_cons_of_mem _ h)
      · rcases List.mem_cons.mp h with rfl | h
        · exact .inl List.mem_cons_self
        · exact (ih h).imp_left (List.mem_cons_of_mem _)

theorem Proper.addTo {buckets : List (Nat × List (Nat × C))} (h : Proper buckets) (n : Nat)
    (entry : Nat × C) : Proper (addTo n entry buckets) := by
  refine ⟨?_, fun b hb => (mem_addTo hb).elim (h.occupied b) And.right⟩
  induction buckets with
  | nil => exact List.pairwise_singleton _ _
  | cons first rest ih =>
    obtain ⟨k, bucket⟩ := first
    obtain ⟨hk, hrest⟩ := List.pairwise_cons.mp h.ascending
    rw [ArityTable.addTo]
    split
    · rename_i hlt
      refine List.pairwise_cons.mpr ⟨fun b hb => ?_, h.ascending⟩
      rcases List.mem_cons.mp hb with rfl | hb
      · exact hlt
      · exact Nat.lt_trans hlt (hk b hb)
    · split
      · exact List.pairwise_cons.mpr ⟨hk, hrest⟩
      · refine List.pairwise_cons.mpr ⟨fun b hb => ?_, ih h.tail⟩
        rcases mem_addTo hb with hb | ⟨hb, _⟩
        · exact hk b hb
        -- The new bucket comes after this one, since it comes neither before it nor in its place.
        · show k < b.1
          omega

/-- An entry is added at the end of its bucket, and all other buckets stay as they are. -/
theorem entriesAt_addTo {buckets : List (Nat × List (Nat × C))} (h : Proper buckets) (n : Nat)
    (entry : Nat × C) (k : Nat) :
    entriesAt (addTo n entry buckets) k =
      if k = n then entriesAt buckets k ++ [entry] else entriesAt buckets k := by
  induction buckets with
  | nil =>
    by_cases hk : k = n
    · rw [if_pos hk, hk]
      exact entriesAt_cons_self n [entry] []
    · rw [if_neg hk]
      exact entriesAt_cons_of_ne hk [entry] []
  | cons first rest ih =>
    obtain ⟨l, bucket⟩ := first
    have hl := (List.pairwise_cons.mp h.ascending).1
    rw [addTo]
    by_cases hlt : n < l
    · rw [if_pos hlt]
      by_cases hk : k = n
      · -- All buckets that are there come later, so there is none of `n`.
        have hnone : entriesAt ((l, bucket) :: rest) n = [] := by
          refine entriesAt_eq_nil_of_forall_ne fun b hb => ?_
          rcases List.mem_cons.mp hb with rfl | hb
          · exact Nat.ne_of_gt hlt
          · exact Nat.ne_of_gt (Nat.lt_trans hlt (hl b hb))
        rw [if_pos hk, hk, hnone, entriesAt_cons_self]
        rfl
      · rw [if_neg hk, entriesAt_cons_of_ne hk]
    · rw [if_neg hlt]
      by_cases hnl : n = l
      · rw [if_pos hnl, hnl]
        by_cases hk : k = l
        · rw [if_pos hk, hk, entriesAt_cons_self, entriesAt_cons_self]
        · rw [if_neg hk, entriesAt_cons_of_ne hk, entriesAt_cons_of_ne hk]
      · rw [if_neg hnl]
        by_cases hk : k = l
        · rw [if_neg (by omega), hk, entriesAt_cons_self, entriesAt_cons_self]
        · rw [entriesAt_cons_of_ne hk, entriesAt_cons_of_ne hk, ih h.tail]

/-! ### Clauses -/

/-- One entry for every one of distinct buckets. -/
theorem entriesAt_foldl_addTo {ns : List Nat} (hns : ns.Nodup) (entry : Nat × C)
    {buckets : List (Nat × List (Nat × C))} (h : Proper buckets) :
    Proper (ns.foldl (fun buckets n => addTo n entry buckets) buckets) ∧
      ∀ k, entriesAt (ns.foldl (fun buckets n => addTo n entry buckets) buckets) k =
        if k ∈ ns then entriesAt buckets k ++ [entry] else entriesAt buckets k := by
  induction ns generalizing buckets with
  | nil => exact ⟨h, fun k => by rw [if_neg List.not_mem_nil]; rfl⟩
  | cons n ns ih =>
    obtain ⟨hn, hns⟩ := List.nodup_cons.mp hns
    obtain ⟨hproper, hentries⟩ := ih hns (h.addTo n entry)
    refine ⟨hproper, fun k => ?_⟩
    rw [List.foldl_cons, hentries, entriesAt_addTo h]
    by_cases hk : k = n
    -- The later buckets are other ones, so the entry is added to this one just once.
    · subst hk
      rw [if_neg hn, if_pos rfl, if_pos List.mem_cons_self]
    · have hmem : k ∈ n :: ns ↔ k ∈ ns :=
        ⟨fun hm => (List.mem_cons.mp hm).resolve_left hk, List.mem_cons_of_mem n⟩
      simp only [if_neg hk, hmem]

variable [Headed C]

theorem Proper.addClause {buckets : List (Nat × List (Nat × C))} (h : Proper buckets)
    (entry : Nat × C) : Proper (addClause buckets entry) :=
  (entriesAt_foldl_addTo (nodup_aritiesOf _) entry h).1

theorem entriesAt_addClause {buckets : List (Nat × List (Nat × C))} (h : Proper buckets)
    (entry : Nat × C) (n : Nat) :
    entriesAt (addClause buckets entry) n =
      if (Headed.head entry.2).Takes n then entriesAt buckets n ++ [entry]
      else entriesAt buckets n := by
  rw [addClause, (entriesAt_foldl_addTo (nodup_aritiesOf _) entry h).2]
  simp only [mem_aritiesOf_iff]

/-- The clauses that take `n` arguments, with their numbers; the first of all has number `i`. -/
def taking (n i : Nat) : List C → List (Nat × C)
  | [] => []
  | c :: cs =>
    if (Headed.head c).Takes n then (i, c) :: taking n (i + 1) cs else taking n (i + 1) cs

theorem mem_taking_iff {n i j : Nat} {c : C} {cs : List C} :
    (j, c) ∈ taking n i cs ↔ i ≤ j ∧ cs[j - i]? = some c ∧ (Headed.head c).Takes n := by
  induction cs generalizing i with
  | nil => simp [taking]
  | cons first rest ih =>
    have hrest : (j, c) ∈ taking n (i + 1) rest ↔
        i + 1 ≤ j ∧ (first :: rest)[j - i]? = some c ∧ (Headed.head c).Takes n := by
      rw [ih]
      refine and_congr_right fun hj => ?_
      rw [show j - i = j - (i + 1) + 1 by omega, List.getElem?_cons_succ]
    -- Either it is the first clause, or it comes later.
    have hfirst : (i ≤ j ∧ (first :: rest)[j - i]? = some c ∧ (Headed.head c).Takes n) ↔
        (j = i ∧ c = first ∧ (Headed.head first).Takes n) ∨ (j, c) ∈ taking n (i + 1) rest := by
      rw [hrest]
      by_cases hj : j = i
      · subst hj
        rw [Nat.sub_self, List.getElem?_cons_zero, Option.some_inj]
        constructor
        · rintro ⟨_, rfl, hc⟩
          exact .inl ⟨rfl, rfl, hc⟩
        · rintro (⟨_, rfl, hc⟩ | ⟨hlt, _⟩)
          · exact ⟨Nat.le_refl _, rfl, hc⟩
          · omega
      · constructor
        · rintro ⟨hle, hc⟩
          exact .inr ⟨by omega, hc⟩
        · rintro (⟨heq, _⟩ | ⟨hlt, hc⟩)
          · exact absurd heq hj
          · exact ⟨by omega, hc⟩
    rw [hfirst, taking]
    by_cases hc : (Headed.head first).Takes n
    · rw [if_pos hc, List.mem_cons, Prod.mk.injEq]
      simp only [hc, and_true]
    · rw [if_neg hc]
      simp only [hc, and_false, false_or]

theorem pairwise_taking (n i : Nat) (cs : List C) :
    (taking n i cs).Pairwise fun a b => a.1 < b.1 := by
  induction cs generalizing i with
  | nil => exact List.Pairwise.nil
  | cons c cs ih =>
    rw [taking]
    split
    · refine List.pairwise_cons.mpr ⟨fun b hb => ?_, ih (i + 1)⟩
      exact (mem_taking_iff.mp hb).1
    · exact ih (i + 1)

/-- Which clauses take the arguments is a question of their heads. -/
theorem taking_mapIdx {D : Type} [Headed D] {f : Nat → C → D}
    (hf : ∀ i c, Headed.head (f i c) = Headed.head c) (n i : Nat) (cs : List C) :
    taking n i (cs.mapIdx fun k => f (i + k)) =
      (taking n i cs).map fun entry => (entry.1, f entry.1 entry.2) := by
  induction cs generalizing i with
  | nil => rfl
  | cons c cs ih =>
    have hnext : (fun k => f (i + (k + 1))) = fun k => f (i + 1 + k) := by
      funext k
      rw [Nat.add_assoc, Nat.add_comm 1]
    rw [List.mapIdx_cons, hnext, taking, taking, ih (i + 1), Nat.add_zero, hf]
    split
    · rfl
    · rfl

theorem taking_map {D : Type} [Headed D] {f : C → D}
    (hf : ∀ c, Headed.head (f c) = Headed.head c) (n i : Nat) (cs : List C) :
    taking n i (cs.map f) = (taking n i cs).map fun entry => (entry.1, f entry.2) := by
  have hmap : cs.map f = cs.mapIdx fun _ => f := List.ext_getElem (by simp) (by simp)
  rw [hmap]
  exact taking_mapIdx (f := fun _ => f) (fun _ => hf) n i cs

theorem Proper.addFrom {buckets : List (Nat × List (Nat × C))} (h : Proper buckets) (i : Nat)
    (cs : List C) : Proper (addFrom i buckets cs) := by
  induction cs generalizing i buckets with
  | nil => exact h
  | cons c cs ih => exact ih (h.addClause (i, c)) (i + 1)

theorem entriesAt_addFrom {buckets : List (Nat × List (Nat × C))} (h : Proper buckets) (i : Nat)
    (cs : List C) (n : Nat) :
    entriesAt (addFrom i buckets cs) n = entriesAt buckets n ++ taking n i cs := by
  induction cs generalizing i buckets with
  | nil => exact (List.append_nil _).symm
  | cons c cs ih =>
    rw [addFrom, ih (h.addClause (i, c)), entriesAt_addClause h, taking]
    by_cases hc : (Headed.head c).Takes n
    · rw [if_pos hc, if_pos hc, List.append_assoc, List.singleton_append]
    · rw [if_neg hc, if_neg hc]

theorem Proper.ofClauses (cs : List C) : Proper (ofClauses cs).buckets := Proper.nil.addFrom 0 cs

theorem entriesAt_ofClauses (cs : List C) (n : Nat) :
    entriesAt (ofClauses cs).buckets n = taking n 0 cs := by
  rw [ofClauses, entriesAt_addFrom Proper.nil]
  rfl

/-- **The bucket of a number holds all clauses that take so many arguments**, in the order of
declaration; if there are none, there is no bucket. -/
theorem bucket?_ofClauses (cs : List C) (n : Nat) :
    (ofClauses cs).bucket? n = if taking n 0 cs = [] then none else some (taking n 0 cs) := by
  rw [bucket?, (Proper.ofClauses cs).lookup_eq, entriesAt_ofClauses]

end StructuralMatching.ArityTable
