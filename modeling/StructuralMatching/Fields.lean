/-
Entries with distinct string keys, in ascending order of their keys.

* `Fields.Ascending` — the keys ascend, code point by code point, so no key occurs twice;
* `Fields.insert` — a new entry, in place of the one with the same key if there is one;
* `Fields.ofList` — all entries of a list, the last one of each key;
* `Fields.ascending_ofList` — what these build is ascending;
* `Fields.ofList_of_perm` — entries with distinct keys may be listed in any order.

Design notes: maps are plain lists of pairs, because values and patterns contain maps of
themselves.  A key is looked up with `List.lookup`.
-/

namespace StructuralMatching.Fields

variable {α β : Type}

/-- Every key comes before all later keys. -/
def Ascending (entries : List (String × α)) : Prop :=
  entries.Pairwise fun a b => a.1 < b.1

/-- The entries with `value` under `key`. -/
def insert (key : String) (value : α) : List (String × α) → List (String × α)
  | [] => [(key, value)]
  | (k, v) :: rest =>
    if key < k then (key, value) :: (k, v) :: rest
    else if key = k then (key, value) :: rest
    else (k, v) :: insert key value rest

/-- The entries of a list in ascending order; of entries with one key, the last. -/
def ofList (entries : List (String × α)) : List (String × α) :=
  entries.foldl (fun acc entry => insert entry.1 entry.2 acc) []

/-- The keys in order. -/
def keys (entries : List (String × α)) : List String := entries.map Prod.fst

theorem mem_insert {key : String} {value : α} {entries : List (String × α)}
    {entry : String × α} (h : entry ∈ insert key value entries) :
    entry = (key, value) ∨ entry ∈ entries := by
  induction entries with
  | nil => simpa [insert] using h
  | cons e rest ih =>
    obtain ⟨k, v⟩ := e
    simp only [insert] at h
    split at h
    · simpa using h
    · split at h
      · rcases List.mem_cons.mp h with h | h
        · exact .inl h
        · exact .inr (List.mem_cons_of_mem _ h)
      · rcases List.mem_cons.mp h with h | h
        · exact .inr (h ▸ List.mem_cons_self)
        · exact (ih h).imp_right (List.mem_cons_of_mem _)

theorem ascending_insert {key : String} {value : α} {entries : List (String × α)}
    (h : Ascending entries) : Ascending (insert key value entries) := by
  induction entries with
  | nil => simp [insert, Ascending]
  | cons e rest ih =>
    obtain ⟨k, v⟩ := e
    obtain ⟨hk, hrest⟩ := List.pairwise_cons.mp h
    simp only [insert]
    split
    · rename_i hlt
      refine List.pairwise_cons.mpr ⟨fun b hb => ?_, h⟩
      rcases List.mem_cons.mp hb with rfl | hb
      · exact hlt
      · exact String.lt_trans hlt (hk b hb)
    · split
      · rename_i heq
        subst heq
        exact List.pairwise_cons.mpr ⟨hk, hrest⟩
      · rename_i hnlt hne
        refine List.pairwise_cons.mpr ⟨fun b hb => ?_, ih hrest⟩
        rcases mem_insert hb with rfl | hb
        · exact String.not_le.mp fun hle => hne (String.le_antisymm hle (String.not_lt.mp hnlt))
        · exact hk b hb

theorem ascending_foldl_insert (entries acc : List (String × α)) (h : Ascending acc) :
    Ascending (entries.foldl (fun acc entry => insert entry.1 entry.2 acc) acc) := by
  induction entries generalizing acc with
  | nil => exact h
  | cons e rest ih => exact ih _ (ascending_insert h)

theorem ascending_ofList (entries : List (String × α)) : Ascending (ofList entries) :=
  ascending_foldl_insert entries [] List.Pairwise.nil

/-! ### Lists of entries as maps -/

theorem mem_foldl_insert {entries acc : List (String × α)} {entry : String × α}
    (h : entry ∈ entries.foldl (fun acc entry => insert entry.1 entry.2 acc) acc) :
    entry ∈ acc ∨ entry ∈ entries := by
  induction entries generalizing acc with
  | nil => exact .inl h
  | cons e rest ih =>
    rcases ih h with h | h
    · rcases mem_insert h with rfl | h
      · exact .inr List.mem_cons_self
      · exact .inl h
    · exact .inr (List.mem_cons_of_mem _ h)

/-- No entry comes from nowhere. -/
theorem mem_of_mem_ofList {entries : List (String × α)} {entry : String × α}
    (h : entry ∈ ofList entries) : entry ∈ entries :=
  (mem_foldl_insert h).resolve_left List.not_mem_nil

theorem insert_map (f : α → β) (key : String) (value : α) (entries : List (String × α)) :
    insert key (f value) (entries.map fun e => (e.1, f e.2)) =
      (insert key value entries).map fun e => (e.1, f e.2) := by
  induction entries with
  | nil => rfl
  | cons e rest ih =>
    simp only [List.map_cons, insert]
    split
    · rfl
    · split
      · rfl
      · rw [ih, List.map_cons]

/-- Which entries are kept is a matter of the keys. -/
theorem ofList_map (f : α → β) (entries : List (String × α)) :
    ofList (entries.map fun e => (e.1, f e.2)) = (ofList entries).map fun e => (e.1, f e.2) := by
  have hfold : ∀ acc : List (String × α),
      (entries.map fun e => (e.1, f e.2)).foldl (fun acc e => insert e.1 e.2 acc)
        (acc.map fun e => (e.1, f e.2)) =
      (entries.foldl (fun acc e => insert e.1 e.2 acc) acc).map fun e => (e.1, f e.2) := by
    induction entries with
    | nil => exact fun acc => rfl
    | cons e rest ih =>
      intro acc
      rw [List.map_cons, List.foldl_cons, List.foldl_cons, ← ih, ← insert_map]
  exact hfold []

/-- A new key adds an entry and leaves the others as they are. -/
theorem perm_insert {key : String} {entries : List (String × α)} (h : key ∉ keys entries)
    (value : α) : (insert key value entries).Perm ((key, value) :: entries) := by
  induction entries with
  | nil => exact .refl _
  | cons e rest ih =>
    rw [keys, List.map_cons, List.mem_cons, not_or] at h
    rw [insert]
    split
    · exact .refl _
    · rw [if_neg h.1]
      exact ((ih h.2).cons e).trans (.swap _ _ _)

theorem perm_foldl_insert {entries acc : List (String × α)} (h : (keys (acc ++ entries)).Nodup) :
    (entries.foldl (fun acc entry => insert entry.1 entry.2 acc) acc).Perm (acc ++ entries) := by
  induction entries generalizing acc with
  | nil => rw [List.append_nil]; exact .refl _
  | cons e rest ih =>
    have hswap : (acc ++ e :: rest).Perm (e :: (acc ++ rest)) := List.perm_middle
    have hnodup : (keys (e :: (acc ++ rest))).Nodup := (hswap.map Prod.fst).nodup_iff.mp h
    have hnew : e.1 ∉ keys acc := by
      intro hkey
      refine (List.nodup_cons.mp hnodup).1 ?_
      rw [List.map_append]
      exact List.mem_append_left _ hkey
    have hinsert : (insert e.1 e.2 acc ++ rest).Perm (e :: (acc ++ rest)) :=
      (perm_insert hnew e.2).append_right rest
    have hinserted := (hinsert.map Prod.fst).nodup_iff.mpr hnodup
    exact (ih hinserted).trans (hinsert.trans hswap.symm)

theorem nodup_keys {entries : List (String × α)} (h : Ascending entries) :
    (keys entries).Nodup := by
  refine List.pairwise_map.mpr (h.imp fun {a b} hlt heq => ?_)
  rw [heq] at hlt
  exact String.lt_irrefl _ hlt

/-- The order in which entries are written does not matter. -/
theorem ofList_of_perm {entries others : List (String × α)} (h : Ascending entries)
    (hperm : others.Perm entries) : ofList others = entries := by
  have hnodup : (keys ([] ++ others)).Nodup := (hperm.map Prod.fst).nodup_iff.mpr (nodup_keys h)
  have hsame : (ofList others).Perm entries := (perm_foldl_insert hnodup).trans hperm
  exact hsame.eq_of_pairwise (fun a b _ _ hab hba => absurd hba (String.lt_asymm hab))
    (ascending_ofList others) h

/-- Entries whose keys ascend are a map as they are. -/
theorem ofList_of_ascending {entries : List (String × α)} (h : Ascending entries) :
    ofList entries = entries :=
  ofList_of_perm h (.refl entries)

end StructuralMatching.Fields
