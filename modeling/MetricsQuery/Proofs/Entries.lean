import MetricsQuery.Entries

/-!
# Entries as a map

Entries that are in the order of their keys (`Ordered`) are a map: a key is looked up exactly if the
entry is there (`Ordered.lookup_eq_some_iff`). Inserting keeps the order and changes the value of one
key (`Ordered.insert`, `lookup_insert`), so entries in any order become a map in which the last entry
of a key counts (`ordered_ofList`, `lookup_ofList`).
-/

namespace MetricsQuery.Entries

variable {α : Type} {es : List (String × α)} {key : String} {v : α}

/-- In the order of the keys, with one entry a key. -/
def Ordered (es : List (String × α)) : Prop := es.Pairwise fun a b => a.1 < b.1

/-- The value that entries in any order give a key: the last one counts. -/
def Gives (es : List (String × α)) (key : String) (v : α) : Prop := es.reverse.lookup key = some v

/-! ## Looking up -/

theorem lookup_cons_self (key : String) (v : α) (es : List (String × α)) :
    ((key, v) :: es).lookup key = some v := by
  rw [List.lookup_cons, BEq.rfl]

theorem lookup_cons_other {k : String} (h : key ≠ k) (v : α) (es : List (String × α)) :
    ((k, v) :: es).lookup key = es.lookup key := by
  rw [List.lookup_cons, beq_false_of_ne h]

theorem mem_of_lookup (h : es.lookup key = some v) : (key, v) ∈ es := by
  obtain ⟨before, after, rfl, -⟩ := List.lookup_eq_some_iff.mp h
  exact List.mem_append_right before List.mem_cons_self

/-- In a list with one entry a key, an entry that is there is looked up. -/
theorem lookup_of_mem (hn : (es.map Prod.fst).Nodup) (h : (key, v) ∈ es) :
    es.lookup key = some v := by
  induction es with
  | nil => cases h
  | cons e es ih =>
    obtain ⟨k, w⟩ := e
    rw [List.map_cons, List.nodup_cons] at hn
    rcases List.mem_cons.mp h with he | h
    · cases he
      exact lookup_cons_self key v es
    · have hk : key ≠ k := fun he => hn.1 (List.mem_map.mpr ⟨(key, v), h, he⟩)
      rw [lookup_cons_other hk]
      exact ih hn.2 h

theorem Ordered.nodup_keys (h : Ordered es) : (es.map Prod.fst).Nodup := by
  rw [List.Nodup, List.pairwise_map]
  refine List.Pairwise.imp ?_ h
  intro a b hlt heq
  rw [heq] at hlt
  exact String.lt_irrefl _ hlt

theorem Ordered.lookup_eq_some_iff (h : Ordered es) : es.lookup key = some v ↔ (key, v) ∈ es :=
  ⟨mem_of_lookup, lookup_of_mem h.nodup_keys⟩

/-- Entries with one entry a key give what they list, in whatever order. -/
theorem gives_iff_mem (hn : (es.map Prod.fst).Nodup) : Gives es key v ↔ (key, v) ∈ es := by
  refine ⟨fun h => List.mem_reverse.mp (mem_of_lookup h), fun h => ?_⟩
  refine lookup_of_mem ?_ (List.mem_reverse.mpr h)
  rw [List.map_reverse, List.Nodup, List.pairwise_reverse]
  exact List.Pairwise.imp Ne.symm hn

/-! ## Inserting -/

@[simp] theorem lookup_insert (key k : String) (v : α) (es : List (String × α)) :
    (insert key v es).lookup k = if k = key then some v else es.lookup k := by
  induction es with
  | nil =>
    rw [insert]
    split
    · next h =>
      subst h
      exact lookup_cons_self k v []
    · next h => exact lookup_cons_other h v []
  | cons e es ih =>
    obtain ⟨k', w⟩ := e
    rw [insert]
    split
    · next hkey =>
      subst hkey
      split
      · next h =>
        subst h
        exact lookup_cons_self k v es
      · next h => rw [lookup_cons_other h, lookup_cons_other h]
    split
    · split
      · next h =>
        subst h
        exact lookup_cons_self k v _
      · next h => exact lookup_cons_other h v _
    · next hkey _ =>
      by_cases hk : k = k'
      · subst hk
        rw [lookup_cons_self, lookup_cons_self, if_neg (Ne.symm hkey)]
      · rw [lookup_cons_other hk, lookup_cons_other hk, ih]

/-- A key is among the entries after an insertion if it was there or is the one inserted. -/
theorem mem_insert {e : String × α} (h : e ∈ insert key v es) : e = (key, v) ∨ e ∈ es := by
  induction es with
  | nil => exact .inl (List.mem_singleton.mp h)
  | cons e' es ih =>
    obtain ⟨k, w⟩ := e'
    rw [insert] at h
    split at h
    · next hk =>
      subst hk
      rcases List.mem_cons.mp h with h | h
      · exact .inl h
      · exact .inr (List.mem_cons_of_mem _ h)
    split at h
    · exact List.mem_cons.mp h
    · rcases List.mem_cons.mp h with h | h
      · exact .inr (h ▸ List.mem_cons_self)
      · exact (ih h).imp_right (List.mem_cons_of_mem _)

theorem Ordered.insert (h : Ordered es) (key : String) (v : α) :
    Ordered (Entries.insert key v es) := by
  induction es with
  | nil => exact List.pairwise_singleton _ _
  | cons e es ih =>
    obtain ⟨k, w⟩ := e
    obtain ⟨hk, hes⟩ := List.pairwise_cons.mp h
    rw [Entries.insert]
    split
    · next heq =>
      subst heq
      exact List.pairwise_cons.mpr ⟨hk, hes⟩
    split
    · next hlt =>
      refine List.pairwise_cons.mpr ⟨fun e he => ?_, h⟩
      rcases List.mem_cons.mp he with rfl | he
      · exact hlt
      · exact String.lt_trans hlt (hk e he)
    · next hne hlt =>
      have hgt : k < key := by
        refine Decidable.byContradiction fun hkk => hne ?_
        exact String.le_antisymm (String.not_lt.mp hkk) (String.not_lt.mp hlt)
      refine List.pairwise_cons.mpr ⟨fun e he => ?_, ih hes⟩
      rcases mem_insert he with rfl | he
      · exact hgt
      · exact hk e he

/-! ## Entries in any order -/

theorem ordered_foldl_insert (es : List (String × α)) {acc : List (String × α)} (h : Ordered acc) :
    Ordered (es.foldl (fun acc e => insert e.1 e.2 acc) acc) := by
  induction es generalizing acc with
  | nil => exact h
  | cons e es ih => exact ih (h.insert e.1 e.2)

theorem ordered_ofList (es : List (String × α)) : Ordered (ofList es) :=
  ordered_foldl_insert es List.Pairwise.nil

theorem lookup_foldl_insert (es acc : List (String × α)) (key : String) :
    (es.foldl (fun acc e => insert e.1 e.2 acc) acc).lookup key =
      (es.reverse.lookup key).or (acc.lookup key) := by
  induction es generalizing acc with
  | nil => rfl
  | cons e es ih =>
    obtain ⟨k, w⟩ := e
    rw [List.foldl_cons, ih, lookup_insert, List.reverse_cons, List.lookup_append,
      Option.or_assoc]
    by_cases hk : key = k
    · subst hk
      rw [if_pos rfl, lookup_cons_self, Option.some_or]
    · rw [if_neg hk, lookup_cons_other hk, List.lookup_nil, Option.none_or]

/-- The map of entries has for each key the last value that is given for it. -/
theorem lookup_ofList (es : List (String × α)) (key : String) :
    (ofList es).lookup key = es.reverse.lookup key := by
  rw [ofList, lookup_foldl_insert, List.lookup_nil, Option.or_none]

theorem mem_ofList : (key, v) ∈ ofList es ↔ Gives es key v := by
  rw [← (ordered_ofList es).lookup_eq_some_iff, lookup_ofList, Gives]

end MetricsQuery.Entries
