import MetricsQuery.Proofs.Entries
import MetricsQuery.Query.Series

/-!
# Labels under a prefix

The labels that are found under a prefix are those whose names start with it (`mem_stripped`), and
they are in the order of what is left of their names (`ordered_stripped`).
-/

namespace MetricsQuery

/-- What two texts start with does not matter to their order. -/
theorem append_lt_append_iff (cs ds es : List Char) : cs ++ ds < cs ++ es ↔ ds < es := by
  induction cs with
  | nil => rfl
  | cons c cs ih =>
    rw [List.cons_append, List.cons_append, List.cons_lt_cons_iff, ih]
    constructor
    · rintro (hlt | ⟨-, h⟩)
      · exact absurd hlt (Char.lt_irrefl c)
      · exact h
    · exact fun h => .inr ⟨rfl, h⟩

namespace Series

variable {s : Series} {stem n v : String}

/-- Stripping a name of the prefix that it starts with. -/
theorem strip_eq_some_iff {k v : String} {l : String × String} :
    (if stem.toList.isPrefixOf k.toList then
      some (String.ofList (k.toList.drop stem.toList.length), v) else none) = some l ↔
      k = stem ++ l.1 ∧ v = l.2 := by
  constructor
  · intro h
    split at h
    · next hp =>
      obtain ⟨rest, hrest⟩ := List.isPrefixOf_iff_prefix.mp hp
      rw [← hrest, List.drop_left, Option.some.injEq] at h
      subst h
      refine ⟨String.toList_inj.mp ?_, rfl⟩
      rw [String.toList_append, String.toList_ofList, hrest]
    · cases h
  · rintro ⟨rfl, rfl⟩
    have hp : stem.toList.isPrefixOf (stem ++ l.1).toList = true := by
      rw [List.isPrefixOf_iff_prefix, String.toList_append]
      exact List.prefix_append _ _
    rw [if_pos hp, String.toList_append, List.drop_left, String.ofList_toList]

/-- The labels found under a prefix are those that have it. -/
theorem mem_stripped : (n, v) ∈ s.stripped stem ↔ (stem ++ n, v) ∈ s.labels := by
  rw [stripped, List.mem_filterMap]
  constructor
  · rintro ⟨⟨k, w⟩, hmem, h⟩
    obtain ⟨rfl, rfl⟩ := strip_eq_some_iff.mp h
    exact hmem
  · exact fun h => ⟨(stem ++ n, v), h, strip_eq_some_iff.mpr ⟨rfl, rfl⟩⟩

theorem ordered_stripped (h : Entries.Ordered s.labels) : Entries.Ordered (s.stripped stem) := by
  refine List.Pairwise.filterMap _ (fun a b hab l hl m hm => ?_) h
  obtain ⟨ha, -⟩ := strip_eq_some_iff.mp hl
  obtain ⟨hb, -⟩ := strip_eq_some_iff.mp hm
  rw [ha, hb] at hab
  have hlists : (stem ++ l.1).toList < (stem ++ m.1).toList := hab
  rw [String.toList_append, String.toList_append, append_lt_append_iff] at hlists
  exact hlists

/-- A label is there if it is among the labels in their order. -/
theorem label_eq_ok_iff (h : Entries.Ordered s.labels) :
    s.label n = .ok v ↔ (n, v) ∈ s.labels := by
  rw [← h.lookup_eq_some_iff, label]
  cases s.labels.lookup n <;> simp

end Series

end MetricsQuery
