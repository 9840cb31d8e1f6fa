import MetricsQuery.Label.Name
import MetricsQuery.Proofs.Entries
import MetricsQuery.Proofs.Text.Order

/-!
# Which keys label names stand for

Several keys may give the same label name. The name stands for the smallest of them, in the order of
their bytes (`Represents`), and has its value; every name that a key gives is there, and no other
(`mem_qualified`).
-/

namespace MetricsQuery.Label

open Entries (Gives Ordered)

/-- Of the keys of a map that give the label name `name`, `key` is the smallest, and its value is
`v`. -/
structure Represents (entries : List (String × String)) (name key v : String) : Prop where
  sanitized : sanitize key = name
  value : Gives entries key v
  least : ∀ k w, Gives entries k w → sanitize k = name → Utf8.encode key ≤ Utf8.encode k

variable {seen : List String} {es : List (String × String)} {n v : String}

/-- Of the entries with one name the first is kept, unless the name was seen before. -/
theorem mem_firstOfEachName :
    (n, v) ∈ firstOfEachName seen es ↔ n ∉ seen ∧ es.lookup n = some v := by
  induction es generalizing seen with
  | nil => simp [firstOfEachName]
  | cons e es ih =>
    obtain ⟨k, w⟩ := e
    rw [firstOfEachName]
    by_cases hk : n = k
    · subst hk
      rw [Entries.lookup_cons_self]
      split
      · next hs => simp [ih, hs]
      · next hs =>
        rw [List.mem_cons, ih]
        simp [hs, eq_comm]
    · rw [Entries.lookup_cons_other hk]
      split
      · rw [ih]
      · rw [List.mem_cons, ih]
        simp [hk]

/-- The first entry of a map whose key has the image `n` is the one with the smallest such key. -/
theorem lookup_map_eq_some_iff {f : String → String} (h : Ordered es) :
    (es.map fun e => (f e.1, e.2)).lookup n = some v ↔
      ∃ k, f k = n ∧ (k, v) ∈ es ∧ ∀ k' v', (k', v') ∈ es → f k' = n → k ≤ k' := by
  induction es with
  | nil => simp
  | cons e es ih =>
    obtain ⟨k, w⟩ := e
    obtain ⟨hk, hes⟩ := List.pairwise_cons.mp h
    rw [List.map_cons]
    by_cases hn : n = f k
    · subst hn
      rw [Entries.lookup_cons_self, Option.some.injEq]
      constructor
      · rintro rfl
        refine ⟨k, rfl, List.mem_cons_self, fun k' v' hmem _ => ?_⟩
        rcases List.mem_cons.mp hmem with he | hmem
        · cases he
          exact String.le_refl k
        · exact String.not_lt.mp (String.lt_asymm (hk (k', v') hmem))
      · rintro ⟨k', -, hmem, hleast⟩
        rcases List.mem_cons.mp hmem with he | hmem
        · cases he
          rfl
        · have hle : k' ≤ k := hleast k w List.mem_cons_self rfl
          exact absurd (hk (k', v) hmem) (String.not_lt.mpr hle)
    · rw [Entries.lookup_cons_other hn, ih hes]
      constructor
      · rintro ⟨k', hf, hmem, hleast⟩
        refine ⟨k', hf, List.mem_cons_of_mem _ hmem, fun k'' v'' hmem' hf' => ?_⟩
        rcases List.mem_cons.mp hmem' with he | hmem'
        · cases he
          exact absurd hf'.symm hn
        · exact hleast k'' v'' hmem' hf'
      · rintro ⟨k', hf, hmem, hleast⟩
        rcases List.mem_cons.mp hmem with he | hmem
        · cases he
          exact absurd hf.symm hn
        · exact ⟨k', hf, hmem, fun k'' v'' hmem' => hleast k'' v'' (List.mem_cons_of_mem _ hmem')⟩

/-- The names that a map gives are those of its keys, each with the value of the key that it
represents. -/
theorem mem_qualified {qualifier : String} {entries : List (String × String)} :
    (n, v) ∈ qualified qualifier entries ↔
      ∃ name key, n = qualifier ++ name ∧ Represents entries name key v := by
  rw [qualified, mem_firstOfEachName,
    lookup_map_eq_some_iff (f := fun k => qualifier ++ sanitize k) (Entries.ordered_ofList entries)]
  simp only [Entries.mem_ofList, List.not_mem_nil, not_false_eq_true, true_and]
  constructor
  · rintro ⟨key, rfl, hv, hleast⟩
    refine ⟨sanitize key, key, rfl, rfl, hv, fun k w hk hs => ?_⟩
    rw [Utf8.encode_le_encode]
    exact hleast k w hk (by rw [hs])
  · rintro ⟨name, key, rfl, rfl, hv, hleast⟩
    refine ⟨key, rfl, hv, fun k w hk hs => ?_⟩
    rw [← Utf8.encode_le_encode]
    exact hleast k w hk ((String.append_right_inj qualifier).mp hs)

/-- The names under the qualifier, without it. -/
theorem mem_qualified_append {qualifier : String} {entries : List (String × String)} :
    (qualifier ++ n, v) ∈ qualified qualifier entries ↔ ∃ key, Represents entries n key v := by
  rw [mem_qualified]
  constructor
  · rintro ⟨name, key, hn, hr⟩
    rw [(String.append_right_inj qualifier).mp hn]
    exact ⟨key, hr⟩
  · rintro ⟨key, hr⟩
    exact ⟨n, key, rfl, hr⟩

/-- Every name is given once. -/
theorem nodup_firstOfEachName (seen : List String) (es : List (String × String)) :
    ((firstOfEachName seen es).map Prod.fst).Nodup := by
  induction es generalizing seen with
  | nil => exact List.nodup_nil
  | cons e es ih =>
    obtain ⟨k, w⟩ := e
    rw [firstOfEachName]
    split
    · exact ih seen
    · refine List.nodup_cons.mpr ⟨fun h => ?_, ih (k :: seen)⟩
      obtain ⟨⟨k', w'⟩, hmem, rfl⟩ := List.mem_map.mp h
      exact (mem_firstOfEachName.mp hmem).1 List.mem_cons_self

/-- A label name has no character but those that it may have. -/
theorem isNameChar_of_mem_sanitize {key : String} {c : Char} (h : c ∈ (sanitize key).toList) :
    isNameChar c = true := by
  rw [sanitize, String.toList_ofList] at h
  obtain ⟨d, -, rfl⟩ := List.mem_map.mp h
  split
  · next hd => exact hd
  · decide

/-- A name that a label may have: letters, digits and underscores, of which a digit is not the
first. -/
structure IsName (n : String) : Prop where
  head : ∃ c, n.toList.head? = some c ∧ (c.isAlpha = true ∨ c = '_')
  chars : ∀ c ∈ n.toList, isNameChar c = true

/-- Whatever the key is, it is a name that a label may have after one that is. -/
theorem IsName.append_sanitize (h : IsName n) (key : String) : IsName (n ++ sanitize key) where
  head := by
    obtain ⟨c, hc, hletter⟩ := h.head
    refine ⟨c, ?_, hletter⟩
    rw [String.toList_append, List.head?_append, hc, Option.some_or]
  chars c hc := by
    rw [String.toList_append, List.mem_append] at hc
    rcases hc with hc | hc
    · exact h.chars c hc
    · exact isNameChar_of_mem_sanitize hc

/-- Every key of a map gives a name that stands for some key. -/
theorem exists_represents {entries : List (String × String)} {k w : String}
    (h : Gives entries k w) : ∃ key v, Represents entries (sanitize k) key v := by
  have hmem : (k, w) ∈ Entries.ofList entries := Entries.mem_ofList.mpr h
  have hname : (sanitize k, w) ∈ (Entries.ofList entries).map fun e => (sanitize e.1, e.2) :=
    List.mem_map.mpr ⟨(k, w), hmem, rfl⟩
  cases hv : ((Entries.ofList entries).map fun e => (sanitize e.1, e.2)).lookup (sanitize k) with
  | none =>
    have hne := List.lookup_eq_none_iff.mp hv (sanitize k, w) hname
    simp at hne
  | some v =>
    obtain ⟨key, hkey, hmem, hleast⟩ :=
      (lookup_map_eq_some_iff (Entries.ordered_ofList entries)).mp hv
    refine ⟨key, v, hkey, Entries.mem_ofList.mp hmem, fun k' v' hk' hs => ?_⟩
    exact Utf8.encode_le_encode.mpr (hleast k' v' (Entries.mem_ofList.mpr hk') hs)

/-- Only a map without entries gives no names. -/
theorem qualified_eq_nil_iff (qualifier : String) {entries : List (String × String)} :
    qualified qualifier entries = [] ↔ entries = [] := by
  refine ⟨fun h => ?_, fun h => by rw [h]; rfl⟩
  cases hr : entries.reverse with
  | nil => exact List.reverse_eq_nil_iff.mp hr
  | cons e rest =>
    have hg : Gives entries e.1 e.2 := by
      rw [Gives, hr]
      exact Entries.lookup_cons_self e.1 e.2 rest
    obtain ⟨key, v, hrep⟩ := exists_represents hg
    have hmem : (qualifier ++ sanitize e.1, v) ∈ qualified qualifier entries :=
      mem_qualified_append.mpr ⟨key, hrep⟩
    rw [h] at hmem
    exact absurd hmem List.not_mem_nil

/-- The map from the label names that the keys of a map give, without a qualifier, to the values of
the keys that they stand for. -/
structure IsSanitized (entries names : List (String × String)) : Prop where
  ordered : Ordered names
  mem_iff : ∀ n v, (n, v) ∈ names ↔ ∃ key, Represents entries n key v
  total : ∀ k w, Gives entries k w → ∃ v, (sanitize k, v) ∈ names

theorem isSanitized_of_mem_iff {entries names : List (String × String)} (ho : Ordered names)
    (h : ∀ n v, (n, v) ∈ names ↔ ∃ key, Represents entries n key v) :
    IsSanitized entries names := by
  refine ⟨ho, h, fun k w hk => ?_⟩
  obtain ⟨key, v, hr⟩ := exists_represents hk
  exact ⟨v, (h _ v).mpr ⟨key, hr⟩⟩

end MetricsQuery.Label
