import Mathlib.Data.List.Sort
import MetricsQuery.Proofs.Label.Name

/-!
# The order of label names

The names that a map gives stand in the order of the keys they represent, which need not be that of
the names themselves. The names and the values beside them are listed (`IsListing`) in one way only
(`IsListing.unique`), which the map determines and not the order its entries come in
(`IsListing.congr`). So the entries give the same two lists in whatever order they come:
`qualified_listing`.
-/

namespace MetricsQuery.Label

open Entries (Gives Ordered)

/-- The names that a map gives under a qualifier, and beside each its value. -/
structure IsListing (qualifier : String) (entries : List (String × String))
    (names values : List String) : Prop where
  length_eq : names.length = values.length
  nodup : names.Nodup
  mem_iff : ∀ n, n ∈ names ↔ ∃ k v, Gives entries k v ∧ n = qualifier ++ sanitize k
  /-- Each name is that of the smallest key that gives it, and the value that of this key. These
  keys are in the order of their bytes. -/
  ranked : ∃ kept : List (String × String),
    kept.Pairwise (fun a b => Utf8.encode a.1 < Utf8.encode b.1) ∧
    names = kept.map (fun e => qualifier ++ sanitize e.1) ∧ values = kept.map Prod.snd ∧
    ∀ e ∈ kept, Represents entries (sanitize e.1) e.1 e.2

variable {qualifier : String} {entries listed : List (String × String)} {names values : List String}

/-! ## One listing at most -/

theorem Represents.unique {name : String} {e e' : String × String}
    (h : Represents entries name e.1 e.2) (h' : Represents entries name e'.1 e'.2) : e = e' := by
  have hle : e.1 ≤ e'.1 := Utf8.encode_le_encode.mp (h.least e'.1 e'.2 h'.value h'.sanitized)
  have hle' : e'.1 ≤ e.1 := Utf8.encode_le_encode.mp (h'.least e.1 e.2 h.value h.sanitized)
  have hkey : e.1 = e'.1 := String.le_antisymm hle hle'
  have hvalue := h'.value
  rw [← hkey] at hvalue
  exact Prod.ext hkey (Option.some.inj (h.value.symm.trans hvalue))

/-- The entries of a listing are those whose keys represent a name. -/
theorem mem_kept_iff {kept : List (String × String)}
    (hn : ∀ n, n ∈ kept.map (fun e => qualifier ++ sanitize e.1) ↔
      ∃ k v, Gives entries k v ∧ n = qualifier ++ sanitize k)
    (hr : ∀ e ∈ kept, Represents entries (sanitize e.1) e.1 e.2) (e : String × String) :
    e ∈ kept ↔ Represents entries (sanitize e.1) e.1 e.2 := by
  refine ⟨hr e, fun h => ?_⟩
  obtain ⟨e', he', heq⟩ := List.mem_map.mp ((hn _).mpr ⟨e.1, e.2, h.value, rfl⟩)
  have hr' := hr e' he'
  rw [(String.append_right_inj qualifier).mp heq] at hr'
  rw [h.unique hr']
  exact he'

theorem IsListing.unique {names' values' : List String}
    (h : IsListing qualifier entries names values)
    (h' : IsListing qualifier entries names' values') : names = names' ∧ values = values' := by
  obtain ⟨kept, hk, rfl, rfl, hr⟩ := h.ranked
  obtain ⟨kept', hk', rfl, rfl, hr'⟩ := h'.ranked
  have hirrefl : Std.Irrefl fun a b : String × String => Utf8.encode a.1 < Utf8.encode b.1 :=
    ⟨fun a => List.lt_irrefl (Utf8.encode a.1)⟩
  have hantisymm : Std.Antisymm fun a b : String × String => Utf8.encode a.1 < Utf8.encode b.1 :=
    ⟨fun _ _ hab hba => absurd hba (List.lt_asymm hab)⟩
  have hkept : kept = kept' := by
    refine List.Pairwise.eq_of_mem_iff hk hk' fun e => ?_
    rw [mem_kept_iff h.mem_iff hr, mem_kept_iff h'.mem_iff hr']
  subst hkept
  exact ⟨rfl, rfl⟩

/-! ## The listing there is -/

/-- An entry that is kept has a name that was not seen before. -/
theorem not_mem_seen {f : String → String} {seen : List String} {es kept : List (String × String)}
    (h : firstOfEachName seen es = kept.map fun e => (f e.1, e.2)) {e : String × String}
    (he : e ∈ kept) : f e.1 ∉ seen := by
  have hmem : (f e.1, e.2) ∈ kept.map fun e => (f e.1, e.2) := List.mem_map_of_mem he
  rw [← h] at hmem
  exact (mem_firstOfEachName.mp hmem).1

/-- Of entries in the order of their keys, the first with each name are kept: those whose key is the
smallest that gives it. -/
theorem exists_kept {f : String → String} {es : List (String × String)} (h : Ordered es)
    (seen : List String) :
    ∃ kept : List (String × String), kept.Sublist es ∧
      firstOfEachName seen (es.map fun e => (f e.1, e.2)) = kept.map (fun e => (f e.1, e.2)) ∧
      ∀ e ∈ kept, ∀ e' ∈ es, f e'.1 = f e.1 → e.1 ≤ e'.1 := by
  induction es generalizing seen with
  | nil => exact ⟨[], .slnil, rfl, fun e he => absurd he List.not_mem_nil⟩
  | cons e es ih =>
    obtain ⟨k, w⟩ := e
    obtain ⟨hk, hes⟩ := List.pairwise_cons.mp h
    by_cases hs : f k ∈ seen
    · obtain ⟨kept, hsub, heq, hleast⟩ := ih hes seen
      refine ⟨kept, hsub.cons _, ?_, fun e he => ?_⟩
      · rw [List.map_cons, firstOfEachName, if_pos hs, heq]
      · refine List.forall_mem_cons.mpr ⟨fun hf => ?_, hleast e he⟩
        exact absurd (hf ▸ hs) (not_mem_seen heq he)
    · obtain ⟨kept, hsub, heq, hleast⟩ := ih hes (f k :: seen)
      refine ⟨(k, w) :: kept, hsub.cons_cons _, ?_, List.forall_mem_cons.mpr ⟨?_, fun e he => ?_⟩⟩
      · rw [List.map_cons, firstOfEachName, if_neg hs, heq, List.map_cons]
      · refine List.forall_mem_cons.mpr ⟨fun _ => String.le_refl k, fun e he _ => ?_⟩
        exact String.not_lt.mp (String.lt_asymm (hk e he))
      · refine List.forall_mem_cons.mpr ⟨fun hf => ?_, hleast e he⟩
        exact absurd (hf ▸ List.mem_cons_self) (not_mem_seen heq he)

theorem isListing_qualified (qualifier : String) (entries : List (String × String)) :
    IsListing qualifier entries ((qualified qualifier entries).map Prod.fst)
      ((qualified qualifier entries).map Prod.snd) where
  length_eq := by rw [List.length_map, List.length_map]
  nodup := nodup_firstOfEachName _ _
  mem_iff n := by
    rw [List.mem_map]
    constructor
    · rintro ⟨⟨n, v⟩, hmem, rfl⟩
      obtain ⟨name, key, rfl, hr⟩ := mem_qualified.mp hmem
      exact ⟨key, v, hr.value, by rw [hr.sanitized]⟩
    · rintro ⟨k, w, hk, rfl⟩
      obtain ⟨key, v, hr⟩ := exists_represents hk
      exact ⟨(qualifier ++ sanitize k, v), mem_qualified.mpr ⟨_, key, rfl, hr⟩, rfl⟩
  ranked := by
    have ho := Entries.ordered_ofList entries
    obtain ⟨kept, hsub, heq, hleast⟩ := exists_kept (f := fun k => qualifier ++ sanitize k) ho []
    have hq : qualified qualifier entries =
        kept.map fun e => (qualifier ++ sanitize e.1, e.2) := heq
    refine ⟨kept, ?_, ?_, ?_, fun e he => ?_⟩
    · exact (List.Pairwise.sublist hsub ho).imp fun hlt => Utf8.encode_lt_encode.mpr hlt
    · rw [hq, List.map_map]
      rfl
    · rw [hq, List.map_map]
      rfl
    · refine ⟨rfl, Entries.mem_ofList.mp (hsub.subset he), fun k w hk hs => ?_⟩
      rw [Utf8.encode_le_encode]
      exact hleast e he (k, w) (Entries.mem_ofList.mpr hk) (by rw [hs])

/-! ## The order of the entries -/

/-- A map is the same in whatever order its entries are listed. -/
theorem gives_perm (hn : (entries.map Prod.fst).Nodup) (hp : listed.Perm entries) (k v : String) :
    Gives listed k v ↔ Gives entries k v := by
  have hn' : (listed.map Prod.fst).Nodup := (hp.map Prod.fst).nodup_iff.mpr hn
  rw [Entries.gives_iff_mem hn, Entries.gives_iff_mem hn', hp.mem_iff]

theorem Represents.congr {name key v : String} (hg : ∀ k v, Gives listed k v ↔ Gives entries k v)
    (h : Represents listed name key v) : Represents entries name key v :=
  ⟨h.sanitized, (hg key v).mp h.value, fun k w hk => h.least k w ((hg k w).mpr hk)⟩

theorem IsListing.congr (hg : ∀ k v, Gives listed k v ↔ Gives entries k v)
    (h : IsListing qualifier listed names values) : IsListing qualifier entries names values where
  length_eq := h.length_eq
  nodup := h.nodup
  mem_iff n := by simp only [h.mem_iff n, hg]
  ranked := by
    obtain ⟨kept, hk, hn, hv, hr⟩ := h.ranked
    exact ⟨kept, hk, hn, hv, fun e he => (hr e he).congr hg⟩

/-- In whatever order the entries of a map come, the names and the values that it gives are the same
two lists, and the only ones of that form. -/
theorem qualified_listing (qualifier : String) {entries : List (String × String)}
    (hn : (entries.map Prod.fst).Nodup) :
    ∃ names values, IsListing qualifier entries names values ∧
      (∀ listed, listed.Perm entries → (qualified qualifier listed).unzip = (names, values)) ∧
      ∀ names' values', IsListing qualifier entries names' values' →
        names' = names ∧ values' = values := by
  have hlisting := isListing_qualified qualifier entries
  refine ⟨_, _, hlisting, fun listed hp => ?_, fun names' values' h => h.unique hlisting⟩
  have hlisted := (isListing_qualified qualifier listed).congr (gives_perm hn hp)
  obtain ⟨hnames, hvalues⟩ := hlisted.unique hlisting
  rw [List.unzip_eq_map, hnames, hvalues]

/-- Two keys give one name, and the names are not in the order of their bytes, as the keys are. -/
theorem qualified_listing_colliding :
    let entries := [("a0", "first"), ("a.", "second"), ("a-", "third")]
    (entries.map Prod.fst).Nodup ∧
      IsListing "label_" entries ["label_a_", "label_a0"] ["third", "first"] ∧
      (qualified "label_" entries.reverse).unzip =
        (["label_a_", "label_a0"], ["third", "first"]) := by
  intro entries
  have hn : (entries.map Prod.fst).Nodup := by decide
  have heq : (qualified "label_" entries).unzip =
      (["label_a_", "label_a0"], ["third", "first"]) := by
    decide +kernel
  obtain ⟨names, values, h, hlisted, -⟩ := qualified_listing "label_" hn
  obtain ⟨rfl, rfl⟩ := Prod.mk.inj ((hlisted entries (.refl _)).symm.trans heq)
  exact ⟨hn, h, hlisted entries.reverse (List.reverse_perm entries)⟩

end MetricsQuery.Label
