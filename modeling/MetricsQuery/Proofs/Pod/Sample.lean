import MetricsQuery.Pod.Sample
import MetricsQuery.Proofs.Label.Name

/-!
# What a pod is exported as

The samples of a pod (`Emits`) are those that are collected for it (`mem_samples`). A sample lists
what it says of the pod itself under names of its own and then the keys of one map (`Emits.split`).
A name of its own is never that of a key (`ownNames_stem`), so all names are distinct
(`Emits.nodup`), and the two kinds of keys do not share a name (`label_ne_annotation`).
-/

namespace MetricsQuery.Pod

/-- The samples that a pod is exported as. -/
inductive Emits (p : Pod) : PodSample → Prop
  | annotations {smp : PodSample} (h : p.annotationSample? = some smp) : Emits p smp
  | labels : Emits p p.labelSample
  | owner {o : Owner} (h : o ∈ p.owners) : Emits p (p.ownerSample o)

variable {p : Pod} {smp : PodSample} {n v : String}

theorem annotationSample?_eq_some (h : p.annotationSample? = some smp) :
    smp = ⟨.podAnnotations, p.identity ++ Label.ofAnnotations p.annotations⟩ := by
  unfold annotationSample? at h
  split at h
  · cases h
  · exact (Option.some.inj h).symm

/-! ## The collected samples -/

theorem mem_annotationSamples {ps : List Pod} :
    smp ∈ annotationSamples ps ↔ ∃ p ∈ ps, Emits p smp ∧ smp.metric = .podAnnotations := by
  rw [annotationSamples, List.mem_filterMap]
  constructor
  · rintro ⟨p, hp, h⟩
    exact ⟨p, hp, .annotations h, by rw [annotationSample?_eq_some h]⟩
  · rintro ⟨p, hp, he, hm⟩
    cases he with
    | annotations h => exact ⟨p, hp, h⟩
    | labels => exact absurd (show Metric.podLabels = .podAnnotations from hm) (by decide)
    | owner _ => exact absurd (show Metric.podOwner = .podAnnotations from hm) (by decide)

theorem mem_labelSamples {ps : List Pod} :
    smp ∈ labelSamples ps ↔ ∃ p ∈ ps, Emits p smp ∧ smp.metric ≠ .podAnnotations := by
  rw [labelSamples, List.mem_flatMap]
  constructor
  · rintro ⟨p, hp, h⟩
    rcases List.mem_cons.mp h with rfl | h
    · exact ⟨p, hp, .labels, show Metric.podLabels ≠ .podAnnotations by decide⟩
    · obtain ⟨o, ho, rfl⟩ := List.mem_map.mp h
      exact ⟨p, hp, .owner ho, show Metric.podOwner ≠ .podAnnotations by decide⟩
  · rintro ⟨p, hp, he, hm⟩
    cases he with
    | annotations h => exact absurd (by rw [annotationSample?_eq_some h]) hm
    | labels => exact ⟨p, hp, List.mem_cons_self⟩
    | owner ho => exact ⟨p, hp, List.mem_cons_of_mem _ (List.mem_map_of_mem ho)⟩

/-- The collected samples are those of the pods. -/
theorem mem_samples {ps : List Pod} :
    smp ∈ annotationSamples ps ++ labelSamples ps ↔ ∃ p ∈ ps, Emits p smp := by
  rw [List.mem_append, mem_annotationSamples, mem_labelSamples]
  constructor
  · rintro (⟨p, hp, he, -⟩ | ⟨p, hp, he, -⟩)
    · exact ⟨p, hp, he⟩
    · exact ⟨p, hp, he⟩
  · rintro ⟨p, hp, he⟩
    by_cases hm : smp.metric = .podAnnotations
    · exact .inl ⟨p, hp, he, hm⟩
    · exact .inr ⟨p, hp, he, hm⟩

/-! ## Names of labels -/

/-- The names under which a sample says what is not a key of the pod. -/
def ownNames : List String :=
  ["namespace", "pod", "uid", "owner_name", "owner_kind", "owner_is_controller"]

theorem ownNames_heads :
    ∀ k ∈ ownNames, k.toList.head? ≠ some 'l' ∧ k.toList.head? ≠ some 'a' := by
  decide

theorem label_head (n : String) : ("label_" ++ n).toList.head? = some 'l' := by
  rw [String.toList_append]
  rfl

theorem annotation_head (n : String) : ("annotation_" ++ n).toList.head? = some 'a' := by
  rw [String.toList_append]
  rfl

theorem label_ne_annotation (m n : String) : "label_" ++ m ≠ "annotation_" ++ n := by
  intro h
  have hheads := label_head m
  rw [h, annotation_head] at hheads
  exact absurd hheads (by decide)

/-- A prefix of keys is never that of a name of the sample's own. -/
theorem ownNames_stem {stem : String} (hs : stem = "label_" ∨ stem = "annotation_") (n : String) :
    stem ++ n ∉ ownNames := by
  rcases hs with rfl | rfl
  · exact fun h => (ownNames_heads _ h).1 (label_head n)
  · exact fun h => (ownNames_heads _ h).2 (annotation_head n)

/-! ## Labels -/

theorem mem_append_of_own {own keys : List (String × String)} (ho : ∀ l ∈ own, l.1 ∈ ownNames)
    (hn : n ∉ ownNames) : (n, v) ∈ own ++ keys ↔ (n, v) ∈ keys := by
  rw [List.mem_append]
  refine ⟨fun h => ?_, .inr⟩
  rcases h with h | h
  · exact absurd (ho _ h) hn
  · exact h

theorem mem_labelSample (hn : n ∉ ownNames) :
    (n, v) ∈ p.labelSample.labels ↔ (n, v) ∈ Label.ofLabels p.labels := by
  have hl : p.labelSample.labels =
      [("namespace", p.space), ("pod", p.name), ("uid", p.uid)] ++ Label.ofLabels p.labels := rfl
  rw [hl, mem_append_of_own (by simp [ownNames]) hn]

theorem mem_annotationSample (h : p.annotationSample? = some smp) (hn : n ∉ ownNames) :
    (n, v) ∈ smp.labels ↔ (n, v) ∈ Label.ofAnnotations p.annotations := by
  rw [annotationSample?_eq_some h]
  exact mem_append_of_own (by simp [identity, ownNames]) hn

theorem not_mem_ownerSample {o : Owner} (hn : n ∉ ownNames) :
    (n, v) ∉ (p.ownerSample o).labels := by
  rw [ownerSample, ← List.append_nil (_ ++ _), mem_append_of_own (by simp [identity, ownNames]) hn]
  exact List.not_mem_nil

/-- A sample lists what it says of its own, and then the keys of one map. -/
theorem Emits.split (h : Emits p smp) :
    ∃ own stem entries, smp.labels = own ++ Label.qualified stem entries ∧
      (∀ l ∈ own, l.1 ∈ ownNames) ∧ (own.map Prod.fst).Nodup ∧ p.identity ⊆ own ∧
      (stem = "label_" ∨ stem = "annotation_") := by
  cases h with
  | annotations h =>
    have hnames : ["namespace", "pod"].Nodup := by decide
    rw [annotationSample?_eq_some h]
    exact ⟨p.identity, _, p.annotations, rfl, by simp [identity, ownNames], hnames,
      List.Subset.refl _, .inr rfl⟩
  | labels =>
    have hnames : ["namespace", "pod", "uid"].Nodup := by decide
    exact ⟨p.identity ++ [("uid", p.uid)], _, p.labels, rfl, by simp [identity, ownNames], hnames,
      List.subset_append_left _ _, .inl rfl⟩
  | @owner o _ =>
    have hnames :
        ["namespace", "pod", "owner_name", "owner_kind", "owner_is_controller"].Nodup := by
      decide
    exact ⟨(p.ownerSample o).labels, "label_", [], (List.append_nil _).symm,
      by simp [ownerSample, identity, ownNames], hnames, List.subset_append_left _ _, .inl rfl⟩

/-- Every sample says where its pod is. -/
theorem Emits.identity_subset (h : Emits p smp) : p.identity ⊆ smp.labels := by
  obtain ⟨own, stem, entries, hl, -, -, hid, -⟩ := h.split
  rw [hl]
  exact List.subset_append_of_subset_left _ hid

/-- The names of a sample's labels are distinct, so that an object holds all of them. -/
theorem Emits.nodup (h : Emits p smp) : (smp.labels.map Prod.fst).Nodup := by
  obtain ⟨own, stem, entries, hl, ho, hn, -, hs⟩ := h.split
  rw [hl, List.map_append, List.nodup_append]
  refine ⟨hn, Label.nodup_firstOfEachName _ _, fun a ha b hb hab => ?_⟩
  obtain ⟨l, hl, rfl⟩ := List.mem_map.mp ha
  obtain ⟨k, hk, rfl⟩ := List.mem_map.mp hb
  obtain ⟨name, -, hname, -⟩ := Label.mem_qualified.mp hk
  exact ownNames_stem hs name (hname ▸ hab ▸ ho l hl)

theorem isName_ownNames : ∀ k ∈ ownNames, Label.IsName k := by
  have hhead : ∀ k ∈ ownNames, k.toList.head?.any Char.isAlpha = true := by decide
  have hchars : ∀ k ∈ ownNames, k.toList.all Label.isNameChar = true := by decide
  intro k hk
  obtain ⟨c, hc, hletter⟩ := (Option.any_eq_true _ _).mp (hhead k hk)
  exact ⟨⟨c, hc, .inl hletter⟩, List.all_eq_true.mp (hchars k hk)⟩

theorem isName_stem {stem : String} (hs : stem = "label_" ∨ stem = "annotation_") :
    Label.IsName stem := by
  rcases hs with rfl | rfl
  · exact ⟨⟨'l', rfl, .inl (by decide)⟩, List.all_eq_true.mp (by decide)⟩
  · exact ⟨⟨'a', rfl, .inl (by decide)⟩, List.all_eq_true.mp (by decide)⟩

/-- All names of a sample are names that a label may have, whatever the keys are. -/
theorem Emits.isName (h : Emits p smp) : ∀ l ∈ smp.labels, Label.IsName l.1 := by
  intro l hl
  obtain ⟨own, stem, entries, hlabels, ho, -, -, hs⟩ := h.split
  rw [hlabels] at hl
  rcases List.mem_append.mp hl with hl | hl
  · exact isName_ownNames _ (ho l hl)
  · obtain ⟨name, key, hname, hr⟩ := Label.mem_qualified.mp hl
    rw [hname, ← hr.sanitized]
    exact (isName_stem hs).append_sanitize key

end MetricsQuery.Pod
