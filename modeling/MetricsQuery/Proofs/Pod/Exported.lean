import Mathlib.Data.List.Forall2
import MetricsQuery.Proofs.Pod.Sample

/-!
# All samples of the pods of a cluster

Pods are exported in their order: each has one sample of its labels, followed by one for each of its
owners (`LabelBlock`), and one of its annotations if there are any. Whatever the keys of labels and
annotations are, a sample has distinct names that a label may have, says where its pod is
(`Located`), and shows every key (`ShowsKeys`). It is put together in `samples_exported`.
-/

namespace MetricsQuery.Pod

open Entries (Gives)

/-! ## What a sample says -/

/-- The labels of a sample have distinct names, all of them legal, and say where the pod is. No key
of the pod takes the place of that. -/
structure Located (p : Pod) (smp : PodSample) : Prop where
  nodup : (smp.labels.map Prod.fst).Nodup
  isName : ∀ l ∈ smp.labels, Label.IsName l.1
  space : ∀ v, ("namespace", v) ∈ smp.labels ↔ v = p.space
  name : ∀ v, ("pod", v) ∈ smp.labels ↔ v = p.name

/-- Every key of a map is shown under a prefix, and no other name is. Of the keys that give one name
the smallest is shown. -/
structure ShowsKeys (stem : String) (entries : List (String × String)) (smp : PodSample) : Prop where
  total : ∀ k w, Gives entries k w → ∃ v, (stem ++ Label.sanitize k, v) ∈ smp.labels
  mem_iff : ∀ n v, (stem ++ n, v) ∈ smp.labels ↔ ∃ key, Label.Represents entries n key v

/-- The sample of the labels of a pod. -/
structure IsLabelSample (p : Pod) (smp : PodSample) : Prop extends Located p smp where
  metric : smp.metric.name = "kube_pod_labels"
  uid : ∀ v, ("uid", v) ∈ smp.labels ↔ v = p.uid
  keys : ShowsKeys "label_" p.labels smp

/-- The sample of one owner of a pod. -/
structure IsOwnerSample (p : Pod) (o : Owner) (smp : PodSample) : Prop extends Located p smp where
  metric : smp.metric.name = "kube_pod_owner"
  labels : smp.labels = [("namespace", p.space), ("pod", p.name), ("owner_name", o.name),
    ("owner_kind", o.kind), ("owner_is_controller", toString o.controller)]

/-- The sample of the annotations of a pod. -/
structure IsAnnotationSample (p : Pod) (smp : PodSample) : Prop extends Located p smp where
  metric : smp.metric.name = "kube_pod_annotations"
  keys : ShowsKeys "annotation_" p.annotations smp

/-- The samples of the labels and owners of one pod, in their order. -/
inductive LabelBlock (p : Pod) : List PodSample → Prop
  | block {smp : PodSample} {owners : List PodSample} (h : IsLabelSample p smp)
    (ho : List.Forall₂ (IsOwnerSample p) p.owners owners) : LabelBlock p (smp :: owners)

variable {p : Pod} {smp : PodSample}

/-! ## Each sample -/

/-- What a sample says under a name, it says once. -/
theorem Emits.mem_iff {n w : String} (h : Emits p smp) (hmem : (n, w) ∈ smp.labels) (v : String) :
    (n, v) ∈ smp.labels ↔ v = w := by
  refine ⟨fun hv => ?_, fun hv => hv ▸ hmem⟩
  have hlookup := Entries.lookup_of_mem h.nodup hv
  rw [Entries.lookup_of_mem h.nodup hmem] at hlookup
  exact (Option.some.inj hlookup).symm

theorem Emits.located (h : Emits p smp) : Located p smp where
  nodup := h.nodup
  isName := h.isName
  space := h.mem_iff (h.identity_subset List.mem_cons_self)
  name := h.mem_iff (h.identity_subset (List.mem_cons_of_mem _ List.mem_cons_self))

/-- A sample that has the names of a map under a prefix shows all its keys. -/
theorem showsKeys_of_mem_iff {stem : String} {entries : List (String × String)}
    (h : ∀ n v, (stem ++ n, v) ∈ smp.labels ↔ (stem ++ n, v) ∈ Label.qualified stem entries) :
    ShowsKeys stem entries smp where
  total k w hk := by
    obtain ⟨key, v, hr⟩ := Label.exists_represents hk
    exact ⟨v, (h _ v).mpr (Label.mem_qualified_append.mpr ⟨key, hr⟩)⟩
  mem_iff n v := by rw [h, Label.mem_qualified_append]

theorem isLabelSample (p : Pod) : IsLabelSample p p.labelSample where
  toLocated := Emits.labels.located
  metric := rfl
  uid := Emits.labels.mem_iff (List.mem_append_right _ List.mem_cons_self)
  keys := showsKeys_of_mem_iff fun n _ => mem_labelSample (ownNames_stem (.inl rfl) n)

theorem isOwnerSample {o : Owner} (h : o ∈ p.owners) : IsOwnerSample p o (p.ownerSample o) where
  toLocated := (Emits.owner h).located
  metric := rfl
  labels := rfl

theorem isAnnotationSample (h : p.annotationSample? = some smp) : IsAnnotationSample p smp where
  toLocated := (Emits.annotations h).located
  metric := by rw [annotationSample?_eq_some h]; rfl
  keys := showsKeys_of_mem_iff fun n _ => mem_annotationSample h (ownNames_stem (.inr rfl) n)

/-- A pod without annotations, and no other, has no sample of them. -/
theorem annotationSample?_eq_none_iff : p.annotationSample? = none ↔ p.annotations = [] := by
  rw [← Label.qualified_eq_nil_iff "annotation_", ← Label.ofAnnotations]
  unfold annotationSample?
  split
  · next h => simp only [h]
  · next h => exact ⟨nofun, fun he => absurd he h⟩

/-! ## All samples -/

theorem labelBlock (p : Pod) : LabelBlock p (p.labelSample :: p.owners.map p.ownerSample) := by
  refine .block (isLabelSample p) ?_
  rw [List.forall₂_map_right_iff, List.forall₂_same]
  exact fun o ho => isOwnerSample ho

theorem length_labelSamples (ps : List Pod) :
    (labelSamples ps).length = ps.length + (ps.flatMap Pod.owners).length := by
  induction ps with
  | nil => rfl
  | cons p ps ih =>
    rw [labelSamples] at ih ⊢
    simp only [List.flatMap_cons, List.length_append, List.length_cons, List.length_map, ih]
    omega

theorem annotationSamples_forall₂ (ps : List Pod) :
    List.Forall₂ IsAnnotationSample (ps.filter fun p => !p.annotations.isEmpty)
      (annotationSamples ps) := by
  induction ps with
  | nil => exact .nil
  | cons p ps ih =>
    rw [annotationSamples] at ih ⊢
    cases h : p.annotationSample? with
    | none =>
      have hempty : p.annotations = [] := annotationSample?_eq_none_iff.mp h
      rw [List.filterMap_cons_none h, List.filter_cons_of_neg (by simp [hempty])]
      exact ih
    | some smp =>
      have hne : p.annotations ≠ [] := fun he => by
        rw [annotationSample?_eq_none_iff.mpr he] at h
        cases h
      rw [List.filterMap_cons_some h, List.filter_cons_of_pos (by simp [hne])]
      exact .cons (isAnnotationSample h) ih

/-- Pods are exported as a sample of the labels of each, with one for each of its owners after it,
and as one sample of the annotations of each that has any, in the order of the pods. The value of
all of them is exactly one. -/
theorem samples_exported (ps : List Pod) :
    (labelSamples ps).length = ps.length + (ps.flatMap Pod.owners).length ∧
      (∃ blocks, List.Forall₂ LabelBlock ps blocks ∧ labelSamples ps = blocks.flatten) ∧
      List.Forall₂ IsAnnotationSample (ps.filter fun p => !p.annotations.isEmpty)
        (annotationSamples ps) ∧
      PodSample.value = .finite false Binary64.unitsPerOne := by
  refine ⟨length_labelSamples ps, ⟨_, ?_, List.flatMap_def⟩, annotationSamples_forall₂ ps, ?_⟩
  · rw [List.forall₂_map_right_iff, List.forall₂_same]
    exact fun p _ => labelBlock p
  · decide +kernel

end MetricsQuery.Pod
