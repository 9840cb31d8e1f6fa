import MetricsQuery.Proofs.Pod.Sample
import MetricsQuery.Proofs.Query.Decoder
import MetricsQuery.Proofs.Query.Series

/-!
# Pods from the series that were exported for them

A body that answers with the labels of the samples of pods (`Carries`) is decoded to series from
which the pods are found again: where each is, and the keys that its sample was exported for
(`Restores`). It is so whatever the keys are (`decode_emitted`), and every sample can come back that
way (`Emits.carries`).
-/

namespace MetricsQuery.Pod

open Decoder (HasResult IsLabels IsSamples IsSeries)
open Entries (Ordered)
open Json (Value)
open Label (IsSanitized Represents)

variable {p : Pod} {smp : PodSample} {s : Series} {n v : String}

/-! ## From a sample to a series -/

/-- An entry of a result, with a valid sample, in which the string members of the metric are the
labels of an exported sample. -/
inductive Carries (smp : PodSample) : Value → Prop
  | entry {entry ms : List (String × Value)} {xs : List Sample}
    (hm : entry.lookup "metric" = some (.object ms)) (ho : Ordered ms)
    (hs : ∀ k v, (k, .string v) ∈ ms ↔ (k, v) ∈ smp.labels) (hx : IsSamples entry xs) :
    Carries smp (.object entry)

/-- What a series says of the pod for which a sample was exported: where it is, and for the samples
of its labels and of its annotations these, but never the others. -/
structure Restores (p : Pod) (smp : PodSample) (s : Series) : Prop where
  space : s.label "namespace" = .ok p.space
  name : s.label "pod" = .ok p.name
  labels : smp.metric = .podLabels → IsSanitized p.labels s.podLabels ∧ s.podAnnotations = []
  annotations : smp.metric = .podAnnotations →
    IsSanitized p.annotations s.podAnnotations ∧ s.podLabels = []
  owner : smp.metric = .podOwner → s.podLabels = [] ∧ s.podAnnotations = []

/-- An entry has the labels that it carries, in their order. -/
theorem Carries.series {entry : Value} (h : Carries smp entry) :
    ∃ s, IsSeries entry s ∧ Ordered s.labels ∧ ∀ k v, (k, v) ∈ s.labels ↔ (k, v) ∈ smp.labels := by
  obtain @⟨entry, ms, xs, hm, ho, hs, hx⟩ := h
  -- The decoder keeps the string members in place; other members of the metric do not show.
  refine ⟨⟨_, xs, none⟩, .entry (.metric hm (Decoder.map_strings ms)) hx, ?_, fun k v => ?_⟩
  · refine List.Pairwise.filterMap _ (fun a b hab l hl m hm => ?_) ho
    obtain ⟨_, -, rfl⟩ := Option.map_eq_some_iff.mp hl
    obtain ⟨_, -, rfl⟩ := Option.map_eq_some_iff.mp hm
    exact hab
  · rw [← hs, List.mem_filterMap]
    constructor
    · rintro ⟨⟨k', w⟩, hmem, hw⟩
      obtain ⟨t, ht, he⟩ := Option.map_eq_some_iff.mp hw
      cases w <;> cases ht
      cases he
      exact hmem
    · exact fun hmem => ⟨(k, .string v), hmem, rfl⟩

variable (ho : Ordered s.labels) (hl : ∀ k v, (k, v) ∈ s.labels ↔ (k, v) ∈ smp.labels)

include hl in
/-- Without labels under a prefix there is nothing to be found by it. -/
theorem stripped_eq_nil {stem : String} (h : ∀ n v, (stem ++ n, v) ∉ smp.labels) :
    s.stripped stem = [] := by
  refine List.eq_nil_iff_forall_not_mem.mpr fun e he => h e.1 e.2 ?_
  exact (hl _ _).mp (Series.mem_stripped.mp he)

include ho hl in
/-- The labels under a prefix that a map gives are found again. -/
theorem isSanitized_stripped {stem : String} {entries : List (String × String)}
    (h : ∀ n v, (stem ++ n, v) ∈ smp.labels ↔ ∃ key, Represents entries n key v) :
    IsSanitized entries (s.stripped stem) := by
  refine Label.isSanitized_of_mem_iff (Series.ordered_stripped ho) fun n v => ?_
  rw [Series.mem_stripped, hl, h]

theorem restored_labels (ho : Ordered s.labels)
    (hl : ∀ k v, (k, v) ∈ s.labels ↔ (k, v) ∈ p.labelSample.labels) :
    IsSanitized p.labels s.podLabels ∧ s.podAnnotations = [] := by
  refine ⟨isSanitized_stripped ho hl fun n v => ?_, stripped_eq_nil hl fun n v hmem => ?_⟩
  · rw [mem_labelSample (ownNames_stem (.inl rfl) n), Label.ofLabels, Label.mem_qualified_append]
  · rw [mem_labelSample (ownNames_stem (.inr rfl) n), Label.ofLabels, Label.mem_qualified] at hmem
    obtain ⟨name, -, hn, -⟩ := hmem
    exact label_ne_annotation name n hn.symm

include ho hl in
theorem restored_annotations (h : p.annotationSample? = some smp) :
    IsSanitized p.annotations s.podAnnotations ∧ s.podLabels = [] := by
  refine ⟨isSanitized_stripped ho hl fun n v => ?_, stripped_eq_nil hl fun n v hmem => ?_⟩
  · rw [mem_annotationSample h (ownNames_stem (.inr rfl) n), Label.ofAnnotations,
      Label.mem_qualified_append]
  · rw [mem_annotationSample h (ownNames_stem (.inl rfl) n), Label.ofAnnotations,
      Label.mem_qualified] at hmem
    obtain ⟨name, -, hn, -⟩ := hmem
    exact label_ne_annotation n name hn

theorem restored_owner {o : Owner}
    (hl : ∀ k v, (k, v) ∈ s.labels ↔ (k, v) ∈ (p.ownerSample o).labels) :
    s.podLabels = [] ∧ s.podAnnotations = [] :=
  ⟨stripped_eq_nil hl fun n _ => not_mem_ownerSample (ownNames_stem (.inl rfl) n),
    stripped_eq_nil hl fun n _ => not_mem_ownerSample (ownNames_stem (.inr rfl) n)⟩

include ho hl in
/-- A series with the labels of a sample restores the pod. -/
theorem Emits.restores (h : Emits p smp) : Restores p smp s := by
  have hid : ∀ l ∈ p.identity, l ∈ s.labels := fun l hmem =>
    (hl l.1 l.2).mpr (h.identity_subset hmem)
  have hspace : s.label "namespace" = .ok p.space :=
    (Series.label_eq_ok_iff ho).mpr (hid _ List.mem_cons_self)
  have hname : s.label "pod" = .ok p.name :=
    (Series.label_eq_ok_iff ho).mpr (hid _ (List.mem_cons_of_mem _ List.mem_cons_self))
  cases h with
  | annotations h =>
    have hm : smp.metric = .podAnnotations := by rw [annotationSample?_eq_some h]
    exact ⟨hspace, hname, fun e => absurd (hm.symm.trans e) (by decide),
      fun _ => restored_annotations ho hl h, fun e => absurd (hm.symm.trans e) (by decide)⟩
  | labels =>
    have hm : p.labelSample.metric = .podLabels := rfl
    exact ⟨hspace, hname, fun _ => restored_labels ho hl,
      fun e => absurd (hm.symm.trans e) (by decide), fun e => absurd (hm.symm.trans e) (by decide)⟩
  | @owner o _ =>
    have hm : (p.ownerSample o).metric = .podOwner := rfl
    exact ⟨hspace, hname, fun e => absurd (hm.symm.trans e) (by decide),
      fun e => absurd (hm.symm.trans e) (by decide), fun _ => restored_owner hl⟩

/-! ## From a sample to an entry -/

/-- The entry with the labels of a sample and a value. -/
def entryOf (smp : PodSample) (value : Value) : List (String × Value) :=
  [("metric", .ofMembers (smp.labels.map fun l => (l.1, .string l.2))), ("value", value)]

theorem Emits.carries (h : Emits p smp) {value : Value} {x : Sample}
    (hx : Decoder.IsSample value x) : Carries smp (.object (entryOf smp value)) := by
  refine .entry rfl (Entries.ordered_ofList _) (fun k v => ?_) (.value rfl hx)
  have hn : ((smp.labels.map fun l => (l.1, Value.string l.2)).map Prod.fst).Nodup := by
    rw [List.map_map]
    exact h.nodup
  rw [Entries.mem_ofList, Entries.gives_iff_mem hn, List.mem_map]
  constructor
  · rintro ⟨l, hl, he⟩
    cases he
    exact hl
  · exact fun hl => ⟨(k, v), hl, rfl⟩

/-- Samples of pods as they come back: the answer of a backend whose entries carry them is decoded,
and each entry to a series from which its pod is restored. -/
theorem decode_emitted (query : String) {ms data : List (String × Value)} {entries : List Value}
    {samples : List (Pod × PodSample)} (hr : HasResult ms data (.array entries))
    (ht : data.lookup "resultType" = some (.string "vector"))
    (hs : List.Forall₂ (fun e v => Emits e.1 e.2 ∧ Carries e.2 v) samples entries) :
    ∃ ss, Decoder.decode query (.object ms) = .ok ss ∧
      List.Forall₂ (fun e s => Restores e.1 e.2 s) samples ss := by
  have hall : ∃ ss, List.Forall₂ IsSeries entries ss ∧
      List.Forall₂ (fun e s => Restores e.1 e.2 s) samples ss := by
    clear hr
    induction hs with
    | nil => exact ⟨[], .nil, .nil⟩
    | cons h _ ih =>
      obtain ⟨s, hseries, ho, hl⟩ := h.2.series
      obtain ⟨ss, hss, hrs⟩ := ih
      exact ⟨s :: ss, .cons hseries hss, .cons (h.1.restores ho hl) hrs⟩
  obtain ⟨ss, hss, hrs⟩ := hall
  refine ⟨ss, (Decoder.decode_eq_ok_iff query _ ss).mpr ?_, hrs⟩
  exact .body hr (.list (by rw [ht]; simp) (by rw [ht]; simp) hss)

/-- A pod with keys that give one name, and with keys that look like names of a sample. -/
def collidingPod : Pod :=
  { name := "api-1", space := "prod", uid := "u1",
    labels := [("a.b", "dot"), ("a-b", "dash"), ("namespace", "other"), ("annotation_a", "x")],
    annotations := [("label_a_b", "note")], owners := [⟨"api", "ReplicaSet", true⟩] }

/-- Its samples, as a backend gives them back, are decoded to it. -/
theorem decode_emitted_colliding :
    let samples := annotationSamples [collidingPod] ++ labelSamples [collidingPod]
    let entries := samples.map fun smp =>
      Value.object (entryOf smp (.array [.number (.natural 1), .string "1"]))
    let data := [("result", .array entries), ("resultType", .string "vector")]
    samples.length = 3 ∧
      ∃ ss, Decoder.decode "kube_pod_labels" (.object [("data", .object data)]) = .ok ss ∧
        List.Forall₂ (fun smp s => Restores collidingPod smp s) samples ss := by
  intro samples entries data
  have hx : Decoder.IsSample (.array [.number (.natural 1), .string "1"])
      ⟨.ofNat 1, .ofNat 1⟩ := .pair (by decide +kernel)
  have hr : HasResult [("data", .object data)] data (.array entries) := ⟨nofun, rfl, rfl⟩
  have hs : List.Forall₂ (fun e v => Emits e.1 e.2 ∧ Carries e.2 v)
      (samples.map fun smp => (collidingPod, smp)) entries := by
    rw [List.forall₂_map_left_iff, List.forall₂_map_right_iff, List.forall₂_same]
    intro smp hsmp
    obtain ⟨p, hp, he⟩ := mem_samples.mp hsmp
    rw [List.mem_singleton.mp hp] at he
    exact ⟨he, he.carries hx⟩
  obtain ⟨ss, hss, hrs⟩ := decode_emitted "kube_pod_labels" hr rfl hs
  rw [List.forall₂_map_left_iff] at hrs
  exact ⟨by decide, ss, hss, hrs⟩

end MetricsQuery.Pod
