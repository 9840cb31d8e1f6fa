import MetricsQuery.Label.Name
import MetricsQuery.Metric.Exposition
import MetricsQuery.Number.Binary64
import MetricsQuery.Pod.Basic

/-!
# Samples of pods

Pods as series of the constant one, whose labels carry what is known about a pod. Every pod has a
sample of its labels, every owner of a pod one, and a pod that has annotations one of these.
-/

namespace MetricsQuery

structure PodSample where
  metric : Metric
  labels : List (String × String)
  deriving DecidableEq, Repr

namespace PodSample

/-- The value of every sample. -/
def value : Binary64 := .ofNat 1

def label? (s : PodSample) (name : String) : Option String := s.labels.lookup name

end PodSample

namespace Pod

def identity (p : Pod) : List (String × String) := [("namespace", p.space), ("pod", p.name)]

def annotationSample? (p : Pod) : Option PodSample :=
  match Label.ofAnnotations p.annotations with
  | [] => none
  | names => some ⟨.podAnnotations, p.identity ++ names⟩

def labelSample (p : Pod) : PodSample :=
  ⟨.podLabels, p.identity ++ ("uid", p.uid) :: Label.ofLabels p.labels⟩

def ownerSample (p : Pod) (o : Owner) : PodSample :=
  ⟨.podOwner, p.identity ++ [("owner_name", o.name), ("owner_kind", o.kind),
    ("owner_is_controller", toString o.controller)]⟩

/-- The samples of the annotations of pods. -/
def annotationSamples (ps : List Pod) : List PodSample := ps.filterMap annotationSample?

/-- The samples of the labels and owners of pods. -/
def labelSamples (ps : List Pod) : List PodSample :=
  ps.flatMap fun p => p.labelSample :: p.owners.map p.ownerSample

/-- The metrics of `annotationSamples`. -/
def annotationMetrics : List Metric := [.podAnnotations]

/-- The metrics of `labelSamples`. -/
def labelMetrics : List Metric := [.podLabels, .podOwner]

/-- Samples as lines, with an introduction for each metric that has one. -/
def exposition (samples : List PodSample) : List String :=
  let metrics := (annotationMetrics ++ labelMetrics).filter fun m => samples.any (·.metric == m)
  Exposition.arrange (metrics.flatMap (Exposition.introduction · "gauge") ++
    samples.map fun s => Exposition.line s.metric.name s.labels "1")

/-- The exposition of the pods of a cluster, which is looked at twice: first for the annotations,
then for the labels and owners. -/
def render (first second : List Pod) : List String :=
  exposition (annotationSamples first ++ labelSamples second)

end Pod

end MetricsQuery
