/-!
# Metrics

The metrics this library exports, each with the description that is exported with it.
-/

namespace MetricsQuery

structure Metric where
  name : String
  description : String
  deriving DecidableEq, Repr

namespace Metric

def podAnnotations : Metric :=
  ⟨"kube_pod_annotations", "All annotations for each pod prefix with annotation_"⟩

def podLabels : Metric := ⟨"kube_pod_labels", "All labels for each pod prefixed with label_"⟩

def podOwner : Metric := ⟨"kube_pod_owner", "Information about the Pod's owner"⟩

def queryDuration : Metric :=
  ⟨"prom_query_duration_seconds",
   "Wall clock latency of profiled queries, labeled by profile label"⟩

end Metric

end MetricsQuery
