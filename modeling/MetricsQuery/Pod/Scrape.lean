import MetricsQuery.Pod.Exporter

/-!
# Scrapes in time

What the pods are read from changes while scrapes are answered, some of them at a time (`History`).
A scrape records samples in a recorder of its own: those of the annotations at its first look, those
of the labels and owners at its second, when it is answered.
-/

namespace MetricsQuery

/-- What pods are read from: a list, or a file that is read for every look. -/
inductive Cache where
  | pods (ps : List Pod)
  | file (content : Settings.FileContent)

namespace Cache

/-- The pods that are seen. -/
def look : Cache → List Pod
  | pods ps => ps
  | file content => (Exporter.podsOf content).toOption.getD []

end Cache

/-- One who asks for the exposition: the samples in the recorder, and the answer. -/
structure Scrape where
  recorded : List PodSample
  answer : Option (List String) := none

/-- The pods that are there to be seen, and the scrapes in the order in which they started. -/
structure History where
  cache : Cache
  scrapes : List Scrape := []

namespace History

inductive Event where
  | replace (cache : Cache)
  /-- A scrape starts with an empty recorder and takes its first look. -/
  | start
  /-- A scrape takes its second look and is answered. -/
  | finish (i : Nat)

def step (h : History) : Event → History
  | .replace cache => { h with cache }
  | .start => { h with scrapes := h.scrapes ++ [⟨Pod.annotationSamples h.cache.look, none⟩] }
  | .finish i =>
    match h.scrapes[i]? with
    | some ⟨recorded, none⟩ =>
      let samples := recorded ++ Pod.labelSamples h.cache.look
      { h with scrapes := h.scrapes.set i ⟨samples, some (Pod.exposition samples)⟩ }
    | _ => h

def run (h : History) (es : List Event) : History := es.foldl step h

end History

end MetricsQuery
