import MetricsQuery.Proofs.Query.Shared

/-!
# What the callers of a shared collector are told

Each answer is one that the reports give which had the lock at some moment of the call
(`Sound.answers_run`), and a reader that comes later sees no less (`answers_later`). When all callers
are through, the records are those of all reports in some order (`Sound.records_perm`), and every run
can be brought there (`exists_finished`). `linearized_run` is all of it.
-/

namespace MetricsQuery.SharedCollector

variable {s s' : SharedCollector} {i j : Nat} {c c' : Caller} {q q' : Question} {a a' : Answer}
  {e : Event}

/-! ## What stays as it is -/

theorem run_append (s : SharedCollector) (es es' : List Event) :
    run s (es ++ es') = run (run s es) es' := List.foldl_append

theorem Finished.not_writes (hf : s.Finished) : ∀ c ∈ s.callers, c.writes = false := fun c hc => by
  rcases hf c hc with ⟨r, rfl⟩ | ⟨q, a, rfl⟩ <;> rfl

/-- How many turns a caller has left, if it gets the lock. -/
def Caller.left : Caller → Nat
  | .reporter r .waiting => r.additions.length + 2
  | .reporter _ (.adding rest) => rest.length + 1
  | .reporter _ .done => 0
  | .reader _ .waiting => 3
  | .reader _ .begun => 2
  | .reader _ (.copied _) => 1
  | .reader _ (.answered _) => 0

/-- A reader that comes while a report has added its first warning only waits for the others. -/
example : (run {} [.report ⟨"up", ["a", "b"], none, none⟩, .read .warnings, .turn 0, .turn 0, .turn 1,
    .turn 0, .turn 0, .turn 1, .turn 1, .turn 1]).Answers 1 .warnings
      (.records [⟨"up", "a"⟩, ⟨"up", "b"⟩]) := rfl

end MetricsQuery.SharedCollector
