import MetricsQuery.Proofs.Context.Request
import MetricsQuery.Proofs.Time.Seconds

/-!
# The step a range query asks for

A range query asks for its step in seconds with three decimal places, in a pair of its own after all
pairs of the base address. Below `2⁴⁰` seconds what it asks for is less than a millisecond away from
the step, and it is the step if that is a whole number of milliseconds: `step_close`.
-/

namespace MetricsQuery.Context

variable (c : Context) (now start stop : Instant) (query : String) (step : Duration)

/-- Among the pairs named `step`, the last is the step, and the others are those of the base
address. -/
theorem filter_step :
    (c.requestUrl now query (.range start stop step)).pairs.filter (·.1 == "step") =
      c.client.base.pairs.filter (·.1 == "step") ++ [("step", stepText step)] := by
  rw [pairs_requestUrl_eq, parameters, List.filter_append]
  rfl

/-- A range query whose step is shorter than `2⁴⁰` seconds has one `step` pair of its own, after
those of the base address. It is read back as a decimal with three places, which is less than a
millisecond away from the step, and is the step if that is a whole number of milliseconds. -/
theorem step_close (h : step.secs < 1 <<< 40) :
    ∃ n s,
      (c.requestUrl now query (.range start stop step)).pairs.filter (·.1 == "step") =
        c.client.base.pairs.filter (·.1 == "step") ++ [("step", s)] ∧
      IsMilli n s ∧ step.Close n ∧ ∀ k, step.nanos = 1000000 * k → n = k := by
  obtain ⟨n, hmilli, hclose⟩ := Duration.exists_close_stepText h
  exact ⟨n, stepText step, c.filter_step now start stop query step, hmilli, hclose,
    fun _ hk => hclose.eq hk⟩

/-- A step of a millisecond less than `2⁴⁰` seconds, which no binary64 number is, is asked for
exactly, also if the base address has a step already. -/
theorem step_close_longest :
    let base : Url := ⟨"http".toList, none, false, ['/'], some "step=15".toList, none⟩
    let c : Context := { client := ⟨base⟩ }
    let step : Duration := ⟨1099511627775999000000, by decide⟩
    step.secs < 1 <<< 40 ∧ ∃ s,
      (c.requestUrl .epoch "up" (.range .epoch .epoch step)).pairs.filter (·.1 == "step") =
        base.pairs.filter (·.1 == "step") ++ [("step", s)] ∧ IsMilli 1099511627775999 s := by
  intro base c step
  have hshort : step.secs < 1 <<< 40 := by decide
  obtain ⟨n, s, hpairs, hmilli, -, hexact⟩ := c.step_close .epoch .epoch .epoch "up" step hshort
  have hn : n = 1099511627775999 := hexact 1099511627775999 rfl
  exact ⟨hshort, s, hpairs, hn ▸ hmilli⟩

end MetricsQuery.Context
