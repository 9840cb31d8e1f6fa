import MetricsQuery.Proofs.Context.Request
import MetricsQuery.Proofs.Time.Canonical
import MetricsQuery.Proofs.Time.Duration
import MetricsQuery.Proofs.Time.Earlier

/-!
# The time a query is evaluated at

An instant query asks for the time that its context's offset leads back to, if it leads anywhere
(`EvaluatedAt`). The request carries the second this time lies in, which is not after the time the
request is made at. A range query asks for its own times, so its request depends neither on the clock
nor on the offset: `instant_time`.
-/

namespace MetricsQuery

/-- A clock may show the instant: there is a year for it, and if it lies in a leap second, this
follows the last second of a minute. -/
structure Instant.IsReading (t : Instant) : Prop where
  inRange : t.InRange
  leap : nanosPerSecond ≤ t.nanos → t.secs % 60 = 59

namespace Context

/-- An instant query that is made at the time `now` is evaluated at the time `u`. -/
inductive EvaluatedAt (c : Context) (now : Instant) : Instant → Prop
  | unshifted (h : c.offset = .zero ∨ c.name = "allocation") : EvaluatedAt c now now
  | shifted {u : Instant} (hoffset : c.offset ≠ .zero) (hname : c.name ≠ "allocation")
    (hu : Instant.IsBefore c.offset now u) (hr : u.InRange) : EvaluatedAt c now u
  | outOfRange {u : Instant} (hoffset : c.offset ≠ .zero) (hname : c.name ≠ "allocation")
    (hu : Instant.IsBefore c.offset now u) (hr : ¬ u.InRange) : EvaluatedAt c now now

variable {c : Context} {now u : Instant}

theorem evaluationTime_of_unshifted (h : c.offset = .zero ∨ c.name = "allocation") :
    c.evaluationTime now = now :=
  if_pos (h.imp_left fun hz => hz ▸ rfl)

theorem evaluationTime_of_shifted (hoffset : c.offset ≠ .zero) (hname : c.name ≠ "allocation") :
    c.evaluationTime now = (now.sub? c.offset).getD now := by
  refine if_neg fun h => h.elim (fun hz => hoffset ?_) hname
  exact Duration.eq_of_nanos (of_decide_eq_true hz)

/-- The time of evaluation is the one that the name, the offset and the range of years ask for. -/
theorem evaluatedAt_iff (hnow : now.InRange) : c.EvaluatedAt now u ↔ u = c.evaluationTime now := by
  constructor
  · rintro (h | ⟨hoffset, hname, hu, hr⟩ | ⟨hoffset, hname, hu, hr⟩)
    · exact (evaluationTime_of_unshifted h).symm
    · rw [evaluationTime_of_shifted hoffset hname]
      obtain ⟨-, hsub⟩ | ⟨hr', -⟩ := Instant.sub?_eq hnow hu
      · rw [hsub, Option.getD_some]
      · exact absurd hr hr'
    · rw [evaluationTime_of_shifted hoffset hname]
      obtain ⟨hr', -⟩ | ⟨-, hsub⟩ := Instant.sub?_eq hnow hu
      · exact absurd hr' hr
      · rw [hsub, Option.getD_none]
  · rintro rfl
    by_cases hunshifted : c.offset = .zero ∨ c.name = "allocation"
    · exact evaluationTime_of_unshifted hunshifted ▸ .unshifted hunshifted
    rw [not_or] at hunshifted
    obtain ⟨hoffset, hname⟩ := hunshifted
    rw [evaluationTime_of_shifted hoffset hname]
    obtain ⟨u, hu⟩ := Instant.exists_isBefore now c.offset
    obtain ⟨hr, hsub⟩ | ⟨hr, hsub⟩ := Instant.sub?_eq hnow hu
    · rw [hsub, Option.getD_some]
      exact .shifted hoffset hname hu hr
    · rw [hsub, Option.getD_none]
      exact .outOfRange hoffset hname hu hr

/-- A query is not evaluated in the future. -/
theorem EvaluatedAt.isAfter (h : c.EvaluatedAt now u) : u.isAfter now = false := by
  cases h with
  | unshifted => exact Instant.isAfter_self now
  | shifted _ _ hu => exact hu.isAfter
  | outOfRange => exact Instant.isAfter_self now

/-- Only a leap second that the clock shows can be what a query is evaluated in. -/
theorem EvaluatedAt.leap (h : c.EvaluatedAt now u) (hnow : now.IsReading)
    (hle : nanosPerSecond ≤ u.nanos) : u.secs % 60 = 59 := by
  cases h with
  | unshifted => exact hnow.leap hle
  | outOfRange => exact hnow.leap hle
  | shifted _ _ hu =>
    have hsame := hu.leap hle
    have helapsed := hu.elapsed
    simp only [Instant.elapsed, hsame] at helapsed
    rw [hsame]
    exact hnow.leap (by omega)

/-- For every time that a clock may show, an instant query is evaluated at one time only: at the
current one if the offset is zero, the name is `allocation` or there is no year for the time that the
offset leads back to, and at that time otherwise. The last pair of the request is the text of the
second it lies in, which is not after the current time. For a time of the years 0 to 9999 this is a
text in UTC without a fraction, and it is read back as the time with its fraction cut off. No offset
leads to seconds that do not fit into a word: what is too long for that is not subtracted. A range
query has the same request at any time and with any offset. -/
theorem instant_time (c : Context) (now : Instant) (hnow : now.IsReading) :
    (∃ u, (∀ v, c.EvaluatedAt now v ↔ v = u) ∧
      (∀ query, (c.requestUrl now query .instant).pairs =
        c.client.base.pairs ++ [("query", query), ("time", u.toSecondText)]) ∧
      u.wholeSecond.isAfter now = false ∧
      (0 ≤ u.civil.1.year ∧ u.civil.1.year ≤ 9999 →
        u.wholeSecond.IsSecondText u.toSecondText ∧
          Instant.ofText u.toSecondText = .ok u.wholeSecond)) ∧
    (c.offset.nanos ≤ Instant.longestStep → ∀ carry, -1 ≤ carry ∧ carry ≤ 1 →
      Instant.FitsWord c.offset.secs ∧ Instant.FitsWord (now.secs + carry - c.offset.secs)) ∧
    (Instant.longestStep < c.offset.nanos → c.EvaluatedAt now now) ∧
    ∀ now' d query start stop step,
      ({ c with offset := d } : Context).requestUrl now' query (.range start stop step) =
        c.requestUrl now query (.range start stop step) := by
  have hiff := fun v => evaluatedAt_iff (c := c) (u := v) hnow.inRange
  have hevaluated := (hiff _).mpr rfl
  refine ⟨⟨c.evaluationTime now, hiff,
    fun query => c.pairs_requestUrl_eq now query .instant, ?_, fun hyear => ?_⟩,
    fun hd => Instant.fitsWord_sub hnow.inRange hd, fun hd => ?_, fun _ _ _ _ _ _ => rfl⟩
  · refine Instant.isAfter_trans ?_ hevaluated.isAfter
    rw [← Instant.isAfter_wholeSecond (Instant.wholeSecond_subsecond _)]
    exact Instant.isAfter_self _
  · have htext := Instant.isSecondText_toSecondText ⟨hyear, hevaluated.leap hnow⟩
    obtain ⟨-, -, hdenotes⟩ := id htext
    exact ⟨htext, Instant.ofText_of_denotes hdenotes⟩
  · rw [hiff, evaluationTime]
    split
    · rfl
    · rw [Instant.sub?, if_pos hd]
      rfl

/-- An offset of a second and a half, in the middle of the leap second at the end of 2016. -/
theorem instant_time_leap :
    let c : Context :=
      { client := ⟨⟨"http".toList, none, false, ['/'], none, none⟩⟩
        offset := .ofMillis 1500 }
    let now : Instant := ⟨1483228799, 1500000000, by decide⟩
    now.IsReading ∧ c.evaluationTime now = ⟨1483228799, 0, by decide⟩ ∧
      Instant.ofText "2016-12-31T23:59:59Z" = .ok (c.evaluationTime now).wholeSecond := by
  intro c now
  have hnow : now.IsReading := ⟨⟨by decide +kernel, by decide +kernel⟩, fun _ => by decide⟩
  have htime : c.evaluationTime now = ⟨1483228799, 0, by decide⟩ := by decide +kernel
  obtain ⟨u, hu, -, -, hread⟩ := (c.instant_time now hnow).1
  obtain rfl : c.evaluationTime now = u := (hu _).mp ((evaluatedAt_iff hnow.inRange).mpr rfl)
  rw [htime] at hread ⊢
  exact ⟨hnow, rfl, (hread (by decide)).2⟩

end Context

end MetricsQuery
