import MetricsQuery.Command.Run
import MetricsQuery.Proofs.Context.Request
import MetricsQuery.Proofs.Time.Canonical
import MetricsQuery.Proofs.Time.Earlier

/-!
# The times of a range query

A range query is sent with the canonical texts of its times. These are texts that a command accepts
for a time, and it reads them as those times; and what it accepts for a time is sent as a text of
the same instant: `range_times_round_trip`. The times span the window that is given, which is refused
only if its start is given and after its end (`Window.kind_eq_ok_iff`, `Window.backwards_iff`).
-/

namespace MetricsQuery

/-- A parameter takes the texts that denote an instant, and no others, for that instant. -/
theorem Given.instantOf_eq_ok_iff {p : Parameter} {v : String} {t : Instant} :
    instantOf p v = .ok t ↔ Instant.Denotes v t := by
  rw [← Instant.ofText_eq_ok_iff, instantOf, mapError_eq_ok_iff]

/-- Going back in time does not lead past where it starts. -/
theorem Instant.isAfter_of_sub? {t u : Instant} {d : Duration} (h : t.sub? d = some u) :
    u.isAfter t = false :=
  (isBefore_of_sub? h).isAfter

/-- The bounds of a window: it ends now unless an end is given, and it starts an hour before it ends
unless a start is given. -/
structure Window.Spans (w : Window) (now start stop : Instant) : Prop where
  ends : stop = w.stop.getD now
  starts : start = w.start.getD ((stop.sub? standardLength).getD stop)
  ordered : start.isAfter stop = false

/-- A start is given after the end. -/
def Window.Backwards (w : Window) (now : Instant) : Prop :=
  ∃ t, w.start = some t ∧ t.isAfter (w.stop.getD now) = true

theorem Window.kind_eq_ok_iff {w : Window} {now : Instant} {kind : QueryKind} :
    w.kind now = .ok kind ↔
      ∃ start stop, w.Spans now start stop ∧ kind = .range start stop w.step := by
  simp only [Window.kind, bounds]
  constructor
  · intro h
    split at h
    · cases h
    · next hb =>
      cases h
      exact ⟨_, _, ⟨rfl, rfl, Bool.not_eq_true _ ▸ hb⟩, rfl⟩
  · rintro ⟨start, stop, ⟨rfl, rfl, hb⟩, rfl⟩
    rw [if_neg (hb ▸ Bool.false_ne_true)]
    rfl

/-- A window has the times that are given. -/
theorem Window.kind_eq_ok {w : Window} {now : Instant} {kind : QueryKind}
    (h : w.kind now = .ok kind) :
    ∃ start stop, kind = .range start stop w.step ∧ (∀ t, w.start = some t → start = t) ∧
      ∀ t, w.stop = some t → stop = t := by
  obtain ⟨start, stop, ⟨rfl, rfl, -⟩, rfl⟩ := kind_eq_ok_iff.mp h
  refine ⟨_, _, rfl, fun t ht => ?_, fun t ht => ?_⟩
  · rw [ht, Option.getD_some]
  · rw [ht, Option.getD_some]

/-- Only a start that is given can be after the end. -/
theorem Window.backwards_iff {w : Window} {now : Instant} :
    w.Backwards now ↔ ∀ kind, w.kind now ≠ .ok kind := by
  constructor
  · rintro ⟨t, ht, hb⟩ kind h
    obtain ⟨start, stop, ⟨rfl, rfl, ho⟩, -⟩ := kind_eq_ok_iff.mp h
    rw [ht, Option.getD_some, hb] at ho
    cases ho
  · intro h
    cases ht : w.start with
    | some t =>
      refine ⟨t, ht, ?_⟩
      by_contra hb
      exact h _ (kind_eq_ok_iff.mpr
        ⟨t, _, ⟨rfl, by rw [ht, Option.getD_some], Bool.not_eq_true _ ▸ hb⟩, rfl⟩)
    | none =>
      refine absurd (kind_eq_ok_iff.mpr ⟨_, _, ⟨rfl, rfl, ?_⟩, rfl⟩) (h _)
      rw [ht, Option.getD_none]
      cases hs : (w.stop.getD now).sub? standardLength with
      | none => exact Instant.isAfter_self _
      | some u => exact Instant.isAfter_of_sub? hs

/-- The times of a range query make the round trip. They are sent as their texts, for whatever
context and query. For an instant of the years 0 to 9999, in a leap second or not, this text is the
canonical one, a command reads it as exactly that instant, and no other instant has it. And a window
sends the times it was given: what a command reads a text as is an instant that the text denotes,
and in those years the text that is sent denotes the same instant, and no other. -/
theorem Context.range_times_round_trip (c : Context) (now : Instant) (query : String) :
    (∀ start stop step, (c.requestUrl now query (.range start stop step)).pairs =
      c.client.base.pairs ++ [("query", query), ("start", start.toText), ("end", stop.toText),
        ("step", stepText step)]) ∧
    (∀ t : Instant, t.Writable →
      t.IsCanonical t.toText ∧ ∀ p, Given.instantOf p t.toText = .ok t) ∧
    (∀ t u : Instant, t.Writable → u.Writable → t ≠ u → t.toText ≠ u.toText) ∧
    (∀ (w : Window) kind, w.kind now = .ok kind → ∃ start stop, kind = .range start stop w.step ∧
      (∀ t, w.start = some t → start = t) ∧ ∀ t, w.stop = some t → stop = t) ∧
    ∀ p v t, Given.instantOf p v = .ok t → 0 ≤ t.civil.1.year ∧ t.civil.1.year ≤ 9999 →
      t.Writable ∧ Instant.Denotes v t ∧ ∀ u, Instant.Denotes v u ↔ Instant.Denotes t.toText u := by
  refine ⟨fun start stop step => c.pairs_requestUrl_eq now query (.range start stop step),
    fun t ht => ⟨Instant.isCanonical_toText ht, fun p => ?_⟩, fun t u ht hu hne h => ?_,
    fun w kind => Window.kind_eq_ok, fun p v t hv hyear => ?_⟩
  · exact Given.instantOf_eq_ok_iff.mpr (Instant.denotes_toText ht)
  · exact hne (Instant.toText_injective ht hu h)
  · have hdenotes := Given.instantOf_eq_ok_iff.mp hv
    have hwritable := Instant.writable_of_denotes hdenotes hyear
    have htext := Instant.denotes_toText hwritable
    refine ⟨hwritable, hdenotes, fun u => ⟨fun hu => ?_, fun hu => ?_⟩⟩
    · rwa [hu.unique hdenotes]
    · rwa [hu.unique htext]

/-- In the middle of the leap second at the end of 2016. -/
theorem Context.range_times_round_trip_leap :
    let t : Instant := ⟨1483228799, 1500000000, by decide⟩
    t.Writable ∧ t.toText = "2016-12-31T23:59:60.500Z" ∧
      ∀ p, Given.instantOf p t.toText = .ok t := by
  intro t
  have ht : t.Writable := ⟨by decide, fun _ => by decide⟩
  let c : Context := { client := ⟨⟨"http".toList, none, false, ['/'], none, none⟩⟩ }
  exact ⟨ht, by decide, ((c.range_times_round_trip .epoch "up").2.1 t ht).2⟩

end MetricsQuery
