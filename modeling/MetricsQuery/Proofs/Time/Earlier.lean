import MetricsQuery.Proofs.Time.Rfc3339

/-!
# Going back in time

`IsBefore d t u` says that `u` is the time `d` before `t`. There is always exactly one such instant,
though there need not be a year for it. `Instant.sub?` gives it if there is and nothing otherwise
(`sub?_eq`), and the seconds it computes with on the way fit into a word (`fitsWord_sub`).
-/

namespace MetricsQuery.Instant

/-- The nanoseconds from the first of 1970 on. Those of a leap second are counted as if they were
of the second after it. -/
def elapsed (t : Instant) : Int := t.secs * nanosPerSecond + t.nanos

/-- The instant `u` is the time `d` before `t`. Only what starts in a leap second may end in one, and
it does unless that second is left. -/
structure IsBefore (d : Duration) (t u : Instant) : Prop where
  elapsed : u.elapsed = t.elapsed - d.nanos
  secs_le : u.secs ≤ t.secs
  leap : nanosPerSecond ≤ u.nanos → u.secs = t.secs

/-- There is a year for the instant. -/
def InRange (t : Instant) : Prop := secondRange.1 ≤ t.secs ∧ t.secs < secondRange.2

variable {t u : Instant} {d : Duration}

theorem eq_of_secs_nanos (hs : u.secs = t.secs) (hn : u.nanos = t.nanos) : u = t := by
  cases u
  cases t
  cases hs
  cases hn
  rfl

theorem isBefore_iff : IsBefore d t u ↔
    u.secs * 1000000000 + u.nanos = t.secs * 1000000000 + t.nanos - d.nanos ∧ u.secs ≤ t.secs ∧
      (1000000000 ≤ u.nanos → u.secs = t.secs) :=
  ⟨fun h => ⟨h.elapsed, h.secs_le, h.leap⟩, fun ⟨he, hs, hl⟩ => ⟨he, hs, hl⟩⟩

theorem nanos_lt (t : Instant) : t.nanos < 2000000000 := t.bounded

/-- There is at most one such instant. -/
theorem IsBefore.unique {v : Instant} (hu : IsBefore d t u) (hv : IsBefore d t v) : u = v := by
  have hboundu := u.nanos_lt
  have hboundv := v.nanos_lt
  rw [isBefore_iff] at hu hv
  exact eq_of_secs_nanos (by omega) (by omega)

/-- There is such an instant, whether or not there is a year for it. -/
theorem exists_isBefore (t : Instant) (d : Duration) : ∃ u, IsBefore d t u := by
  have ht := t.nanos_lt
  by_cases hstay : 1000000000 ≤ t.nanos ∧ d.nanos ≤ t.nanos - 1000000000
  · have hbounded : t.nanos - d.nanos < 2 * nanosPerSecond := by
      show _ < 2000000000
      omega
    refine ⟨⟨t.secs, t.nanos - d.nanos, hbounded⟩, isBefore_iff.mpr ⟨?_, ?_, fun _ => rfl⟩⟩ <;>
      dsimp only <;> omega
  · generalize hn : t.secs * 1000000000 + t.nanos - d.nanos = n
    have hbounded : (n % 1000000000).toNat < 2 * nanosPerSecond := by
      show _ < 2000000000
      omega
    refine ⟨⟨n / 1000000000, (n % 1000000000).toNat, hbounded⟩, isBefore_iff.mpr ⟨?_, ?_, ?_⟩⟩ <;>
      dsimp only <;> omega

theorem secondRange_eq : secondRange = (-8334601228800, 8210266876800) := by decide +kernel

theorem longestStep_eq : longestStep = 9223372036854775807000000 := by decide

/-- What is subtracted is too long, or the instant so long before is given unless it is out of
range. -/
theorem sub?_cases (hu : IsBefore d t u) :
    longestStep < d.nanos ∧ t.sub? d = none ∨ (t.InRange → u.InRange) ∧ t.sub? d = some u ∨
      ¬ u.InRange ∧ t.sub? d = none := by
  have hbounded := t.nanos_lt
  have hsecs : d.secs = d.nanos / 1000000000 := rfl
  have hsub : d.subsecNanos = d.nanos % 1000000000 := rfl
  have hsecond : nanosPerSecond = 1000000000 := rfl
  have hunanos := u.nanos_lt
  rw [isBefore_iff] at hu
  unfold sub?
  by_cases hlong : longestStep < d.nanos
  · exact .inl ⟨hlong, if_pos hlong⟩
  rw [if_neg hlong]
  right
  by_cases hstay : nanosPerSecond ≤ t.nanos ∧ d.secs = 0
  · have hsame : u.secs = t.secs := by omega
    simp only [if_pos hstay]
    exact .inl ⟨fun ht => by rwa [InRange, hsame], of?_eq_some_iff.mpr ⟨hsame, by omega⟩⟩
  simp only [if_neg hstay]
  -- In a leap second or not, with a second borrowed for the nanoseconds or not, in range or not.
  split <;> split <;> split
  all_goals first
  | next hr =>
    exact .inl ⟨fun _ => ⟨by omega, by omega⟩, of?_eq_some_iff.mpr ⟨by omega, by omega⟩⟩
  | next hr => exact .inr ⟨fun ⟨hlow, hhigh⟩ => hr ⟨by omega, by omega⟩, rfl⟩

theorem isBefore_of_sub? (h : t.sub? d = some u) : IsBefore d t u := by
  obtain ⟨v, hv⟩ := exists_isBefore t d
  rcases sub?_cases hv with ⟨-, hn⟩ | ⟨-, hs⟩ | ⟨-, hn⟩
  · cases hn.symm.trans h
  · exact Option.some.inj (hs.symm.trans h) ▸ hv
  · cases hn.symm.trans h

/-- What is too long leads out of range. -/
theorem not_inRange_of_long (ht : t.InRange) (hu : IsBefore d t u) (hd : longestStep < d.nanos) :
    ¬ u.InRange := by
  have hbounded := t.nanos_lt
  rw [longestStep_eq] at hd
  rw [InRange, secondRange_eq] at ht ⊢
  rw [isBefore_iff] at hu
  dsimp only at ht ⊢
  omega

/-- Going back is refused exactly if it leads out of range. -/
theorem sub?_eq (ht : t.InRange) (hu : IsBefore d t u) :
    u.InRange ∧ t.sub? d = some u ∨ ¬ u.InRange ∧ t.sub? d = none := by
  rcases sub?_cases hu with ⟨hl, hn⟩ | ⟨hr, hs⟩ | h
  · exact .inr ⟨not_inRange_of_long ht hu hl, hn⟩
  · exact .inl ⟨hr ht, hs⟩
  · exact .inr h

/-- Going back does not lead past where it starts. -/
theorem IsBefore.isAfter (h : IsBefore d t u) : u.isAfter t = false := by
  rw [isBefore_iff] at h
  simp only [Instant.isAfter, Bool.or_eq_false_iff, decide_eq_false_iff_not, Bool.and_eq_false_iff,
    beq_eq_false_iff_ne]
  omega

theorem isAfter_self (t : Instant) : t.isAfter t = false := by
  simp [isAfter]

theorem isAfter_trans {v : Instant} (htu : t.isAfter u = false) (huv : u.isAfter v = false) :
    t.isAfter v = false := by
  simp only [Instant.isAfter, Bool.or_eq_false_iff, decide_eq_false_iff_not, Bool.and_eq_false_iff,
    beq_eq_false_iff_ne] at htu huv ⊢
  omega

/-- The number of seconds fits into a word of 64 bits. -/
def FitsWord (n : Int) : Prop := Int64.minValue.toInt ≤ n ∧ n ≤ Int64.maxValue.toInt

/-- What is not too long to be subtracted leads to seconds that fit into a word, also with a second
borrowed or carried on the way. -/
theorem fitsWord_sub (ht : t.InRange) (hd : d.nanos ≤ longestStep) (carry : Int)
    (hc : -1 ≤ carry ∧ carry ≤ 1) : FitsWord d.secs ∧ FitsWord (t.secs + carry - d.secs) := by
  have hsecs : d.secs = d.nanos / 1000000000 := rfl
  have hmin : Int64.minValue.toInt = -9223372036854775808 := by decide
  have hmax : Int64.maxValue.toInt = 9223372036854775807 := by decide
  rw [longestStep_eq] at hd
  rw [InRange, secondRange_eq] at ht
  dsimp only at ht
  simp only [FitsWord, hmin, hmax]
  omega

end MetricsQuery.Instant
