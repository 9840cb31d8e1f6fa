import Mathlib.Algebra.Order.BigOperators.Group.List
import Mathlib.Tactic.Linarith
import Mathlib.Tactic.Ring
import MetricsQuery.Proofs.Retry.Course
import MetricsQuery.Proofs.Time.Duration

/-!
# How the delays of a retry grow

`Grows` says which delays may follow a delay: those longer by half of a number that is drawn below
it, up to the longest duration. A draw gives exactly these (`grows_iff`), and in words of 64 bits
nothing can go wrong on the way (`wordNext?_eq`). The sleeps of a retry start with the delay it is
given and grow from each to the next (`Course.growing`), so they never shrink and gain less than a
half each time; what this makes of all of them is put together in `sleeps_backoff`.
-/

namespace MetricsQuery.Retry

/-! ## One delay after another -/

/-- The delay `d'` may follow `d`. -/
inductive Grows (d d' : Duration) : Prop
  /-- Without a delay there is nothing to draw from. -/
  | idle (hd : d.nanos = 0) (hd' : d' = d)
  /-- The number `x` is drawn below the delay, as far as it fits into 64 bits. -/
  | drawn {x : Nat} (hd : d.nanos ≠ 0) (hx : x < min d.nanos jitterLimit)
    (hd' : d'.nanos = min (d.nanos + x / 2) Duration.longest.nanos)

theorem jitter_of_pos {d : Duration} (hd : d.nanos ≠ 0) (random : Nat) :
    jitter d random = random % min d.nanos jitterLimit / 2 := if_neg hd

theorem nanos_nextDelay (d : Duration) (random : Nat) :
    (nextDelay d random).nanos = min (d.nanos + jitter d random) Duration.longest.nanos :=
  Duration.nanos_saturatingAdd _ _

theorem nextDelay_of_zero {d : Duration} (hd : d.nanos = 0) (random : Nat) :
    nextDelay d random = d := by
  have hjitter : jitter d random = 0 := if_pos hd
  have hle := d.le_longest
  refine Duration.eq_of_nanos ?_
  rw [nanos_nextDelay, hjitter]
  omega

/-- What is drawn from is never empty. -/
theorem drawn_pos {d : Duration} (hd : d.nanos ≠ 0) : 0 < min d.nanos jitterLimit := by
  have hlimit : 0 < jitterLimit := by decide
  omega

/-- The delays that may follow are those that draws give. -/
theorem grows_iff {d d' : Duration} : Grows d d' ↔ ∃ random, nextDelay d random = d' := by
  constructor
  · intro h
    cases h with
    | idle hd hd' => exact ⟨0, hd' ▸ nextDelay_of_zero hd 0⟩
    | @drawn x hd hx hd' =>
      refine ⟨x, Duration.eq_of_nanos ?_⟩
      rw [hd', nanos_nextDelay, jitter_of_pos hd, Nat.mod_eq_of_lt hx]
  · rintro ⟨random, rfl⟩
    by_cases hd : d.nanos = 0
    · exact .idle hd (nextDelay_of_zero hd random)
    · refine .drawn hd (Nat.mod_lt random (drawn_pos hd)) ?_
      rw [nanos_nextDelay, jitter_of_pos hd]

variable {d d' : Duration}

theorem Grows.le (h : Grows d d') : d.nanos ≤ d'.nanos := by
  cases h with
  | idle _ hd' => exact Nat.le_of_eq (congrArg Duration.nanos hd'.symm)
  | drawn _ _ hd' =>
    have hle := d.le_longest
    omega

/-- A delay gains less than half of itself. -/
theorem Grows.gain_le (h : Grows d d') (hd : 0 < d.nanos) :
    d'.nanos - d.nanos ≤ (d.nanos - 1) / 2 := by
  cases h with
  | idle hzero => omega
  | drawn _ hx hd' => omega

theorem Grows.of_zero (h : Grows d d') (hd : d.nanos = 0) : d' = d := by
  cases h with
  | idle _ hd' => exact hd'
  | drawn hne => exact absurd hd hne

theorem Grows.le_half_more (h : Grows d d') : 2 * d'.nanos ≤ 3 * d.nanos := by
  rcases Nat.eq_zero_or_pos d.nanos with hd | hd
  · rw [h.of_zero hd, hd]
  · have hgain := h.gain_le hd
    omega

/-! ## In words of 64 bits -/

/-- The number as a word, or the largest word if it does not fit. -/
def wordOf (n : Nat) : UInt64 := if n < UInt64.size then UInt64.ofNat n else UInt64.ofNat jitterLimit

/-- A word drawn below `limit`; below zero there is none. -/
def drawBelow? (limit : UInt64) (random : Nat) : Option UInt64 :=
  if limit = 0 then none else some (UInt64.ofNat (random % limit.toNat))

/-- The delay after `delay` as words make it, if nothing goes wrong: there is something to draw from
and half of what is drawn is a duration. -/
def wordNext? (delay : Duration) (random : Nat) : Option Duration :=
  let nanos := wordOf delay.nanos
  if nanos = 0 then some delay
  else do
    let x ← drawBelow? nanos random
    let growth ← Duration.ofNanos? (x / 2).toNat
    some (delay.saturatingAdd growth)

theorem toNat_wordOf (n : Nat) : (wordOf n).toNat = min n jitterLimit := by
  have hlimit : jitterLimit < UInt64.size := by decide
  have hlast : jitterLimit + 1 = UInt64.size := by decide
  unfold wordOf
  split
  · next h =>
    rw [UInt64.toNat_ofNat_of_lt' h]
    omega
  · next h =>
    rw [UInt64.toNat_ofNat_of_lt' hlimit]
    omega

/-- Nothing goes wrong in words, and the delay is the one that numbers without bounds give. -/
theorem wordNext?_eq (delay : Duration) (random : Nat) :
    wordNext? delay random = some (nextDelay delay random) := by
  have hword := toNat_wordOf delay.nanos
  have hlimit : 0 < jitterLimit := by decide
  have hsize : jitterLimit < UInt64.size := by decide
  by_cases hd : delay.nanos = 0
  · have hzero : wordOf delay.nanos = 0 := UInt64.toNat_inj.mp (by rw [hword, hd]; rfl)
    rw [wordNext?, nextDelay_of_zero hd]
    exact if_pos hzero
  · have hpos := drawn_pos hd
    have hne : wordOf delay.nanos ≠ 0 := by
      intro h
      rw [h] at hword
      exact Nat.ne_of_lt hpos hword
    have hx : random % min delay.nanos jitterLimit < UInt64.size := by
      have hlt := Nat.mod_lt random hpos
      omega
    have hhalf : (UInt64.ofNat (random % (wordOf delay.nanos).toNat) / 2).toNat =
        jitter delay random := by
      rw [UInt64.toNat_div, hword, UInt64.toNat_ofNat_of_lt' hx, jitter_of_pos hd]
      rfl
    have hgrowth : Duration.ofNanos?
        (UInt64.ofNat (random % (wordOf delay.nanos).toNat) / 2).toNat =
          some ⟨jitter delay random, jitter_lt delay random⟩ :=
      Duration.ofNanos?_eq_some_iff.mpr hhalf.symm
    simp only [wordNext?, drawBelow?, if_neg hne, Option.bind_eq_bind, Option.bind_some, hgrowth]
    rfl

/-! ## All delays of a retry -/

/-- Delays from `d` on, each of which may follow the one before. -/
inductive Growing : Duration → List Duration → Prop
  | nil {d : Duration} : Growing d []
  | cons {d d' : Duration} {ds : List Duration} (hg : Grows d d') (h : Growing d' ds) :
    Growing d (d :: ds)

/-- A retry sleeps for the delay it is given, then for what that grows to. -/
theorem Course.growing {σ ε α : Type} {w : World σ ε α} {n : Nat} {delay : Duration} {s s' : σ}
    {es : List (Entry σ ε α)} {result : Except (Failure ε) α}
    (h : Course w n delay s es result s') : Growing delay (sleeps es) := by
  induction h with
  | cancelled => exact .nil
  | succeeded => exact .nil
  | exhausted => exact .nil
  | again _ _ _ _ ih => exact .cons (grows_iff.mpr ⟨_, rfl⟩) ih

namespace Growing

variable {ds : List Duration} {k : Nat}

theorem first (h : Growing d ds) (hk : ds[0]? = some d') : d' = d := by
  cases h with
  | nil => cases hk
  | cons => exact (Option.some.inj hk).symm

theorem next {e e' : Duration} (h : Growing d ds) (hk : ds[k]? = some e)
    (hk' : ds[k + 1]? = some e') : Grows e e' := by
  induction h generalizing k with
  | nil => cases hk
  | cons hg h ih =>
    cases k with
    | zero =>
      obtain rfl := Option.some.inj hk
      obtain rfl := h.first hk'
      exact hg
    | succ k => exact ih hk hk'

/-- No delay is shorter than the first. -/
theorem le (h : Growing d ds) : ∀ e ∈ ds, d.nanos ≤ e.nanos := by
  induction h with
  | nil => exact fun e he => absurd he List.not_mem_nil
  | cons hg _ ih =>
    exact List.forall_mem_cons.mpr ⟨Nat.le_refl _, fun e he => Nat.le_trans hg.le (ih e he)⟩

/-- Without a delay at first there is never one. -/
theorem of_zero (h : Growing d ds) (hd : d.nanos = 0) : ∀ e ∈ ds, e = d := by
  induction h with
  | nil => exact fun e he => absurd he List.not_mem_nil
  | cons hg _ ih =>
    obtain rfl := hg.of_zero hd
    exact List.forall_mem_cons.mpr ⟨rfl, ih hd⟩

/-- A delay is at most the first one with a half more for each before it. -/
theorem le_pow {e : Duration} (h : Growing d ds) (hk : ds[k]? = some e) :
    (e.nanos : ℚ) ≤ d.nanos * (3 / 2) ^ k := by
  induction h generalizing k with
  | nil => cases hk
  | @cons d d' ds hg _ ih =>
    cases k with
    | zero =>
      obtain rfl := Option.some.inj hk
      rw [pow_zero, mul_one]
    | succ k =>
      have hstep : (d'.nanos : ℚ) ≤ d.nanos * (3 / 2) := by
        have hle : ((2 * d'.nanos : ℕ) : ℚ) ≤ ((3 * d.nanos : ℕ) : ℚ) :=
          Nat.cast_le.mpr hg.le_half_more
        push_cast at hle
        linarith
      calc (e.nanos : ℚ) ≤ d'.nanos * (3 / 2) ^ k := ih hk
        _ ≤ d.nanos * (3 / 2) * (3 / 2) ^ k := by gcongr
        _ = d.nanos * (3 / 2) ^ (k + 1) := by ring

end Growing

/-- What can be said about sleeps that start with `delay`. -/
structure Backoff (delay : Duration) (ds : List Duration) : Prop where
  first : ∀ d, ds[0]? = some d → d = delay
  /-- Each sleep may follow the one before; nothing but the longest duration stops the growth. -/
  next : ∀ k d d', ds[k]? = some d → ds[k + 1]? = some d' → Grows d d'
  le_next : ∀ k d d', ds[k]? = some d → ds[k + 1]? = some d' → d.nanos ≤ d'.nanos
  gain_le : ∀ k d d', ds[k]? = some d → ds[k + 1]? = some d' → 0 < d.nanos →
    d'.nanos - d.nanos ≤ (d.nanos - 1) / 2
  of_zero : delay.nanos = 0 → ∀ d ∈ ds, d = delay
  /-- So many sleeps last at least so many times the first. -/
  total : ∀ m, m ≤ ds.length → m * delay.nanos ≤ ((ds.take m).map Duration.nanos).sum
  le_pow : ∀ k d, ds[k]? = some d → (d.nanos : ℚ) ≤ delay.nanos * (3 / 2) ^ k

theorem Growing.backoff {ds : List Duration} (h : Growing d ds) : Backoff d ds where
  first _ := h.first
  next _ _ _ := h.next
  le_next _ _ _ hk hk' := (h.next hk hk').le
  gain_le _ _ _ hk hk' := (h.next hk hk').gain_le
  of_zero := h.of_zero
  total m hm := by
    have hle : ∀ x ∈ (ds.take m).map Duration.nanos, d.nanos ≤ x := by
      intro x hx
      obtain ⟨e, he, rfl⟩ := List.mem_map.mp hx
      exact h.le e (List.mem_of_mem_take he)
    have hsum := List.card_nsmul_le_sum _ _ hle
    rwa [List.length_map, List.length_take_of_le hm, nsmul_eq_mul, Nat.cast_id] at hsum
  le_pow _ _ := h.le_pow

/-- The sleeps of a retry, in every world and so for whatever is drawn, whatever delay it starts with
and however many attempts it may make: the first is the delay that is given, each later one is the
one before with half of a number added that is drawn below that, and so on as `Backoff` has it. A
delay may be followed by exactly those that draws give, what is drawn from is never empty, and in
words of 64 bits every step succeeds and gives the same delay. -/
theorem sleeps_backoff {σ ε α : Type} (w : World σ ε α) (n : Nat) (delay : Duration) (s : σ) :
    Backoff delay (sleeps (history w n delay s)) ∧
    (∀ d d', Grows d d' ↔ ∃ random, nextDelay d random = d') ∧
    (∀ d : Duration, d.nanos ≠ 0 → 0 < (wordOf d.nanos).toNat) ∧
    ∀ d random, wordNext? d random = some (nextDelay d random) := by
  refine ⟨?_, fun d d' => grows_iff, fun d hd => ?_, wordNext?_eq⟩
  · cases n with
    | zero => exact Growing.nil.backoff
    | succ n => exact (course_history w n delay s).growing.backoff
  · rw [toNat_wordOf]
    exact drawn_pos hd

end MetricsQuery.Retry
