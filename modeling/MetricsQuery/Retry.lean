import MetricsQuery.Time.Duration

/-!
# Retrying an operation

`retry` runs an operation until it succeeds, a number of attempts have failed, or it is cancelled.
Between two attempts it sleeps; each sleep is longer than the one before by a random share of less
than half of it. Cancellation is looked at before each attempt only. What the operation does, when
cancellation happens and what is drawn at random are given by a `World`.
-/

namespace MetricsQuery

namespace Retry

/-- Why a retry gave no value. -/
inductive Failure (ε : Type) where
  | cancelled
  | noAttempts
  | exhausted (last : ε)
  deriving DecidableEq, Repr

namespace Failure

variable {ε : Type}

def isCancelled : Failure ε → Bool
  | cancelled => true
  | _ => false

/-- The error of the last attempt, if the attempts ran out. -/
def last? : Failure ε → Option ε
  | exhausted e => some e
  | _ => none

def message (text : ε → String) : Failure ε → String
  | cancelled => "RetryCancellationErr"
  | noAttempts => "retry requires at least one attempt"
  | exhausted e => text e

end Failure

/-- What surrounds a retry, with a state of type `σ`. -/
structure World (σ ε α : Type) where
  /-- One attempt. -/
  attempt : σ → Except ε α × σ
  /-- Whether the retry has been cancelled. -/
  isCancelled : σ → Bool
  /-- What happens during a sleep. -/
  sleep : Duration → σ → σ
  /-- A random number, of which the remainder is used. -/
  draw : σ → Nat × σ

/-- The largest number of nanoseconds that jitter is computed from. -/
def jitterLimit : Nat := UInt64.size - 1

/-- How much a delay grows by for a random number: half of a remainder below the delay. -/
def jitter (delay : Duration) (random : Nat) : Nat :=
  if delay.nanos = 0 then 0 else random % min delay.nanos jitterLimit / 2

theorem jitter_lt (delay : Duration) (random : Nat) : jitter delay random < durationLimit := by
  have hd := delay.bounded
  unfold jitter
  split
  · simp only [durationLimit, UInt64.size, nanosPerSecond]; omega
  · have : random % min delay.nanos jitterLimit < min delay.nanos jitterLimit :=
      Nat.mod_lt _ (by simp only [jitterLimit, UInt64.size]; omega)
    omega

/-- The delay after `delay`; it never exceeds the longest duration. -/
def nextDelay (delay : Duration) (random : Nat) : Duration :=
  delay.saturatingAdd ⟨jitter delay random, jitter_lt delay random⟩

variable {σ ε α : Type}

/-- At most `n + 1` attempts, the first of them after looking at cancellation. -/
def attempts (w : World σ ε α) : Nat → Duration → σ → Except (Failure ε) α × σ
  | n, delay, s =>
    if w.isCancelled s then (.error .cancelled, s)
    else
      match w.attempt s with
      | (.ok a, s) => (.ok a, s)
      | (.error e, s) =>
        match n with
        | 0 => (.error (.exhausted e), s)
        | n + 1 =>
          let (random, s) := w.draw (w.sleep delay s)
          attempts w n (nextDelay delay random) s

end Retry

open Retry in
/-- Runs the operation of `w` at most `n` times, with sleeps from `delay` on. -/
def retry {σ ε α : Type} (w : World σ ε α) (n : Nat) (delay : Duration) (s : σ) :
    Except (Failure ε) α × σ :=
  match n with
  | 0 => (.error .noAttempts, s)
  | n + 1 => attempts w n delay s

/-- The settings of a retry, for callers that retry the same kind of operation. -/
structure RetryPolicy where
  maxAttempts : Nat
  initialDelay : Duration

open Retry in
def RetryPolicy.run {σ ε α : Type} (p : RetryPolicy) (w : World σ ε α) (s : σ) :
    Except (Failure ε) α × σ :=
  retry w p.maxAttempts p.initialDelay s

end MetricsQuery
