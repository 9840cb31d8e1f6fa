import MetricsQuery.Context.Pool
import Mathlib.Data.List.Basic

/-!
# What one event does to a pool

An event that is about a query changes that query and nothing about the others. What it changes is
told by the query alone: its next stage (`Task.step`), the report that is made (`Task.report?`), the
latency that is recorded (`Task.latency?`) and what its handle gives (`Task.reading?`). `step_cases`
says once what an event can do to a pool; everything about runs follows from it.
-/

namespace MetricsQuery

namespace Pool.Event

/-- The place of the query that an event is about; a start is about none that is there yet. -/
def place? : Event → Option Nat
  | start .. => none
  | settle i _ | time i _ | deliver i | destroy i | read i | drop i => some i

end Pool.Event

namespace Task

/-- A query after an event that is about it. -/
def step (c : Context) (t : Task) : Pool.Event → Task
  | .start .. => t
  | .settle _ reply =>
    match t.stage with
    | .awaiting => { t with stage := (t.settle c reply).1 }
    | _ => t
  | .time .. =>
    match t.waiting, t.stage with
    | .handle _, .settled o => { t with stage := .timed o }
    | _, _ => t
  | .deliver _ =>
    match t.stage with
    | .timed o => { t with stage := .delivered o }
    | _ => t
  | .destroy _ =>
    match t.stage with
    | .awaiting => { t with stage := .lost }
    | _ => t
  | .read _ =>
    match t.held, t.delivery? with
    | true, some _ => { t with held := false }
    | _, _ => t
  | .drop _ => { t with held := false }

/-- The report that is made of a query at an event. -/
def report? (c : Context) (t : Task) : Pool.Event → Option Report
  | .settle _ reply =>
    match t.stage with
    | .awaiting => (t.settle c reply).2
    | _ => none
  | _ => none

/-- The label that a latency is recorded under at an event. -/
def latency? (t : Task) : Pool.Event → Option String
  | .time .. =>
    match t.waiting, t.stage with
    | .handle label, .settled _ => label
    | _, _ => none
  | _ => none

/-- What the handle of a query gives at an event. -/
def reading? (t : Task) : Pool.Event → Option Delivery
  | .read _ => if t.held then t.delivery? else none
  | _ => none

variable (c : Context) (t : Task) (e : Pool.Event)

@[simp] theorem query_step : (t.step c e).query = t.query := by
  cases e <;> simp only [step] <;> split <;> rfl

@[simp] theorem request_step : (t.step c e).request = t.request := by
  cases e <;> simp only [step] <;> split <;> rfl

@[simp] theorem waiting_step : (t.step c e).waiting = t.waiting := by
  cases e <;> simp only [step] <;> split <;> rfl

variable {c t}

/-- An outcome is for good. -/
theorem outcome?_step {o : Outcome} (h : t.stage.outcome? = some o) :
    (t.step c e).stage.outcome? = some o := by
  cases e with
  | start => exact h
  | settle i reply =>
    simp only [step]
    split
    · next hs => rw [hs] at h; cases h
    · exact h
  | time i elapsed =>
    simp only [step]
    split
    · next hs => rw [hs] at h; exact h
    · exact h
  | deliver i =>
    simp only [step]
    split
    · next hs => rw [hs] at h; exact h
    · exact h
  | destroy i =>
    simp only [step]
    split
    · next hs => rw [hs] at h; cases h
    · exact h
  | read i =>
    simp only [step]
    split <;> exact h
  | drop i => exact h

/-- A query that was lost stays lost. -/
theorem lost_step (h : t.stage = .lost) : (t.step c e).stage = .lost := by
  cases e with
  | start => exact h
  | time i elapsed =>
    simp only [step]
    split
    · next hs => rw [h] at hs; cases hs
    · exact h
  | read i =>
    simp only [step]
    split <;> exact h
  | drop i => exact h
  | _ => simp only [step, h]

end Task

namespace Pool

variable {c : Context} {p : Pool}

/-- The pool `p'` is the pool `p` after the event `e` about the query `t` in place `i`. -/
structure Moved (c : Context) (p : Pool) (i : Nat) (t : Task) (e : Event) (p' : Pool) : Prop where
  tasks : p'.tasks = p.tasks.set i (t.step c e)
  collector : p'.collector = (t.report? c e).elim p.collector p.collector.report
  reported : p'.reported = p.reported ++ (t.report? c e).toList.map fun _ => i
  profiled : p'.profiled = p.profiled ++ (t.latency? e).toList
  readings : p'.readings = p.readings ++ (t.reading? e).toList.map fun d => (i, d)

/-- An event that does not fit how far its query is. -/
theorem Moved.idle {i : Nat} {t : Task} {e : Event} (ht : p.tasks[i]? = some t)
    (hs : t.step c e = t) (hr : t.report? c e = none) (hl : t.latency? e = none)
    (hd : t.reading? e = none) : Moved c p i t e p where
  tasks := by
    obtain ⟨hi, rfl⟩ := List.getElem?_eq_some_iff.mp ht
    rw [hs, List.set_getElem_self]
  collector := by rw [hr]; rfl
  reported := by rw [hr]; exact (List.append_nil _).symm
  profiled := by rw [hl]; exact (List.append_nil _).symm
  readings := by rw [hd]; exact (List.append_nil _).symm

/-- An event that changes no more than its query. -/
theorem Moved.put {i : Nat} {t t' : Task} {e : Event} (hs : t.step c e = t')
    (hr : t.report? c e = none) (hl : t.latency? e = none) (hd : t.reading? e = none) :
    Moved c p i t e (p.put i t') where
  tasks := by rw [hs]; rfl
  collector := by rw [hr]; rfl
  reported := by rw [hr]; exact (List.append_nil _).symm
  profiled := by rw [hl]; exact (List.append_nil _).symm
  readings := by rw [hd]; exact (List.append_nil _).symm

theorem moved_settle {i : Nat} {t : Task} (ht : p.tasks[i]? = some t) (reply : Reply) :
    Moved c p i t (.settle i reply) (p.step c (.settle i reply)) := by
  simp only [Pool.step, on, ht]
  cases hst : t.stage with
  | awaiting =>
    have hs : t.step c (.settle i reply) = { t with stage := (t.settle c reply).1 } := by
      simp only [Task.step, hst]
    have hr : t.report? c (.settle i reply) = (t.settle c reply).2 := by
      simp only [Task.report?, hst]
    simp only [Pool.settle]
    cases hrep : (t.settle c reply).2 with
    | none =>
      rw [hrep] at hr
      exact ⟨by rw [hs]; rfl, by rw [hr]; rfl, by rw [hr]; exact (List.append_nil _).symm,
        (List.append_nil _).symm, (List.append_nil _).symm⟩
    | some r =>
      rw [hrep] at hr
      exact ⟨by rw [hs]; rfl, by rw [hr]; rfl, by rw [hr]; rfl, (List.append_nil _).symm,
        (List.append_nil _).symm⟩
  | _ =>
    exact .idle ht (by simp only [Task.step, hst]) (by simp only [Task.report?, hst]) rfl rfl

theorem moved_time {i : Nat} {t : Task} (ht : p.tasks[i]? = some t) (elapsed : Duration) :
    Moved c p i t (.time i elapsed) (p.step c (.time i elapsed)) := by
  simp only [Pool.step, on, ht]
  cases hw : t.waiting with
  | handle label =>
    cases hst : t.stage with
    | settled o =>
      have hs : t.step c (.time i elapsed) = { t with stage := .timed o } := by
        simp only [Task.step, hw, hst]
      have hl : t.latency? (.time i elapsed) = t.label? := by
        simp only [Task.latency?, Task.label?, hw, hst]
      exact ⟨by rw [hs]; rfl, rfl, (List.append_nil _).symm, by rw [hl]; rfl,
        (List.append_nil _).symm⟩
    | _ =>
      exact .idle ht (by simp only [Task.step, hw, hst]) rfl (by simp only [Task.latency?, hw, hst])
        rfl
  | _ => exact .idle ht (by simp only [Task.step, hw]) rfl (by simp only [Task.latency?, hw]) rfl

theorem moved_deliver {i : Nat} {t : Task} (ht : p.tasks[i]? = some t) :
    Moved c p i t (.deliver i) (p.step c (.deliver i)) := by
  simp only [Pool.step, on, ht]
  cases hst : t.stage with
  | timed o => exact .put (by simp only [Task.step, hst]) rfl rfl rfl
  | _ => exact .idle ht (by simp only [Task.step, hst]) rfl rfl rfl

theorem moved_destroy {i : Nat} {t : Task} (ht : p.tasks[i]? = some t) :
    Moved c p i t (.destroy i) (p.step c (.destroy i)) := by
  simp only [Pool.step, on, ht]
  cases hst : t.stage with
  | awaiting => exact .put (by simp only [Task.step, hst]) rfl rfl rfl
  | _ => exact .idle ht (by simp only [Task.step, hst]) rfl rfl rfl

theorem moved_read {i : Nat} {t : Task} (ht : p.tasks[i]? = some t) :
    Moved c p i t (.read i) (p.step c (.read i)) := by
  simp only [Pool.step, on, ht, Pool.read]
  cases hh : t.held with
  | false => exact .idle ht (by simp only [Task.step, hh]) rfl rfl (by simp [Task.reading?, hh])
  | true =>
    cases hd : t.delivery? with
    | none =>
      exact .idle ht (by simp only [Task.step, hh, hd]) rfl rfl (by simp [Task.reading?, hd])
    | some d =>
      have hs : t.step c (.read i) = { t with held := false } := by simp only [Task.step, hh, hd]
      have hr : t.reading? (.read i) = some d := by simp only [Task.reading?, hh, if_true, hd]
      exact ⟨by rw [hs]; rfl, rfl, (List.append_nil _).symm, (List.append_nil _).symm,
        by rw [hr]; rfl⟩

/-- An event about a query that is there changes that query and records what is told by it. -/
theorem moved_step {i : Nat} {t : Task} {e : Event} (he : e.place? = some i)
    (ht : p.tasks[i]? = some t) : Moved c p i t e (p.step c e) := by
  cases e with
  | start => cases he
  | settle j reply => cases he; exact moved_settle ht reply
  | time j elapsed => cases he; exact moved_time ht elapsed
  | deliver j => cases he; exact moved_deliver ht
  | destroy j => cases he; exact moved_destroy ht
  | read j => cases he; exact moved_read ht
  | drop j =>
    cases he
    simp only [Pool.step, on, ht]
    exact .put rfl rfl rfl rfl

/-- An event about a query that is not there changes nothing. -/
theorem step_of_missing {i : Nat} {e : Event} (he : e.place? = some i) (ht : p.tasks[i]? = none) :
    p.step c e = p := by
  cases e <;> cases he <;> simp only [Pool.step, on, ht]

/-- All that an event can do: start a query, change the query it is about, or nothing. -/
theorem step_cases (c : Context) (p : Pool) (e : Event) :
    (∃ now query kind waiting, e = .start now query kind waiting ∧
      p.step c e = { p with
        tasks := p.tasks ++ [⟨query, c.request now query kind, waiting, .awaiting, true⟩] }) ∨
    (∃ i t, e.place? = some i ∧ p.tasks[i]? = some t ∧ Moved c p i t e (p.step c e)) ∨
    p.step c e = p := by
  cases he : e.place? with
  | none =>
    cases e with
    | start now query kind waiting => exact .inl ⟨now, query, kind, waiting, rfl, rfl⟩
    | _ => cases he
  | some i =>
    cases ht : p.tasks[i]? with
    | none => exact .inr (.inr (step_of_missing he ht))
    | some t => exact .inr (.inl ⟨i, t, rfl, ht, moved_step he ht⟩)

/-! ## Runs -/

@[simp] theorem run_nil : run c p [] = p := rfl

@[simp] theorem run_cons (e : Event) (es : List Event) :
    run c p (e :: es) = run c (p.step c e) es := rfl

theorem run_append (es es' : List Event) : run c p (es ++ es') = run c (run c p es) es' :=
  List.foldl_append

/-- What every step keeps holds after every run. -/
theorem run_induction {P : Pool → Prop} (hstep : ∀ p e, P p → P (p.step c e)) (hp : P p)
    (es : List Event) : P (run c p es) := by
  induction es generalizing p with
  | nil => exact hp
  | cons e es ih => exact ih (hstep p e hp)

end Pool

end MetricsQuery
