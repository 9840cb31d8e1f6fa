import MetricsQuery.Proofs.Context.Pool

/-!
# A query's part of a run

How far a query is after a run, and what its handle gave, is told by the events about it (`Pool.own`)
and by nothing that happens between them: `getElem?_run` and `given_run`. So what holds of one query
under its own events (`Task.run`, `Task.readings`) holds of it beside any others.
-/

namespace MetricsQuery

namespace Task

variable (c : Context) (t : Task)

/-- A query after events that are about it. -/
def run (es : List Pool.Event) : Task := es.foldl (step c) t

/-- What the handle of a query gives at events that are about it. -/
def readings : Task → List Pool.Event → List Delivery
  | _, [] => []
  | t, e :: es => (t.reading? e).toList ++ readings (t.step c e) es

@[simp] theorem run_nil : t.run c [] = t := rfl

@[simp] theorem run_cons (e : Pool.Event) (es : List Pool.Event) :
    t.run c (e :: es) = (t.step c e).run c es := rfl

theorem run_append (es es' : List Pool.Event) : t.run c (es ++ es') = (t.run c es).run c es' :=
  List.foldl_append

theorem readings_append (es es' : List Pool.Event) :
    readings c t (es ++ es') = readings c t es ++ readings c (t.run c es) es' := by
  induction es generalizing t with
  | nil => rfl
  | cons e es ih => rw [List.cons_append, readings, ih, readings, List.append_assoc, run_cons]

theorem readings_concat (es : List Pool.Event) (e : Pool.Event) :
    readings c t (es ++ [e]) = readings c t es ++ ((t.run c es).reading? e).toList := by
  rw [readings_append, readings, readings, List.append_nil]

variable (es : List Pool.Event)

@[simp] theorem query_run : (t.run c es).query = t.query := by
  induction es generalizing t with
  | nil => rfl
  | cons e es ih => rw [run_cons, ih, query_step]

@[simp] theorem request_run : (t.run c es).request = t.request := by
  induction es generalizing t with
  | nil => rfl
  | cons e es ih => rw [run_cons, ih, request_step]

@[simp] theorem waiting_run : (t.run c es).waiting = t.waiting := by
  induction es generalizing t with
  | nil => rfl
  | cons e es ih => rw [run_cons, ih, waiting_step]

end Task

namespace Pool

variable {c : Context} {p : Pool} {i : Nat} {t : Task}

/-- The events about the query in place `i`. -/
def own (i : Nat) (es : List Event) : List Event := es.filter (·.place? == some i)

/-- What the handle in place `i` gave. -/
def given (p : Pool) (i : Nat) : List Delivery :=
  p.readings.filterMap fun r => if r.1 = i then some r.2 else none

theorem own_cons_self {e : Event} (he : e.place? = some i) (es : List Event) :
    own i (e :: es) = e :: own i es := by
  rw [own, List.filter_cons, he, BEq.rfl, if_pos rfl, own]

theorem own_cons_other {e : Event} (he : e.place? ≠ some i) (es : List Event) :
    own i (e :: es) = own i es := by
  rw [own, List.filter_cons, if_neg (by rw [beq_iff_eq]; exact he), own]

/-- An event about another query, or about none, is not seen by the query. -/
theorem step_other {e : Event} (he : e.place? ≠ some i) (ht : p.tasks[i]? = some t) :
    (p.step c e).tasks[i]? = some t ∧ (p.step c e).given i = p.given i := by
  rcases step_cases c p e with ⟨now, query, kind, waiting, -, hs⟩ | ⟨j, u, hj, hu, hm⟩ | hs
  · obtain ⟨hi, -⟩ := List.getElem?_eq_some_iff.mp ht
    rw [hs]
    exact ⟨(List.getElem?_append_left hi).trans ht, rfl⟩
  · have hji : j ≠ i := fun h => he (h ▸ hj)
    refine ⟨by rw [hm.tasks, List.getElem?_set_ne hji]; exact ht, ?_⟩
    rw [given, hm.readings, List.filterMap_append, given, List.filterMap_map]
    have hnone : ∀ d ∈ (u.reading? e).toList,
        ((fun r : Nat × Delivery => if r.1 = i then some r.2 else none) ∘ fun d => (j, d)) d =
          none := fun d _ => if_neg hji
    rw [List.filterMap_eq_nil_iff.mpr hnone, List.append_nil]
  · rw [hs]
    exact ⟨ht, rfl⟩

/-- An event about the query changes it as it does by itself. -/
theorem step_own {e : Event} (he : e.place? = some i) (ht : p.tasks[i]? = some t) :
    (p.step c e).tasks[i]? = some (t.step c e) ∧
      (p.step c e).given i = p.given i ++ (t.reading? e).toList := by
  have hm := moved_step (c := c) he ht
  obtain ⟨hi, -⟩ := List.getElem?_eq_some_iff.mp ht
  refine ⟨by rw [hm.tasks, List.getElem?_set_self hi], ?_⟩
  rw [given, hm.readings, List.filterMap_append, given, List.filterMap_map]
  have hsome : ∀ d ∈ (t.reading? e).toList,
      ((fun r : Nat × Delivery => if r.1 = i then some r.2 else none) ∘ fun d => (i, d)) d =
        some d := fun d _ => if_pos rfl
  rw [List.filterMap_congr hsome, List.filterMap_some]

/-- A run is to a query what its own events are, and its handle gives at them what it gives. -/
theorem part_run (ht : p.tasks[i]? = some t) (es : List Event) :
    (run c p es).tasks[i]? = some (t.run c (own i es)) ∧
      (run c p es).given i = p.given i ++ t.readings c (own i es) := by
  induction es generalizing p t with
  | nil => exact ⟨ht, (List.append_nil _).symm⟩
  | cons e es ih =>
    by_cases he : e.place? = some i
    · obtain ⟨hstep, hgiven⟩ := step_own (c := c) he ht
      obtain ⟨h, h'⟩ := ih hstep
      rw [own_cons_self he]
      exact ⟨h, by rw [run_cons, h', hgiven, Task.readings, List.append_assoc]⟩
    · obtain ⟨hstep, hgiven⟩ := step_other (c := c) he ht
      obtain ⟨h, h'⟩ := ih hstep
      rw [own_cons_other he]
      exact ⟨h, by rw [run_cons, h', hgiven]⟩

/-- How far a query is after a run is told by its own events. -/
theorem getElem?_run (ht : p.tasks[i]? = some t) (es : List Event) :
    (run c p es).tasks[i]? = some (t.run c (own i es)) := (part_run ht es).1

/-- What the handle of a query gave in a run is told by the query's own events. -/
theorem given_run (ht : p.tasks[i]? = some t) (es : List Event) :
    (run c p es).given i = p.given i ++ t.readings c (own i es) := (part_run ht es).2

/-- Events about others leave what the handle of a query gave. -/
theorem given_run_others (hi : i < p.tasks.length) {es : List Event} (h : own i es = []) :
    (run c p es).given i = p.given i := by
  rw [given_run (List.getElem?_eq_getElem hi) es, h]
  exact List.append_nil _

/-- Only a start adds a query. -/
theorem length_step {e : Event} (he : e.place? = some i) :
    (p.step c e).tasks.length = p.tasks.length := by
  rcases step_cases c p e with ⟨now, query, kind, waiting, rfl, -⟩ | ⟨j, t, -, -, hm⟩ | hs
  · cases he
  · rw [hm.tasks, List.length_set]
  · rw [hs]

theorem length_run {es : List Event} (h : ∀ e ∈ es, e.place? = some i) :
    (run c p es).tasks.length = p.tasks.length := by
  induction es generalizing p with
  | nil => rfl
  | cons e es ih =>
    obtain ⟨he, hes⟩ := List.forall_mem_cons.mp h
    rw [run_cons, ih hes, length_step he]

theorem length_le_step (c : Context) (p : Pool) (e : Event) :
    p.tasks.length ≤ (p.step c e).tasks.length := by
  rcases step_cases c p e with ⟨now, query, kind, waiting, -, hs⟩ | ⟨i, t, -, -, hm⟩ | hs
  · rw [hs, List.length_append]
    exact Nat.le_add_right _ _
  · exact Nat.le_of_eq (by rw [hm.tasks, List.length_set])
  · exact Nat.le_of_eq (by rw [hs])

/-- Queries are never taken out of a pool. -/
theorem length_le_run (c : Context) (p : Pool) (es : List Event) :
    p.tasks.length ≤ (run c p es).tasks.length := by
  induction es generalizing p with
  | nil => exact Nat.le_refl _
  | cons e es ih => exact Nat.le_trans (length_le_step c p e) (ih (p.step c e))

end Pool

end MetricsQuery
