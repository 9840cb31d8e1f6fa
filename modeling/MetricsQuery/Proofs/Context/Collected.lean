import MetricsQuery.Proofs.Context.Execution
import MetricsQuery.Proofs.Context.Pool
import MetricsQuery.Proofs.Places

/-!
# What a collector holds

Each query that comes to an outcome makes one report, at the event it is settled by, and no other
event makes one (`Task.result?_step_of_report`, `Task.result?_step_of_none`). What it comes to is told
by the rules for its reply (`Task.Yields`). So after every run the collector holds the records of the
queries that have an outcome, one query after another in the order of their reports (`Accounted`,
`accounted_run`), and nothing else: `collector_run`.
-/

namespace MetricsQuery

namespace Delivery

/-- The records of the warnings that come with a delivery. -/
def warningRecords (d : Delivery) : List Record := d.warnings.map fun w => ⟨d.query, w⟩

/-- The record of the fault of a delivery, if it has one. -/
def errorRecords (d : Delivery) : List Record := d.fault.toList.map fun f => ⟨d.query, f.message⟩

theorem length_errorRecords (d : Delivery) :
    d.errorRecords.length = if d.fault.isSome then 1 else 0 := by
  cases h : d.fault <;> simp [errorRecords, h]

end Delivery

/-- The report `r` says of a query what `d` delivers for it. -/
def Report.Of (r : Report) (d : Delivery) : Prop :=
  r.warningRecords = d.warningRecords ∧ r.errorRecords = d.errorRecords

/-! ## The report of an execution -/

theorem Context.execute_report (c : Context) {query : String} {body : Except Fault (List UInt8)}
    {o : Outcome} {r : Report} (h : c.execute query body = .finished o r) :
    r.Of (.ofOutcome query o) := by
  unfold Context.execute at h
  split at h
  · cases h; exact ⟨rfl, rfl⟩
  · split at h <;> cases h <;> exact ⟨rfl, rfl⟩

/-- A panic that is caught is reported as the fault it is. -/
theorem Context.caught_report (c : Context) (query : String) (body : Except Fault (List UInt8)) :
    ((c.execute query body).caught query).2.Of
      (.ofOutcome query ((c.execute query body).caught query).1) := by
  cases h : c.execute query body with
  | finished o r => exact c.execute_report h
  | panicked text => exact ⟨rfl, rfl⟩

namespace Task

/-- What a query came to, in the form a handle gives it in. -/
def result? (t : Task) : Option Delivery := t.stage.outcome?.map (Delivery.ofOutcome t.query)

variable {c : Context} {t : Task} {e : Pool.Event}

theorem settle_report {reply : Reply} {r : Report} (h : (t.settle c reply).2 = some r) :
    ∃ o, (t.settle c reply).1 = .settled o ∧ r.Of (.ofOutcome t.query o) := by
  unfold settle at h ⊢
  cases hw : t.waiting with
  | raw => rw [hw] at h; cases h
  | inline =>
    rw [hw] at h
    cases hx : t.execution c reply with
    | finished o r' =>
      simp only [hx, Option.some.injEq] at h ⊢
      exact ⟨o, rfl, h ▸ c.execute_report hx⟩
    | panicked text => simp only [hx, reduceCtorEq] at h
  | handle label =>
    simp only [hw, Option.some.injEq] at h ⊢
    exact ⟨_, rfl, h ▸ c.caught_report t.query (t.body reply)⟩

theorem settle_unreported {reply : Reply} (h : (t.settle c reply).2 = none) :
    (t.settle c reply).1.outcome? = none := by
  unfold settle at h ⊢
  cases hw : t.waiting with
  | raw => rfl
  | inline =>
    rw [hw] at h
    cases hx : t.execution c reply with
    | finished o r => simp only [hx, reduceCtorEq] at h
    | panicked text => rfl
  | handle label => simp only [hw, reduceCtorEq] at h

/-- What the reply to a query that awaits one adds to what was reported: what the rules give for it.
Where the decoder panics, a task is told of that and an inline query makes no report; a raw query
never does. -/
inductive Yields (c : Context) (t : Task) (reply : Reply) : List Delivery → Prop
  | outcome {o : Outcome} (hw : t.waiting ≠ .raw) (ho : c.Verdict t.request t.query reply o) :
    Yields c t reply [.ofOutcome t.query o]
  | caught {label text : Option String} (hw : t.waiting = .handle label)
    (hp : c.Panics t.query reply text) :
    Yields c t reply [⟨t.query, [], [], some (.task t.query (.panicked text))⟩]
  | uncaught {text : Option String} (hw : t.waiting = .inline) (hp : c.Panics t.query reply text) :
    Yields c t reply []
  | raw (hw : t.waiting = .raw) : Yields c t reply []

/-- What a query comes to by the reply to it is what the reply adds. -/
theorem yields_settle (c : Context) (t : Task) (reply : Reply) :
    t.Yields c reply
      ((t.settle c reply).1.outcome?.map (Delivery.ofOutcome t.query)).toList := by
  cases hw : t.waiting with
  | raw =>
    simp only [settle, hw]
    exact .raw hw
  | inline =>
    rcases c.verdict_or_panics t.request t.query reply with ⟨o, ho⟩ | ⟨text, hp⟩
    · obtain ⟨r, hx⟩ : ∃ r, t.execution c reply = .finished o r := ho.finished
      simp only [settle, hw, hx]
      exact .outcome (by rw [hw]; nofun) ho
    · have hx : t.execution c reply = .panicked text := hp.execute_eq c t.request
      simp only [settle, hw, hx]
      exact .uncaught hw hp
  | handle label =>
    rcases c.verdict_or_panics t.request t.query reply with ⟨o, ho⟩ | ⟨text, hp⟩
    · obtain ⟨r, hx⟩ : ∃ r, t.execution c reply = .finished o r := ho.finished
      simp only [settle, hw, hx]
      exact .outcome (by rw [hw]; nofun) ho
    · have hx : t.execution c reply = .panicked text := hp.execute_eq c t.request
      simp only [settle, hw, hx]
      exact .caught hw hp

/-- A report is made when a query without an outcome gets one, and says what that is. -/
theorem result?_step_of_report {r : Report} (h : t.report? c e = some r) :
    t.result? = none ∧ ∃ d, (t.step c e).result? = some d ∧ r.Of d := by
  cases e with
  | settle i reply =>
    cases hst : t.stage with
    | awaiting =>
      simp only [report?, hst] at h
      obtain ⟨o, ho, hr⟩ := settle_report h
      refine ⟨by simp only [result?, hst]; rfl, .ofOutcome t.query o, ?_, hr⟩
      simp only [result?, step, hst, ho]
      rfl
    | _ => simp only [report?, hst, reduceCtorEq] at h
  | _ => cases h

/-- Without a report, what a query came to stays as it is. -/
theorem result?_step_of_none (h : t.report? c e = none) : (t.step c e).result? = t.result? := by
  cases e with
  | start => rfl
  | settle i reply =>
    cases hst : t.stage with
    | awaiting =>
      simp only [report?, hst] at h
      simp only [result?, step, hst, settle_unreported h]
      rfl
    | _ => simp only [step, hst]
  | time i elapsed =>
    simp only [step]
    split
    · next hst => simp only [result?, hst]; rfl
    · rfl
  | deliver i =>
    simp only [step]
    split
    · next hst => simp only [result?, hst]; rfl
    · rfl
  | destroy i =>
    simp only [step]
    split
    · next hst => simp only [result?, hst]; rfl
    · rfl
  | read i =>
    simp only [step]
    split <;> rfl
  | drop i => rfl

/-- A raw query never has an outcome to report. -/
def RawUnreported (t : Task) : Prop := t.waiting = .raw → t.result? = none

theorem RawUnreported.step (h : t.RawUnreported) (e : Pool.Event) : (t.step c e).RawUnreported := by
  intro hw
  rw [waiting_step] at hw
  have hr : t.report? c e = none := by
    cases e with
    | settle i reply =>
      simp only [report?, settle, hw]
      split <;> rfl
    | _ => rfl
  rw [result?_step_of_none hr]
  exact h hw

/-- What a handle gave of a query: what it came to, or that it was lost. -/
def Gave (t : Task) (d : Delivery) : Prop :=
  t.result? = some d ∨ t.stage = .lost ∧ d = .missing t.query

theorem gave_of_reading {d : Delivery} (h : t.reading? e = some d) : t.Gave d := by
  cases e with
  | read i =>
    simp only [reading?] at h
    split at h
    · unfold delivery? at h
      split at h
      · next hst => exact .inl (by simp only [result?, hst, Stage.outcome?, Option.map_some, ← h])
      · next hst => exact .inr ⟨hst, (Option.some.inj h).symm⟩
      · cases h
    · cases h
  | _ => cases h

/-- What a handle gave is never contradicted. -/
theorem Gave.step {d : Delivery} (h : t.Gave d) (e : Pool.Event) : (t.step c e).Gave d := by
  rcases h with h | ⟨hs, hd⟩
  · obtain ⟨o, ho, hd⟩ := Option.map_eq_some_iff.mp h
    refine .inl ?_
    rw [result?, outcome?_step e ho, query_step, Option.map_some, hd]
  · exact .inr ⟨lost_step e hs, by rw [query_step]; exact hd⟩

end Task

namespace Pool

variable {c : Context} {p p' : Pool} {i : Nat} {t : Task} {e : Event}

/-- What the query in place `i` came to. -/
def result? (p : Pool) (i : Nat) : Option Delivery := p.tasks[i]?.bind Task.result?

/-- What the queries came to that have made a report, in the order of the reports. -/
def results (p : Pool) : List Delivery := p.reported.filterMap p.result?

theorem Moved.result?_self (h : Moved c p i t e p') (ht : p.tasks[i]? = some t) :
    p'.result? i = (t.step c e).result? := by
  obtain ⟨hi, -⟩ := List.getElem?_eq_some_iff.mp ht
  rw [result?, h.tasks, List.getElem?_set_self hi]
  rfl

theorem Moved.result?_other (h : Moved c p i t e p') {j : Nat} (hj : j ≠ i) :
    p'.result? j = p.result? j := by
  rw [result?, h.tasks, List.getElem?_set_ne (Ne.symm hj), result?]

/-- An event without a report changes nothing that a query came to. -/
theorem Moved.result?_of_none (h : Moved c p i t e p') (ht : p.tasks[i]? = some t)
    (hr : t.report? c e = none) : p'.result? = p.result? := by
  funext j
  by_cases hj : j = i
  · subst hj
    rw [h.result?_self ht, Task.result?_step_of_none hr, result?, ht]
    rfl
  · exact h.result?_other hj

/-- A query that was just started came to nothing yet. -/
theorem result?_start {t : Task} (ht : t.stage = .awaiting) (j : Nat) :
    ({ p with tasks := p.tasks ++ [t] } : Pool).result? j = p.result? j := by
  simp only [result?]
  rcases Nat.lt_trichotomy j p.tasks.length with hj | rfl | hj
  · rw [List.getElem?_append_left hj]
  · rw [List.getElem?_concat_length, List.getElem?_eq_none (Nat.le_refl _), Option.bind_some,
      Option.bind_none, Task.result?, ht]
    rfl
  · rw [List.getElem?_eq_none (by rw [List.length_append, List.length_singleton]; omega),
      List.getElem?_eq_none (Nat.le_of_lt hj)]

/-! ## The invariant -/

/-- The collector holds the records of the queries that came to something: one report each. -/
structure Accounted (p : Pool) : Prop where
  nodup : p.reported.Nodup
  mem_iff : ∀ i, i ∈ p.reported ↔ (p.result? i).isSome
  warnings : p.collector.warnings = p.results.flatMap Delivery.warningRecords
  errors : p.collector.errors = p.results.flatMap Delivery.errorRecords

theorem accounted_empty : Accounted {} := ⟨List.nodup_nil, fun _ => by simp [result?], rfl, rfl⟩

/-- A report adds what its query came to after everything that was there. -/
theorem Moved.results_of_report (h : Moved c p i t e p') (ha : Accounted p)
    (ht : p.tasks[i]? = some t) {r : Report} (hr : t.report? c e = some r) :
    i ∉ p.reported ∧ ∃ d, r.Of d ∧ p'.result? i = some d ∧ p'.results = p.results ++ [d] := by
  obtain ⟨hnone, d, hd, hof⟩ := Task.result?_step_of_report hr
  have hi : i ∉ p.reported := by
    rw [ha.mem_iff, result?, ht, Option.bind_some, hnone]
    exact Bool.false_ne_true
  have hself : p'.result? i = some d := (h.result?_self ht).trans hd
  refine ⟨hi, d, hof, hself, ?_⟩
  have hrep : p'.reported = p.reported ++ [i] := by rw [h.reported, hr]; rfl
  have hold : p.reported.filterMap p'.result? = p.reported.filterMap p.result? :=
    List.filterMap_congr fun j hj => h.result?_other fun e => hi (e ▸ hj)
  rw [results, hrep, List.filterMap_append, hold, results]
  simp only [List.filterMap_cons, hself, List.filterMap_nil]

/-- A reply to a query that awaits one adds what it yields to what was reported. -/
theorem Accounted.results_settle (h : Accounted p) (ht : p.tasks[i]? = some t)
    (hs : t.stage = .awaiting) (reply : Reply) :
    (p.step c (.settle i reply)).results = p.results ++
      ((t.settle c reply).1.outcome?.map (Delivery.ofOutcome t.query)).toList := by
  have hm : Moved c p i t (.settle i reply) (p.step c (.settle i reply)) := moved_settle ht reply
  have hreport : t.report? c (.settle i reply) = (t.settle c reply).2 := by
    simp only [Task.report?, hs]
  cases hr : (t.settle c reply).2 with
  | none =>
    rw [hr] at hreport
    have hreported : (p.step c (.settle i reply)).reported = p.reported := by
      rw [hm.reported, hreport]
      exact List.append_nil _
    rw [results, hm.result?_of_none ht hreport, hreported, Task.settle_unreported hr]
    exact (List.append_nil _).symm
  | some r =>
    rw [hr] at hreport
    obtain ⟨-, d, -, hd, hresults⟩ := hm.results_of_report h ht hreport
    rw [hm.result?_self ht] at hd
    simp only [Task.result?, Task.step, hs] at hd
    rw [hresults, hd]
    rfl

/-- What an event can do to what is accounted for: nothing, or add the report of one query. -/
theorem Accounted.step_cases (h : Accounted p) (e : Event) :
    ((p.step c e).result? = p.result? ∧ (p.step c e).reported = p.reported ∧
      (p.step c e).collector = p.collector) ∨
    ∃ i d r, i ∉ p.reported ∧ r.Of d ∧ (p.step c e).result? i = some d ∧
      (∀ j, j ≠ i → (p.step c e).result? j = p.result? j) ∧
      (p.step c e).reported = p.reported ++ [i] ∧ (p.step c e).results = p.results ++ [d] ∧
      (p.step c e).collector = p.collector.report r := by
  rcases Pool.step_cases c p e with ⟨now, query, kind, waiting, -, hs⟩ | ⟨i, t, -, ht, hm⟩ | hs
  · rw [hs]
    exact .inl ⟨funext fun j => result?_start rfl j, rfl, rfl⟩
  · cases hr : t.report? c e with
    | none =>
      refine .inl ⟨hm.result?_of_none ht hr, ?_, ?_⟩
      · rw [hm.reported, hr]; exact List.append_nil _
      · rw [hm.collector, hr]; rfl
    | some r =>
      obtain ⟨hi, d, hof, hself, hres⟩ := hm.results_of_report h ht hr
      refine .inr ⟨i, d, r, hi, hof, hself, fun j hj => hm.result?_other hj, ?_, hres, ?_⟩
      · rw [hm.reported, hr]; rfl
      · rw [hm.collector, hr]; rfl
  · rw [hs]
    exact .inl ⟨rfl, rfl, rfl⟩

theorem Accounted.step (h : Accounted p) (e : Event) : Accounted (p.step c e) := by
  rcases h.step_cases (c := c) e with ⟨hr, hp, hc⟩ |
    ⟨i, d, r, hi, hof, hself, hother, hrep, hres, hcol⟩
  · have hs : (p.step c e).results = p.results := by rw [results, hr, hp, results]
    exact ⟨hp ▸ h.nodup, fun i => by rw [hp, hr]; exact h.mem_iff i,
      by rw [hc, hs]; exact h.warnings, by rw [hc, hs]; exact h.errors⟩
  · refine ⟨?_, fun j => ?_, ?_, ?_⟩
    · rw [hrep, ← List.concat_eq_append]
      exact h.nodup.concat hi
    · rw [hrep, List.mem_append, List.mem_singleton]
      by_cases hj : j = i
      · subst hj
        simp only [hself, or_true, Option.isSome_some]
      · rw [hother j hj, h.mem_iff]
        simp only [hj, or_false]
    · rw [hcol, hres, Collector.warnings_report, h.warnings, List.flatMap_append, hof.1,
        List.flatMap_singleton]
    · rw [hcol, hres, Collector.errors_report, h.errors, List.flatMap_append, hof.2,
        List.flatMap_singleton]

theorem accounted_run (c : Context) (events : List Event) : Accounted (run c {} events) :=
  run_induction (fun _ e h => h.step e) accounted_empty events

/-! ## What follows for a run -/

/-- Reports are only ever added. -/
theorem Accounted.results_prefix_step (h : Accounted p) (e : Event) :
    p.results <+: (p.step c e).results := by
  rcases h.step_cases (c := c) e with ⟨hr, hp, -⟩ | ⟨i, d, r, -, -, -, -, -, hres, -⟩
  · exact ⟨[], by rw [List.append_nil, results, results, hr, hp]⟩
  · rw [hres]
    exact List.prefix_append _ _

theorem Accounted.results_prefix_run (h : Accounted p) (es : List Event) :
    p.results <+: (run c p es).results := by
  induction es generalizing p with
  | nil => exact List.prefix_rfl
  | cons e es ih => exact (h.results_prefix_step e).trans (ih (h.step e))

/-- Every query that came to something is accounted for, and once. -/
theorem Accounted.results_perm (h : Accounted p) :
    p.results.Perm (p.tasks.filterMap Task.result?) :=
  Places.filterMap_perm h.nodup h.mem_iff

/-- What holds of each query when it is started, and is kept by each event, holds of all queries. -/
theorem tasks_run {P : Task → Prop}
    (hstart : ∀ now query kind waiting,
      P ⟨query, c.request now query kind, waiting, .awaiting, true⟩)
    (hstep : ∀ t e, P t → P (t.step c e)) (hp : ∀ t ∈ p.tasks, P t) (es : List Event) :
    ∀ t ∈ (run c p es).tasks, P t := by
  refine run_induction (P := fun p => ∀ t ∈ p.tasks, P t) (fun p e hp => ?_) hp es
  rcases step_cases c p e with ⟨now, query, kind, waiting, -, hs⟩ | ⟨i, t, -, ht, hm⟩ | hs
  · intro t ht
    rw [hs, List.mem_append, List.mem_singleton] at ht
    rcases ht with ht | rfl
    · exact hp t ht
    · exact hstart now query kind waiting
  · intro t' ht'
    rw [hm.tasks] at ht'
    rcases List.mem_or_eq_of_mem_set ht' with h | rfl
    · exact hp t' h
    · exact hstep t e (hp t (List.mem_of_getElem? ht))
  · rw [hs]; exact hp

/-- The request of each query in a run is the one that the context makes for it. -/
theorem request_of_mem (c : Context) (es : List Event) {t : Task} (ht : t ∈ (run c {} es).tasks) :
    ∃ now kind, t.request = c.request now t.query kind := by
  refine tasks_run (c := c) (p := {})
    (P := fun t => ∃ now kind, t.request = c.request now t.query kind)
    (fun now _ kind _ => ⟨now, kind, rfl⟩) (fun t e h => ?_) (fun _ h => by cases h) es t ht
  rw [Task.request_step, Task.query_step]
  exact h

/-- What the handles gave is what their queries came to. -/
def Faithful (p : Pool) : Prop :=
  ∀ i d, (i, d) ∈ p.readings → ∃ t, p.tasks[i]? = some t ∧ t.Gave d

theorem Faithful.step (h : Faithful p) (e : Event) : Faithful (p.step c e) := by
  rcases step_cases c p e with ⟨now, query, kind, waiting, -, hs⟩ | ⟨i, t, -, ht, hm⟩ | hs
  · intro j d hj
    rw [hs] at hj ⊢
    obtain ⟨t, ht, hd⟩ := h j d hj
    obtain ⟨hlt, -⟩ := List.getElem?_eq_some_iff.mp ht
    exact ⟨t, (List.getElem?_append_left hlt).trans ht, hd⟩
  · intro j d hj
    obtain ⟨hi, -⟩ := List.getElem?_eq_some_iff.mp ht
    have hset : (p.step c e).tasks[i]? = some (t.step c e) := by
      rw [hm.tasks, List.getElem?_set_self hi]
    rw [hm.readings, List.mem_append, List.mem_map] at hj
    rcases hj with hj | ⟨d', hd', e'⟩
    · obtain ⟨t', ht', hd⟩ := h j d hj
      by_cases hji : j = i
      · subst hji
        obtain rfl := Option.some.inj (ht.symm.trans ht')
        exact ⟨_, hset, hd.step e⟩
      · exact ⟨t', by rw [hm.tasks, List.getElem?_set_ne (Ne.symm hji)]; exact ht', hd⟩
    · cases e'
      exact ⟨_, hset, (Task.gave_of_reading (Option.mem_toList.mp hd')).step e⟩
  · rw [hs]; exact h

theorem Faithful.run (h : Faithful p) (events : List Event) : Faithful (run c p events) :=
  run_induction (fun _ e h => h.step e) h events

theorem faithful_run (c : Context) (events : List Event) : Faithful (run c {} events) :=
  Faithful.run (fun _ _ h => absurd h List.not_mem_nil) events

theorem countP_fault (ds : List Delivery) :
    (ds.flatMap Delivery.errorRecords).length = ds.countP (·.fault.isSome) := by
  induction ds with
  | nil => rfl
  | cons d ds ih =>
    rw [List.flatMap_cons, List.length_append, ih, Delivery.length_errorRecords, List.countP_cons,
      Nat.add_comm]

theorem length_warningRecords (ds : List Delivery) :
    (ds.flatMap Delivery.warningRecords).length = (ds.flatMap Delivery.warnings).length := by
  induction ds with
  | nil => rfl
  | cons d ds ih =>
    rw [List.flatMap_cons, List.flatMap_cons, List.length_append, List.length_append, ih,
      Delivery.warningRecords, List.length_map]

/-- After every run, however the queries took turns, the collector holds the error record of each
query that came to a fault and the warning records of each query that came to anything, in the order
of the reports. These are what the queries came to, each once, and what their handles gave; a raw
query is not among them, and neither is one that was lost. What was reported earlier stays in
front, and the reply to a query that awaits one adds behind it what that query comes to. -/
theorem collector_run (c : Context) (events : List Event) :
    (run c {} events).collector.errors = (run c {} events).results.flatMap Delivery.errorRecords ∧
      (run c {} events).collector.warnings =
        (run c {} events).results.flatMap Delivery.warningRecords ∧
      (run c {} events).results.Perm ((run c {} events).tasks.filterMap Task.result?) ∧
      (run c {} events).collector.errors.length =
        ((run c {} events).tasks.filterMap Task.result?).countP (·.fault.isSome) ∧
      (run c {} events).collector.warnings.length =
        (((run c {} events).tasks.filterMap Task.result?).flatMap Delivery.warnings).length ∧
      (∀ t ∈ (run c {} events).tasks, t.waiting = .raw ∨ t.stage = .lost → t.result? = none) ∧
      (∀ i d, (i, d) ∈ (run c {} events).readings →
        ∃ t, (run c {} events).tasks[i]? = some t ∧ t.Gave d) ∧
      (∀ earlier later, events = earlier ++ later →
        (run c {} earlier).results <+: (run c {} events).results) ∧
      ∀ i t reply, (run c {} events).tasks[i]? = some t → t.stage = .awaiting →
        ∃ ds, t.Yields c reply ds ∧
          (run c {} (events ++ [.settle i reply])).results = (run c {} events).results ++ ds := by
  have h := accounted_run c events
  refine ⟨h.errors, h.warnings, h.results_perm, ?_, ?_, fun t ht hn => ?_, faithful_run c events,
    ?_, fun i t reply ht hs => ?_⟩
  · rw [h.errors, (h.results_perm.flatMap_right _).length_eq, countP_fault]
  · rw [h.warnings, (h.results_perm.flatMap_right _).length_eq, length_warningRecords]
  · rcases hn with hw | hl
    · exact tasks_run (c := c) (p := {}) (P := Task.RawUnreported)
        (fun _ _ _ _ _ => rfl) (fun _ e h => h.step e)
        (fun _ h => absurd h List.not_mem_nil) events t ht hw
    · rw [Task.result?, hl]
      rfl
  · rintro earlier later rfl
    rw [run_append]
    exact (accounted_run c earlier).results_prefix_run later
  · rw [run_append]
    exact ⟨_, t.yields_settle c reply, h.results_settle ht hs reply⟩

end Pool

end MetricsQuery
