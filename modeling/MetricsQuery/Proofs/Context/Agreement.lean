import MetricsQuery.Proofs.Context.Session

/-!
# Ways to run a query

A query may run inline, as a task with a handle, profiled or not, or raw. Given the reply to it,
all these come to the same: the handle tells the outcome that the inline query has
(`Delivery.Tells`), the raw query has the body that the outcome is made from (`RawAgrees`), and the
same report is made. What a query leaves in a pool is told by its own events (`Pool.own_run`).
`entry_points_agree` is for every session and every pool.
-/

namespace MetricsQuery

/-! ## What a query leaves in a pool -/

namespace Task

/-- The reports that are made of a query at events that are about it. -/
def reports (c : Context) : Task → List Pool.Event → List Report
  | _, [] => []
  | t, e :: es => (t.report? c e).toList ++ reports c (t.step c e) es

/-- The labels of the latencies that are recorded at events that are about a query. -/
def latencies (c : Context) : Task → List Pool.Event → List String
  | _, [] => []
  | t, e :: es => (t.latency? e).toList ++ latencies c (t.step c e) es

/-- A query that was just started. -/
def started (c : Context) (now : Instant) (query : String) (kind : QueryKind) (waiting : Waiting) :
    Task :=
  ⟨query, c.request now query kind, waiting, .awaiting, true⟩

end Task

namespace Pool

variable {c : Context} {p : Pool} {i : Nat} {t : Task}

/-- The pool `p'` is `p` with what a query adds that makes these reports. -/
structure Extends (p p' : Pool) (i : Nat) (reports : List Report) (latencies : List String)
    (readings : List Delivery) : Prop where
  collector : p'.collector = reports.foldl Collector.report p.collector
  profiled : p'.profiled = p.profiled ++ latencies
  readings : p'.readings = p.readings ++ readings.map fun d => (i, d)

/-- Events about one query add to a pool what that query makes of them. -/
theorem own_run (ht : p.tasks[i]? = some t) {es : List Event} (h : ∀ e ∈ es, e.place? = some i) :
    Extends p (run c p es) i (t.reports c es) (t.latencies c es) (t.readings c es) := by
  induction es generalizing p t with
  | nil => exact ⟨rfl, (List.append_nil _).symm, (List.append_nil _).symm⟩
  | cons e es ih =>
    obtain ⟨he, hes⟩ := List.forall_mem_cons.mp h
    have hm := moved_step (c := c) he ht
    have hrest := ih (step_own (c := c) he ht).1 hes
    refine ⟨?_, ?_, ?_⟩
    · rw [run_cons, hrest.collector, hm.collector, Task.reports, List.foldl_append]
      cases t.report? c e <;> rfl
    · rw [run_cons, hrest.profiled, hm.profiled, Task.latencies, List.append_assoc]
    · rw [run_cons, hrest.readings, hm.readings, Task.readings, List.map_append,
        List.append_assoc]

/-- A query that is started and has its own events next. -/
theorem started_run (c : Context) (p : Pool) (now : Instant) (query : String) (kind : QueryKind)
    (waiting : Waiting) {es : List Event} (h : ∀ e ∈ es, e.place? = some p.tasks.length) :
    Extends p (run c p (.start now query kind waiting :: es)) p.tasks.length
      ((Task.started c now query kind waiting).reports c es)
      ((Task.started c now query kind waiting).latencies c es)
      ((Task.started c now query kind waiting).readings c es) := by
  have ht : (p.step c (.start now query kind waiting)).tasks[p.tasks.length]? =
      some (Task.started c now query kind waiting) := List.getElem?_concat_length
  have hrun := own_run (c := c) ht h
  exact ⟨hrun.collector, hrun.profiled, hrun.readings⟩

end Pool

/-! ## One reply -/

namespace Context

/-- A decoder that does not panic leaves every execution an outcome and a report of it. -/
theorem execute_finished (c : Context) {query : String}
    (hd : ∀ v, ∃ answer, c.decoder query v = .done answer) (body : Except Fault (List UInt8)) :
    ∃ o r, c.execute query body = .finished o r ∧ r.Of (.ofOutcome query o) := by
  cases h : c.execute query body with
  | finished o r => exact ⟨o, r, rfl, c.execute_report h⟩
  | panicked text =>
    unfold execute at h
    split at h
    · cases h
    · next v _ _ =>
      obtain ⟨answer, ha⟩ := hd v
      rw [ha] at h
      cases answer <;> cases h

end Context

namespace Task

variable {c : Context} {now : Instant} {query : String} {kind : QueryKind} {waiting : Waiting}
  {reply : Reply} {o : Outcome} {r : Report}

theorem handle_ne_raw (label : Option String) : Waiting.handle label ≠ .raw := by
  intro h
  cases h

/-- A query that is not raw settles with its outcome and makes its report, however it is waited
for. -/
theorem settle_finished {t : Task} (hw : t.waiting ≠ .raw)
    (h : t.execution c reply = .finished o r) : t.settle c reply = (.settled o, some r) := by
  unfold settle
  cases hwait : t.waiting with
  | raw => exact absurd hwait hw
  | inline => simp only [h]
  | handle label => simp only [h, Execution.caught]

theorem step_settle (hw : waiting ≠ .raw)
    (h : (started c now query kind waiting).execution c reply = .finished o r) (i : Nat) :
    (started c now query kind waiting).step c (.settle i reply) =
      { started c now query kind waiting with stage := .settled o } := by
  have hs := settle_finished (t := started c now query kind waiting) hw h
  have hstage : (started c now query kind waiting).stage = .awaiting := rfl
  simp only [step, hstage, hs]

/-- It makes one report, when the reply has come. -/
theorem reports_settle (hw : waiting ≠ .raw)
    (h : (started c now query kind waiting).execution c reply = .finished o r) (i : Nat) :
    (started c now query kind waiting).reports c [.settle i reply] = [r] := by
  have hs := settle_finished (t := started c now query kind waiting) hw h
  show (settle c (started c now query kind waiting) reply).2.toList ++ [] = [r]
  rw [hs]
  rfl

section course

variable {label : Option String}
  (h : (started c now query kind (.handle label)).execution c reply = .finished o r) (i : Nat)
  (elapsed : Duration)
include h

theorem reports_course : (started c now query kind (.handle label)).reports c
    ((Fate.replied reply).course i elapsed) = [r] := by
  have hfirst := reports_settle (handle_ne_raw label) h i
  rw [reports, reports, List.append_nil] at hfirst
  rw [Fate.course, reports, hfirst]
  rfl

/-- A task records its latency, if it is profiled, and only then. -/
theorem latencies_course : (started c now query kind (.handle label)).latencies c
    ((Fate.replied reply).course i elapsed) = label.toList := by
  rw [Fate.course, latencies, step_settle (handle_ne_raw label) h]
  show [] ++ (label.toList ++ []) = label.toList
  rw [List.nil_append, List.append_nil]

/-- Its handle gives the outcome. -/
theorem readings_course : (started c now query kind (.handle label)).readings c
    ((Fate.replied reply).course i elapsed) = [.ofOutcome query o] := by
  rw [Fate.course, readings, step_settle (handle_ne_raw label) h]
  rfl

end course

end Task

/-! ## The ways to run a query agree -/

/-- What is delivered tells an outcome: its warnings, and its fault without results or its results
without a fault. -/
structure Delivery.Tells (d : Delivery) (q : String) (o : Outcome) : Prop where
  query : d.query = q
  warnings : d.warnings = o.warnings
  failed : ∀ f, o.results = .error f → d.fault = some f ∧ d.results = []
  succeeded : ∀ ss, o.results = .ok ss → d.fault = none ∧ d.results = ss
  toResult : d.toResult = o.results

theorem Delivery.tells_ofOutcome (q : String) (o : Outcome) : (ofOutcome q o).Tells q o := by
  obtain ⟨results, warnings⟩ := o
  cases results with
  | error f => exact ⟨rfl, rfl, fun _ h => by cases h; exact ⟨rfl, rfl⟩, nofun, rfl⟩
  | ok ss => exact ⟨rfl, rfl, nofun, fun _ h => by cases h; exact ⟨rfl, rfl⟩, rfl⟩

/-- A raw query gives the fault of the outcome where there is no successful response, and otherwise
the very body that the outcome is made from. -/
structure RawAgrees (c : Context) (query : String) (reply : Reply) (o : Outcome) (r : Report)
    (raw : Except Fault (List UInt8)) : Prop where
  transport : ∀ f, reply = .error f → ∃ fault, raw = .error fault ∧ o = ⟨.error fault, []⟩
  status : ∀ p, reply = .ok p → Status.isSuccess p.status = false →
    ∃ fault, raw = .error fault ∧ o = ⟨.error fault, []⟩
  body : ∀ p, reply = .ok p → Status.isSuccess p.status = true →
    raw = .ok p.body ∧ c.execute query (.ok p.body) = .finished o r

theorem rawAgrees_body {c : Context} {query : String} {request : Request} {reply : Reply}
    {o : Outcome} {r : Report} (h : c.execute query (request.body query reply) = .finished o r) :
    RawAgrees c query reply o r (request.body query reply) where
  transport f hf := by
    subst hf
    cases h
    exact ⟨_, rfl, rfl⟩
  status p hp hs := by
    subst hp
    have hb : request.body query (.ok p) = .error (.status (request.statusText query p)) := by
      simp only [Request.body, hs, Bool.false_eq_true, if_false]
    rw [hb] at h ⊢
    cases h
    exact ⟨_, rfl, rfl⟩
  body p hp hs := by
    subst hp
    have hb : request.body query (.ok p) = .ok p.body := by
      simp only [Request.body, hs, if_true]
    rw [hb] at h ⊢
    exact ⟨rfl, h⟩

/-- What the entry points of a session do with a query that has the outcome `o` and the report
`r`. -/
structure Session.Agrees (c : Context) (env : Surroundings) (query : String) (kind : QueryKind)
    (o : Outcome) (r : Report) (s : Session) : Prop where
  /-- Inline, the query has the outcome. -/
  inline : (run c env query kind s).1 = some o
  /-- As a task, profiled or not, it has a handle that tells the outcome, once. -/
  handle : ∀ label, (spawn c env query kind label s).1.Tells query o ∧
    (spawn c env query kind label s).2.readings =
      s.readings ++ [(s.place, (spawn c env query kind label s).1)]
  raw : RawAgrees c query (reply c env query kind s) o r (raw c env query kind s).1
  /-- The same records are appended in each way, and a raw query appends none. -/
  collector : (run c env query kind s).2.collector = s.collector.report r ∧
    (∀ label, (spawn c env query kind label s).2.collector = s.collector.report r) ∧
    (Session.raw c env query kind s).2.collector = s.collector
  /-- Profiling records one latency, and nothing else does. -/
  profiled : (run c env query kind s).2.profiled = s.profiled ∧
    (∀ label, (spawn c env query kind label s).2.profiled = s.profiled ++ label.toList) ∧
    (Session.raw c env query kind s).2.profiled = s.profiled
  /-- One request is sent in each way, the same one. -/
  sent : (run c env query kind s).2.sent = s.sent ++ [c.request env.now query kind] ∧
    (∀ label, (spawn c env query kind label s).2.sent =
      s.sent ++ [c.request env.now query kind]) ∧
    (Session.raw c env query kind s).2.sent = s.sent ++ [c.request env.now query kind]

namespace Session

variable {c : Context} {env : Surroundings} {query : String} {kind : QueryKind} {s : Session}
  {o : Outcome} {r : Report}

/-- A query whose reply settles it at once leaves its report, if one is made, and nothing else. -/
theorem extends_send (c : Context) (env : Surroundings) (query : String) (kind : QueryKind)
    (waiting : Waiting) (s : Session) :
    s.toPool.Extends (send c env query kind waiting s).toPool s.place
      ((Task.started c env.now query kind waiting).reports c
        [.settle s.place (reply c env query kind s)]) [] [] :=
  Pool.started_run c s.toPool env.now query kind waiting fun _ he => by
    rw [List.mem_singleton.mp he]
    rfl

theorem extends_run (h : execution c env query kind s = .finished o r) :
    s.toPool.Extends (run c env query kind s).2.toPool s.place [r] [] [] := by
  have hsend := extends_send c env query kind .inline s
  rwa [Task.reports_settle (by exact nofun) h] at hsend

theorem extends_raw (c : Context) (env : Surroundings) (query : String) (kind : QueryKind)
    (s : Session) : s.toPool.Extends (raw c env query kind s).2.toPool s.place [] [] [] :=
  extends_send c env query kind .raw s

theorem extends_spawn (h : execution c env query kind s = .finished o r) (label : Option String) :
    s.toPool.Extends (spawn c env query kind label s).2.toPool s.place [r] label.toList
      [.ofOutcome query o] := by
  have hplace : ∀ e ∈ (Fate.replied (reply c env query kind s)).course s.place env.latency,
      e.place? = some s.place := fun _ => Pool.place?_of_mem_course
  have hrun := Pool.started_run c s.toPool env.now query kind (.handle label) hplace
  rwa [Task.reports_course h, Task.latencies_course h, Task.readings_course h] at hrun

theorem agrees (h : execution c env query kind s = .finished o r) : Agrees c env query kind o r s :=
  have hspawn := extends_spawn h
  have hd : ∀ label, (spawn c env query kind label s).1 = .ofOutcome query o := fun label => by
    rw [spawn, h]
    rfl
  { inline := by rw [run, h]; rfl
    handle := fun label => by
      rw [hd]
      exact ⟨Delivery.tells_ofOutcome query o, (hspawn label).readings⟩
    raw := rawAgrees_body h
    collector := ⟨(extends_run h).collector, fun label => (hspawn label).collector,
      (extends_raw c env query kind s).collector⟩
    profiled := by
      refine ⟨?_, fun label => (hspawn label).profiled, ?_⟩
      · rw [(extends_run h).profiled, List.append_nil]
      · rw [(extends_raw c env query kind s).profiled, List.append_nil]
    sent := ⟨rfl, fun _ => rfl, rfl⟩ }

end Session

/-- What a query does in a pool when the reply to it leads to the outcome `o` and the report `r`. -/
structure Pool.Agrees (c : Context) (query : String) (request : Request) (reply : Reply)
    (o : Outcome) (r : Report) (p : Pool) : Prop where
  /-- However the query is waited for, unless it is raw, the reply settles it so. -/
  settled : ∀ i t, p.tasks[i]? = some t → t.query = query → t.request = request →
    t.stage = .awaiting → t.waiting ≠ .raw →
      (p.step c (.settle i reply)).tasks[i]? = some { t with stage := .settled o } ∧
      (p.step c (.settle i reply)).collector = p.collector.report r
  /-- A task that has the reply and runs its course, among any others, has a handle that tells the
  outcome, once. -/
  delivered : p.Faithful → ∀ now kind label elapsed after, c.request now query kind = request →
    fateOf (own p.tasks.length after) = some (.replied reply) →
    ((Fate.replied reply).course p.tasks.length elapsed).Sublist after →
    .drop p.tasks.length ∉ after →
      ∃ d, (run c p (.start now query kind (.handle label) :: after)).given p.tasks.length = [d] ∧
        d.Tells query o

theorem Pool.agrees {c : Context} {query : String} {request : Request} {reply : Reply}
    {o : Outcome} {r : Report} (h : c.execute query (request.body query reply) = .finished o r)
    (p : Pool) : Agrees c query request reply o r p where
  settled i t ht hq hr hs hw := by
    have hsettle := Task.settle_finished (t := t) hw
      (by rw [Task.execution, Task.body, hq, hr]; exact h)
    refine ⟨?_, ?_⟩
    · rw [(step_own rfl ht).1]
      simp only [Task.step, hs, hsettle]
    · rw [(moved_settle ht reply).collector]
      simp only [Task.report?, hs, hsettle, Option.elim]
  delivered hp now kind label elapsed after hr hf hc hn := by
    refine ⟨_, given_start_of_course hp now query kind label after hf hc hn, ?_⟩
    rw [hr, Fate.delivery_replied, h]
    exact Delivery.tells_ofOutcome query o

/-- The entry points agree. For a request and the reply to it, and a decoder that does not panic at
the query, there are one outcome and one report of it, and they are what every way to run the query
comes to: inline, as a task, profiled or not, and raw, at any time in any session, and beside any
other queries. -/
theorem Context.entry_points_agree (c : Context) (query : String)
    (hd : ∀ v, ∃ answer, c.decoder query v = .done answer) (request : Request) (reply : Reply) :
    ∃ o r, r.Of (.ofOutcome query o) ∧
      (∀ env kind s, c.request env.now query kind = request →
        Session.reply c env query kind s = reply → Session.Agrees c env query kind o r s) ∧
      ∀ p, Pool.Agrees c query request reply o r p := by
  obtain ⟨o, r, h, hr⟩ := c.execute_finished hd (request.body query reply)
  refine ⟨o, r, hr, fun env kind s hrequest hreply => Session.agrees ?_, Pool.agrees h⟩
  rw [Session.execution, Session.body, hrequest, hreply]
  exact h

/-- The standard decoder does not panic, so the entry points agree on each query of its contexts,
such as one whose backend sends no JSON. -/
theorem Context.entry_points_agree_standard :
    let c : Context := { client := ⟨⟨"http".toList, none, false, ['/'], none, none⟩⟩ }
    let env : Surroundings :=
      { backend := ⟨fun _ => true, fun _ _ => .ok ⟨200, [], Utf8.encode "up"⟩⟩, now := .epoch }
    (∀ v, ∃ answer, c.decoder "up" v = .done answer) ∧
      ∃ o r, r.Of (.ofOutcome "up" o) ∧ Session.Agrees c env "up" .instant o r {} ∧
        Pool.Agrees c "up" (c.request env.now "up" .instant)
          (Session.reply c env "up" .instant {}) o r {} := by
  intro c env
  have hd : ∀ v, ∃ answer, c.decoder "up" v = .done answer := fun v => ⟨_, rfl⟩
  obtain ⟨o, r, hr, hs, hp⟩ := c.entry_points_agree "up" hd (c.request env.now "up" .instant)
    (Session.reply c env "up" .instant {})
  exact ⟨hd, o, r, hr, hs env .instant {} rfl rfl, hp {}⟩

end MetricsQuery
