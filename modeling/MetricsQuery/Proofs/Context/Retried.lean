import MetricsQuery.Proofs.Context.Agreement
import MetricsQuery.Proofs.Context.Execution
import MetricsQuery.Proofs.Retry.Course

/-!
# What a retried query leaves

A query that is retried runs inline at each attempt, while around it time passes, the token may fire
and the backend may change (`Passage`). One attempt sends one request and adds what the reply to it
says to the collector (`Adds`, `adds_attempt`); sleeping and drawing add nothing. So a retry adds
what its attempts add, in their order (`adds_linked`), and how it ends shows in the collector: there
is one error for each attempt that failed, and the last one is what a retry is exhausted with
(`retry_recorded`).
-/

namespace MetricsQuery.Session

open Retry (Entry Failure Linked World calls failures history)

/-! ## Attempts in time -/

/-- How a retry goes on around a session that does not see it: the backend and the time at each
moment, what passes during an attempt and a sleep, what is drawn, and when the token has fired. -/
structure Passage (τ : Type) where
  around : τ → Surroundings
  attempted : τ → τ
  slept : Duration → τ → τ
  drawn : τ → Nat × τ
  fired : Session → τ → Bool

namespace Passage

/-- Nothing changes around a session but what it changes itself. -/
def still (env : Surroundings) (fired : Session → Bool) : Passage Unit :=
  ⟨fun _ => env, id, fun _ => id, fun t => (0, t), fun s _ => fired s⟩

/-- The inline query as an operation to be retried in time. -/
def world {τ : Type} (p : Passage τ) (c : Context) (query : String) :
    World (Session × τ) Fault (Option (List Series)) where
  attempt s :=
    let a := (retryWorld c (p.around s.2) query (p.fired · s.2)).attempt s.1
    (a.1, a.2, p.attempted s.2)
  isCancelled s := p.fired s.1 s.2
  sleep delay s := (s.1, p.slept delay s.2)
  draw s := ((p.drawn s.2).1, s.1, (p.drawn s.2).2)

end Passage

/-- One attempt at a query: the request that it sends and the reply to it. -/
structure Trial where
  request : Request
  reply : Reply

namespace Trial

variable (c : Context) (query : String) (t : Trial)

/-- The outcome of the query; there is none if the decoder panics. -/
def outcome? : Option Outcome := (c.execute query (t.request.body query t.reply)).outcome?

/-- What the retry is given. -/
def answer : Except Fault (Option (List Series)) :=
  match t.outcome? c query with
  | some o => o.results.map some
  | none => .ok none

/-- The warnings of the query. -/
def warnings : List String := ((t.outcome? c query).map Outcome.warnings).getD []

end Trial

/-- The session `s'` is `s` after these trials: it has sent the request of each, and has collected
the fault of each that failed and the warnings of all of them. -/
structure Adds (c : Context) (query : String) (ts : List Trial) (s s' : Session) : Prop where
  sent : s'.sent = s.sent ++ ts.map Trial.request
  errors : s'.collector.errors = s.collector.errors ++
    (failures (ts.map (Trial.answer c query))).map fun f => ⟨query, f.message⟩
  warnings : s'.collector.warnings = s.collector.warnings ++
    (ts.flatMap (Trial.warnings c query)).map fun w => ⟨query, w⟩

variable {τ : Type} {c : Context} {query : String} {p : Passage τ}
  {es : List (Entry (Session × τ) Fault (Option (List Series)))}

theorem Adds.rfl (s : Session) : Adds c query [] s s :=
  ⟨(List.append_nil _).symm, (List.append_nil _).symm, (List.append_nil _).symm⟩

theorem Adds.trans {ts ts' : List Trial} {s s' s'' : Session} (h : Adds c query ts s s')
    (h' : Adds c query ts' s' s'') : Adds c query (ts ++ ts') s s'' where
  sent := by rw [h'.sent, h.sent, List.map_append, List.append_assoc]
  errors := by
    rw [h'.errors, h.errors, List.map_append, Retry.failures_append, List.map_append,
      List.append_assoc]
  warnings := by
    rw [h'.warnings, h.warnings, List.flatMap_append, List.map_append, List.append_assoc]

/-! ## One attempt -/

/-- The attempt that is made where the session and what is around it are `s`. -/
def trialAt (c : Context) (query : String) (p : Passage τ) (s : Session × τ) : Trial :=
  ⟨c.request (p.around s.2).now query .instant, reply c (p.around s.2) query .instant s.1⟩

theorem attempt_answer (c : Context) (query : String) (p : Passage τ) (s : Session × τ) :
    ((p.world c query).attempt s).1 = (trialAt c query p s).answer c query := by
  simp only [Passage.world, retryWorld, run, Trial.answer]
  cases h : (execution c (p.around s.2) query .instant s.1).outcome? with
  | none =>
    have ht : (trialAt c query p s).outcome? c query = none := h
    simp only [ht]
  | some o =>
    have ht : (trialAt c query p s).outcome? c query = some o := h
    simp only [ht]

/-- An attempt leaves the session that the inline query leaves. -/
theorem attempt_session (s : Session × τ) :
    ((p.world c query).attempt s).2.1 = (run c (p.around s.2) query .instant s.1).2 := by
  simp only [Passage.world, retryWorld]
  split <;> simp only [*]

/-- A query that runs inline and panics makes no report. -/
theorem collector_panicked {env : Surroundings} {s : Session} {text : Option String}
    (h : execution c env query .instant s = .panicked text) :
    (run c env query .instant s).2.collector = s.collector := by
  have ht : (Task.started c env.now query .instant .inline).execution c
      (reply c env query .instant s) = .panicked text := h
  have hr : (Task.started c env.now query .instant .inline).reports c
      [.settle s.place (reply c env query .instant s)] = [] := by
    simp only [Task.reports, Task.report?, Task.settle, Task.started] at ht ⊢
    rw [ht]
    rfl
  have hsend := (extends_send c env query .instant .inline s).collector
  rw [hr] at hsend
  exact hsend

theorem errorRecords_ofOutcome (o : Outcome) :
    (Delivery.ofOutcome query o).errorRecords =
      (failures [o.results.map some]).map fun f => ⟨query, f.message⟩ := by
  obtain ⟨results, warnings⟩ := o
  cases results <;> rfl

theorem warningRecords_ofOutcome (o : Outcome) :
    (Delivery.ofOutcome query o).warningRecords = o.warnings.map fun w => ⟨query, w⟩ := by
  obtain ⟨results, warnings⟩ := o
  cases results <;> rfl

theorem adds_attempt (c : Context) (query : String) (p : Passage τ) (s : Session × τ) :
    Adds c query [trialAt c query p s] s.1 ((p.world c query).attempt s).2.1 := by
  rw [attempt_session]
  cases h : execution c (p.around s.2) query .instant s.1 with
  | finished o r =>
    have ho : (trialAt c query p s).outcome? c query = some o := congrArg Execution.outcome? h
    obtain ⟨hwarnings, herrors⟩ := c.execute_report h
    have hcollector := (extends_run h).collector
    refine ⟨rfl, ?_, ?_⟩
    · rw [hcollector, List.foldl_cons, List.foldl_nil, Collector.errors_report, herrors,
        errorRecords_ofOutcome, List.map_singleton, Trial.answer, ho]
    · rw [hcollector, List.foldl_cons, List.foldl_nil, Collector.warnings_report, hwarnings,
        warningRecords_ofOutcome, List.flatMap_singleton, Trial.warnings, ho]
      rfl
  | panicked text =>
    have ho : (trialAt c query p s).outcome? c query = none := congrArg Execution.outcome? h
    refine ⟨rfl, ?_, ?_⟩
    · rw [collector_panicked h, List.map_singleton, Trial.answer, ho]
      exact (List.append_nil _).symm
    · rw [collector_panicked h, List.flatMap_singleton, Trial.warnings, ho]
      exact (List.append_nil _).symm

/-! ## All attempts -/

/-- The attempts among what is done in a retry. -/
def trials (c : Context) (query : String) (p : Passage τ)
    (es : List (Entry (Session × τ) Fault (Option (List Series)))) : List Trial :=
  es.filterMap fun e => e.outcome?.map fun _ => trialAt c query p e.before

/-- All that an action can do to the session: one attempt, or nothing. -/
theorem action_cases {e : Entry (Session × τ) Fault (Option (List Series))}
    (h : e.Happens (p.world c query)) :
    (e.outcome? = some ((trialAt c query p e.before).answer c query) ∧
      Adds c query [trialAt c query p e.before] e.before.1 e.after.1) ∨
    (e.outcome? = none ∧ e.after.1 = e.before.1) := by
  obtain ⟨before, action, after⟩ := e
  cases action with
  | attempt outcome =>
    have ha : (p.world c query).attempt before = (outcome, after) := h
    have hanswer := attempt_answer c query p before
    have hadds := adds_attempt c query p before
    rw [ha] at hanswer hadds
    exact .inl ⟨congrArg some hanswer, hadds⟩
  | sleep delay =>
    have hs : (p.world c query).sleep delay before = after := h
    exact .inr ⟨rfl, (congrArg Prod.fst hs).symm⟩
  | draw random =>
    have hd : (p.world c query).draw before = (random, after) := h
    exact .inr ⟨rfl, (congrArg (·.2.1) hd).symm⟩

/-- A retry adds what its attempts add, and they come to what their replies come to. -/
theorem adds_linked {s s' : Session × τ} (hl : Linked s es s')
    (hh : ∀ e ∈ es, e.Happens (p.world c query)) :
    Adds c query (trials c query p es) s.1 s'.1 ∧
      calls es = (trials c query p es).map (Trial.answer c query) := by
  induction es generalizing s with
  | nil =>
    obtain rfl : s = s' := hl
    exact ⟨.rfl s.1, rfl⟩
  | cons e es ih =>
    obtain ⟨rfl, hl⟩ := hl
    obtain ⟨he, hes⟩ := List.forall_mem_cons.mp hh
    obtain ⟨hadds, hcalls⟩ := ih hl hes
    rw [calls, trials, List.filterMap_cons, List.filterMap_cons]
    rcases action_cases he with ⟨ho, hfirst⟩ | ⟨ho, hsame⟩
    · rw [ho]
      exact ⟨hfirst.trans hadds, congrArg (_ :: ·) hcalls⟩
    · rw [ho, ← hsame]
      exact ⟨hadds, hcalls⟩

/-! ## How a retry ends -/

/-- What a retry has left that may make `n` attempts, on a session that was empty when it began at
`t`. -/
structure Recorded (c : Context) (query : String) (p : Passage τ) (n : Nat) (t : τ)
    (es : List (Entry (Session × τ) Fault (Option (List Series))))
    (result : Except (Failure Fault) (Option (List Series))) (s : Session) : Prop where
  /-- Each attempt is given what the reply to its request comes to. -/
  calls_eq : calls es = (trials c query p es).map (Trial.answer c query)
  /-- One request is sent for each attempt, in their order. -/
  sent : s.sent = (trials c query p es).map Trial.request ∧ s.sent.length = (calls es).length
  /-- One error is collected for each attempt that failed. -/
  errors : s.collector.errors = (failures (calls es)).map fun f => ⟨query, f.message⟩
  /-- The warnings of all attempts are collected. -/
  warnings : s.collector.warnings =
    ((trials c query p es).flatMap (Trial.warnings c query)).map fun w => ⟨query, w⟩
  /-- An attempt has the outcome and the warnings that the rules give for its reply, unless the
  decoder panics at it. -/
  verdict : ∀ a ∈ trials c query p es,
    (∃ o, c.Verdict a.request query a.reply o ∧ a.answer c query = o.results.map some ∧
      a.warnings c query = o.warnings) ∨
    ∃ text, c.Panics query a.reply text ∧ a.answer c query = .ok none
  /-- Success leaves an error of each attempt but the last. -/
  succeeded : ∀ a, result = .ok a → s.collector.errors.length + 1 = (calls es).length ∧
    (s.collector.hasErrors = true ↔ 1 < (calls es).length)
  /-- The last error is the one that the retry is exhausted with. -/
  exhausted : ∀ f, result = .error (.exhausted f) → s.collector.errors.length = n ∧
    ∃ r, s.collector.errors.getLast? = some r ∧ r.query = query ∧
      (Failure.exhausted f).message Fault.message = r.message
  cancelled : result = .error .cancelled → s.collector.errors.length = (calls es).length
  /-- Without attempts, or once the token has fired, nothing is sent or collected. -/
  idle : n = 0 ∨ p.fired {} t = true → es = [] ∧ s = {}

theorem verdict_or_panicked (a : Trial) :
    (∃ o, c.Verdict a.request query a.reply o ∧ a.answer c query = o.results.map some ∧
      a.warnings c query = o.warnings) ∨
    ∃ text, c.Panics query a.reply text ∧ a.answer c query = .ok none := by
  rcases c.verdict_or_panics a.request query a.reply with ⟨o, ho⟩ | ⟨text, hp⟩
  · have houtcome : a.outcome? c query = some o := ho.outcome?_execute
    exact .inl ⟨o, ho, by rw [Trial.answer, houtcome], by rw [Trial.warnings, houtcome]; rfl⟩
  · have houtcome : a.outcome? c query = none :=
      congrArg Execution.outcome? (hp.execute_eq c a.request)
    exact .inr ⟨text, hp, by rw [Trial.answer, houtcome]⟩

theorem recorded_zero (c : Context) (query : String) (p : Passage τ) (t : τ) :
    Recorded c query p 0 t [] (.error .noAttempts) {} where
  calls_eq := rfl
  sent := ⟨rfl, rfl⟩
  errors := rfl
  warnings := rfl
  verdict := fun _ h => absurd h List.not_mem_nil
  succeeded := nofun
  exhausted := nofun
  cancelled := nofun
  idle _ := ⟨rfl, rfl⟩

theorem recorded_course {n : Nat} {delay : Duration} {t : τ} {s' : Session × τ}
    {result : Except (Failure Fault) (Option (List Series))}
    (h : Retry.Course (p.world c query) n delay ({}, t) es result s') :
    Recorded c query p (n + 1) t es result s'.1 := by
  obtain ⟨hadds, hcalls⟩ := adds_linked h.linked h.happens
  have herrors : s'.1.collector.errors =
      (failures (calls es)).map fun f => ⟨query, f.message⟩ := by
    rw [hadds.errors, hcalls]
    exact List.nil_append _
  exact
    { calls_eq := hcalls
      sent := by
        have hsent : s'.1.sent = (trials c query p es).map Trial.request := hadds.sent
        rw [hsent, hcalls, List.length_map, List.length_map]
        exact ⟨rfl, rfl⟩
      errors := herrors
      warnings := hadds.warnings
      verdict := fun a _ => verdict_or_panicked a
      succeeded := fun a hr => by
        have hlength := (hr ▸ h.ended).failures_ok
        rw [Collector.hasErrors, herrors, List.length_map]
        refine ⟨hlength, ?_⟩
        rw [Bool.not_eq_true', List.isEmpty_eq_false_iff, List.ne_nil_iff_length_pos,
          List.length_map]
        omega
      exhausted := fun f hr => by
        obtain ⟨hlength, hlast⟩ := (hr ▸ h.ended).failures_exhausted
        rw [herrors, List.length_map, List.getLast?_map, hlast]
        exact ⟨hlength, _, rfl, rfl, rfl⟩
      cancelled := fun hr => by
        rw [herrors, List.length_map]
        exact (hr ▸ h.ended).failures_cancelled
      idle := fun hidle => by
        obtain ⟨hes, hs⟩ := h.idle (hidle.resolve_left (Nat.succ_ne_zero n))
        exact ⟨hes, congrArg Prod.fst hs⟩ }

/-- A session by itself retries as one around which nothing changes. -/
theorem maps_still (c : Context) (env : Surroundings) (query : String) (fired : Session → Bool) :
    ((Passage.still env fired).world c query).Maps (retryWorld c env query fired) Prod.fst where
  attempt _ := rfl
  isCancelled _ := rfl
  sleep _ _ := rfl
  draw _ := rfl

/-- A query that is retried in an empty session sends one request for each attempt, and leaves one
error for each that fails, in the order of the attempts, and the warnings of all. It does so whatever
the backend replies, however time passes, whenever the token fires and whatever is drawn. A session
retries its queries in the way in which nothing changes around it. -/
theorem retry_recorded (c : Context) (query : String) (n : Nat) (delay : Duration) :
    (∀ {τ : Type} (p : Passage τ) (t : τ),
      Recorded c query p n t (history (p.world c query) n delay ({}, t))
        (retry (p.world c query) n delay ({}, t)).1
        (retry (p.world c query) n delay ({}, t)).2.1) ∧
    ∀ env fired,
      retryQuery c env query n delay fired {} =
        ((retry ((Passage.still env fired).world c query) n delay ({}, ())).1,
          (retry ((Passage.still env fired).world c query) n delay ({}, ())).2.1) := by
  refine ⟨fun p t => ?_, fun env fired => ?_⟩
  · cases n with
    | zero => exact recorded_zero c query p t
    | succ n => exact recorded_course (Retry.course_history (p.world c query) n delay ({}, t))
  · exact (maps_still c env query fired).retry_eq n delay ({}, ())

end MetricsQuery.Session
