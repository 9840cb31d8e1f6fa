import MetricsQuery.Proofs.Context.Agreement
import MetricsQuery.Proofs.Context.Warned

/-!
# Diagnosis of failures

A fault says which query it is the fault of: its message has the text of the query in it, and every
fault but a status carries the query besides (`Names`). A fault that a reply comes to says more: a
status shows the code, the URL and the body, and a fault counts as the backend's own exactly if the
backend refused (`Diagnosed`). Every rule that a reply is classified by makes such a fault
(`Verdict.diagnosed`), and the record of the fault is its message, by whatever way the query ran:
`failures_diagnosed`.
-/

namespace MetricsQuery

/-! ## What a message shows -/

/-- The text `part` stands in the text `s`, as it is. -/
def Shows (s part : String) : Prop := ∃ before after, s = before ++ part ++ after

theorem shows_self (s : String) : Shows s s :=
  ⟨"", "", by rw [String.empty_append, String.append_empty]⟩

section

variable {s part : String} (h : Shows s part)
include h

theorem Shows.append (more : String) : Shows (s ++ more) part := by
  obtain ⟨before, after, rfl⟩ := h
  exact ⟨before, after ++ more, String.append_assoc⟩

theorem Shows.prepend (more : String) : Shows (more ++ s) part := by
  obtain ⟨before, after, rfl⟩ := h
  exact ⟨more ++ before, after, by simp only [String.append_assoc]⟩

end

/-- A fault of a query names it. -/
structure Fault.Names (f : Fault) (query : String) : Prop where
  shows : Shows f.message query
  /-- A status has the query in its message only. -/
  status : ∀ text, f = .status text → f.query? = none
  carries : (∀ text, f ≠ .status text) → f.query? = some query

/-- A diagnosis of a status shows the code, the URL of the request, the body as text and the
query. -/
structure Request.Explains (r : Request) (query : String) (p : Response) (text : String) :
    Prop where
  code : Shows text (toString p.status)
  url : Shows text r.url.text
  body : Shows text (Utf8.decodeLossy p.body)
  query : Shows text query

theorem Request.explains_statusText (r : Request) (query : String) (p : Response) :
    r.Explains query p (r.statusText query p) where
  -- What stands near the front is told from the front, the rest from the end.
  code := by
    rw [statusText]
    simp only [String.append_assoc]
    exact (shows_self _).append _
  url := by
    rw [statusText]
    simp only [String.append_assoc]
    exact (((((shows_self _).append _).prepend _).prepend _).prepend _).prepend _
  body := ((((shows_self _).prepend _).append _).append _).append _
  query := ((shows_self _).prepend _).append _

namespace Fault

variable (query : String)

theorem names_request (text : String) : (request query text).Names query :=
  ⟨((shows_self query).prepend _).append _, nofun, fun _ => rfl⟩

theorem names_storesMissing (warning text : String) :
    (storesMissing warning text query).Names query :=
  ⟨(shows_self query).prepend _, nofun, fun _ => rfl⟩

theorem names_body (source : Json.Fault) : (body query source).Names query :=
  ⟨(shows_self query).prepend _, nofun, fun _ => rfl⟩

theorem names_result (cause : ResultCause) : (result query cause).Names query :=
  ⟨(((shows_self query).prepend _).append _).append _, nofun, fun _ => rfl⟩

theorem names_task (cause : TaskCause) : (task query cause).Names query :=
  ⟨(((shows_self query).prepend _).append _).append _, nofun, fun _ => rfl⟩

theorem names_status (r : Request) (p : Response) :
    (status (r.statusText query p)).Names query :=
  ⟨(r.explains_statusText query p).query, fun _ _ => rfl, fun h => absurd rfl (h _)⟩

end Fault

/-! ## What a reply comes to -/

/-- The backend refused: it answered completely, with a status that is no success or with JSON in
which it warns of missing stores. -/
inductive Refused : Reply → Prop
  | status {p : Response} (h : ¬ (200 ≤ p.status ∧ p.status ≤ 299)) : Refused (.ok p)
  | stores {p : Response} {v : Json.Value} {ws : List String} {w : String} (h : p.Warns v ws)
    (hw : w ∈ ws) (hm : Warning.Marked w) : Refused (.ok p)

theorem not_refused_error (t : TransportFailure) : ¬ Refused (.error t) := nofun

theorem not_refused_unreadable {p : Response} {f : Json.Fault}
    (hs : 200 ≤ p.status ∧ p.status ≤ 299) (hb : Json.read p.body = .error f) :
    ¬ Refused (.ok p) := by
  intro h
  cases h with
  | status h => exact h hs
  | stores h =>
    have hread := h.json
    rw [hb] at hread
    cases hread

theorem Response.Warns.refused_iff {p : Response} {v : Json.Value} {ws : List String}
    (h : p.Warns v ws) : Refused (.ok p) ↔ ∃ w ∈ ws, Warning.Marked w := by
  constructor
  · intro hr
    cases hr with
    | status hs => exact absurd h.success hs
    | @stores _ v' ws' w h' hw hm =>
      obtain rfl : v = v' := Except.ok.inj (h.json.symm.trans h'.json)
      obtain rfl : ws = ws' := h.lists.eq_ofBody.trans h'.lists.eq_ofBody.symm
      exact ⟨w, hw, hm⟩
  · rintro ⟨w, hw, hm⟩
    exact .stores h hw hm

/-- The fault `f` of a query with the request `r` names the query, and tells what the reply was. -/
structure Diagnosed (r : Request) (query : String) (reply : Reply) (f : Fault) : Prop extends
    f.Names query where
  refusal : ∀ text, f = .status text → ∃ p, reply = .ok p ∧
    ¬ (200 ≤ p.status ∧ p.status ≤ 299) ∧ r.Explains query p text
  /-- A fault is the backend's own if the backend refused, and only then. -/
  backend : f.isBackend = true ↔ Refused reply

/-- The standard decoder has one kind of fault. -/
theorem Decoder.fault_standard {query : String} {v : Json.Value} {f : Fault}
    (h : standard query v = .done (.error f)) : ∃ cause, f = .result query cause := by
  rw [standard, decode, Decoding.done.injEq] at h
  cases hv : ofBody v with
  | ok ss =>
    rw [hv] at h
    cases h
  | error cause =>
    rw [hv] at h
    cases h
    exact ⟨cause, rfl⟩

namespace Context

variable {c : Context} {r : Request} {query : String} {reply : Reply} {f : Fault}

/-- Whatever rule applies to a reply, the fault that it gives is diagnosed. -/
theorem Verdict.diagnosed (hc : c.decoder = Decoder.standard) {ws : List String}
    (h : c.Verdict r query reply ⟨.error f, ws⟩) : Diagnosed r query reply f := by
  cases h with
  | unanswered t =>
    exact ⟨Fault.names_request query t.message, nofun, iff_of_false nofun (not_refused_error t)⟩
  | @refused p hs =>
    refine ⟨Fault.names_status query r p, fun text ht => ?_, iff_of_true rfl (.status hs)⟩
    obtain rfl := Fault.status.inj ht
    exact ⟨p, rfl, hs, r.explains_statusText query p⟩
  | unreadable hs hb =>
    exact ⟨Fault.names_body query _, nofun, iff_of_false nofun (not_refused_unreadable hs hb)⟩
  | @incomplete p v before after w hs hb hw hn hm =>
    have hwarns : p.Warns v (before ++ w :: after) := ⟨hs, hb, hw⟩
    have hmem : w ∈ before ++ w :: after := List.mem_append_right _ List.mem_cons_self
    exact ⟨Fault.names_storesMissing query w _, nofun, iff_of_true rfl (.stores hwarns hmem hm)⟩
  | @decoded p v ws _ hs hb hw hn hd =>
    rw [hc] at hd
    obtain ⟨cause, rfl⟩ := Decoder.fault_standard hd
    have hwarns : p.Warns v ws := ⟨hs, hb, hw⟩
    refine ⟨Fault.names_result query cause, nofun, iff_of_false nofun fun hr => ?_⟩
    obtain ⟨w, hw, hm⟩ := hwarns.refused_iff.mp hr
    exact hn w hw hm

/-- The standard decoder does not panic. -/
theorem done_of_standard (hc : c.decoder = Decoder.standard) (query : String) (v : Json.Value) :
    ∃ answer, c.decoder query v = .done answer :=
  ⟨_, by rw [hc, Decoder.standard]⟩

/-- An execution that fails has a diagnosed fault, and its report is one record: the query and the
message of the fault. -/
theorem execute_failed (hc : c.decoder = Decoder.standard) {o : Outcome} {report : Report}
    (h : c.execute query (r.body query reply) = .finished o report) (hf : o.results = .error f) :
    Diagnosed r query reply f ∧ report.errorRecords = [⟨query, f.message⟩] := by
  have hverdict := (c.outcome?_execute r query reply o).mp (by rw [h]; rfl)
  obtain ⟨results, ws⟩ := o
  obtain rfl : results = .error f := hf
  exact ⟨hverdict.diagnosed hc, (c.execute_report h).2⟩

end Context

/-! ## Where a failure comes from in a run -/

namespace Pool

variable {c : Context}

/-- The query in place `i` of the pool comes to `d` by the reply. -/
inductive Settles (c : Context) (p : Pool) (i : Nat) (reply : Reply) : Delivery → Prop
  | outcome {t : Task} {o : Outcome} (ht : p.tasks[i]? = some t) (hs : t.stage = .awaiting)
    (ho : (t.settle c reply).1 = .settled o) : Settles c p i reply (.ofOutcome t.query o)

/-- What a query has come to after an event, it had come to before, unless the event is its
reply. -/
theorem settles_of_step {p : Pool} {e : Event} {i : Nat} {d : Delivery}
    (h : (p.step c e).result? i = some d) :
    p.result? i = some d ∨ ∃ reply, e = .settle i reply ∧ Settles c p i reply d := by
  rcases step_cases c p e with ⟨now, query, kind, waiting, -, hs⟩ | ⟨j, t, hj, ht, hm⟩ | hs
  · rw [hs, result?_start rfl] at h
    exact .inl h
  · by_cases hij : i = j
    · subst hij
      cases hr : t.report? c e with
      | none =>
        rw [hm.result?_of_none ht hr] at h
        exact .inl h
      | some r =>
        rw [hm.result?_self ht] at h
        cases e with
        | settle k reply =>
          cases hj
          cases hstage : t.stage with
          | awaiting =>
            simp only [Task.report?, hstage] at hr
            obtain ⟨o, ho, -⟩ := Task.settle_report hr
            simp only [Task.result?, Task.step, hstage, ho] at h
            obtain rfl := Option.some.inj h
            exact .inr ⟨reply, rfl, .outcome ht hstage ho⟩
          | _ => simp only [Task.report?, hstage, reduceCtorEq] at hr
        | _ => cases hr
    · rw [hm.result?_other hij] at h
      exact .inl h
  · rw [hs] at h
    exact .inl h

/-- What a query came to in a run, it came to by the reply to it. -/
theorem settles_of_run {events : List Event} {i : Nat} {d : Delivery}
    (h : (run c {} events).result? i = some d) :
    ∃ before reply after, events = before ++ .settle i reply :: after ∧
      Settles c (run c {} before) i reply d := by
  induction events using List.reverseRecOn with
  | nil => cases h
  | append_singleton es e ih =>
    rw [run_append, run_cons, run_nil] at h
    rcases settles_of_step h with hes | ⟨reply, rfl, hsettles⟩
    · obtain ⟨before, reply, after, rfl, hsettles⟩ := ih hes
      refine ⟨before, reply, after ++ [e], ?_, hsettles⟩
      rw [List.append_assoc, List.cons_append]
    · exact ⟨es, reply, [], rfl, hsettles⟩

/-- The reply to the query in place `i` of the pool fails it: with a fault that is diagnosed for the
request of the query in that place, and a record of the query and the message of the fault. -/
structure Fails (c : Context) (p : Pool) (i : Nat) (query : String) (reply : Reply) (f : Fault) :
    Prop where
  diagnosed : ∃ t, p.tasks[i]? = some t ∧ t.query = query ∧
    (∃ now kind, t.request = c.request now query kind) ∧ Diagnosed t.request query reply f
  recorded : (p.step c (.settle i reply)).collector.errors =
    p.collector.errors ++ [⟨query, f.message⟩]

theorem Settles.fails (hc : c.decoder = Decoder.standard) {before : List Event} {i : Nat}
    {reply : Reply} {d : Delivery} {f : Fault} (h : Settles c (run c {} before) i reply d)
    (hf : d.fault = some f) : Fails c (run c {} before) i d.query reply f := by
  obtain @⟨t, o, ht, hstage, ho⟩ := h
  obtain ⟨o', r, hx, -⟩ :=
    c.execute_finished (Context.done_of_standard hc t.query) (t.request.body t.query reply)
  have hw : t.waiting ≠ .raw := by
    intro hraw
    simp only [Task.settle, hraw, reduceCtorEq] at ho
  have hsettle := Task.settle_finished (t := t) hw (by rw [Task.execution, Task.body]; exact hx)
  obtain rfl : o' = o := by
    rw [hsettle] at ho
    exact Stage.settled.inj ho
  have htells := Delivery.tells_ofOutcome t.query o'
  have hfault : o'.results = .error f := by
    rw [← htells.toResult, Delivery.toResult, hf]
  obtain ⟨hdiagnosed, hrecords⟩ := Context.execute_failed hc hx hfault
  have hrequest := request_of_mem c before (List.mem_of_getElem? ht)
  rw [htells.query]
  refine ⟨⟨t, ht, rfl, hrequest, hdiagnosed⟩, ?_⟩
  rw [(moved_settle ht reply).collector, ← hrecords]
  simp only [Task.report?, hstage, hsettle, Option.elim_some, Collector.errors_report]

theorem fails_of_result? (hc : c.decoder = Decoder.standard) {events : List Event} {i : Nat}
    {d : Delivery} {f : Fault} (h : (run c {} events).result? i = some d) (hf : d.fault = some f) :
    ∃ before reply after, events = before ++ .settle i reply :: after ∧
      Fails c (run c {} before) i d.query reply f := by
  obtain ⟨before, reply, after, hevents, hsettles⟩ := settles_of_run h
  exact ⟨before, reply, after, hevents, hsettles.fails hc hf⟩

/-- What a handle gave with a fault is what the query failed with, or the task was lost. -/
theorem failed_of_reading {events : List Event} {i : Nat} {d : Delivery} {f : Fault}
    (h : (i, d) ∈ (run c {} events).readings) (hf : d.fault = some f) :
    (run c {} events).result? i = some d ∨ f = .task d.query .undelivered := by
  obtain ⟨t, ht, hgave⟩ := faithful_run c events i d h
  rcases hgave with hd | ⟨-, rfl⟩
  · exact .inl (by rw [result?, ht]; exact hd)
  · exact .inr (Option.some.inj hf).symm

end Pool

/-! ## Failures -/

/-- A query of a session fails with `f`: inline with a diagnosed fault and as a task with the same,
and in each way there is one record, of the query and the message of the fault. -/
structure Session.Fails (c : Context) (env : Surroundings) (query : String) (kind : QueryKind)
    (s : Session) (f : Fault) : Prop where
  diagnosed : Diagnosed (c.request env.now query kind) query (reply c env query kind s) f
  handle : ∀ label, (spawn c env query kind label s).1.fault = some f
  recorded : (run c env query kind s).2.collector.errors =
      s.collector.errors ++ [⟨query, f.message⟩] ∧
    ∀ label, (spawn c env query kind label s).2.collector.errors =
      s.collector.errors ++ [⟨query, f.message⟩]

theorem Session.fails {c : Context} {env : Surroundings} {query : String} {kind : QueryKind}
    {s : Session} {o : Outcome} {r : Report} {f : Fault} (hc : c.decoder = Decoder.standard)
    (h : execution c env query kind s = .finished o r) (hf : o.results = .error f) :
    Fails c env query kind s f := by
  have hagrees := agrees h
  obtain ⟨hdiagnosed, hrecords⟩ := Context.execute_failed hc h hf
  refine ⟨hdiagnosed, fun label => ((hagrees.handle label).1.failed f hf).1, ?_, fun label => ?_⟩
  · rw [hagrees.collector.1, Collector.errors_report, hrecords]
  · rw [hagrees.collector.2.1 label, Collector.errors_report, hrecords]

/-- Every failure is diagnosed. A query of a session has an outcome inline and the same as a task,
and if that is a fault, the fault names the query, tells what the reply was, and is recorded with
the query and its message. In every run of a pool the same is true of each query that comes to a
fault, which it does by the reply to it; what a handle gives besides is that a task was lost, which
names the query as well. -/
theorem Context.failures_diagnosed (c : Context) (hc : c.decoder = Decoder.standard) :
    (∀ env query kind s, ∃ o, (Session.run c env query kind s).1 = some o ∧
      (∀ label, (Session.spawn c env query kind label s).1.toResult = o.results) ∧
      ∀ f, o.results = .error f → Session.Fails c env query kind s f) ∧
    ∀ events i d f, d.fault = some f →
      ((Pool.run c {} events).result? i = some d →
        ∃ before reply after, events = before ++ .settle i reply :: after ∧
          Pool.Fails c (Pool.run c {} before) i d.query reply f) ∧
      ((i, d) ∈ (Pool.run c {} events).readings → f.Names d.query ∧
        ((Pool.run c {} events).result? i = some d ∨ f = .task d.query .undelivered)) := by
  refine ⟨fun env query kind s => ?_, fun events i d f hf => ⟨fun hd => ?_, fun hd => ?_⟩⟩
  · obtain ⟨o, r, h, -⟩ :=
      c.execute_finished (done_of_standard hc query) (Session.body c env query kind s)
    have hagrees := Session.agrees h
    exact ⟨o, hagrees.inline, fun label => (hagrees.handle label).1.toResult,
      fun f hf => Session.fails hc h hf⟩
  · exact Pool.fails_of_result? hc hd hf
  · have hgave := Pool.failed_of_reading hd hf
    refine ⟨?_, hgave⟩
    rcases hgave with hd | rfl
    · obtain ⟨_, _, _, -, hfails⟩ := Pool.fails_of_result? hc hd hf
      obtain ⟨_, _, _, _, hdiagnosed⟩ := hfails.diagnosed
      exact hdiagnosed.toNames
    · exact Fault.names_task d.query .undelivered

/-- A backend that is not available: the outcome is a fault, and diagnosed. -/
theorem Context.failures_diagnosed_unavailable :
    let c : Context := { client := ⟨⟨"http".toList, none, false, ['/'], none, none⟩⟩ }
    let env : Surroundings :=
      { backend := ⟨fun _ => true, fun _ _ => .ok ⟨503, [], Utf8.encode "down"⟩⟩, now := .epoch }
    c.decoder = Decoder.standard ∧
      ∃ f, Session.Fails c env "up" .instant {} f ∧ f.isBackend = true := by
  intro c env
  obtain ⟨o, ho, -, hfails⟩ := (c.failures_diagnosed rfl).1 env "up" .instant {}
  obtain rfl := Option.some.inj ho
  exact ⟨rfl, _, hfails _ rfl, rfl⟩

end MetricsQuery
