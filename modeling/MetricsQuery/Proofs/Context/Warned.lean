import MetricsQuery.Proofs.Context.Batch

/-!
# What becomes of the warnings of a body

The warnings of a backend are in the body of its response (`Response.Warns`), and are read before
the decoder is asked. An execution that ends with an outcome has them all in its outcome and in its
report (`execute_warned`), so they are collected and whoever waits for the query is given them
(`KeepsWarnings`). Only a decoder that panics at the body takes them along: `warnings_kept`.
-/

namespace MetricsQuery

/-- A response is a success with a JSON body, in which the backend gives the warnings `ws`. -/
structure Response.Warns (p : Response) (v : Json.Value) (ws : List String) : Prop where
  success : 200 ≤ p.status ∧ p.status ≤ 299
  json : Json.read p.body = .ok v
  lists : Warning.Lists v ws

namespace Context

variable (c : Context)

/-- The decoder is asked about a body, since no warning in it is a fault, and panics. -/
def PanicsAt (query : String) (v : Json.Value) (ws : List String) : Prop :=
  (∀ w ∈ ws, ¬ Warning.Marked w) ∧ ∃ text, c.decoder query v = .panic text

variable {c} {query : String} {p : Response} {v : Json.Value} {ws : List String}

/-- An execution with an outcome has the warnings of the body in it, whatever the outcome is. -/
theorem execute_warned (request : Request) (h : p.Warns v ws) (hn : ¬ c.PanicsAt query v ws) :
    ∃ results report, c.execute query (request.body query (.ok p)) =
      .finished ⟨results, ws⟩ report := by
  rw [Request.body_success request query h.success]
  rcases Warning.first_or_none ws with hclean | ⟨before, w, after, rfl, hclean, hmarked⟩
  · have hfetched := fetched_complete query h.json h.lists hclean
    cases hd : c.decoder query v with
    | done answer =>
      cases answer <;> exact ⟨_, _, by simp only [execute, hfetched, hd]; rfl⟩
    | panic text => exact absurd ⟨hclean, text, hd⟩ hn
  · have hfetched := fetched_incomplete query h.json h.lists hclean hmarked
    exact ⟨_, _, execute_of_fault c hfetched⟩

/-- A panic of the decoder leaves an execution nothing but its text. -/
theorem execute_panicked (request : Request) (h : p.Warns v ws) (hp : c.PanicsAt query v ws) :
    ∃ text, c.execute query (request.body query (.ok p)) = .panicked text := by
  obtain ⟨hclean, text, hd⟩ := hp
  exact ⟨text, Panics.execute_eq c (.mk h.success h.json h.lists hclean hd) request⟩

end Context

namespace Task

variable {c : Context} {t : Task} {p : Response} {v : Json.Value} {ws : List String}

/-- A reply with warnings settles a query with all of them, in its outcome and in its report. -/
theorem settle_warned (hw : t.waiting ≠ .raw) (h : p.Warns v ws) (hn : ¬ c.PanicsAt t.query v ws) :
    ∃ results report, t.settle c (.ok p) = (.settled ⟨results, ws⟩, some report) ∧
      report.warningRecords = ws.map (⟨t.query, ·⟩) := by
  obtain ⟨results, report, hx⟩ := Context.execute_warned t.request h hn
  refine ⟨results, report, ?_, ?_⟩
  · unfold settle
    cases hwait : t.waiting with
    | raw => exact absurd hwait hw
    | inline => simp only [execution, body, hx]
    | handle label => simp only [execution, body, hx, Execution.caught]
  · rw [(c.execute_report hx).1]
    cases results <;> rfl

/-- A reply at which the decoder panics settles a query without any, if it does not end it. -/
theorem settle_panicked (hw : t.waiting ≠ .raw) (h : p.Warns v ws) (hp : c.PanicsAt t.query v ws) :
    (∀ report, (t.settle c (.ok p)).2 = some report → report.warningRecords = []) ∧
      ((t.settle c (.ok p)).1 = .lost ∨
        ∃ o, (t.settle c (.ok p)).1 = .settled o ∧ o.warnings = []) := by
  obtain ⟨text, hx⟩ := Context.execute_panicked t.request h hp
  unfold settle
  cases hwait : t.waiting with
  | raw => exact absurd hwait hw
  | inline =>
    simp only [execution, body, hx]
    refine ⟨fun report hr => ?_, .inl trivial⟩
    cases hr
  | handle label =>
    simp only [execution, body, hx, Execution.caught, Option.some.injEq]
    refine ⟨fun report hr => ?_, .inr ⟨_, rfl, rfl⟩⟩
    rw [← hr]
    rfl

end Task

namespace Pool

variable {c : Context} {p : Pool} {i : Nat}

/-! ## What a run keeps -/

/-- A collector only ever grows. -/
theorem warnings_prefix_step (c : Context) (p : Pool) (e : Event) :
    p.collector.warnings <+: (p.step c e).collector.warnings := by
  rcases step_cases c p e with ⟨now, query, kind, waiting, -, hs⟩ | ⟨i, t, -, -, hm⟩ | hs
  · have hkept : (p.step c e).collector = p.collector := by rw [hs]
    exact hkept ▸ List.prefix_rfl
  · rw [hm.collector]
    cases t.report? c e with
    | none => exact List.prefix_rfl
    | some r => exact List.prefix_append _ _
  · exact hs.symm ▸ List.prefix_rfl

theorem warnings_prefix_run (c : Context) (p : Pool) (es : List Event) :
    p.collector.warnings <+: (run c p es).collector.warnings := by
  induction es generalizing p with
  | nil => exact List.prefix_rfl
  | cons e es ih => exact (warnings_prefix_step c p e).trans (ih (p.step c e))

/-- What a query came to is for good. -/
theorem result?_run {d : Delivery} (h : p.result? i = some d) (es : List Event) :
    (run c p es).result? i = some d := by
  obtain ⟨t, ht, hd⟩ := Option.bind_eq_some_iff.mp h
  obtain ⟨o, ho, hd⟩ := Option.map_eq_some_iff.mp hd
  rw [result?, getElem?_run ht, Option.bind_some, Task.result?, Task.outcome?_run ho,
    Task.query_run, Option.map_some, hd]

/-- What the handle of a query gave is what the query came to, if it came to anything. -/
theorem Faithful.eq_of_mem_readings (h : Faithful p) {d d' : Delivery} (hd : p.result? i = some d)
    (hr : (i, d') ∈ p.readings) : d' = d := by
  obtain ⟨t, ht, hgave⟩ := h i d' hr
  rw [result?, ht, Option.bind_some] at hd
  rcases hgave with hd' | ⟨hlost, -⟩
  · exact Option.some.inj (hd'.symm.trans hd)
  · rw [Task.result?, hlost] at hd
    cases hd

/-- The handle of a query that awaits its reply gave nothing. -/
theorem Faithful.given_of_awaiting (h : Faithful p) {t : Task} (ht : p.tasks[i]? = some t)
    (hs : t.stage = .awaiting) : p.given i = [] := by
  refine List.filterMap_eq_nil_iff.mpr fun (j, d) hr => if_neg fun hj => ?_
  subst hj
  obtain ⟨t', ht', hgave⟩ := h j d hr
  obtain rfl := Option.some.inj (ht.symm.trans ht')
  rcases hgave with hd | ⟨hlost, -⟩
  · rw [Task.result?, hs] at hd
    cases hd
  · rw [hs] at hlost
    cases hlost

/-! ## Warnings -/

/-- Between the pools `p` and `p'` the query in place `i` got its reply, and the warnings `ws` that
came with it were kept: they are recorded for the query, all of them and in their order, and they
are part of what it came to and of whatever its handle gives. -/
structure KeepsWarnings (p p' : Pool) (i : Nat) (query : String) (ws : List String) : Prop where
  recorded : p.collector.warnings ++ ws.map (⟨query, ·⟩) <+: p'.collector.warnings
  outcome : ∃ d, p'.result? i = some d ∧ d.query = query ∧ d.warnings = ws
  read : ∀ d, (i, d) ∈ p'.readings → d.query = query ∧ d.warnings = ws

section

variable {t : Task} {response : Response} {v : Json.Value} {ws : List String}

theorem keepsWarnings_run (hf : Faithful p) (ht : p.tasks[i]? = some t) (hs : t.stage = .awaiting)
    (hw : t.waiting ≠ .raw) (h : response.Warns v ws) (hn : ¬ c.PanicsAt t.query v ws)
    (after : List Event) :
    KeepsWarnings p (run c p (.settle i (.ok response) :: after)) i t.query ws := by
  obtain ⟨results, report, hsettle, hrecords⟩ := Task.settle_warned hw h hn
  have hm := moved_settle (c := c) ht (.ok response)
  have hreport : t.report? c (.settle i (.ok response)) = some report := by
    simp only [Task.report?, hs, hsettle]
  have hstage : (t.step c (.settle i (.ok response))).stage = .settled ⟨results, ws⟩ := by
    simp only [Task.step, hs, hsettle]
  have hresult : (p.step c (.settle i (.ok response))).result? i =
      some (.ofOutcome t.query ⟨results, ws⟩) := by
    rw [hm.result?_self ht, Task.result?, hstage, Task.query_step]
    rfl
  have hlast := result?_run (c := c) hresult after
  have hd : ∀ d, d = Delivery.ofOutcome t.query ⟨results, ws⟩ →
      d.query = t.query ∧ d.warnings = ws := by
    rintro d rfl
    cases results <;> exact ⟨rfl, rfl⟩
  refine ⟨?_, ⟨_, hlast, hd _ rfl⟩, fun d hr => hd d ?_⟩
  · have hstep : (p.step c (.settle i (.ok response))).collector.warnings =
        p.collector.warnings ++ ws.map (⟨t.query, ·⟩) := by
      rw [hm.collector, hreport, Option.elim_some, Collector.warnings_report, hrecords]
    rw [← hstep]
    exact warnings_prefix_run c _ after
  · exact (hf.run (.settle i (.ok response) :: after)).eq_of_mem_readings hlast hr

/-- Where the decoder panics, nothing is recorded at the reply and no warning is delivered. -/
theorem losesWarnings_run (ht : p.tasks[i]? = some t) (hs : t.stage = .awaiting)
    (hw : t.waiting ≠ .raw) (h : response.Warns v ws) (hp : c.PanicsAt t.query v ws)
    (after : List Event) :
    (p.step c (.settle i (.ok response))).collector.warnings = p.collector.warnings ∧
      ∀ d, (run c p (.settle i (.ok response) :: after)).result? i = some d → d.warnings = [] := by
  obtain ⟨hreport, hlater⟩ := Task.settle_panicked hw h hp
  have hm := moved_settle (c := c) ht (.ok response)
  refine ⟨?_, fun d hd => ?_⟩
  · rw [hm.collector, Task.report?, hs]
    cases hr : (t.settle c (.ok response)).2 with
    | none => rfl
    | some report =>
      rw [Option.elim_some, Collector.warnings_report, hreport report hr, List.append_nil]
  · have hrun := getElem?_run (c := c) ht (.settle i (.ok response) :: after)
    rw [own_cons_self rfl, Task.run_cons] at hrun
    have hstage : (t.step c (.settle i (.ok response))).stage = (t.settle c (.ok response)).1 := by
      simp only [Task.step, hs]
    rw [result?, hrun, Option.bind_some] at hd
    rcases hlater with hlost | ⟨o, ho, hempty⟩
    · have hlast := Task.lost_run (c := c) (hstage.trans hlost) (own i after)
      rw [Task.result?, hlast] at hd
      cases hd
    · have hlast := Task.outcome?_run (c := c) (o := o) (by rw [hstage, ho]; rfl) (own i after)
      rw [Task.result?, hlast, Option.map_some, Option.some.injEq] at hd
      rw [← hd]
      cases hres : o.results <;> simp only [Delivery.ofOutcome, hres, hempty]

/-- The handle of a task gives the warnings of the reply once the task ran its course, unless it was
dropped. -/
theorem given_warned (hf : Faithful p) (ht : p.tasks[i]? = some t) (hs : t.stage = .awaiting)
    {label : Option String} (hw : t.waiting = .handle label) (hh : t.held = true)
    (h : response.Warns v ws) (hn : ¬ c.PanicsAt t.query v ws) {after : List Event}
    {elapsed : Duration} (hc : [.time i elapsed, .deliver i, .read i].Sublist after)
    (hdrop : .drop i ∉ after) :
    ∃ d, (run c p (.settle i (.ok response) :: after)).given i = [d] ∧ d.query = t.query ∧
      d.warnings = ws := by
  have hraw : t.waiting ≠ .raw := by rw [hw]; exact nofun
  have hfate : fateOf (own i (.settle i (.ok response) :: after)) =
      some (.replied (.ok response)) := by
    rw [own_cons_self rfl]
    rfl
  have hnodrop : .drop i ∉ .settle i (.ok response) :: after := by
    intro hj
    rcases List.mem_cons.mp hj with hj | hj
    · cases hj
    · exact hdrop hj
  have hgiven := given_of_course (c := c) ht (hf.given_of_awaiting ht hs) hw hs hh hfate
    (hc.cons_cons _) hnodrop
  have hmem : (i, (Fate.replied (.ok response)).delivery c t.query t.request) ∈
      (run c p (.settle i (.ok response) :: after)).readings := by
    have hg : (Fate.replied (.ok response)).delivery c t.query t.request ∈
        (run c p (.settle i (.ok response) :: after)).given i := by
      rw [hgiven]
      exact List.mem_singleton_self _
    obtain ⟨⟨j, d⟩, hr, hd⟩ := List.mem_filterMap.mp hg
    split at hd
    · next hj =>
      cases hd
      cases hj
      exact hr
    · cases hd
  exact ⟨_, hgiven, (keepsWarnings_run hf ht hs hraw h hn after).read _ hmem⟩

end

/-- A query that is not raw, and has a success with a JSON body for its reply, keeps the warnings in
the body, whatever comes of it and whatever happens before and after, and a task that runs its
course delivers them to its handle; unless the decoder is asked about the body and panics: then none
is recorded at the reply and none is delivered. -/
theorem warnings_kept (c : Context) (before after : List Event) {i : Nat} {t : Task}
    {response : Response} {v : Json.Value} {ws : List String}
    (ht : (run c {} before).tasks[i]? = some t) (hs : t.stage = .awaiting) (hw : t.waiting ≠ .raw)
    (h : response.Warns v ws) :
    (¬ c.PanicsAt t.query v ws →
      KeepsWarnings (run c {} before) (run c {} (before ++ .settle i (.ok response) :: after)) i
        t.query ws ∧
      ∀ label elapsed, t.waiting = .handle label → t.held = true →
        [.time i elapsed, .deliver i, .read i].Sublist after → .drop i ∉ after →
        ∃ d, (run c {} (before ++ .settle i (.ok response) :: after)).given i = [d] ∧
          d.query = t.query ∧ d.warnings = ws) ∧
    (c.PanicsAt t.query v ws →
      (run c {} (before ++ [.settle i (.ok response)])).collector.warnings =
        (run c {} before).collector.warnings ∧
      ∀ d, (run c {} (before ++ .settle i (.ok response) :: after)).result? i = some d →
        d.warnings = []) := by
  have hf := faithful_run c before
  simp only [run_append]
  refine ⟨fun hn => ⟨keepsWarnings_run hf ht hs hw h hn after, ?_⟩,
    fun hp => losesWarnings_run ht hs hw h hp after⟩
  intro label elapsed hhandle hh hc hdrop
  exact given_warned hf ht hs hhandle hh h hn hc hdrop

/-- A success with a JSON body in which the backend gives one warning. -/
def warnedResponse : Response :=
  ⟨200, [], Utf8.encode "\x7b\"warnings\":[\"partial response\"]\x7d"⟩

theorem warns_warnedResponse : ∃ v, warnedResponse.Warns v ["partial response"] := by
  have hread : (match Json.read warnedResponse.body with
      | .ok v => Warning.ofBody v == ["partial response"]
      | .error _ => false) = true := by
    decide +kernel
  split at hread
  · next v hv =>
    refine ⟨v, by decide, hv, ?_⟩
    rw [← eq_of_beq hread]
    exact Warning.lists_ofBody v
  · cases hread

/-- The standard decoder finds no data in that body, and the warning is kept nevertheless. -/
theorem warnings_kept_standard :
    let c : Context := { client := ⟨⟨"http".toList, none, false, ['/'], none, none⟩⟩ }
    let before : List Event := [.start .epoch "up" .instant (.handle none)]
    let t := begun c .epoch "up" .instant none
    (run c {} before).tasks[0]? = some t ∧ t.stage = .awaiting ∧ t.waiting ≠ .raw ∧
      KeepsWarnings (run c {} before) (run c {} (before ++ [.settle 0 (.ok warnedResponse)])) 0 "up"
        ["partial response"] := by
  intro c before t
  have ht : (run c {} before).tasks[0]? = some t := rfl
  have hw : t.waiting ≠ .raw := nofun
  obtain ⟨v, hv⟩ := warns_warnedResponse
  have hn : ¬ c.PanicsAt t.query v ["partial response"] := by
    rintro ⟨-, text, h⟩
    cases h
  have hkept := ((warnings_kept c before [] ht rfl hw hv).1 hn).1
  exact ⟨ht, rfl, hw, hkept⟩

/-- A decoder that panics at the body loses the warning: it is not kept. -/
theorem not_keepsWarnings_of_panic :
    let c : Context := { client := ⟨⟨"http".toList, none, false, ['/'], none, none⟩⟩
                         decoder := fun _ _ => .panic (some "decoder blew up") }
    let before : List Event := [.start .epoch "up" .instant (.handle none)]
    (∃ v, warnedResponse.Warns v ["partial response"]) ∧
      ¬ KeepsWarnings (run c {} before) (run c {} (before ++ [.settle 0 (.ok warnedResponse)])) 0
        "up" ["partial response"] := by
  intro c before
  obtain ⟨v, hv⟩ := warns_warnedResponse
  refine ⟨⟨v, hv⟩, fun h => ?_⟩
  have hclean : ∀ w ∈ ["partial response"], ¬ Warning.Marked w := by
    intro w hw
    rw [List.mem_singleton.mp hw, ← Warning.isStoresMissing_iff]
    decide
  have ht : (run c {} before).tasks[0]? = some (begun c .epoch "up" .instant none) := rfl
  obtain ⟨-, hlost⟩ := losesWarnings_run (c := c) ht rfl nofun hv
    ⟨hclean, _, rfl⟩ []
  obtain ⟨d, hd, -, hws⟩ := h.outcome
  rw [run_append] at hd
  rw [hlost d hd] at hws
  cases hws

end Pool

end MetricsQuery
