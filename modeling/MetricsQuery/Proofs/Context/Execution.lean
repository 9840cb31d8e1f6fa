import MetricsQuery.Context.Session
import MetricsQuery.Proofs.Query.Warning

/-!
# How a reply is classified

What a query comes to, by the first rule that applies to its reply (`Verdict`): a transport that
failed, a status that is no success, a body that is no JSON, a warning that stores are missing, and
only then the answer of the decoder, unless it panics (`Panics`). An execution gives exactly the
outcome that the rules give (`outcome?_execute`), and so does a query that runs inline
(`run_verdict`).
-/

namespace MetricsQuery

open Session

theorem Status.isSuccess_iff (code : Nat) : isSuccess code = true ↔ 200 ≤ code ∧ code ≤ 299 := by
  simp only [isSuccess, Bool.and_eq_true, decide_eq_true_eq]

namespace Request

theorem body_error (r : Request) (query : String) (f : TransportFailure) :
    r.body query (.error f) = .error (.request query f.message) := rfl

theorem body_success (r : Request) (query : String) {p : Response}
    (h : 200 ≤ p.status ∧ p.status ≤ 299) : r.body query (.ok p) = .ok p.body := by
  simp only [body, (Status.isSuccess_iff p.status).mpr h, if_true]

theorem body_refused (r : Request) (query : String) {p : Response}
    (h : ¬ (200 ≤ p.status ∧ p.status ≤ 299)) :
    r.body query (.ok p) = .error (.status (r.statusText query p)) := by
  rw [← Status.isSuccess_iff] at h
  simp only [body, h, Bool.false_eq_true, if_false]

end Request

namespace Context

variable (c : Context)

/-- The outcome of a query with the request `r`, by the first rule that applies to its reply. The
warnings of the backend are kept from the moment on that its body is read. -/
inductive Verdict (r : Request) (query : String) : Reply → Outcome → Prop
  /-- The transport failed. -/
  | unanswered (f : TransportFailure) :
    Verdict r query (.error f) ⟨.error (.request query f.message), []⟩
  /-- The status is no success, whatever the body is. -/
  | refused {p : Response} (hs : ¬ (200 ≤ p.status ∧ p.status ≤ 299)) :
    Verdict r query (.ok p) ⟨.error (.status (r.statusText query p)), []⟩
  /-- The body is no JSON. -/
  | unreadable {p : Response} {f : Json.Fault} (hs : 200 ≤ p.status ∧ p.status ≤ 299)
    (hb : Json.read p.body = .error f) : Verdict r query (.ok p) ⟨.error (.body query f), []⟩
  /-- The first marked warning is `w`, whatever the data is and whatever the decoder would say. -/
  | incomplete {p : Response} {v : Json.Value} {before after : List String} {w : String}
    (hs : 200 ≤ p.status ∧ p.status ≤ 299) (hb : Json.read p.body = .ok v)
    (hw : Warning.Lists v (before ++ w :: after)) (hn : ∀ x ∈ before, ¬ Warning.Marked x)
    (hm : Warning.Marked w) :
    Verdict r query (.ok p)
      ⟨.error (.storesMissing w (Utf8.decodeLossy p.body) query), before ++ w :: after⟩
  /-- No warning is marked: the decoder decides. -/
  | decoded {p : Response} {v : Json.Value} {ws : List String} {answer : Except Fault (List Series)}
    (hs : 200 ≤ p.status ∧ p.status ≤ 299) (hb : Json.read p.body = .ok v)
    (hw : Warning.Lists v ws) (hn : ∀ x ∈ ws, ¬ Warning.Marked x)
    (hd : c.decoder query v = .done answer) : Verdict r query (.ok p) ⟨answer, ws⟩

/-- The reply is left to the decoder, as it is by the last of the rules, and the decoder panics. -/
inductive Panics (query : String) : Reply → Option String → Prop
  | mk {p : Response} {v : Json.Value} {ws : List String} {text : Option String}
    (hs : 200 ≤ p.status ∧ p.status ≤ 299) (hb : Json.read p.body = .ok v)
    (hw : Warning.Lists v ws) (hn : ∀ x ∈ ws, ¬ Warning.Marked x)
    (hd : c.decoder query v = .panic text) : Panics query (.ok p) text

/-! ## Stages -/

theorem fetched_unreadable (query : String) {bytes : List UInt8} {f : Json.Fault}
    (h : Json.read bytes = .error f) :
    fetched query (.ok bytes) = (.error (.body query f), []) := by
  simp only [fetched, h]

theorem fetched_incomplete (query : String) {bytes : List UInt8} {v : Json.Value}
    {before after : List String} {w : String} (h : Json.read bytes = .ok v)
    (hw : Warning.Lists v (before ++ w :: after)) (hn : ∀ x ∈ before, ¬ Warning.Marked x)
    (hm : Warning.Marked w) :
    fetched query (.ok bytes) =
      (.error (.storesMissing w (Utf8.decodeLossy bytes) query), before ++ w :: after) := by
  simp only [fetched, h, ← hw.eq_ofBody, Warning.classify_of_first query bytes hn hm]
  rfl

theorem fetched_complete (query : String) {bytes : List UInt8} {v : Json.Value} {ws : List String}
    (h : Json.read bytes = .ok v) (hw : Warning.Lists v ws) (hn : ∀ x ∈ ws, ¬ Warning.Marked x) :
    fetched query (.ok bytes) = (.ok v, ws) := by
  simp only [fetched, h, ← hw.eq_ofBody, Warning.classify_of_none query bytes hn]
  rfl

theorem execute_of_fault {query : String} {body : Except Fault (List UInt8)} {f : Fault}
    {ws : List String} (h : fetched query body = (.error f, ws)) :
    c.execute query body = .finished ⟨.error f, ws⟩ ⟨query, ws, some f, none⟩ := by
  simp only [execute, h]

theorem execute_of_done {query : String} {body : Except Fault (List UInt8)} {v : Json.Value}
    {ws : List String} {answer : Except Fault (List Series)} (h : fetched query body = (.ok v, ws))
    (hd : c.decoder query v = .done answer) :
    (c.execute query body).outcome? = some ⟨answer, ws⟩ := by
  cases answer <;> simp only [execute, h, hd, Execution.outcome?]

theorem execute_of_panic {query : String} {body : Except Fault (List UInt8)} {v : Json.Value}
    {ws : List String} {text : Option String} (h : fetched query body = (.ok v, ws))
    (hd : c.decoder query v = .panic text) : c.execute query body = .panicked text := by
  simp only [execute, h, hd]

/-! ## All stages -/

/-- What the rules give is what an execution gives. -/
theorem Verdict.outcome?_execute {r : Request} {query : String} {reply : Reply} {o : Outcome}
    (h : c.Verdict r query reply o) :
    (c.execute query (r.body query reply)).outcome? = some o := by
  cases h with
  | unanswered f => rw [Request.body_error, execute_of_fault c rfl]; rfl
  | refused hs => rw [Request.body_refused r query hs, execute_of_fault c rfl]; rfl
  | unreadable hs hb =>
    rw [Request.body_success r query hs, execute_of_fault c (fetched_unreadable query hb)]; rfl
  | incomplete hs hb hw hn hm =>
    rw [Request.body_success r query hs,
      execute_of_fault c (fetched_incomplete query hb hw hn hm)]; rfl
  | decoded hs hb hw hn hd =>
    rw [Request.body_success r query hs, execute_of_done c (fetched_complete query hb hw hn) hd]

/-- Where the rules give an outcome, the execution is finished with it. -/
theorem Verdict.finished {r : Request} {query : String} {reply : Reply} {o : Outcome}
    (h : c.Verdict r query reply o) :
    ∃ report, c.execute query (r.body query reply) = .finished o report := by
  have ho := h.outcome?_execute
  cases hx : c.execute query (r.body query reply) with
  | finished o' report =>
    rw [hx, Execution.outcome?, Option.some.injEq] at ho
    exact ⟨report, ho ▸ rfl⟩
  | panicked text =>
    rw [hx] at ho
    cases ho

/-- The rules give one outcome at most. -/
theorem Verdict.unique {r : Request} {query : String} {reply : Reply} {o o' : Outcome}
    (h : c.Verdict r query reply o) (h' : c.Verdict r query reply o') : o = o' :=
  Option.some.inj (h.outcome?_execute.symm.trans h'.outcome?_execute)

theorem Panics.execute_eq {query : String} {reply : Reply} {text : Option String}
    (h : c.Panics query reply text) (r : Request) :
    c.execute query (r.body query reply) = .panicked text := by
  obtain ⟨hs, hb, hw, hn, hd⟩ := h
  rw [Request.body_success r query hs]
  exact execute_of_panic c (fetched_complete query hb hw hn) hd

theorem Panics.decoder_eq {query : String} {reply : Reply} {text : Option String}
    (h : c.Panics query reply text) : ∃ v, c.decoder query v = .panic text := by
  obtain ⟨-, -, -, -, hd⟩ := h
  exact ⟨_, hd⟩

/-- A reply is classified, unless the decoder panics at it. -/
theorem verdict_or_panics (r : Request) (query : String) (reply : Reply) :
    (∃ o, c.Verdict r query reply o) ∨ ∃ text, c.Panics query reply text := by
  match reply with
  | .error f => exact .inl ⟨_, .unanswered f⟩
  | .ok p =>
    by_cases hs : 200 ≤ p.status ∧ p.status ≤ 299
    · cases hb : Json.read p.body with
      | error f => exact .inl ⟨_, .unreadable hs hb⟩
      | ok v =>
        have hw := Warning.lists_ofBody v
        rcases Warning.first_or_none (Warning.ofBody v) with hn | ⟨before, w, after, e, hn, hm⟩
        · cases hd : c.decoder query v with
          | done answer => exact .inl ⟨_, .decoded hs hb hw hn hd⟩
          | panic text => exact .inr ⟨text, .mk hs hb hw hn hd⟩
        · rw [e] at hw
          exact .inl ⟨_, .incomplete hs hb hw hn hm⟩
    · exact .inl ⟨_, .refused hs⟩

/-- An execution has the outcome that the rules give, and none if they give none. -/
theorem outcome?_execute (r : Request) (query : String) (reply : Reply) (o : Outcome) :
    (c.execute query (r.body query reply)).outcome? = some o ↔ c.Verdict r query reply o := by
  refine ⟨fun h => ?_, fun h => h.outcome?_execute⟩
  rcases c.verdict_or_panics r query reply with ⟨o', h'⟩ | ⟨text, hp⟩
  · rw [h'.outcome?_execute, Option.some.injEq] at h
    exact h ▸ h'
  · rw [hp.execute_eq] at h
    cases h

/-- With a decoder that does not panic, a query that runs inline has an outcome: the one that the
rules give for the reply to it, and no other. -/
theorem run_verdict (env : Surroundings) (query : String) (kind : QueryKind) (s : Session)
    (hd : ∀ v, ∃ answer, c.decoder query v = .done answer) :
    ∃ o, (run c env query kind s).1 = some o ∧ ∀ o',
      c.Verdict (c.request env.now query kind) query (reply c env query kind s) o' ↔ o' = o := by
  have hrun : (run c env query kind s).1 =
      (c.execute query ((c.request env.now query kind).body query
        (reply c env query kind s))).outcome? := rfl
  rcases c.verdict_or_panics (c.request env.now query kind) query (reply c env query kind s) with
    ⟨o, h⟩ | ⟨text, hp⟩
  · refine ⟨o, hrun.trans h.outcome?_execute, fun o' => ⟨fun h' => ?_, fun e => e ▸ h⟩⟩
    have e := h'.outcome?_execute.symm.trans h.outcome?_execute
    exact Option.some.inj e
  · obtain ⟨v, hv⟩ := hp.decoder_eq
    obtain ⟨answer, ha⟩ := hd v
    rw [ha] at hv
    cases hv

/-- The standard decoder does not panic, so the rules decide of each query of its contexts, such as
one whose backend warns of missing stores. -/
theorem run_verdict_standard :
    let c : Context := { client := ⟨⟨"http".toList, none, false, ['/'], none, none⟩⟩ }
    let env : Surroundings :=
      { backend := ⟨fun _ => true, fun _ _ => .ok ⟨200, [], Utf8.encode
          "\x7b\"warnings\":[1,\"No StoreAPIs matched for this query (2)\"]\x7d"⟩⟩,
        now := .epoch }
    (∀ v, ∃ answer, c.decoder "up" v = .done answer) ∧
      ∃ o, (run c env "up" .instant {}).1 = some o ∧ ∀ o',
        c.Verdict (c.request env.now "up" .instant) "up" (reply c env "up" .instant {}) o' ↔
          o' = o := by
  intro c env
  have hd : ∀ v, ∃ answer, c.decoder "up" v = .done answer := fun v => ⟨_, rfl⟩
  exact ⟨hd, c.run_verdict env "up" .instant {} hd⟩

end Context

end MetricsQuery
