import MetricsQuery.Context.Session
import MetricsQuery.Proofs.Context.Request
import MetricsQuery.Proofs.Http.Header

/-!
# The headers of a request

A request has one header with its query, which is read back as the query that its URL asks for, and
one with the name of its context, if there is a name and it can be the value of a header. It has no
other header, and no value goes over more than one line: `headers_request`. A name that cannot be
the value of a header is as good as none (`alike_unnamed`): queries do the same under it, in every
run of a pool and at every entry point of a session.
-/

namespace MetricsQuery

namespace Context

variable (c : Context)

/-- The context without its name. -/
def unnamed : Context := { c with name := "" }

/-! ## Headers -/

theorem requestHeaders_named (hname : c.name ≠ "") (hlegal : Header.Legal c.name)
    (query : String) : c.requestHeaders query =
      [⟨nameHeader, c.name⟩, ⟨queryHeader, String.ofList (Url.Form.encodeText query)⟩] := by
  rw [requestHeaders, if_pos ⟨hname, (Header.isLegal_iff c.name).mpr hlegal⟩,
    if_pos (Header.isLegal_encodeText query)]
  rfl

theorem requestHeaders_unnamed (h : c.name = "" ∨ ¬ Header.Legal c.name) (query : String) :
    c.requestHeaders query = [⟨queryHeader, String.ofList (Url.Form.encodeText query)⟩] := by
  have hnot : ¬ (c.name ≠ "" ∧ Header.isLegal c.name = true) := by
    rintro ⟨hname, hlegal⟩
    exact h.elim hname fun hf => hf ((Header.isLegal_iff c.name).mp hlegal)
  rw [requestHeaders, if_neg hnot, if_pos (Header.isLegal_encodeText query)]
  rfl

/-- Every value of a header of a request is a legal one. -/
theorem legal_of_mem_requestHeaders {query : String} {h : Header}
    (hm : h ∈ c.requestHeaders query) : Header.Legal h.value := by
  rw [requestHeaders, if_pos (Header.isLegal_encodeText query), List.mem_append,
    List.mem_singleton] at hm
  rw [← Header.isLegal_iff]
  rcases hm with hm | rfl
  · split at hm
    · next hname =>
      rw [List.mem_singleton] at hm
      rw [hm]
      exact hname.2
    · cases hm
  · exact Header.isLegal_encodeText query

/-! ## Names that cannot be the value of a header -/

/-- The name under which no query is moved back in time can be the value of a header. -/
theorem ne_allocationName_of_not_legal (h : ¬ Header.Legal c.name) :
    c.name ≠ allocationName := by
  intro he
  rw [he, ← Header.isLegal_iff] at h
  exact h (by decide)

theorem request_unnamed (h : ¬ Header.Legal c.name) (now : Instant) (query : String)
    (kind : QueryKind) : c.unnamed.request now query kind = c.request now query kind := by
  have hne : "" ≠ allocationName := by decide
  have hne' : c.name ≠ allocationName := c.ne_allocationName_of_not_legal h
  have htime : c.unnamed.evaluationTime now = c.evaluationTime now := by
    simp only [evaluationTime, unnamed, hne, hne', or_false]
  have hurl : c.unnamed.requestUrl now query kind = c.requestUrl now query kind := by
    cases kind
    · rw [requestUrl, requestUrl, htime]
      rfl
    · rfl
  have hheaders : c.unnamed.requestHeaders query = c.requestHeaders query := by
    rw [requestHeaders_unnamed c (.inr h), requestHeaders_unnamed c.unnamed (.inl rfl)]
  rw [request, request, hurl, hheaders]

/-- Queries do the same in two contexts. -/
structure Alike (c c' : Context) : Prop where
  /-- In any run, however queries take turns and whatever the replies are. -/
  pool : ∀ p events, Pool.run c p events = Pool.run c' p events
  inline : ∀ env query kind s, Session.run c env query kind s = Session.run c' env query kind s
  task : ∀ env query kind label s,
    Session.spawn c env query kind label s = Session.spawn c' env query kind label s
  raw : ∀ env query kind s, Session.raw c env query kind s = Session.raw c' env query kind s

/-- What a query does is told by the requests and the decoder of its context. -/
theorem alike_of_request {c c' : Context} (hd : c.decoder = c'.decoder)
    (hr : ∀ now query kind, c.request now query kind = c'.request now query kind) :
    Alike c c' := by
  have hexecute : c.execute = c'.execute := by
    funext query body
    rw [execute, execute, hd]
  have hexecution : Task.execution c = Task.execution c' := by
    funext t reply
    rw [Task.execution, Task.execution, hexecute]
  have hsettle : Task.settle c = Task.settle c' := by
    funext t reply
    rw [Task.settle, Task.settle, hexecution]
  have hlog : Task.log c = Task.log c' := by
    funext t reply
    rw [Task.log, Task.log, hexecution]
  have hstep : Pool.step c = Pool.step c' := by
    funext p e
    cases e with
    | start now query kind waiting => rw [Pool.step, Pool.step, hr]
    | settle i reply => simp only [Pool.step, Pool.settle, hsettle, hlog]
    | time | deliver | destroy | read | drop => rfl
  have hrun : Pool.run c = Pool.run c' := by
    funext p events
    rw [Pool.run, Pool.run, hstep]
  have hsend : Session.send c = Session.send c' := by
    funext env query kind waiting s
    simp only [Session.send, Session.play, Session.reply, hr, hrun]
  have hbody : Session.body c = Session.body c' := by
    funext env query kind s
    simp only [Session.body, Session.reply, hr]
  refine ⟨fun p events => by rw [hrun], fun env query kind s => ?_,
    fun env query kind label s => ?_, fun env query kind s => ?_⟩
  · rw [Session.run, Session.run, Session.execution, Session.execution, hexecute, hbody, hsend]
  · rw [Session.spawn, Session.spawn, Session.execution, Session.execution, hexecute, hbody, hsend,
      Session.play, Session.play, hrun]
  · rw [Session.raw, Session.raw, hbody, hsend]

/-- Under a name that cannot be the value of a header, queries do what they do under no name. -/
theorem alike_unnamed (h : ¬ Header.Legal c.name) : Alike c c.unnamed :=
  alike_of_request rfl fun now query kind => (c.request_unnamed h now query kind).symm

/-- For any query and any name of the context, a request has a header with the query, form-encoded,
which is the query that its URL asks for last. It has a header with the name, as it is, if there is
a name and it can be the value of a header, and no other header. No value has a line break in it,
and a name that cannot be a value makes no difference to any query. -/
theorem headers_request (now : Instant) (query : String) (kind : QueryKind) :
    (∃ v, Header.Legal v ∧ Url.Form.decodeText (Utf8.encode v) = query ∧
      ((c.request now query kind).url.pairs.filter (·.1 == "query")).getLast? =
        some ("query", Url.Form.decodeText (Utf8.encode v)) ∧
      (c.name ≠ "" → Header.Legal c.name → (c.request now query kind).headers =
        [⟨"x-prom-query-context", c.name⟩, ⟨"x-prom-query", v⟩]) ∧
      (c.name = "" ∨ ¬ Header.Legal c.name →
        (c.request now query kind).headers = [⟨"x-prom-query", v⟩])) ∧
    (∀ h ∈ (c.request now query kind).headers, Header.IsUnbroken h.value) ∧
    (¬ Header.Legal c.name → Alike c c.unnamed) := by
  refine ⟨⟨String.ofList (Url.Form.encodeText query),
    (Header.isLegal_iff _).mp (Header.isLegal_encodeText query),
    Url.Form.decodeText_encodeText query, ?_, ?_, ?_⟩, ?_, c.alike_unnamed⟩
  · rw [Url.Form.decodeText_encodeText]
    exact c.getLast?_query now query kind
  · exact fun hname hlegal => c.requestHeaders_named hname hlegal query
  · exact fun h => c.requestHeaders_unnamed h query
  · exact fun h hm => (c.legal_of_mem_requestHeaders hm).isUnbroken

end Context

end MetricsQuery
