import MetricsQuery.Context.Basic
import MetricsQuery.Proofs.Url.Basic

/-!
# What a request asks for

The pairs in the URL of a request are those of the base address, then the query, then the times
(`pairs_requestUrl`). They are read back as they were given, so a query text cannot be taken for
anything but the value of the `query` pair it is put into.
-/

namespace MetricsQuery.Context

variable (c : Context)

/-- The pairs of a request after the one of the query. -/
def parameters (now : Instant) : QueryKind → List (String × String)
  | .instant => [("time", (c.evaluationTime now).toSecondText)]
  | .range start stop step =>
    [("start", start.toText), ("end", stop.toText), ("step", stepText step)]

/-- No other pair of a request has the name of the query's. -/
theorem filter_parameters (now : Instant) (kind : QueryKind) :
    (c.parameters now kind).filter (·.1 == "query") = [] := by
  cases kind <;> rfl

theorem pairs_requestUrl_eq (now : Instant) (query : String) (kind : QueryKind) :
    (c.requestUrl now query kind).pairs =
      c.client.base.pairs ++ ("query", query) :: c.parameters now kind := by
  cases kind <;>
    simp only [requestUrl, queryUrl, rangeUrl, Client.url, Url.pairs_appendPair, Url.pairs_resolve,
      parameters, List.append_assoc, List.cons_append, List.nil_append]

theorem fragment_requestUrl (now : Instant) (query : String) (kind : QueryKind) :
    (c.requestUrl now query kind).fragment = c.client.base.fragment := by
  cases kind <;> rfl

theorem beforePath_requestUrl (now : Instant) (query : String) (kind : QueryKind) :
    (c.requestUrl now query kind).beforePath = c.client.base.beforePath := by
  cases kind <;> rfl

theorem not_mem_path_requestUrl (now : Instant) (query : String) (kind : QueryKind) :
    '?' ∉ (c.requestUrl now query kind).path := by
  cases kind
  · exact Url.not_mem_path_resolve c.client.base Client.queryEndpoint
  · exact Url.not_mem_path_resolve c.client.base Client.rangeEndpoint

theorem query_requestUrl (now : Instant) (query : String) (kind : QueryKind) :
    ∃ q, (c.requestUrl now query kind).query = some q := by
  cases kind <;> exact ⟨_, rfl⟩

/-- The query is the last pair of its name. -/
theorem getLast?_query (now : Instant) (query : String) (kind : QueryKind) :
    ((c.requestUrl now query kind).pairs.filter (·.1 == "query")).getLast? =
      some ("query", query) := by
  rw [pairs_requestUrl_eq, List.filter_append, List.filter_cons, filter_parameters]
  exact List.getLast?_concat

/-- The text of a URL tells the query it was made for. -/
theorem query_eq_of_text {now now' : Instant} {query query' : String} {kind kind' : QueryKind}
    (h : (c.requestUrl now query kind).text = (c.requestUrl now' query' kind').text) :
    query = query' := by
  obtain ⟨p, hp⟩ := c.query_requestUrl now query kind
  obtain ⟨q, hq⟩ := c.query_requestUrl now' query' kind'
  have hquery : (c.requestUrl now query kind).query = (c.requestUrl now' query' kind').query :=
    Url.query_eq_of_text h
      ((c.beforePath_requestUrl now query kind).trans
        (c.beforePath_requestUrl now' query' kind').symm)
      ((c.fragment_requestUrl now query kind).trans (c.fragment_requestUrl now' query' kind').symm)
      hp hq (c.not_mem_path_requestUrl now query kind) (c.not_mem_path_requestUrl now' query' kind')
  have hlast := c.getLast?_query now query kind
  rw [Url.pairs_congr hquery, getLast?_query, Option.some.injEq, Prod.mk.injEq] at hlast
  exact hlast.2.symm

/-- The pairs of a request are those of the base address, then the query, then the times, and the
fragment is the one of the base address, for any base address and any query. So the last `query`
pair is the query, URLs of different queries differ, and another query in its place changes that one
pair and no other. -/
theorem pairs_requestUrl (now : Instant) (query : String) (kind : QueryKind) :
    (c.requestUrl now query kind).pairs =
        c.client.base.pairs ++ ("query", query) :: c.parameters now kind ∧
      (c.requestUrl now query kind).fragment = c.client.base.fragment ∧
      ((c.requestUrl now query kind).pairs.filter (·.1 == "query")).getLast? =
        some ("query", query) ∧
      (∀ now' query' kind',
        query ≠ query' →
          (c.requestUrl now query kind).text ≠ (c.requestUrl now' query' kind').text) ∧
      ∀ query', (c.requestUrl now query' kind).pairs =
        (c.requestUrl now query kind).pairs.set c.client.base.pairs.length ("query", query') := by
  refine ⟨c.pairs_requestUrl_eq now query kind, c.fragment_requestUrl now query kind,
    c.getLast?_query now query kind, fun _ _ _ hne ht => hne (c.query_eq_of_text ht),
    fun query' => ?_⟩
  rw [pairs_requestUrl_eq, pairs_requestUrl_eq, List.set_append_right _ _ (Nat.le_refl _),
    Nat.sub_self, List.set_cons_zero]

end MetricsQuery.Context
