import MetricsQuery.Proofs.Context.Collected
import MetricsQuery.Proofs.Context.Request
import MetricsQuery.Proofs.Url.Resolve

/-!
# The URLs of a client

A client of a web address puts an endpoint after the path of its base, without the slashes at the end
of it, and keeps everything else of the base. All requests of a run are for such URLs, with pairs
added to the query, so the base is the same throughout (`Resolves`). How many slashes stand at the end
of the path in the address does not matter: `url_resolves`.
-/

namespace MetricsQuery

namespace Client

theorem ofAddress_eq_ok_iff {address : String} {client : Client} :
    ofAddress address = .ok client ↔
      Url.ofText address = .ok client.base ∧ client.base.isBase = true := by
  obtain ⟨base⟩ := client
  unfold ofAddress
  cases Url.ofText address with
  | error f => simp
  | ok u =>
    by_cases hu : u.isBase
    · simp only [hu, if_true, Except.ok.injEq, mk.injEq]
      exact ⟨fun e => ⟨e, e ▸ hu⟩, And.left⟩
    · simp only [hu, Except.ok.injEq]
      constructor
      · nofun
      · rintro ⟨rfl, hb⟩
        exact absurd hb hu

/-- The endpoints of queries. -/
def endpoints : List String := [queryEndpoint, rangeEndpoint]

theorem isEndpoint_of_mem {e : String} (h : e ∈ endpoints) : Url.IsEndpoint e := by
  simp only [endpoints, List.mem_cons, List.not_mem_nil, or_false] at h
  rcases h with rfl | rfl
  · exact ⟨["api".toList, "v1".toList, "query".toList], by decide, by decide, rfl⟩
  · exact ⟨["api".toList, "v1".toList, "query_range".toList], by decide, by decide, rfl⟩

end Client

/-- The URL with the path that comes of putting an endpoint after `stem`. -/
def Url.below (base : Url) (stem : List Char) (endpoint : String) : Url :=
  { base with path := stem ++ endpoint.toList }

namespace Client

/-- The client puts endpoints after `stem`, which is the path of its base without the slashes at the
end, and keeps everything else of the base, whatever was asked before. -/
structure Resolves (client : Client) (stem : List Char) : Prop where
  path : ∃ n, client.base.path = stem ++ List.replicate n '/'
  bare : stem.getLast? ≠ some '/'
  url : ∀ e ∈ endpoints, client.url e = client.base.below stem e
  /-- The requests of a run have such URLs, with pairs after those of the base. -/
  requests : ∀ c : Context, c.client = client → ∀ events, ∀ t ∈ (Pool.run c {} events).tasks,
    client.base.pairs <+: t.request.url.pairs ∧
      ∃ e ∈ endpoints, ∃ query, t.request.url = { client.base.below stem e with query }

theorem resolves_of_isWeb {client : Client} (h : client.base.IsWeb) :
    client.Resolves client.base.stem where
  path := client.base.path_eq_stem.1
  bare := client.base.path_eq_stem.2
  url _ he := h.resolve_eq (isEndpoint_of_mem he)
  requests := by
    rintro c rfl events t ht
    have hurl : ∀ e ∈ endpoints, c.client.url e = c.client.base.below c.client.base.stem e :=
      fun _ he => h.resolve_eq (isEndpoint_of_mem he)
    obtain ⟨now, kind, hrequest⟩ := Pool.request_of_mem c events ht
    rw [hrequest]
    refine ⟨⟨_, (c.pairs_requestUrl_eq now t.query kind).symm⟩, ?_⟩
    cases kind with
    | instant =>
      have he : queryEndpoint ∈ endpoints := List.mem_cons_self
      exact ⟨queryEndpoint, he, _, by rw [← hurl _ he]; rfl⟩
    | range start stop step =>
      have he : rangeEndpoint ∈ endpoints := List.mem_cons_of_mem _ List.mem_cons_self
      exact ⟨rangeEndpoint, he, _, by rw [← hurl _ he]; rfl⟩

/-- An address with other slashes at the end of its path leads to a client with the same URLs. -/
theorem url_of_slashes {address other : String} {client : Client} {before xs ys after : List Char}
    (h : ofAddress address = .ok client) (hweb : Url.IsWebScheme client.base.scheme)
    (hs : Url.HasSlashes (Url.significant address) before xs after)
    (ht : Url.HasSlashes (Url.significant other) before ys after) :
    ∃ client', ofAddress other = .ok client' ∧ ∀ e, client'.url e = client.url e := by
  obtain ⟨hbase, -⟩ := ofAddress_eq_ok_iff.mp h
  obtain ⟨v, hv, hstem, hsame⟩ := Url.ofText_slashes hbase hweb hs ht
  have hauthority : v.authority = client.base.authority := by rw [hsame]
  have hisBase : v.isBase = true := by
    rw [Url.isBase, hauthority, (Url.isWeb_of_ofText hbase hweb).authority, Bool.true_or,
      Bool.true_or]
  refine ⟨⟨v⟩, ofAddress_eq_ok_iff.mpr ⟨hv, hisBase⟩, fun e => ?_⟩
  have hscheme : v.scheme = client.base.scheme := by rw [hsame]
  rw [url, url, Url.resolve, Url.resolve, hstem, hscheme, hsame]

/-- A client of a web address keeps its base and puts endpoints after the path of it, and a client
of an address with other slashes at the end of the path has the same URLs. -/
theorem url_resolves {address : String} {client : Client} (h : ofAddress address = .ok client)
    (hweb : client.base.scheme = "http".toList ∨ client.base.scheme = "https".toList) :
    (∃ stem, client.Resolves stem) ∧
      ∀ other before xs ys after, Url.HasSlashes (Url.significant address) before xs after →
        Url.HasSlashes (Url.significant other) before ys after →
          ∃ client', ofAddress other = .ok client' ∧ ∀ e, client'.url e = client.url e :=
  have hbase := (ofAddress_eq_ok_iff.mp h).1
  ⟨⟨_, resolves_of_isWeb (Url.isWeb_of_ofText hbase hweb)⟩,
    fun _ _ _ _ _ hs ht => url_of_slashes h hweb hs ht⟩

/-- An address with credentials, a port, an escape and an empty segment in its path, slashes at the
end of it, a query and a fragment: the client puts its endpoints before the query, as does that of
the address without the slashes. -/
theorem url_resolves_prefix :
    let address := "http://u:p@h:8080/a%20b//c///?x=1#f"
    let authority : Url.Authority := ⟨"u".toList, some "p".toList, "h".toList, some 8080⟩
    let client : Client := ⟨⟨"http".toList, some authority, false, "/a%20b//c///".toList,
      some "x=1".toList, some "f".toList⟩⟩
    ofAddress address = .ok client ∧ (∃ stem, client.Resolves stem) ∧
      ∃ client', ofAddress "http://u:p@h:8080/a%20b//c?x=1#f" = .ok client' ∧
        ∀ e, client'.url e = client.url e := by
  intro address authority client
  have haddress : ofAddress address = .ok client := by
    have hsome : (ofAddress address).toOption = some client := by decide +kernel
    cases hread : ofAddress address with
    | error f => rw [hread] at hsome; cases hsome
    | ok c => rw [hread] at hsome; exact congrArg Except.ok (Option.some.inj hsome)
  obtain ⟨hresolves, hslashes⟩ := url_resolves haddress (.inl rfl)
  have hbefore : Url.HasSlashes (Url.significant address) "http://u:p@h:8080/a%20b//c".toList
      "///".toList "?x=1#f".toList := by
    decide +kernel
  have hafter : Url.HasSlashes (Url.significant "http://u:p@h:8080/a%20b//c?x=1#f")
      "http://u:p@h:8080/a%20b//c".toList [] "?x=1#f".toList := by
    decide +kernel
  exact ⟨haddress, hresolves, hslashes _ _ _ _ _ hbefore hafter⟩

end Client

end MetricsQuery
