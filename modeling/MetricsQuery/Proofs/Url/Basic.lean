import MetricsQuery.Proofs.Url.Form
import MetricsQuery.Proofs.Url.Path
import MetricsQuery.Url.Basic

/-!
# The pairs of a URL

The query of a URL read as pairs (`Url.pairs`). Putting a pair into the query adds that pair at the
end and keeps the rest of the URL (`pairs_appendPair`). The text of a URL tells its query, as its
path has no `?` (`query_eq_of_text`).
-/

namespace MetricsQuery.Url

/-- The pairs of the query of a URL; a URL without a query has none. -/
def pairs (u : Url) : List (String × String) := Form.decode (u.query.getD [])

theorem pairs_congr {u v : Url} (h : u.query = v.query) : u.pairs = v.pairs := by
  rw [pairs, h, pairs]

theorem pairs_appendPair (u : Url) (name value : String) :
    (u.appendPair name value).pairs = u.pairs ++ [(name, value)] :=
  Form.decode_append (u.query.getD []) (name, value)

theorem pairs_resolve (u : Url) (endpoint : String) : (u.resolve endpoint).pairs = u.pairs := rfl

theorem not_mem_path_resolve (u : Url) (endpoint : String) : '?' ∉ (u.resolve endpoint).path :=
  Path.not_mem_replace _ _ _

/-- What is before the first `c` of a text, and what is after it. -/
theorem append_cons_inj {c : Char} {xs ys us vs : List Char} (hx : c ∉ xs) (hy : c ∉ ys)
    (h : xs ++ c :: us = ys ++ c :: vs) : xs = ys ∧ us = vs := by
  induction xs generalizing ys with
  | nil =>
    cases ys with
    | nil => exact ⟨rfl, (List.cons.inj h).2⟩
    | cons y ys => exact absurd (List.cons.inj h).1 fun e => hy (e ▸ List.mem_cons_self)
  | cons x xs ih =>
    cases ys with
    | nil => exact absurd (List.cons.inj h).1 fun e => hx (e ▸ List.mem_cons_self)
    | cons y ys =>
      obtain ⟨e, ht⟩ := List.cons.inj h
      obtain ⟨e', hu⟩ := ih (fun m => hx (List.mem_cons_of_mem _ m))
        (fun m => hy (List.mem_cons_of_mem _ m)) ht
      exact ⟨by rw [e, e'], hu⟩

/-- Two URLs of one text that differ in no more than path and query have the same query. -/
theorem query_eq_of_text {u v : Url} {p q : List Char} (ht : u.text = v.text)
    (hb : u.beforePath = v.beforePath) (hf : u.fragment = v.fragment) (hu : u.query = some p)
    (hv : v.query = some q) (hup : '?' ∉ u.path) (hvp : '?' ∉ v.path) : u.query = v.query := by
  have hc : u.chars = v.chars := String.ofList_injective ht
  simp only [chars, hb, hf, hu, hv, Option.elim_some] at hc
  have h := List.append_cancel_right hc
  rw [List.append_assoc, List.append_assoc] at h
  rw [hu, hv, (append_cons_inj hup hvp (List.append_cancel_left h)).2]

end MetricsQuery.Url
