import MetricsQuery.Proofs.Context.Collected
import MetricsQuery.Proofs.Context.Fate

/-!
# Queries that run together

The queries of a batch are started one after another (`interleaved`), and their handles are the
places they are started at (`handles`). Each handle gives what its query would give alone, under the
same fate (`Isolated`), whatever happens before the batch, while it is started and afterwards, to the
other queries of it and to any others: `isolated_start` for one query, `batch_isolated` for all.
-/

namespace MetricsQuery.Pool

/-- When a query of a batch is started, and what happens before the next one is. -/
structure Turn where
  now : Instant
  meanwhile : List Event := []

/-- The queries of a batch, with their labels if it is profiled. -/
def batch (profiled : Bool) (queries : List String) : List (String × Option String) :=
  if profiled then labelled queries else unlabelled queries

/-- The turns after the first one. -/
def nextTurns (turns : Nat → Turn) : Nat → Turn := fun n => turns (n + 1)

/-- The events of a batch: each query is started, and anything may happen in its turn. -/
def interleaved (turns : Nat → Turn) : List (String × Option String) → List Event
  | [] => []
  | (query, label) :: qs =>
    .start (turns 0).now query .instant (.handle label) ::
      ((turns 0).meanwhile ++ interleaved (nextTurns turns) qs)

/-- The events after the one that starts the query of a number. -/
def later (turns : Nat → Turn) : List (String × Option String) → Nat → List Event
  | [], _ => []
  | _ :: qs, 0 => (turns 0).meanwhile ++ interleaved (nextTurns turns) qs
  | _ :: qs, i + 1 => later (nextTurns turns) qs i

/-- The handles of a batch, in the order of its queries: the places of these. -/
def handles (c : Context) (p : Pool) (turns : Nat → Turn) : List (String × Option String) → List Nat
  | [] => []
  | (query, label) :: qs =>
    p.tasks.length ::
      handles c (run c p (.start (turns 0).now query .instant (.handle label) ::
        (turns 0).meanwhile)) (nextTurns turns) qs

/-- What the handle of a query gives that runs alone and has that fate. -/
def lone (c : Context) (now : Instant) (query : String) (f : Fate) : List Delivery :=
  (run c {} (.start now query .instant (.handle none) :: f.course 0 .zero)).given 0

/-- The handle in place `j` is one of `query`, which was started at `now` and before the events
`after`, and what it gives in the pool `p` is told by its own fate. -/
structure Isolated (c : Context) (now : Instant) (query : String) (j : Nat) (after : List Event)
    (p : Pool) : Prop where
  /-- The handle tells its query. -/
  handle : ∃ t, p.tasks[j]? = some t ∧ t.query = query ∧ ∃ label, t.waiting = .handle label
  /-- It gives nothing, or what the query gives alone. -/
  given : p.given j = [] ∨ ∃ f, fateOf (own j after) = some f ∧ p.given j = lone c now query f
  /-- It does give that once the task ran its course, in any order with the others, unless it was
  dropped. -/
  complete : ∀ f elapsed, fateOf (own j after) = some f → (f.course j elapsed).Sublist after →
    .drop j ∉ after → p.given j = lone c now query f

variable {c : Context} {p : Pool}

/-! ## One query -/

/-- No handle gave anything that is not there yet. -/
theorem Faithful.given_eq_nil (h : Faithful p) : p.given p.tasks.length = [] := by
  refine List.filterMap_eq_nil_iff.mpr fun (i, d) hr => if_neg fun hi => ?_
  obtain ⟨t, ht, -⟩ := h i d hr
  obtain ⟨hlt, -⟩ := List.getElem?_eq_some_iff.mp ht
  exact absurd hi (Nat.ne_of_lt hlt)

/-- The course of a task is about that task alone. -/
theorem place?_of_mem_course {j : Nat} {elapsed : Duration} {f : Fate} {e : Event}
    (h : e ∈ f.course j elapsed) : e.place? = some j := by
  cases f with
  | replied reply =>
    simp only [Fate.course, List.mem_cons, List.not_mem_nil, or_false] at h
    rcases h with rfl | rfl | rfl | rfl <;> rfl
  | destroyed =>
    simp only [Fate.course, List.mem_cons, List.not_mem_nil, or_false] at h
    rcases h with rfl | rfl <;> rfl

theorem own_course (j : Nat) (elapsed : Duration) (f : Fate) :
    own j (f.course j elapsed) = f.course j elapsed :=
  List.filter_eq_self.mpr fun _ he => beq_iff_eq.mpr (place?_of_mem_course he)

theorem own_course_other {i j : Nat} (h : j ≠ i) (elapsed : Duration) (f : Fate) :
    own i (f.course j elapsed) = [] := by
  refine List.filter_eq_nil_iff.mpr fun e he hi => h ?_
  rw [place?_of_mem_course he, beq_iff_eq] at hi
  exact Option.some.inj hi

theorem fateOf_course (j : Nat) (elapsed : Duration) (f : Fate) :
    fateOf (f.course j elapsed) = some f := by
  cases f <;> rfl

theorem drop_not_mem_course (i j : Nat) (elapsed : Duration) (f : Fate) :
    .drop i ∉ f.course j elapsed := by
  cases f <;> simp [Fate.course]

/-- The course of a task is among the events about it if it is among all events. -/
theorem course_sublist_own {i : Nat} {f : Fate} {elapsed : Duration} {es : List Event}
    (h : (f.course i elapsed).Sublist es) : (f.course i elapsed).Sublist (own i es) := by
  rw [← own_course i elapsed f]
  exact h.filter _

/-- The handle of a task without a reply gives the delivery that its fate makes, once the task ran
its course. -/
theorem given_of_course {i : Nat} {t : Task} {label : Option String} (ht : p.tasks[i]? = some t)
    (hg : p.given i = []) (hw : t.waiting = .handle label) (hs : t.stage = .awaiting)
    (hh : t.held = true) {es : List Event} {f : Fate} {elapsed : Duration}
    (hf : fateOf (own i es) = some f) (hc : (f.course i elapsed).Sublist es)
    (hn : .drop i ∉ es) : (run c p es).given i = [f.delivery c t.query t.request] := by
  have hdrop : ∀ j, .drop j ∉ own i es := by
    intro j hj
    obtain ⟨hmem, hplace⟩ := List.mem_filter.mp hj
    have hji : j = i := Option.some.inj (beq_iff_eq.mp hplace)
    exact hn (hji ▸ hmem)
  rw [given_run ht, hg, List.nil_append]
  exact Task.readings_of_course hw hs hh hf (course_sublist_own hc) hdrop

/-- A query that was just started, by itself. -/
def begun (c : Context) (now : Instant) (query : String) (kind : QueryKind)
    (label : Option String) : Task :=
  ⟨query, c.request now query kind, .handle label, .awaiting, true⟩

section

variable (hp : Faithful p) (now : Instant) (query : String) (kind : QueryKind)
  (label : Option String) (after : List Event)
include hp

/-- How far a query is that was started as a task, and what its handle gave since. -/
theorem part_start :
    (run c p (.start now query kind (.handle label) :: after)).tasks[p.tasks.length]? =
        some ((begun c now query kind label).run c (own p.tasks.length after)) ∧
      (run c p (.start now query kind (.handle label) :: after)).given p.tasks.length =
        (begun c now query kind label).readings c (own p.tasks.length after) := by
  have ht : (p.step c (.start now query kind (.handle label))).tasks[p.tasks.length]? =
      some (begun c now query kind label) := List.getElem?_concat_length
  obtain ⟨h, h'⟩ := part_run (c := c) ht after
  have hg : (p.step c (.start now query kind (.handle label))).given p.tasks.length = [] :=
    hp.given_eq_nil
  rw [hg, List.nil_append] at h'
  exact ⟨h, h'⟩

/-- The handle of a query gives nothing, or the one delivery that the query's own fate makes. -/
theorem given_start :
    (run c p (.start now query kind (.handle label) :: after)).given p.tasks.length = [] ∨
      ∃ f, fateOf (own p.tasks.length after) = some f ∧
        (run c p (.start now query kind (.handle label) :: after)).given p.tasks.length =
          [f.delivery c query (c.request now query kind)] := by
  rw [(part_start hp now query kind label after).2]
  cases Task.handle_after (c := c) (t := begun c now query kind label) rfl rfl rfl
    (own p.tasks.length after) with
  | held _ hd => exact .inl hd
  | dropped _ _ hd => exact .inl hd
  | read hf _ hd => exact .inr ⟨_, hf, hd⟩

/-- The handle of a query gives that delivery once its task ran its course. -/
theorem given_start_of_course {f : Fate} {elapsed : Duration}
    (hf : fateOf (own p.tasks.length after) = some f)
    (hc : (f.course p.tasks.length elapsed).Sublist after) (hn : .drop p.tasks.length ∉ after) :
    (run c p (.start now query kind (.handle label) :: after)).given p.tasks.length =
      [f.delivery c query (c.request now query kind)] := by
  have ht : (p.step c (.start now query kind (.handle label))).tasks[p.tasks.length]? =
      some (begun c now query kind label) := List.getElem?_concat_length
  have hg : (p.step c (.start now query kind (.handle label))).given p.tasks.length = [] :=
    hp.given_eq_nil
  exact given_of_course ht hg rfl rfl rfl hf hc hn

/-- The handle of a query that runs its course at once gives that delivery. -/
theorem given_course (f : Fate) (elapsed : Duration) :
    (run c p (.start now query kind (.handle label) ::
      f.course p.tasks.length elapsed)).given p.tasks.length =
        [f.delivery c query (c.request now query kind)] := by
  have hf : fateOf (own p.tasks.length (f.course p.tasks.length elapsed)) = some f := by
    rw [own_course, fateOf_course]
  exact given_start_of_course hp now query kind label _ hf (List.Sublist.refl _)
    (drop_not_mem_course _ _ elapsed f)

end

/-- Alone, a query gives the one delivery that its fate makes. -/
theorem lone_eq (c : Context) (now : Instant) (query : String) (f : Fate) :
    lone c now query f = [f.delivery c query (c.request now query .instant)] :=
  given_course (p := {}) (faithful_run c []) now query .instant none f .zero

/-- A query that was started as a task is isolated from everything else that happens. -/
theorem isolated_start (hp : Faithful p) (now : Instant) (query : String) (label : Option String)
    (after : List Event) :
    Isolated c now query p.tasks.length after
      (run c p (.start now query .instant (.handle label) :: after)) where
  handle := by
    refine ⟨_, (part_start hp now query .instant label after).1, ?_, label, ?_⟩
    · rw [Task.query_run]; rfl
    · rw [Task.waiting_run]; rfl
  given := by
    rcases given_start hp now query .instant label after with h | ⟨f, hf, h⟩
    · exact .inl h
    · exact .inr ⟨f, hf, by rw [h, lone_eq]⟩
  complete f elapsed hf hc hn := by
    rw [given_start_of_course hp now query .instant label after hf hc hn, lone_eq]

/-! ## A batch -/

theorem map_fst_batch (profiled : Bool) (queries : List String) :
    (batch profiled queries).map Prod.fst = queries := by
  cases profiled with
  | false =>
    show (unlabelled queries).map Prod.fst = queries
    rw [unlabelled, List.map_map]
    exact List.map_id _
  | true =>
    show (labelled queries).map Prod.fst = queries
    rw [labelled, List.map_map]
    exact List.zipIdx_map_fst 0 queries

theorem length_handles (c : Context) (p : Pool) (turns : Nat → Turn)
    (qs : List (String × Option String)) : (handles c p turns qs).length = qs.length := by
  induction qs generalizing p turns with
  | nil => rfl
  | cons q qs ih => rw [handles, List.length_cons, ih, List.length_cons]

theorem le_of_mem_handles {turns : Nat → Turn} {qs : List (String × Option String)} {j : Nat}
    (hj : j ∈ handles c p turns qs) : p.tasks.length ≤ j := by
  induction qs generalizing p turns with
  | nil => cases hj
  | cons q qs ih =>
    rw [handles, List.mem_cons] at hj
    rcases hj with rfl | hj
    · exact Nat.le_refl _
    · exact Nat.le_trans (length_le_run c p _) (ih hj)

/-- No two queries of a batch have the same handle. -/
theorem pairwise_handles (c : Context) (p : Pool) (turns : Nat → Turn)
    (qs : List (String × Option String)) : (handles c p turns qs).Pairwise (· < ·) := by
  induction qs generalizing p turns with
  | nil => exact List.Pairwise.nil
  | cons q qs ih =>
    rw [handles, List.pairwise_cons]
    refine ⟨fun j hj => ?_, ih _ _⟩
    have hlt : p.tasks.length < (p.step c (.start (turns 0).now q.1 .instant
        (.handle q.2))).tasks.length := by
      rw [step, List.length_append]
      exact Nat.lt_succ_self _
    exact Nat.lt_of_lt_of_le hlt
      (Nat.le_trans (length_le_run c _ (turns 0).meanwhile) (le_of_mem_handles hj))

/-- Where the query of a number is started among the events of a batch. -/
theorem interleaved_split {turns : Nat → Turn} {qs : List (String × Option String)} {i j : Nat}
    {query : String} {label : Option String} (hq : qs[i]? = some (query, label))
    (hj : (handles c p turns qs)[i]? = some j) :
    ∃ earlier, j = (run c p earlier).tasks.length ∧ interleaved turns qs =
      earlier ++ .start (turns i).now query .instant (.handle label) :: later turns qs i := by
  induction qs generalizing p turns i with
  | nil => cases hq
  | cons q qs ih =>
    cases i with
    | zero =>
      cases hq
      cases hj
      exact ⟨[], rfl, rfl⟩
    | succ i =>
      obtain ⟨earlier, hearlier, hsplit⟩ := ih hq hj
      refine ⟨.start (turns 0).now q.1 .instant (.handle q.2) :: (turns 0).meanwhile ++ earlier,
        ?_, ?_⟩
      · rw [run_append]
        exact hearlier
      · rw [interleaved, hsplit, ← List.append_assoc]
        rfl

/-- A batch has one handle for each of its queries, in their order, and each handle is isolated from
what happens to the other queries. A query alone gives one delivery, which is about it: a panic of
its decoder and a destroyed task are faults of it, without results and without warnings. -/
theorem batch_isolated (c : Context) (before : List Event) (turns : Nat → Turn) (profiled : Bool)
    (queries : List String) :
    (handles c (run c {} before) turns (batch profiled queries)).length = queries.length ∧
      (handles c (run c {} before) turns (batch profiled queries)).Pairwise (· < ·) ∧
      (∀ i query j, queries[i]? = some query →
        (handles c (run c {} before) turns (batch profiled queries))[i]? = some j →
        Isolated c (turns i).now query j (later turns (batch profiled queries) i)
          (run c {} (before ++ interleaved turns (batch profiled queries)))) ∧
      (∀ now query f, ∃ d, lone c now query f = [d] ∧ d.query = query) ∧
      (∀ now query reply text, c.Panics query reply text →
        ∃ e, lone c now query (.replied reply) = [⟨query, [], [], some e⟩] ∧
          e.message = "query task for '" ++ query ++ "' failed: " ++ text.getD "unknown panic") ∧
      ∀ now query, ∃ e, lone c now query .destroyed = [⟨query, [], [], some e⟩] ∧
        e.message = "query task for '" ++ query ++ "' failed: " ++
          "query task ended without delivering results" := by
  refine ⟨?_, pairwise_handles c _ turns _, fun i query j hq hj => ?_, fun now query f => ?_,
    fun now query reply text hp => ?_, fun now query => ?_⟩
  · rw [length_handles, ← List.length_map Prod.fst, map_fst_batch]
  · have hbatch : ((batch profiled queries).map Prod.fst)[i]? = some query := by
      rw [map_fst_batch]
      exact hq
    rw [List.getElem?_map, Option.map_eq_some_iff] at hbatch
    obtain ⟨⟨query', label⟩, hq', rfl⟩ := hbatch
    obtain ⟨earlier, rfl, hsplit⟩ := interleaved_split hq' hj
    have hp : Faithful (run c (run c {} before) earlier) := by
      rw [← run_append]
      exact faithful_run c (before ++ earlier)
    rw [hsplit, run_append, run_append]
    exact isolated_start hp (turns i).now query' label _
  · exact ⟨_, lone_eq c now query f, Fate.query_delivery c query _ f⟩
  · refine ⟨.task query (.panicked text), ?_, ?_⟩
    · rw [lone_eq, Fate.delivery, hp.execute_eq]
    · cases text <;> rfl
  · exact ⟨_, lone_eq c now query .destroyed, rfl⟩

end MetricsQuery.Pool
