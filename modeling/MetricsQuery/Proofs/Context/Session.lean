import MetricsQuery.Context.Session
import MetricsQuery.Proofs.Context.Batch

/-!
# What sessions give back

An entry point of a session plays the events of its queries on the pool, so what holds of every run
holds of sessions. What it gives back for a query that ran as a task is what the handle of the query
gave in the pool, be it one query (`given_spawn`, `given_kill`) or several (`given_spawnAll`).
-/

namespace MetricsQuery.Session

variable {c : Context} {env : Surroundings} {s : Session}

/-- A query that runs as a task is started and runs its course. -/
theorem toPool_spawn (query : String) (kind : QueryKind) (label : Option String) :
    (spawn c env query kind label s).2.toPool =
      Pool.run c s.toPool (.start env.now query kind (.handle label) ::
        (Fate.replied (reply c env query kind s)).course s.place env.latency) := rfl

/-- A query whose task is destroyed is started and runs that course. -/
theorem toPool_kill (query : String) (kind : QueryKind) :
    (kill c env query kind s).2.toPool =
      Pool.run c s.toPool (.start env.now query kind (.handle none) ::
        Fate.destroyed.course s.place .zero) := rfl

/-- What is given back for a query that ran as a task is what its handle gave. -/
theorem given_spawn (hs : s.toPool.Faithful) (query : String) (kind : QueryKind)
    (label : Option String) :
    (spawn c env query kind label s).2.given s.place = [(spawn c env query kind label s).1] := by
  rw [toPool_spawn]
  have h := Pool.given_course (c := c) hs env.now query kind label
    (.replied (reply c env query kind s)) env.latency
  rw [Fate.delivery_replied] at h
  exact h

/-- What is given back for a query whose task was destroyed is what its handle gave. -/
theorem given_kill (hs : s.toPool.Faithful) (query : String) (kind : QueryKind) :
    (kill c env query kind s).2.given s.place = [(kill c env query kind s).1] := by
  rw [toPool_kill]
  exact Pool.given_course hs env.now query kind none .destroyed .zero

theorem faithful_spawn (hs : s.toPool.Faithful) (query : String) (kind : QueryKind)
    (label : Option String) : (spawn c env query kind label s).2.toPool.Faithful := by
  rw [toPool_spawn]
  exact hs.run _

theorem place_spawn (query : String) (kind : QueryKind) (label : Option String) :
    (spawn c env query kind label s).2.place = s.place + 1 := by
  rw [place, toPool_spawn, Pool.run_cons, Pool.length_run fun _ => Pool.place?_of_mem_course]
  exact List.length_append

/-- A query that runs as a task leaves what the handles before it gave. -/
theorem given_spawn_earlier {i : Nat} (hi : i < s.place) (query : String) (kind : QueryKind)
    (label : Option String) : (spawn c env query kind label s).2.given i = s.given i := by
  rw [toPool_spawn]
  refine Pool.given_run_others hi ?_
  rw [Pool.own_cons_other (by exact (Option.some_ne_none i).symm),
    Pool.own_course_other (Nat.ne_of_gt hi)]

theorem given_spawnAll_earlier {i : Nat} (hi : i < s.place) (qs : List (String × Option String)) :
    (spawnAll c env qs s).2.given i = s.given i := by
  induction qs generalizing s with
  | nil => rfl
  | cons q qs ih =>
    have hlt : i < (spawn c env q.1 .instant q.2 s).2.place := by
      rw [place_spawn]
      exact Nat.lt_succ_of_lt hi
    exact (ih hlt).trans (given_spawn_earlier hi q.1 .instant q.2)

/-- What is given back for queries that ran as tasks is, for each, what its handle gave. -/
theorem given_spawnAll (hs : s.toPool.Faithful) {qs : List (String × Option String)} {i : Nat}
    {d : Delivery} (h : (spawnAll c env qs s).1[i]? = some d) :
    (spawnAll c env qs s).2.given (s.place + i) = [d] := by
  induction qs generalizing s i with
  | nil => cases h
  | cons q qs ih =>
    cases i with
    | zero =>
      cases h
      have hlt : s.place < (spawn c env q.1 .instant q.2 s).2.place := by
        rw [place_spawn]
        exact Nat.lt_succ_self _
      exact (given_spawnAll_earlier hlt qs).trans (given_spawn hs q.1 .instant q.2)
    | succ i =>
      have hrest := ih (faithful_spawn hs q.1 .instant q.2) h
      rw [place_spawn, Nat.add_right_comm] at hrest
      exact hrest

/-- Queries that ran as tasks were sent one after another, whatever the replies were. -/
theorem sent_spawnAll (c : Context) (env : Surroundings) (qs : List (String × Option String))
    (s : Session) : (spawnAll c env qs s).2.sent =
      s.sent ++ qs.map fun q => c.request env.now q.1 .instant := by
  induction qs generalizing s with
  | nil => exact (List.append_nil _).symm
  | cons q qs ih =>
    rw [spawnAll, ih, List.map_cons, ← List.singleton_append, ← List.append_assoc]
    rfl

/-- A batch sends its queries, profiled or not. -/
theorem sent_batch (c : Context) (env : Surroundings) (profiled : Bool) (queries : List String)
    (s : Session) : (spawnAll c env (Pool.batch profiled queries) s).2.sent =
      s.sent ++ queries.map fun q => c.request env.now q .instant := by
  have hmap : queries.map (fun q => c.request env.now q .instant) =
      (Pool.batch profiled queries).map ((c.request env.now · .instant) ∘ Prod.fst) := by
    rw [← List.map_map, Pool.map_fst_batch]
  rw [sent_spawnAll, hmap]
  rfl

end MetricsQuery.Session
