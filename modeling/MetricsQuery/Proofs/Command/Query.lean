import MetricsQuery.Command.Run
import MetricsQuery.Proofs.Command.Block
import MetricsQuery.Proofs.Context.Schedule

/-!
# What a query command tells

The queries of a command run as one batch, in any schedule in which they come to their end. The
command prints a block for each, in the order in which they are given, and behind them the latencies
if they are profiled, one of each query; it fails if one of them failed. The blocks are made of what
the handles gave and the failure of what was collected, but they tell of the same faults:
`query_reports`. A command on a host is one of these schedules (`run_query`).
-/

namespace MetricsQuery.Command

open Pool (Schedule batch batchLabel)

/-- What a query command leaves once it has read its handles, if the latencies recorded are all
`latency`. -/
def ending (p : Pool) (sent : List Request) (profiled json : Bool) (latency : Duration)
    (ds : List Delivery) : Ending :=
  ⟨p.log, printed json (if profiled then Exposition.latencies latency p.profiled else []) ds, sent,
    collected p⟩

/-- The line of a record in the report of a failure. -/
def entry (r : Record) : String := "Query: " ++ r.query ++ ", Error: " ++ r.message ++ "\n"

/-- What is left tells what was delivered: the blocks in their order, and nothing after them but the
exposition of the latencies, one of each query, if the queries were profiled; and it tells of a
failure if there is a fault among what was delivered, with one entry for each. -/
structure Reports (profiled json : Bool) (latency : Duration) (queries : List String)
    (ds : List Delivery) (e : Ending) : Prop where
  queries : ds.map Delivery.query = queries
  stdout : ∃ exposition, e.stdout =
      String.join ((ds.flatMap (Delivery.block json) ++ exposition).map (· ++ "\n")) ∧
    (profiled = true →
      Exposition.Exposes latency ((List.range ds.length).map batchLabel) exposition) ∧
    (profiled = false → exposition = [])
  text : json = false → ∀ d ∈ ds, d.IsText (d.block json) ∧
    (d.fault = none ↔ ∀ l ∈ (d.block json).tail, ¬ IsErrorLine l)
  json : json = true → ∀ d ∈ ds, d.IsJson (d.block json)
  exitCode : e.exitCode = 0 ↔ ∀ d ∈ ds, d.fault = none
  succeeded : e.exitCode = 0 → e.stderr = ""
  failed : e.exitCode ≠ 0 → e.exitCode = 1 ∧ ∃ entries : List Record,
    entries.Perm (ds.flatMap Delivery.errorRecords) ∧
      e.stderr = "Error: Error Collection:\n" ++ String.join (entries.map entry) ++ "\n"

theorem errorRecords_eq_nil_iff (ds : List Delivery) :
    ds.flatMap Delivery.errorRecords = [] ↔ ∀ d ∈ ds, d.fault = none := by
  rw [List.flatMap_eq_nil_iff]
  refine forall₂_congr fun d _ => ?_
  rw [Delivery.errorRecords, List.map_eq_nil_iff]
  cases d.fault <;> simp

theorem collected_eq (p : Pool) : collected p =
    if p.collector.errors = [] then none else some (.reported p.collector) := by
  rw [collected, Collector.collection?, Collector.hasErrors]
  cases h : p.collector.errors with
  | nil => rfl
  | cons r rs => rfl

/-- The failure of a command has the entries of all records. -/
theorem report_reported {col : Collector} (h : col.errors ≠ []) :
    (CommandFault.reported col).report ++ "\n" =
      "Error: Error Collection:\n" ++ String.join (col.errors.map entry) ++ "\n" := by
  have hdisplay : col.display = "Error Collection:\n" ++ String.join (col.errors.map entry) := by
    rw [Collector.display, if_neg (by rw [List.isEmpty_iff]; exact h)]
    rfl
  have hreport : (CommandFault.reported col).report = "Error: " ++ col.display ++ "" := rfl
  have hstart : "Error: Error Collection:\n" = "Error: " ++ "Error Collection:\n" := by decide
  rw [hreport, hdisplay, hstart, String.append_empty, ← String.append_assoc]

section

variable {p : Pool} {profiled : Bool} {ds : List Delivery} (sent : List Request) (json : Bool)
  (latency : Duration)

theorem exitCode_ending : (ending p sent profiled json latency ds).exitCode =
    if p.collector.errors = [] then 0 else 1 := by
  have hfailure : (ending p sent profiled json latency ds).failure = _ := collected_eq p
  rw [Ending.exitCode, hfailure]
  split <;> rfl

theorem stderr_ending : (ending p sent profiled json latency ds).stderr =
    if p.collector.errors = [] then ""
    else "Error: Error Collection:\n" ++ String.join (p.collector.errors.map entry) ++ "\n" := by
  have hfailure : (ending p sent profiled json latency ds).failure = _ := collected_eq p
  rw [Ending.stderr, hfailure]
  split
  · rfl
  · next h => exact report_reported h

/-- The two records of a run agree when the collector holds what was delivered and each query has
recorded its latency. -/
theorem reports_of_pool (herrors : p.collector.errors.Perm (ds.flatMap Delivery.errorRecords))
    (hlatencies : profiled = true →
      p.profiled.Perm ((List.range ds.length).map batchLabel)) :
    Reports profiled json latency (ds.map Delivery.query) ds
      (ending p sent profiled json latency ds) where
  queries := rfl
  stdout := by
    refine ⟨_, rfl, ?_, ?_⟩
    · rintro rfl
      rw [if_pos rfl]
      refine Exposition.exposes_latencies latency (hlatencies rfl) ?_ fun l hl => ?_
      · exact List.nodup_range.map fun _ _ => Pool.batchLabel_inj.mp
      · obtain ⟨i, -, rfl⟩ := List.mem_map.mp hl
        exact Pool.isPlain_batchLabel i
    · rintro rfl
      rfl
  text := by
    rintro rfl d -
    exact ⟨d.isText_lines, d.fault_eq_none_iff⟩
  json := by
    rintro rfl d -
    exact d.isJson_block
  exitCode := by
    have hnil : p.collector.errors = [] ↔ ds.flatMap Delivery.errorRecords = [] :=
      ⟨fun h => (h ▸ herrors).nil_eq.symm, fun h => (h ▸ herrors).eq_nil⟩
    rw [exitCode_ending, ← errorRecords_eq_nil_iff, ← hnil]
    split
    · next h => simp only [h]
    · next h => simp only [h, Nat.one_ne_zero]
  succeeded he := by
    rw [exitCode_ending] at he
    rw [stderr_ending]
    split
    · rfl
    · next h => cases (if_neg h).symm.trans he
  failed he := by
    rw [exitCode_ending] at he ⊢
    rw [stderr_ending]
    split
    · next h => exact absurd (if_pos h) he
    · exact ⟨rfl, _, herrors, rfl⟩

end

variable {c : Context} {log : List LogEntry} {s : Schedule} {queries : List String}
  {profiled : Bool}

/-- A batch has the labels of its numbers if it is profiled. -/
theorem labels_batch (h : profiled = true) : (batch profiled queries).filterMap Prod.snd =
    (List.range queries.length).map batchLabel := by
  rw [h, batch, if_pos rfl, Pool.labels_labelled]

/-- In whatever schedule a batch is run to its end, the command tells what was delivered. -/
theorem reports_complete (hs : s.Complete (batch profiled queries)) (sent : List Request)
    (json : Bool) (latency : Duration) :
    Reports profiled json latency queries (s.deliveries c queries)
      (ending (Pool.run c { log } (s.events (batch profiled queries))) sent profiled json latency
        (s.deliveries c queries)) := by
  have ha : Pool.Accounted { log } := ⟨List.nodup_nil, fun _ => by simp [Pool.result?], rfl, rfl⟩
  have hf : Pool.Faithful { log } := fun _ _ h => absurd h List.not_mem_nil
  have hresults := Pool.results_complete (c := c) hs hf ha rfl
  rw [Pool.map_fst_batch] at hresults
  have haccounted : (Pool.run c { log } (s.events (batch profiled queries))).Accounted :=
    Pool.run_induction (fun _ e h => h.step e) ha _
  have herrors : (Pool.run c { log } (s.events (batch profiled queries))).collector.errors.Perm
      ((s.deliveries c queries).flatMap Delivery.errorRecords) := by
    rw [haccounted.errors]
    exact hresults.flatMap_right _
  have hlatencies : profiled = true →
      (Pool.run c { log } (s.events (batch profiled queries))).profiled.Perm
        ((List.range (s.deliveries c queries).length).map batchLabel) := by
    intro hp
    rw [Schedule.deliveries, List.length_mapIdx, ← labels_batch hp]
    exact Pool.profiled_complete hs hf rfl rfl
  have hreports := reports_of_pool sent json latency herrors hlatencies
  rw [Schedule.query_deliveries] at hreports
  exact hreports

/-- A command runs its queries in the schedule of its session. -/
theorem runQuery_eq (env : Surroundings) (c : Context) (s : Session) (queries : List String)
    (profiled json : Bool) :
    runQuery env c s queries profiled json =
      ending (Pool.run c s.toPool
          ((Session.schedule c env (batch profiled queries) s).events (batch profiled queries)))
        (s.sent ++ queries.map fun q => c.request env.now q .instant) profiled json env.latency
        ((Session.schedule c env (batch profiled queries) s).deliveries c queries) := by
  have hpool : Pool.run c s.toPool
      ((Session.schedule c env (batch profiled queries) s).events (batch profiled queries)) =
        (Session.spawnAll c env (batch profiled queries) s).2.toPool := by
    rw [Session.toPool_spawnAll, Schedule.events]
    exact congrArg _ (List.append_nil _)
  have hdeliveries : (Session.schedule c env (batch profiled queries) s).deliveries c queries =
      (Session.spawnAll c env (batch profiled queries) s).1 := by
    rw [Session.spawnAll_eq_deliveries, Pool.map_fst_batch]
  rw [hpool, hdeliveries, ← Session.sent_batch c env profiled queries s]
  cases profiled <;> rfl

/-- A command on a host is what is left by the schedule in which its backend answers the queries one
after another. -/
theorem run_query {h : Host} {connection : Connection}
    (hc : connection.context h = (.ok c, log)) (queries : List String) (profiled json : Bool) :
    ∃ s : Schedule, s.Complete (batch profiled queries) ∧
      Session.AnsweredBy c h.surroundings queries s ∧
      run h connection (.query queries profiled json) =
        ending (Pool.run c { log } (s.events (batch profiled queries)))
          (queries.map fun q => c.request h.surroundings.now q .instant) profiled json
          h.surroundings.latency (s.deliveries c queries) := by
  have hrun : run h connection (.query queries profiled json) =
      runQuery h.surroundings c (({} : Session).logged log) queries profiled json := by
    simp only [run, hc]
  have hanswered : Session.AnsweredBy c h.surroundings ((batch profiled queries).map Prod.fst)
      (Session.schedule c h.surroundings (batch profiled queries) (({} : Session).logged log)) :=
    Session.answeredBy_schedule rfl
  rw [Pool.map_fst_batch] at hanswered
  rw [hrun, runQuery_eq]
  exact ⟨_, Session.complete_schedule rfl, hanswered, rfl⟩

/-- A query command with valid settings, whatever the backend replies and in whatever order its
queries come to their end: the handle of each query gives what the reply to that query makes, and
the command tells what the handles gave, in the order of the queries. What a command does on a host
is one of these cases, in which the backend answers the queries one after another. -/
theorem query_reports {h : Host} {connection : Connection}
    (hc : connection.context h = (.ok c, log)) (queries : List String) (profiled json : Bool) :
    (∀ s : Schedule, s.Complete (batch profiled queries) → ∀ sent latency,
      (∀ i q, queries[i]? = some q →
        (Pool.run c { log } (s.events (batch profiled queries))).given i = [s.delivery c i q]) ∧
      Reports profiled json latency queries (s.deliveries c queries)
        (ending (Pool.run c { log } (s.events (batch profiled queries))) sent profiled json latency
          (s.deliveries c queries))) ∧
    ∃ s : Schedule, s.Complete (batch profiled queries) ∧
      Session.AnsweredBy c h.surroundings queries s ∧
      run h connection (.query queries profiled json) =
        ending (Pool.run c { log } (s.events (batch profiled queries)))
          (queries.map fun q => c.request h.surroundings.now q .instant) profiled json
          h.surroundings.latency (s.deliveries c queries) := by
  refine ⟨fun s hs sent latency => ⟨fun i q hq => ?_, reports_complete hs sent json latency⟩, ?_⟩
  · have hbatch : ((batch profiled queries).map Prod.fst)[i]? = some q := by
      rw [Pool.map_fst_batch]
      exact hq
    rw [List.getElem?_map, Option.map_eq_some_iff] at hbatch
    obtain ⟨⟨q', label⟩, hq', rfl⟩ := hbatch
    exact (Pool.given_complete hs (fun _ _ h => absurd h List.not_mem_nil) rfl hq').1
  · exact run_query hc queries profiled json

/-- A host without files on which nothing answers. -/
def quietHost : Host :=
  ⟨fun _ => .error "no such file", fun _ => none, ⟨.unreachable, .epoch, .zero⟩⟩

/-- A reply that never came. -/
def noReply : Reply := .error ⟨"connection refused", none⟩

/-- Of two queries the second one ends first, and neither gets through. -/
def reversed : Schedule where
  turns _ := ⟨.epoch, []⟩
  rest := [.settle 1 noReply, .time 1 .zero, .deliver 1, .settle 0 noReply, .time 0 .zero,
    .deliver 0, .read 0, .read 1]
  replies _ := noReply

theorem complete_reversed : reversed.Complete (batch true ["up", "down"]) where
  meanwhile i e he := absurd he List.not_mem_nil
  rest e he := by
    simp only [reversed, List.mem_cons, List.not_mem_nil, or_false] at he
    rcases he with rfl | rfl | rfl | rfl | rfl | rfl | rfl | rfl <;> constructor
  fate i hi := by
    match i, hi with
    | 0, _ => rfl
    | 1, _ => rfl
  course i hi := by
    match i, hi with
    | 0, _ =>
      exact ⟨.zero, .cons _ (.cons _ (.cons _ (.cons _ (.cons_cons _ (.cons_cons _ (.cons_cons _
        (.cons_cons _ (.cons _ .slnil))))))))⟩
    | 1, _ =>
      exact ⟨.zero, .cons_cons _ (.cons_cons _ (.cons_cons _ (.cons _ (.cons _ (.cons _ (.cons _
        (.cons_cons _ .slnil)))))))⟩

/-- The command fails with both queries, which it prints in the order in which they are given, and
exposes the latency of each. -/
theorem query_reports_reversed :
    ∃ c log, ({} : Connection).context quietHost = (.ok c, log) ∧
      Reports true false .zero ["up", "down"] (reversed.deliveries c ["up", "down"])
        (ending (Pool.run c { log } (reversed.events (batch true ["up", "down"]))) [] true false
          .zero (reversed.deliveries c ["up", "down"])) ∧
      (ending (Pool.run c { log } (reversed.events (batch true ["up", "down"]))) [] true false
        .zero (reversed.deliveries c ["up", "down"])).exitCode = 1 := by
  have hvalid : (({} : Connection).context quietHost).1.isOk = true := by decide +kernel
  cases hc : ({} : Connection).context quietHost with
  | mk r log =>
    rw [hc] at hvalid
    cases r with
    | error e => cases hvalid
    | ok c =>
      have hreports := ((query_reports hc ["up", "down"] true false).1 reversed complete_reversed
        [] .zero).2
      refine ⟨c, log, rfl, hreports, (hreports.failed fun he => ?_).1⟩
      have hfault : (reversed.delivery c 0 "up").fault = none :=
        hreports.exitCode.mp he _ List.mem_cons_self
      cases hfault

end MetricsQuery.Command
